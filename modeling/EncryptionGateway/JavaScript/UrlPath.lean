import EncryptionGateway.JavaScript.Url
import Mathlib.Data.List.DropRight

/-!
# The path of a URL

How a parser reads what follows the host of an `https` URL: which part of the
text is the path, and how its segments are encoded and resolved.

## Implementation notes

This is the path state of the URL standard for a special scheme, run to its end.
The parser as a whole stays a parameter; `ReadsPaths` says that it agrees with
the definitions here.
-/

namespace EncryptionGateway.JavaScript

namespace UrlPath

/-- What is removed from both ends of the input. -/
def isControlOrSpace (c : Char) : Bool := c.toNat ≤ 0x20

/-- What is removed anywhere in the input. -/
def isTabOrNewline (c : Char) : Bool := c = '\t' || c = '\n' || c = '\r'

/-- Where the query or the fragment starts. -/
def endsPath (c : Char) : Bool := c = '?' || c = '#'

/-- The part of the text that is read as path. -/
def pathText (text : List Char) : List Char :=
  ((text.rdropWhile isControlOrSpace).filter fun c => !isTabOrNewline c).takeWhile
    fun c => !endsPath c

/-- The path percent-encode set. -/
def isEncoded (c : Char) : Bool :=
  c.toNat ≤ 0x1f || 0x7e < c.toNat ||
    [' ', '"', '#', '<', '>', '?', '^', '`', '\x7b', '\x7d'].contains c

def upperHexDigit (n : ℕ) : Char := if n < 10 then Char.ofNat (48 + n) else Char.ofNat (55 + n)

def percentEncode (b : UInt8) : List Char :=
  ['%', upperHexDigit (b.toNat / 16), upperHexDigit (b.toNat % 16)]

def encodeChar (c : Char) : List Char :=
  if isEncoded c then (String.utf8EncodeChar c).flatMap percentEncode else [c]

def isSingleDot (segment : List Char) : Bool :=
  [".", "%2e"].contains (String.ofList (segment.map Char.toLower))

def isDoubleDot (segment : List Char) : Bool :=
  ["..", ".%2e", "%2e.", "%2e%2e"].contains (String.ofList (segment.map Char.toLower))

/-- The segments of a path resolved after those of `path`; a dot segment at the
end leaves an empty one. -/
def resolve (path : List (List Char)) : List (List Char) → List (List Char)
  | [] => path
  | [last] =>
      if isDoubleDot last then path.dropLast ++ [[]]
      else if isSingleDot last then path ++ [[]]
      else path ++ [last]
  | segment :: rest =>
      if isDoubleDot segment then resolve path.dropLast rest
      else if isSingleDot segment then resolve path rest
      else resolve (path ++ [segment]) rest

/-- The slashes of a special scheme. -/
def isSlash (c : Char) : Bool := c = '/' || c = '\\'

/-- The path name of a text that starts with a slash, all of it read as path. -/
def pathnameOf (text : List Char) : String :=
  let written := (text.tail.splitOnP isSlash).map fun segment => segment.flatMap encodeChar
  String.ofList ((resolve [] written).flatMap fun segment => '/' :: segment)

end UrlPath

/-- The parser reads the path after a plain host as the standard says. -/
def ReadsPaths (parseUrl : UrlParser) : Prop :=
  ∀ text : List Char, text.head? = some '/' → ∃ url,
    parseUrl ("https://x" ++ String.ofList text) = some url ∧
      url.pathname = UrlPath.pathnameOf (UrlPath.pathText text)

namespace UrlPath

/-- A text is path to its end when nothing in it starts a query or a fragment
and its last character is not removed. -/
theorem pathText_eq_self {text : List Char} (hplain : ∀ c ∈ text, isTabOrNewline c = false) :
    pathText text = text ↔ (∀ c ∈ text, endsPath c = false) ∧
      ∀ c, text.getLast? = some c → isControlOrSpace c = false := by
  constructor
  · intro h
    have hends : ∀ c ∈ text, endsPath c = false := by
      intro c hc
      rw [← h] at hc
      simpa using List.mem_takeWhile_imp hc
    have hlength : text.length ≤ (text.rdropWhile isControlOrSpace).length := by
      have hcut := (List.takeWhile_prefix (fun c => !endsPath c)
        (l := (text.rdropWhile isControlOrSpace).filter fun c => !isTabOrNewline c)).length_le
      rw [← pathText, h] at hcut
      exact hcut.trans (List.length_filter_le _ _)
    have hwhole := (List.rdropWhile_prefix isControlOrSpace text).eq_of_length_le hlength
    refine ⟨hends, fun c hc => ?_⟩
    have hne : text ≠ [] := by
      rintro rfl
      cases hc
    obtain rfl := Option.some.inj ((List.getLast?_eq_some_getLast hne).symm.trans hc)
    exact Bool.eq_false_iff.mpr (List.rdropWhile_eq_self_iff.mp hwhole hne)
  · rintro ⟨hends, hlast⟩
    have hwhole : text.rdropWhile isControlOrSpace = text := by
      refine List.rdropWhile_eq_self_iff.mpr fun hne => ?_
      exact Bool.eq_false_iff.mp (hlast _ (List.getLast?_eq_some_getLast hne))
    rw [pathText, hwhole, List.filter_eq_self.mpr fun c hc => by simp [hplain c hc],
      List.takeWhile_eq_self_iff.mpr fun c hc => by simp [hends c hc]]

end UrlPath

end EncryptionGateway.JavaScript
