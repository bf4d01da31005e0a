import EncryptionGateway.Foundation.Outcome
import EncryptionGateway.Foundation.Splitting
import EncryptionGateway.JavaScript.Json
import EncryptionGateway.JavaScript.Url

/-!
# Target policy

The allow-lists of `TargetPolicy`: how their entries are read at startup, and
the test of a method and a URL against the rules. A refused entry is the text of
the error that stops the startup.
-/

namespace EncryptionGateway.Proxy

open JavaScript Foundation

def ALLOWED_METHODS : List String := ["GET", "POST", "PUT", "PATCH", "DELETE"]

/-- `*` stands for any allowed method; the path is exact unless `isPrefix`. -/
structure Rule where
  method : String
  host : String
  path : String
  isPrefix : Bool
  source : String
deriving DecidableEq

namespace TargetPolicy

def splitList (raw : String) : List String := ((split raw ',').map trim).filter fun e => e ≠ ""

def configError (variable_ entry why : String) : String :=
  variable_ ++ ": invalid entry \"" ++ entry ++ "\" — " ++ why

/-! ## Hosts -/

def isHostChar (c : Char) : Bool := c.isAlphanum || c = '.' || c = '-'

/-- The class `[0-9a-f:.]` in both cases. -/
def isAddressChar (c : Char) : Bool :=
  c.isDigit || ('a' ≤ c && c ≤ 'f') || ('A' ≤ c && c ≤ 'F') || c = ':' || c = '.'

/-- `(:\d{1,5})?$`. -/
def isPortSuffix (l : List Char) : Bool :=
  match l with
  | [] => true
  | c :: ds => c = ':' && 1 ≤ ds.length && ds.length ≤ 5 && ds.all Char.isDigit

/-- `/^[a-z0-9.-]+(:\d{1,5})?$|^\[[0-9a-f:.]+\](:\d{1,5})?$/i.test(host)`. -/
def isHostText (host : String) : Bool :=
  match host.toList with
  | '[' :: rest =>
      match rest.dropWhile isAddressChar with
      | ']' :: port => rest.takeWhile isAddressChar ≠ [] && isPortSuffix port
      | _ => false
  | l => l.takeWhile isHostChar ≠ [] && isPortSuffix (l.dropWhile isHostChar)

/-- `host.replace(/:(443|80)$/, '')`. -/
def dropDefaultPort (l : List Char) : List Char :=
  if ":443".toList.isSuffixOf l then l.take (l.length - 4)
  else if ":80".toList.isSuffixOf l then l.take (l.length - 3)
  else l

def assertHost (variable_ entry host : String) : Except String String := do
  require (!includes host "://") (configError variable_ entry "remove the scheme (https://)")
  require (isHostText host) (configError variable_ entry "expected host or host:port")
  .ok (String.ofList (dropDefaultPort (toLowerCase host).toList))

def parseHostEntry (entry : String) : Except String Rule := do
  require (!includes entry "://")
    (configError "ALLOWED_TARGET_HOSTS" entry "remove the scheme (https://)")
  require (!includes entry "/")
    (configError "ALLOWED_TARGET_HOSTS" entry "hosts only — put paths in ALLOWED_ROUTES")
  let host ← assertHost "ALLOWED_TARGET_HOSTS" entry entry
  .ok { method := "*", host := host, path := "/", isPrefix := true, source := entry }

/-! ## Routes -/

/-- `l.split(/\s+/)`: a piece ends where a run of white space starts. -/
def splitBlanks : List Char → List (List Char)
  | [] => [[]]
  | c :: rest =>
      if isSpace c then
        if (rest.head?.map isSpace).getD false then splitBlanks rest else [] :: splitBlanks rest
      else (splitBlanks rest).modifyHead (c :: ·)

/-- The method and the target of an entry, if it has at most two parts. -/
def readRoute (entry : String) : Option (String × List Char) :=
  match splitBlanks entry.toList with
  | [target] => some ("*", target)
  | [method, target] => some (toUpperCase (String.ofList method), target)
  | _ => none

/-- What is before the first slash of a target. -/
def routeHost (target : List Char) : List Char := target.takeWhile fun c => c ≠ '/'

/-- What starts at the first slash of a target. -/
def routePath (target : List Char) : List Char := target.dropWhile fun c => c ≠ '/'

/-- The written path without the final `*`, and whether it had one. -/
def readPath (rawPath : List Char) : List Char × Bool :=
  if rawPath.getLast? = some '*' then (rawPath.dropLast, true) else (rawPath, false)

def parseRouteEntry (parseUrl : UrlParser) (entry : String) : Except String Rule :=
  match readRoute entry with
  | none => .error (configError "ALLOWED_ROUTES" entry "expected \"[METHOD] host/path\"")
  | some (method, target) => do
      require (method = "*" || ALLOWED_METHODS.contains method)
        (configError "ALLOWED_ROUTES" entry
          ("method must be one of " ++ "/".intercalate ALLOWED_METHODS ++ " or *"))
      require (!includes (String.ofList target) "://")
        (configError "ALLOWED_ROUTES" entry "remove the scheme (https://)")
      require (routeHost target ≠ [] && routePath target ≠ [])
        (configError "ALLOWED_ROUTES" entry "expected host/path, e.g. api.example.com/api/*")
      let host ← assertHost "ALLOWED_ROUTES" entry (String.ofList (routeHost target))
      require (!(routePath target).dropLast.contains '*')
        (configError "ALLOWED_ROUTES" entry "`*` is only allowed at the end")
      let (path, isPrefix) := readPath (routePath target)
      -- dot segments are resolved the way incoming URLs are parsed
      match parseUrl ("https://x" ++ String.ofList path) with
      | none => .error "Invalid URL"
      | some url =>
          .ok { method := method, host := host, path := url.pathname, isPrefix := isPrefix,
                source := entry }

/-! ## The rules -/

/-- `/%2f|%5c/i.test(pathname)`. -/
def hasEncodedSlash : List Char → Bool
  | '%' :: a :: b :: rest =>
      (a = '2' && (b = 'f' || b = 'F')) || (a = '5' && (b = 'c' || b = 'C')) ||
        hasEncodedSlash (a :: b :: rest)
  | _ :: rest => hasEncodedSlash rest
  | [] => false

theorem hasEncodedSlash_cons {c : Char} {rest : List Char}
    (h : hasEncodedSlash (c :: rest) = false) :
    hasEncodedSlash rest = false := by
  unfold hasEncodedSlash at h
  split at h
  · next a b more heq =>
      obtain ⟨-, rfl⟩ := List.cons.inj heq
      simpa using (Bool.or_eq_false_iff.mp h).2
  · next heq =>
      obtain ⟨-, rfl⟩ := List.cons.inj heq
      exact h
  · next heq => cases heq

theorem hasEncodedSlash_append {l : List Char} (more : List Char) (h : hasEncodedSlash l = true) :
    hasEncodedSlash (l ++ more) = true := by
  induction l using hasEncodedSlash.induct with
  | case1 a b rest ih =>
      rw [hasEncodedSlash, Bool.or_eq_true] at h
      rw [List.cons_append, List.cons_append, List.cons_append, hasEncodedSlash, Bool.or_eq_true]
      exact h.imp_right ih
  | case2 c rest hno ih =>
      rw [hasEncodedSlash] at h
      · by_contra hcons
        have hrest := hasEncodedSlash_cons (Bool.eq_false_iff.mpr hcons)
        exact Bool.false_ne_true (hrest.symm.trans (ih h))
      · exact hno
  | case3 => cases h

/-- No part of a path without encoded slashes has one. -/
theorem hasEncodedSlash_of_part {l l' : List Char} (hs : l' <:+: l)
    (h : hasEncodedSlash l = false) : hasEncodedSlash l' = false := by
  obtain ⟨before, after, rfl⟩ := hs
  by_contra hl'
  rw [Bool.not_eq_false] at hl'
  rw [List.append_assoc] at h
  have hsuffix : hasEncodedSlash (l' ++ after) = false := by
    induction before with
    | nil => exact h
    | cons c before ih => exact ih (hasEncodedSlash_cons h)
  rw [hasEncodedSlash_append after hl'] at hsuffix
  cases hsuffix

/-- The two characters after `%` that spell a slash or a backslash. -/
def EncodesSeparator (a b : Char) : Prop :=
  (a = '2' ∧ (b = 'f' ∨ b = 'F')) ∨ (a = '5' ∧ (b = 'c' ∨ b = 'C'))

theorem not_encodesSeparator {before after : List Char} {a b : Char}
    (h : hasEncodedSlash (before ++ '%' :: a :: b :: after) = false) : ¬ EncodesSeparator a b := by
  have hpart : hasEncodedSlash ['%', a, b] = false :=
    hasEncodedSlash_of_part ⟨before, after, by simp⟩ h
  simp only [hasEncodedSlash, Bool.or_eq_false_iff, Bool.and_eq_false_iff, decide_eq_false_iff_not]
    at hpart
  unfold EncodesSeparator
  tauto

/-- Prefix rules only match whole path segments. -/
def matchesPath (rule : Rule) (pathname : String) : Bool :=
  if !rule.isPrefix then pathname = rule.path
  else if rule.path = "/" then true
  else if pathname = rule.path then true
  else
    startsWith pathname
      (if "/".toList.isSuffixOf rule.path.toList then rule.path else rule.path ++ "/")

/-- A rule that lets a method and URL pass. -/
def admits (method : String) (url : Url) (rule : Rule) : Bool :=
  rule.host = toLowerCase url.host && (rule.method = "*" || rule.method = method) &&
    matchesPath rule url.pathname

end TargetPolicy

/-- The rules of both lists. -/
structure TargetPolicy where
  rules : List Rule

namespace TargetPolicy

/-- The constructor. -/
def create (parseUrl : UrlParser) (allowedHosts allowedRoutes : String) :
    Except String TargetPolicy := do
  let hosts ← (splitList allowedHosts).mapM parseHostEntry
  let routes ← (splitList allowedRoutes).mapM (parseRouteEntry parseUrl)
  .ok ⟨hosts ++ routes⟩

/-- Rejects with 400 unless `method url` matches a rule. -/
def assertAllowed (policy : TargetPolicy) (method : String) (url : Url) :
    Except HttpException Unit := do
  -- an upstream could decode encoded slashes into further path segments
  require (!hasEncodedSlash url.pathname.toList)
    (badRequest "AccessPoint path must not contain encoded slashes")
  require (policy.rules.any (admits method url))
    (badRequest ("Target \"" ++ method ++ " " ++ toLowerCase url.host ++ url.pathname ++
      "\" is not in the allowed list"))

/-- A rule read from an entry of one of the lists. -/
def Configured (parseUrl : UrlParser) (allowedHosts allowedRoutes : String) (rule : Rule) : Prop :=
  (∃ entry ∈ splitList allowedHosts, parseHostEntry entry = .ok rule) ∨
    ∃ entry ∈ splitList allowedRoutes, parseRouteEntry parseUrl entry = .ok rule

theorem configured_iff {parseUrl : UrlParser} {allowedHosts allowedRoutes : String}
    {policy : TargetPolicy} (h : create parseUrl allowedHosts allowedRoutes = .ok policy)
    {rule : Rule} : rule ∈ policy.rules ↔ Configured parseUrl allowedHosts allowedRoutes rule := by
  obtain ⟨hosts, hhosts, h⟩ := bind_eq_ok.mp h
  obtain ⟨routes, hroutes, h⟩ := bind_eq_ok.mp h
  cases h
  rw [mapM_eq_ok] at hhosts hroutes
  rw [List.mem_append, mem_iff_of_forall₂ hhosts, mem_iff_of_forall₂ hroutes, Configured]

theorem admits_iff {method : String} {url : Url} {rule : Rule} :
    admits method url rule = true ↔ rule.host = toLowerCase url.host ∧
      (rule.method = "*" ∨ rule.method = method) ∧ matchesPath rule url.pathname = true := by
  simp [admits, and_assoc]

theorem assertAllowed_eq_ok {policy : TargetPolicy} {method : String} {url : Url} {u : Unit} :
    policy.assertAllowed method url = .ok u ↔
      hasEncodedSlash url.pathname.toList = false ∧
        ∃ rule ∈ policy.rules, admits method url rule = true := by
  simp [assertAllowed, bind_eq_ok]

end TargetPolicy

end EncryptionGateway.Proxy
