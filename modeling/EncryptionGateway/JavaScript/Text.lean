import EncryptionGateway.Foundation.Numerals
import Mathlib.Data.List.TakeWhile
import Mathlib.Tactic

/-!
# JavaScript string operations

The string functions the gateway calls, on sequences of Unicode characters.
`length` counts UTF-16 code units as JavaScript does.

## Implementation notes

The case mappings are exact on every character whose image is ASCII. The
gateway compares their results with ASCII text, and keeps them only for the
names of response headers, which are ASCII. So the remaining letters are left
as they are.
-/

namespace EncryptionGateway.JavaScript

/-- `s.length`: a character outside the basic plane takes two code units. -/
def length (s : String) : Nat :=
  (s.toList.map fun c => if c.toNat < 0x10000 then 1 else 2).sum

/-- The characters that `trim` and the class `\s` treat as white space. -/
def isSpace (c : Char) : Bool :=
  c = ' ' || (9 ≤ c.toNat && c.toNat ≤ 13) || c.toNat = 0xa0 || c.toNat = 0x1680 ||
    (0x2000 ≤ c.toNat && c.toNat ≤ 0x200a) || c.toNat = 0x2028 || c.toNat = 0x2029 ||
    c.toNat = 0x202f || c.toNat = 0x205f || c.toNat = 0x3000 || c.toNat = 0xfeff

def trimChars (l : List Char) : List Char :=
  ((l.dropWhile isSpace).reverse.dropWhile isSpace).reverse

/-- `s.trim()`. -/
def trim (s : String) : String := String.ofList (trimChars s.toList)

/-- Apart from `A`-`Z` only the Kelvin sign has an ASCII lower case. -/
def lowerChar (c : Char) : Char := if c.toNat = 0x212a then 'k' else c.toLower

/-- `s.toLowerCase()`. -/
def toLowerCase (s : String) : String := String.ofList (s.toList.map lowerChar)

/-- Sharp s, dotless i, long s and the Latin ligatures have ASCII upper cases. -/
def upperChar (c : Char) : List Char :=
  match c.toNat with
  | 0xdf => ['S', 'S']
  | 0x131 => ['I']
  | 0x17f => ['S']
  | 0xfb00 => ['F', 'F']
  | 0xfb01 => ['F', 'I']
  | 0xfb02 => ['F', 'L']
  | 0xfb03 => ['F', 'F', 'I']
  | 0xfb04 => ['F', 'F', 'L']
  | 0xfb05 => ['S', 'T']
  | 0xfb06 => ['S', 'T']
  | _ => [c.toUpper]

/-- `s.toUpperCase()`. -/
def toUpperCase (s : String) : String := String.ofList (s.toList.flatMap upperChar)

/-- `s.split(sep)` for a one-character separator. -/
def split (s : String) (sep : Char) : List String :=
  (s.toList.splitOn sep).map String.ofList

/-- `s.startsWith(pre)`. -/
def startsWith (s pre : String) : Bool := pre.toList.isPrefixOf s.toList

/-- `s.includes(part)`. -/
def includes (s part : String) : Bool := s.toList.tails.any part.toList.isPrefixOf

theorem append_cancel_left {pre a b : String} (h : pre ++ a = pre ++ b) : a = b := by
  have hl := congrArg String.toList h
  rw [String.toList_append, String.toList_append] at hl
  exact String.toList_inj.mp (List.append_cancel_left hl)

/-- Texts whose prefixes differ at a common position differ. -/
theorem append_ne_append {p q a b : String} {i : ℕ} (hp : i < p.toList.length)
    (hq : i < q.toList.length) (hne : p.toList[i]? ≠ q.toList[i]?) : p ++ a ≠ q ++ b := by
  intro h
  apply hne
  have hl : (p ++ a).toList[i]? = (q ++ b).toList[i]? := by rw [h]
  rw [String.toList_append, String.toList_append, List.getElem?_append_left hp,
    List.getElem?_append_left hq] at hl
  exact hl

@[simp] theorem toList_toLowerCase (s : String) :
    (toLowerCase s).toList = s.toList.map lowerChar := by
  simp [toLowerCase]

theorem startsWith_iff {s pre : String} : startsWith s pre = true ↔ pre.toList <+: s.toList := by
  simp [startsWith, List.isPrefixOf_iff_prefix]

theorem includes_iff {s part : String} : includes s part = true ↔ part.toList <:+: s.toList := by
  rw [includes, List.any_eq_true]
  constructor
  · rintro ⟨tail, htail, hprefix⟩
    exact List.infix_iff_prefix_suffix.mpr
      ⟨tail, List.isPrefixOf_iff_prefix.mp hprefix, (List.mem_tails _ _).mp htail⟩
  · intro h
    obtain ⟨tail, hprefix, hsuffix⟩ := List.infix_iff_prefix_suffix.mp h
    exact ⟨tail, (List.mem_tails _ _).mpr hsuffix, List.isPrefixOf_iff_prefix.mpr hprefix⟩

/-- Only capital letters and the Kelvin sign have another lower case. -/
theorem lowerChar_eq_self {c : Char} (h : c.toNat < 65 ∨ 90 < c.toNat) (hk : c.toNat ≠ 0x212a) :
    lowerChar c = c := by
  rw [lowerChar, if_neg hk]
  change dite (c.val ≥ 'A'.val ∧ c.val ≤ 'Z'.val) _ _ = c
  split
  · next hupper =>
      have hval : c.toNat = c.val.toNat := rfl
      have hA : 'A'.val.toNat = 65 := rfl
      have hZ : 'Z'.val.toNat = 90 := rfl
      simp only [UInt32.le_iff_toNat_le, ge_iff_le] at hupper
      omega
  · rfl

theorem lowerChar_of_digit {c : Char} (h : Foundation.Numeral.digit c < 16) :
    lowerChar c = c.toLower := by
  have hlt := Foundation.Numeral.toNat_lt_of_digit h
  rw [lowerChar, if_neg (by omega)]

theorem toNat_lt_of_isAlphanum {c : Char} (h : c.isAlphanum = true) : c.toNat < 128 := by
  have hval : c.toNat = c.val.toNat := rfl
  have hZ : 'Z'.val.toNat = 90 := rfl
  have hz : 'z'.val.toNat = 122 := rfl
  have h9 : '9'.val.toNat = 57 := rfl
  have h : ((decide (c.val ≥ 'A'.val ∧ c.val ≤ 'Z'.val) || (c.val ≥ 'a'.val && c.val ≤ 'z'.val)) ||
      (c.val ≥ '0'.val && c.val ≤ '9'.val)) = true := h
  simp only [Bool.or_eq_true, Bool.and_eq_true, decide_eq_true_eq, UInt32.le_iff_toNat_le,
    ge_iff_le] at h
  omega

section Trimming

variable {blanks blanks' t : List Char}

private theorem dropWhile_blanks (hb : ∀ c ∈ blanks, isSpace c = true)
    (ht : ∀ c ∈ t, isSpace c = false) : (blanks ++ t).dropWhile isSpace = t := by
  rw [List.dropWhile_append_of_pos hb]
  cases t with
  | nil => rfl
  | cons c t => exact List.dropWhile_cons_of_neg (by simp [ht c List.mem_cons_self])

theorem trimChars_surrounded (hb : ∀ c ∈ blanks, isSpace c = true)
    (hb' : ∀ c ∈ blanks', isSpace c = true) (ht : ∀ c ∈ t, isSpace c = false) :
    trimChars (blanks ++ t ++ blanks') = t := by
  have hback : ((t ++ blanks').reverse.dropWhile isSpace).reverse = t := by
    rw [List.reverse_append, dropWhile_blanks (by simpa using hb') (by simpa using ht),
      List.reverse_reverse]
  rw [trimChars, List.append_assoc, List.dropWhile_append_of_pos hb]
  cases t with
  | nil => rw [List.nil_append, List.dropWhile_eq_nil_iff.mpr hb']; rfl
  | cons c t =>
      rw [List.cons_append, List.dropWhile_cons_of_neg (by simp [ht c List.mem_cons_self])]
      exact hback

/-- What `trim` cuts off is white space. -/
theorem exists_trimChars (l : List Char) : ∃ blanks blanks', l = blanks ++ trimChars l ++ blanks' ∧
    (∀ c ∈ blanks, isSpace c = true) ∧ ∀ c ∈ blanks', isSpace c = true := by
  refine ⟨l.takeWhile isSpace, ((l.dropWhile isSpace).reverse.takeWhile isSpace).reverse,
    ?_, ?_, ?_⟩
  · rw [trimChars, List.append_assoc, ← List.reverse_append, List.takeWhile_append_dropWhile,
      List.reverse_reverse, List.takeWhile_append_dropWhile]
  · exact fun c hc => List.mem_takeWhile_imp hc
  · exact fun c hc => List.mem_takeWhile_imp (List.mem_reverse.mp hc)

theorem trimChars_blanks_append (hb : ∀ c ∈ blanks, isSpace c = true) (l : List Char) :
    trimChars (blanks ++ l) = trimChars l := by
  rw [trimChars, trimChars, List.dropWhile_append_of_pos hb]

theorem trimChars_append_blanks (hb : ∀ c ∈ blanks, isSpace c = true) (l : List Char) :
    trimChars (l ++ blanks) = trimChars l := by
  rw [trimChars, trimChars, List.dropWhile_append]
  by_cases hl : (l.dropWhile isSpace).isEmpty
  · rw [if_pos hl, List.dropWhile_eq_nil_iff.mpr hb, List.isEmpty_iff.mp hl]
  · rw [if_neg hl, List.reverse_append, List.dropWhile_append_of_pos fun c hc =>
      hb c (List.mem_reverse.mp hc)]

/-- Blanks are cut off in front of a text up to its first character. -/
theorem dropWhile_before {core : List Char} {first : Char} (hfirst : core.head? = some first)
    (hf : isSpace first = false) (before after : List Char) :
    (before ++ (core ++ after)).dropWhile isSpace =
      before.dropWhile isSpace ++ (core ++ after) := by
  obtain ⟨rest, rfl⟩ : ∃ rest, core = first :: rest := List.head?_eq_some_iff.mp hfirst
  rw [List.dropWhile_append]
  split
  · next hempty =>
      rw [List.isEmpty_iff.mp hempty, List.nil_append, List.cons_append,
        List.dropWhile_cons_of_neg (by simp [hf])]
  · rfl

/-- `s.trimEnd()`. -/
def trimEndChars (l : List Char) : List Char := (l.reverse.dropWhile isSpace).reverse

theorem trimChars_eq (l : List Char) : trimChars l = trimEndChars (l.dropWhile isSpace) := rfl

theorem mem_of_mem_trimEndChars {l : List Char} {c : Char} (h : c ∈ trimEndChars l) : c ∈ l :=
  List.mem_reverse.mp ((List.dropWhile_suffix isSpace).subset (List.mem_reverse.mp h))

/-- Behind a text they are cut off up to its last character. -/
theorem trimEndChars_after (core : List Char) {last : Char} (hlast : core.getLast? = some last)
    (hl : isSpace last = false) (before after : List Char) :
    trimEndChars (before ++ core ++ after) = before ++ core ++ trimEndChars after := by
  have hfirst : core.reverse.head? = some last := by rw [List.head?_reverse, hlast]
  rw [trimEndChars, List.reverse_append, List.reverse_append,
    dropWhile_before hfirst hl after.reverse before.reverse, List.reverse_append,
    List.reverse_append, List.reverse_reverse, List.reverse_reverse, trimEndChars]

end Trimming

end EncryptionGateway.JavaScript
