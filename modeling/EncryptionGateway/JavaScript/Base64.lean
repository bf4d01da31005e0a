import Mathlib.Tactic

/-!
# Base64

`toString('base64')` and the lenient `Buffer.from(s, 'base64')`: decoding stops
at the first `=`, accepts the URL-safe alphabet and skips every other
character.
-/

namespace EncryptionGateway.JavaScript

abbrev Bytes := List UInt8

namespace Base64

/-- The digit of a six-bit group. -/
def sextetChar (n : Nat) : Char :=
  if n < 26 then Char.ofNat (65 + n)
  else if n < 52 then Char.ofNat (71 + n)
  else if n < 62 then Char.ofNat (n - 4)
  else if n = 62 then '+' else '/'

/-- The group a digit stands for; `none` for a character that is skipped. -/
def charSextet (c : Char) : Option Nat :=
  if 'A' ≤ c ∧ c ≤ 'Z' then some (c.toNat - 65)
  else if 'a' ≤ c ∧ c ≤ 'z' then some (c.toNat - 71)
  else if '0' ≤ c ∧ c ≤ '9' then some (c.toNat + 4)
  else if c = '+' ∨ c = '-' then some 62
  else if c = '/' ∨ c = '_' then some 63
  else none

def encodeChars : Bytes → List Char
  | [] => []
  | [a] => [sextetChar (a.toNat / 4), sextetChar (a.toNat % 4 * 16), '=', '=']
  | [a, b] =>
      [sextetChar (a.toNat / 4), sextetChar (a.toNat % 4 * 16 + b.toNat / 16),
        sextetChar (b.toNat % 16 * 4), '=']
  | a :: b :: c :: rest =>
      sextetChar (a.toNat / 4) :: sextetChar (a.toNat % 4 * 16 + b.toNat / 16) ::
        sextetChar (b.toNat % 16 * 4 + c.toNat / 64) :: sextetChar (c.toNat % 64) ::
        encodeChars rest

/-- Four groups make three bytes; a shorter tail makes what it can. -/
def bytesOf : List Nat → Bytes
  | p :: q :: r :: s :: rest =>
      UInt8.ofNat (p * 4 + q / 16) :: UInt8.ofNat (q % 16 * 16 + r / 4) ::
        UInt8.ofNat (r % 4 * 64 + s) :: bytesOf rest
  | [p, q, r] => [UInt8.ofNat (p * 4 + q / 16), UInt8.ofNat (q % 16 * 16 + r / 4)]
  | [p, q] => [UInt8.ofNat (p * 4 + q / 16)]
  | _ => []

def sextets (l : List Char) : List Nat :=
  (l.takeWhile fun c => decide (c ≠ '=')).filterMap charSextet

/-- `bytes.toString('base64')`. -/
def encode (bs : Bytes) : String := String.ofList (encodeChars bs)

/-- `Buffer.from(s, 'base64')`. -/
def decode (s : String) : Bytes := bytesOf (sextets s.toList)

private theorem sextetChar_spec :
    ∀ n : Fin 64, sextetChar n ≠ '=' ∧ charSextet (sextetChar n) = some n.1 := by
  decide

@[simp] theorem sextets_cons {n : Nat} (h : n < 64) (l : List Char) :
    sextets (sextetChar n :: l) = n :: sextets l := by
  obtain ⟨hne, hs⟩ := sextetChar_spec ⟨n, h⟩
  simp only at hne hs
  simp [sextets, hne, hs]

@[simp] theorem sextets_pad (l : List Char) : sextets ('=' :: l) = [] := by
  simp [sextets]

private theorem ofNat_eq (a : UInt8) {n : Nat} (h : n = a.toNat) : UInt8.ofNat n = a := by
  rw [h, UInt8.ofNat_toNat]

/-- Decoding undoes encoding. -/
theorem decode_encode (bs : Bytes) : decode (encode bs) = bs := by
  rw [decode, encode, String.toList_ofList]
  induction bs using encodeChars.induct with
  | case1 => rfl
  | case2 a =>
      have ha := a.toNat_lt
      rw [encodeChars, sextets_cons (by omega), sextets_cons (by omega), sextets_pad, bytesOf,
        ofNat_eq a (by omega)]
  | case3 a b =>
      have ha := a.toNat_lt
      have hb := b.toNat_lt
      rw [encodeChars, sextets_cons (by omega), sextets_cons (by omega), sextets_cons (by omega),
        sextets_pad, bytesOf, ofNat_eq a (by omega), ofNat_eq b (by omega)]
  | case4 a b c rest ih =>
      have ha := a.toNat_lt
      have hb := b.toNat_lt
      have hc := c.toNat_lt
      rw [encodeChars, sextets_cons (by omega), sextets_cons (by omega), sextets_cons (by omega),
        sextets_cons (by omega), bytesOf, ih, ofNat_eq a (by omega), ofNat_eq b (by omega),
        ofNat_eq c (by omega)]

theorem encodeChars_eq_nil {bs : Bytes} : encodeChars bs = [] ↔ bs = [] := by
  cases bs using encodeChars.induct <;> simp [encodeChars]

/-- Every character of an encoding is a digit or the padding. -/
theorem mem_encodeChars {bs : Bytes} {c : Char} (h : c ∈ encodeChars bs) :
    c = '=' ∨ ∃ n : Fin 64, c = sextetChar n := by
  have hdigit : ∀ {n : Nat}, n < 64 → ∃ m : Fin 64, sextetChar n = sextetChar m :=
    fun {n} hn => ⟨⟨n, hn⟩, rfl⟩
  induction bs using encodeChars.induct with
  | case1 => cases h
  | case2 a =>
      have ha := a.toNat_lt
      simp only [encodeChars, List.mem_cons, List.not_mem_nil, or_false] at h
      rcases h with rfl | rfl | h | h
      · exact Or.inr (hdigit (by omega))
      · exact Or.inr (hdigit (by omega))
      · exact Or.inl h
      · exact Or.inl h
  | case3 a b =>
      have ha := a.toNat_lt
      have hb := b.toNat_lt
      simp only [encodeChars, List.mem_cons, List.not_mem_nil, or_false] at h
      rcases h with rfl | rfl | rfl | h
      · exact Or.inr (hdigit (by omega))
      · exact Or.inr (hdigit (by omega))
      · exact Or.inr (hdigit (by omega))
      · exact Or.inl h
  | case4 a b d rest ih =>
      have ha := a.toNat_lt
      have hb := b.toNat_lt
      have hd := d.toNat_lt
      simp only [encodeChars, List.mem_cons] at h
      rcases h with rfl | rfl | rfl | rfl | h
      · exact Or.inr (hdigit (by omega))
      · exact Or.inr (hdigit (by omega))
      · exact Or.inr (hdigit (by omega))
      · exact Or.inr (hdigit (by omega))
      · exact ih h

end Base64

end EncryptionGateway.JavaScript
