import Mathlib.Data.Nat.Digits.Defs
import Mathlib.Tactic

/-!
# Numerals

Texts of digits in a base up to sixteen, with letters in either case. A numeral
determines its value, and the value determines the numeral up to the case of
letters and zeros in front; `Nat.toDigits` is the one without.
-/

namespace EncryptionGateway.Foundation.Numeral

/-- The value of a digit; sixteen for a character that is none. -/
def digit (c : Char) : ℕ :=
  if 48 ≤ c.toNat ∧ c.toNat ≤ 57 then c.toNat - 48
  else if 97 ≤ c.toNat ∧ c.toNat ≤ 102 then c.toNat - 87
  else if 65 ≤ c.toNat ∧ c.toNat ≤ 70 then c.toNat - 55
  else 16

/-- The number a text of digits spells. -/
def value (b : ℕ) (l : List Char) : ℕ := l.foldl (fun acc c => b * acc + digit c) 0

/-- A non-empty text of digits. -/
structure IsNumeral (b : ℕ) (l : List Char) : Prop where
  ne_nil : l ≠ []
  digits : ∀ c ∈ l, digit c < b

theorem isNumeral_of_all {b : ℕ} {l : List Char} (hne : l ≠ [])
    (h : (l.all fun c => digit c < b) = true) : IsNumeral b l :=
  ⟨hne, by simpa using h⟩

section Digits

variable {c : Char} {n : ℕ}

/-- What holds of every ASCII character is checked on their codes. -/
theorem ascii_cases {P : Char → Prop} (h : ∀ n : Fin 128, P (Char.ofNat n)) {c : Char}
    (hc : c.toNat < 128) : P c := by
  have hcode := h ⟨c.toNat, hc⟩
  rwa [Char.ofNat_toNat] at hcode

theorem toNat_lt_of_digit (h : digit c < 16) : c.toNat < 128 := by
  unfold digit at h
  split_ifs at h <;> omega

/-- A digit is the character of its value, but for the case of letters. -/
theorem digitChar_digit (h : digit c < 16) : Nat.digitChar (digit c) = c.toLower := by
  have hall := ascii_cases (P := fun c => digit c < 16 → Nat.digitChar (digit c) = c.toLower)
    (by decide) (toNat_lt_of_digit h)
  exact hall h

theorem digit_digitChar (h : n < 16) : digit (Nat.digitChar n) = n := by
  have hall : ∀ n : Fin 16, digit (Nat.digitChar n) = n := by decide
  exact hall ⟨n, h⟩

/-- Only a zero has the value zero. -/
theorem eq_zero_of_digit (h : digit c = 0) : c = '0' := by
  have hcode : c.toNat = '0'.toNat := by
    change c.toNat = 48
    unfold digit at h
    split_ifs at h <;> omega
  exact Char.toNat_inj.mp hcode

theorem toLower_of_digit (h : digit c < 10) : c.toLower = c := by
  have hlt : digit c < 16 := by omega
  have hall := ascii_cases (P := fun c => digit c < 10 → c.toLower = c) (by decide)
    (toNat_lt_of_digit hlt)
  exact hall h

end Digits

section Values

variable {b : ℕ}

theorem value_zero_cons (b : ℕ) (l : List Char) : value b ('0' :: l) = value b l := rfl

theorem value_append_singleton (b : ℕ) (l : List Char) (c : Char) :
    value b (l ++ [c]) = b * value b l + digit c := by
  rw [value, List.foldl_append]
  rfl

theorem value_lt {l : List Char} (hl : ∀ c ∈ l, digit c < b) : value b l < b ^ l.length := by
  induction l using List.reverseRecOn with
  | nil => exact Nat.one_pos
  | append_singleton l c ih =>
      rw [List.forall_mem_append, List.forall_mem_singleton] at hl
      have hfront : b * (value b l + 1) ≤ b * b ^ l.length := Nat.mul_le_mul_left b (ih hl.1)
      rw [value_append_singleton, List.length_append, List.length_singleton, pow_succ']
      rw [Nat.mul_add, Nat.mul_one] at hfront
      omega

/-- A change of the digits that keeps what each stands for. -/
theorem value_map (b : ℕ) {f : Char → Char} {l : List Char}
    (h : ∀ c ∈ l, digit (f c) = digit c) : value b (l.map f) = value b l := by
  induction l using List.reverseRecOn with
  | nil => rfl
  | append_singleton l c ih =>
      rw [List.forall_mem_append, List.forall_mem_singleton] at h
      rw [List.map_append, List.map_singleton, value_append_singleton, value_append_singleton,
        ih h.1, h.2]

/-- Further digits are appended to those read before. -/
theorem toDigits_foldl (hb : 1 < b) (hb' : b ≤ 16) {l : List Char} (hl : ∀ c ∈ l, digit c < b)
    {acc : ℕ} (hpos : 0 < acc) :
    Nat.toDigits b (l.foldl (fun acc c => b * acc + digit c) acc) =
      Nat.toDigits b acc ++ l.map Char.toLower := by
  induction l generalizing acc with
  | nil => simp
  | cons c rest ih =>
      rw [List.forall_mem_cons] at hl
      have hbig : 0 < b * acc + digit c := Nat.add_pos_left (Nat.mul_pos (by omega) hpos) _
      have hdigit : Nat.toDigits b (digit c) = [c.toLower] := by
        rw [Nat.toDigits_of_lt_base hl.1, digitChar_digit (by omega)]
      rw [List.foldl_cons, ih hl.2 hbig, ← Nat.toDigits_append_toDigits hb hpos hl.1, hdigit,
        List.append_assoc, List.map_cons, List.singleton_append]

/-- A numeral without a zero in front is the numeral of its value. -/
theorem toDigits_value (hb : 1 < b) (hb' : b ≤ 16) {c : Char} {rest : List Char}
    (hl : ∀ d ∈ c :: rest, digit d < b) (hfirst : c ≠ '0' ∨ rest = []) :
    Nat.toDigits b (value b (c :: rest)) = (c :: rest).map Char.toLower := by
  rw [List.forall_mem_cons] at hl
  have hdigit : Nat.toDigits b (digit c) = [c.toLower] := by
    rw [Nat.toDigits_of_lt_base hl.1, digitChar_digit (by omega)]
  rw [value, List.foldl_cons, Nat.mul_zero, Nat.zero_add, List.map_cons]
  rcases hfirst with hc | rfl
  · have hpos : 0 < digit c := Nat.pos_of_ne_zero fun h => hc (eq_zero_of_digit h)
    rw [toDigits_foldl hb hb' hl.2 hpos, hdigit, List.singleton_append]
  · exact hdigit

theorem mem_toDigits (hb : 1 < b) {n : ℕ} {c : Char} (hc : c ∈ Nat.toDigits b n) :
    ∃ d < b, c = Nat.digitChar d := by
  induction n using Nat.strong_induction_on with
  | h n ih =>
      by_cases hlt : n < b
      · rw [Nat.toDigits_of_lt_base hlt, List.mem_singleton] at hc
        exact ⟨n, hlt, hc⟩
      · rw [Nat.toDigits_of_base_le hb (not_lt.mp hlt), List.mem_append, List.mem_singleton] at hc
        rcases hc with hc | hc
        · exact ih (n / b) (Nat.div_lt_self (by omega) hb) hc
        · exact ⟨n % b, Nat.mod_lt n (by omega), hc⟩

theorem isNumeral_toDigits (hb : 1 < b) (hb' : b ≤ 16) (n : ℕ) :
    IsNumeral b (Nat.toDigits b n) := by
  refine ⟨Nat.toDigits_ne_nil, fun c hc => ?_⟩
  obtain ⟨d, hd, rfl⟩ := mem_toDigits hb hc
  rw [digit_digitChar (by omega)]
  exact hd

theorem value_toDigits (hb : 1 < b) (hb' : b ≤ 16) (n : ℕ) : value b (Nat.toDigits b n) = n := by
  induction n using Nat.strong_induction_on with
  | h n ih =>
      by_cases hlt : n < b
      · rw [Nat.toDigits_of_lt_base hlt, value, List.foldl_cons, List.foldl_nil,
          digit_digitChar (by omega), Nat.mul_zero, Nat.zero_add]
      · have hmod := Nat.mod_lt n (show 0 < b by omega)
        have hfront := ih (n / b) (Nat.div_lt_self (by omega) hb)
        rw [value] at hfront
        rw [Nat.toDigits_of_base_le hb (not_lt.mp hlt), value, List.foldl_append, hfront,
          List.foldl_cons, List.foldl_nil, digit_digitChar (by omega)]
        exact Nat.div_add_mod n b

theorem toDigits_injective (hb : 1 < b) (hb' : b ≤ 16) {m n : ℕ}
    (h : Nat.toDigits b m = Nat.toDigits b n) : m = n := by
  rw [← value_toDigits hb hb' m, h, value_toDigits hb hb']

end Values

end EncryptionGateway.Foundation.Numeral
