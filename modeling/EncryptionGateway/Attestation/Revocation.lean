import EncryptionGateway.Attestation.ChainOfTrust
import EncryptionGateway.Attestation.PolicyConfig
import EncryptionGateway.Foundation.Numerals
import EncryptionGateway.Foundation.Splitting
import EncryptionGateway.JavaScript.JsonPrinter

/-!
# Revoked serial numbers

The list of revoked serials and the serial of a certificate are normalised by
different code. Both give the numeral of the number, so that two spellings match
exactly when they spell the same number.
-/

namespace EncryptionGateway.Attestation

open JavaScript Foundation Common PolicyConfig AttestationService

/-- A hexadecimal spelling of the number: any case, any zeros in front. -/
def Spells (text : List Char) (n : ℕ) : Prop :=
  Numeral.IsNumeral 16 text ∧ Numeral.value 16 text = n

/-- An entry of the list: a spelling with colons anywhere in it, between blanks. -/
def EntrySpells (entry : String) (n : ℕ) : Prop :=
  ∃ blanks text blanks', entry.toList = blanks ++ text ++ blanks' ∧
    (∀ c ∈ blanks, isSpace c = true) ∧ (∀ c ∈ blanks', isSpace c = true) ∧
    Spells (text.filter fun c => c ≠ ':') n

section Normalising

/-- Digits of serials are no white space, and end no line in lower case. -/
theorem plain_of_digit {c : Char} (h : Numeral.digit c < 16) :
    isSpace c = false ∧ ¬ (c.toLower = '\n' ∨ c.toLower = '\r' ∨ c.toLower.toNat = 0x2028 ∨
      c.toLower.toNat = 0x2029) := by
  have hall := Numeral.ascii_cases (P := fun c => Numeral.digit c < 16 → isSpace c = false ∧
      ¬ (c.toLower = '\n' ∨ c.toLower = '\r' ∨ c.toLower.toNat = 0x2028 ∨
        c.toLower.toNat = 0x2029)) (by decide) (Numeral.toNat_lt_of_digit h)
  exact hall h

/-- Dropping the zeros in front leaves the numeral of the number. -/
theorem dropLeadingZeros_eq {text : List Char} (h : Numeral.IsNumeral 16 text) :
    dropLeadingZeros (text.map lowerChar) = Nat.toDigits 16 (Numeral.value 16 text) := by
  have hlower : text.map lowerChar = text.map Char.toLower :=
    List.map_congr_left fun c hc => lowerChar_of_digit (h.digits c hc)
  rw [hlower]
  clear hlower
  induction text with
  | nil => exact absurd rfl h.ne_nil
  | cons c rest ih =>
      cases rest with
      | nil =>
          rw [Numeral.toDigits_value (by decide) (by decide) h.digits (Or.inr rfl)]
          exact dropLeadingZeros.eq_2 _ fun _ _ heq =>
            List.cons_ne_nil _ _ (List.cons.inj heq).2.symm
      | cons d more =>
          have hrest : Numeral.IsNumeral 16 (d :: more) :=
            ⟨List.cons_ne_nil _ _, fun e he => h.digits e (List.mem_cons_of_mem c he)⟩
          by_cases hc : c = '0'
          · subst hc
            have hd := (plain_of_digit (hrest.digits d List.mem_cons_self)).2
            rw [Numeral.value_zero_cons, ← ih hrest]
            exact if_neg hd
          · rw [Numeral.toDigits_value (by decide) (by decide) h.digits (Or.inl hc)]
            have hlower : c.toLower ≠ '0' := by
              intro heq
              rw [← Numeral.digitChar_digit (h.digits c List.mem_cons_self)] at heq
              exact hc (Numeral.eq_zero_of_digit (Nat.digitChar_eq_zero.mp heq))
            rw [List.map_cons, List.map_cons, dropLeadingZeros]
            intro e es heq
            exact absurd (List.cons.inj heq).1 hlower

theorem serial_spelled {Cert Key : Type} {x : X509 Cert Key} {cert : Cert} {m : ℕ}
    (h : Spells (x.serialNumber cert).toList m) :
    serial x cert = String.ofList (Nat.toDigits 16 m) := by
  rw [serial, toList_toLowerCase, dropLeadingZeros_eq h.1, h.2]

theorem plainSerial_spelled {entry : String} {n : ℕ} (h : EntrySpells entry n) :
    plainSerial entry = String.ofList (Nat.toDigits 16 n) := by
  obtain ⟨blanks, text, blanks', hentry, hblanks, hblanks', hspells⟩ := h
  have hcolon : ∀ l : List Char, (∀ c ∈ l, isSpace c = true) → l.filter (fun c => c ≠ ':') = l := by
    intro l hl
    refine List.filter_eq_self.mpr fun c hc => decide_eq_true ?_
    rintro rfl
    exact absurd (hl _ hc) (by decide)
  have hdigits : ∀ c ∈ text.filter (fun c => c ≠ ':'), isSpace c = false := fun c hc =>
    (plain_of_digit (hspells.1.digits c hc)).1
  have hplain : (plainHex entry).toList = (text.filter fun c => c ≠ ':').map lowerChar := by
    rw [plainHex, toList_toLowerCase, trim, String.toList_ofList, String.toList_ofList, hentry,
      List.filter_append, List.filter_append, hcolon blanks hblanks, hcolon blanks' hblanks',
      trimChars_surrounded hblanks hblanks' hdigits]
  rw [plainSerial, hplain, dropLeadingZeros_eq hspells.1, hspells.2]

end Normalising

/-- The certificate is revoked when the list has this entry alone. -/
def RevokedBy {Cert Key : Type} (x : X509 Cert Key) (entry : String) (cert : Cert) : Prop :=
  serial x cert ∈ serialSet entry

section Lists

variable {Cert Key : Type} {x : X509 Cert Key} {raw entry : String} {cert : Cert}

/-- An entry of a list is a list of its own. -/
theorem split_of_mem_split (h : entry ∈ split raw ',') : split entry ',' = [entry] := by
  obtain ⟨piece, hpiece, rfl⟩ := List.mem_map.mp h
  have hcomma := (Splitting.mem_splitOn_iff.mp hpiece).1
  rw [split, String.toList_ofList, List.splitOn_eq_singleton hcomma, List.map_singleton]

theorem revokedBy_iff (h : entry ∈ split raw ',') :
    RevokedBy x entry cert ↔ plainSerial entry = serial x cert ∧ serial x cert ≠ "" := by
  rw [RevokedBy, serialSet, mem_listed, split_of_mem_split h]
  simp only [List.mem_singleton, exists_eq_left]

/-- A list revokes what one of its entries revokes. -/
theorem mem_serialSet_iff :
    serial x cert ∈ serialSet raw ↔ ∃ e ∈ split raw ',', RevokedBy x e cert := by
  rw [serialSet, mem_listed]
  constructor
  · rintro ⟨⟨e, he, hserial⟩, hne⟩
    exact ⟨e, he, (revokedBy_iff he).mpr ⟨hserial, hne⟩⟩
  · rintro ⟨e, he, hrevoked⟩
    obtain ⟨hserial, hne⟩ := (revokedBy_iff he).mp hrevoked
    exact ⟨⟨e, he, hserial⟩, hne⟩

theorem ne_empty_of_entrySpells {n : ℕ} (h : EntrySpells entry n) : entry ≠ "" := by
  rintro rfl
  obtain ⟨blanks, text, blanks', hentry, -, -, hspells⟩ := h
  have htext : text = [] := by
    have hnil := hentry.symm
    simp only [String.toList_empty, List.append_eq_nil_iff] at hnil
    exact hnil.1.2
  rw [htext] at hspells
  exact hspells.1.ne_nil rfl

end Lists

/-- A list revokes what its entries revoke, and an entry that spells a number
revokes the certificates of that number, however it is spelled there. -/
theorem revoked_iff_same_number {N Cert Key : Type} [JsNumber N] (json : JsonText N)
    (googleRootKeys : Except String (List Bytes)) (processEnv : Option String) (config : Config)
    (policy : AttestationPolicy) (x : X509 Cert Key) (raw : String)
    (hpolicy : policyFromConfig json googleRootKeys processEnv config = .ok policy)
    (hraw : config "ATTESTATION_REVOKED_SERIALS" = some raw) (entry : String) (n : ℕ)
    (hmem : entry ∈ split raw ',') (hentry : EntrySpells entry n) (cert : Cert) (m : ℕ)
    (hcert : Spells (x.serialNumber cert).toList m) :
    (revoked x policy cert = true ↔ ∃ e ∈ split raw ',', RevokedBy x e cert) ∧
      (RevokedBy x entry cert ↔ m = n) := by
  constructor
  · obtain ⟨software, haccepted⟩ := accepted_of_policyFromConfig hpolicy
    have hgiven : raw ≠ "" := by
      rintro rfl
      obtain rfl : entry = "" := List.mem_singleton.mp hmem
      exact ne_empty_of_entrySpells hentry rfl
    have hused : either config "ATTESTATION_REVOKED_SERIALS" "AEGIS_REVOKED_SERIALS" = raw := by
      rw [either, hraw]
      exact if_neg hgiven
    rw [revoked, List.contains_iff_mem, haccepted.revoked, hused, mem_serialSet_iff]
  · have hserial := serial_spelled hcert
    have hne : serial x cert ≠ "" := by
      rw [hserial, ne_eq, ← String.toList_inj, String.toList_ofList]
      exact Nat.toDigits_ne_nil
    rw [revokedBy_iff hmem, and_iff_left hne, hserial, plainSerial_spelled hentry,
      ← String.toList_inj, String.toList_ofList, String.toList_ofList]
    constructor
    · exact fun h => (Numeral.toDigits_injective (by decide) (by decide) h).symm
    · exact fun h => h ▸ rfl

section Samples

def revokingConfig : Config := fun name =>
  if name = "ATTESTATION_REVOKED_SERIALS" then some "AB:CD, 00:0a" else none

theorem spells_ten : Spells "0A".toList 10 :=
  ⟨Numeral.isNumeral_of_all (List.cons_ne_nil _ _) (by decide), by decide⟩

theorem entrySpells_ten : EntrySpells " 00:0a" 10 := by
  have hfilter : ("00:0a".toList.filter fun c => c ≠ ':') = "000a".toList := by decide
  refine ⟨[' '], "00:0a".toList, [], rfl, List.forall_mem_singleton.mpr rfl, by simp, ?_⟩
  rw [hfilter]
  exact ⟨Numeral.isNumeral_of_all (List.cons_ne_nil _ _) (by decide), by decide⟩

/-- Zeros, colons and capital letters make no difference. -/
theorem revoked_iff_same_number_zeros :
    ∃ policy, policyFromConfig (JsonText.standard ℤ) (.ok []) none revokingConfig = .ok policy ∧
      revoked sampleX509 policy [2, 1, 7] = true := by
  have hpolicy : policyFromConfig (JsonText.standard ℤ) (.ok []) none revokingConfig =
      .ok ⟨false, some [], "", [], 1, true, serialSet "AB:CD, 00:0a"⟩ := rfl
  have hmem : " 00:0a" ∈ split "AB:CD, 00:0a" ',' := by decide
  obtain ⟨hlist, hentry⟩ := revoked_iff_same_number (JsonText.standard ℤ) (.ok []) none
    revokingConfig _ sampleX509 "AB:CD, 00:0a" hpolicy rfl " 00:0a" 10 hmem entrySpells_ten
    [2, 1, 7] 10 spells_ten
  exact ⟨_, hpolicy, hlist.mpr ⟨" 00:0a", hmem, hentry.mpr rfl⟩⟩

end Samples

end EncryptionGateway.Attestation
