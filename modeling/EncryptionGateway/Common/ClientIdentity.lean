import EncryptionGateway.Common.ClientIp
import EncryptionGateway.Common.RateLimitHeaders
import Mathlib.Data.List.GetD

/-!
# Whom a client key stands for

A key should stand for an IPv4 address or for the upper 64 bits of an IPv6
address, however the address is written. It does, but for mapped addresses with
a group such as `0000` in front: these are all taken for one network. The rate
limiter then counts by client, as far as it has room for counters of their own.
-/

namespace EncryptionGateway.Common

open JavaScript Foundation Splitting

/-- A host, or a network of IPv6 addresses by its first four groups. -/
inductive Client
  | host (a : IPv4)
  | network (upper : List ℕ)
deriving DecidableEq, Repr

namespace Client

/-- The IPv4 address of two groups. -/
def ofGroups (high low : ℕ) : IPv4 :=
  ⟨Fin.ofNat 256 (high / 256), Fin.ofNat 256 high, Fin.ofNat 256 (low / 256), Fin.ofNat 256 low⟩

/-- An address of the form `::ffff:a.b.c.d`. -/
def IsMapped (a : IPv6) : Prop := (∀ g ∈ a.groups.take 5, g = 0) ∧ a.groups[5]? = some 0xffff

instance (a : IPv6) : Decidable (IsMapped a) := inferInstanceAs (Decidable (_ ∧ _))

/-- The client behind an address. -/
def ofAddress : Address → Client
  | .v4 a => host a
  | .v6 a =>
      if IsMapped a then host (ofGroups (a.groups.getD 6 0) (a.groups.getD 7 0))
      else network (a.groups.take 4)

def key : Client → String
  | host a => String.ofList a.text
  | network upper =>
      String.ofList ([':'].intercalate (upper.map (Nat.toDigits 16)) ++ "::/64".toList)

end Client

/-- The same IPv4 address, or the same upper half of addresses that are not mapped. -/
def SameClient (a b : Address) : Prop := Client.ofAddress a = Client.ofAddress b

/-- A mapped address with more than one digit in one of its first five groups. -/
def Padded : AddressText → Prop
  | .v4 _ => False
  | .v6 f => Client.IsMapped f.address ∧ ∃ g ∈ f.writtenGroups.take 5, 1 < g.length

instance (t : AddressText) : Decidable (Padded t) :=
  match t with
  | .v4 _ => inferInstanceAs (Decidable False)
  | .v6 _ => inferInstanceAs (Decidable (_ ∧ _))

def zeroNetwork : Client := .network [0, 0, 0, 0]

/-- The client that a text is taken for. -/
def seenClient (t : AddressText) : Client :=
  if Padded t then zeroNetwork else Client.ofAddress t.address

namespace Client

theorem text_injective {a b : IPv4} (h : a.text = b.text) : a = b := by
  have hmap : a.octets.map (Nat.toDigits 10) = b.octets.map (Nat.toDigits 10) := by
    rw [← Net.splitOn_text, h, Net.splitOn_text]
  have hoctets := List.map_injective_iff.mpr
    (fun m n hmn => Numeral.toDigits_injective (by decide) (by decide) hmn) hmap
  simp only [IPv4.octets, List.cons.injEq, Fin.val_inj, and_true] at hoctets
  obtain ⟨a₁, a₂, a₃, a₄⟩ := a
  obtain ⟨b₁, b₂, b₃, b₄⟩ := b
  obtain ⟨rfl, rfl, rfl, rfl⟩ := hoctets
  rfl

/-- Clients with the same key are the same. -/
theorem key_injective {x y : Client} (hx : x ≠ .network []) (hy : y ≠ .network [])
    (h : x.key = y.key) : x = y := by
  have hcolon : ∀ (a : IPv4) (upper : List ℕ), (host a).key ≠ (network upper).key := by
    intro a upper h
    have hmem : ':' ∈ (network upper).key.toList := by
      rw [key, String.toList_ofList]
      exact List.mem_append_right _ (by decide)
    rw [← h, key, String.toList_ofList] at hmem
    exact (IPv6Text.isPiece_text a).2 hmem
  have hsplit : ∀ upper : List ℕ, upper ≠ [] →
      ([':'].intercalate (upper.map (Nat.toDigits 16))).splitOn ':' =
        upper.map (Nat.toDigits 16) := by
    intro upper hne
    apply List.splitOn_intercalate
    · intro piece hpiece
      obtain ⟨n, -, rfl⟩ := List.mem_map.mp hpiece
      exact Net.not_mem_of_digits le_rfl
        (Numeral.isNumeral_toDigits (by decide) (by decide) n).digits rfl
    · simpa using hne
  cases x with
  | host a =>
      cases y with
      | host b => rw [text_injective (String.ofList_injective h)]
      | network upper => exact absurd h (hcolon a upper)
  | network upper =>
      cases y with
      | host b => exact absurd h.symm (hcolon b upper)
      | network upper' =>
          have hupper : upper ≠ [] := fun hnil => hx (hnil ▸ rfl)
          have hupper' : upper' ≠ [] := fun hnil => hy (hnil ▸ rfl)
          have hjoined := List.append_cancel_right (String.ofList_injective h)
          have hmap : upper.map (Nat.toDigits 16) = upper'.map (Nat.toDigits 16) := by
            rw [← hsplit upper hupper, hjoined, hsplit upper' hupper']
          rw [List.map_injective_iff.mpr
            (fun m n hmn => Numeral.toDigits_injective (by decide) (by decide) hmn) hmap]

end Client

section Groups

open ClientIp IPv6Text

variable {g : List Char}

theorem eq_zero_group_iff (hg : Net.isGroup g = true) :
    g = ['0'] ↔ Numeral.value 16 g = 0 ∧ ¬ 1 < g.length := by
  constructor
  · rintro rfl
    decide
  · rintro ⟨hvalue, hlength⟩
    have hne := (Net.isGroup_iff.mp hg).1
    obtain ⟨c, rest, rfl⟩ := List.exists_cons_of_ne_nil hne
    obtain rfl : rest = [] := by
      rw [List.length_cons] at hlength
      exact List.length_eq_zero_iff.mp (by omega)
    have hdigit : Numeral.digit c = 0 := by
      rw [Numeral.value, List.foldl_cons, List.foldl_nil] at hvalue
      omega
    rw [Numeral.eq_zero_of_digit hdigit]

/-- The largest value has one text in lower case. -/
theorem eq_ffff_iff (hg : Net.isGroup g = true) (hlower : g.map lowerChar = g) :
    g = ['f', 'f', 'f', 'f'] ↔ Numeral.value 16 g = 0xffff := by
  constructor
  · rintro rfl
    decide
  · intro hvalue
    obtain ⟨hne, hlength, hdigits⟩ := Net.isGroup_iff.mp hg
    obtain ⟨c, rest, rfl⟩ := List.exists_cons_of_ne_nil hne
    have hfirst : c ≠ '0' ∨ rest = [] := by
      refine Or.inl ?_
      rintro rfl
      rw [List.length_cons] at hlength
      have hlt := Numeral.value_lt (List.forall_mem_cons.mp hdigits).2
      have hle : (16 : ℕ) ^ rest.length ≤ 16 ^ 3 := Nat.pow_le_pow_right (by decide) (by omega)
      rw [Numeral.value_zero_cons] at hvalue
      omega
    have htoLower : (c :: rest).map Char.toLower = (c :: rest).map lowerChar :=
      List.map_congr_left fun d hd => (lowerChar_of_digit (hdigits d hd)).symm
    have hnumeral := Numeral.toDigits_value (by decide) (by decide) hdigits hfirst
    rw [hvalue, htoLower, hlower] at hnumeral
    rw [← hnumeral]
    decide

/-- The groups of a text as `expandIpv6` gives them. -/
def expandedGroups (f : IPv6Text) : List (List Char) :=
  f.writtenGroups.map (List.map lowerChar) ++ hexPieces f

theorem values_eq (f : IPv6Text) : f.values = (expandedGroups f).map (Numeral.value 16) := by
  have hwritten : f.writtenGroups.map (Numeral.value 16) =
      (f.writtenGroups.map (List.map lowerChar)).map (Numeral.value 16) := by
    rw [List.map_map]
    exact List.map_congr_left fun g hg => (value_lower (f.isGroup_writtenGroups g hg)).symm
  have hhex : (hexPieces f).map (Numeral.value 16) = f.quad.elim [] IPv4.groups := by
    rw [hexPieces_eq, List.map_map]
    conv_rhs => rw [← List.map_id (f.quad.elim [] IPv4.groups)]
    exact List.map_congr_left fun n _ => Numeral.value_toDigits (by decide) (by decide) n
  rw [values, expandedGroups, List.map_append, hhex, hwritten]

theorem length_expandedGroups (f : IPv6Text) : (expandedGroups f).length = 8 := by
  rw [expandedGroups, List.length_append, List.length_map, length_hexPieces, f.length_writtenGroups]

theorem isGroup_expandedGroups (f : IPv6Text) :
    ∀ g ∈ expandedGroups f, Net.isGroup g = true ∧ g.map lowerChar = g := by
  intro g hg
  rcases List.mem_append.mp hg with hg | hg
  · obtain ⟨written, hwritten, rfl⟩ := List.mem_map.mp hg
    have hgroup := f.isGroup_writtenGroups written hwritten
    exact ⟨isGroup_lower hgroup, lower_lower hgroup⟩
  · obtain ⟨n, hn, rfl⟩ := mem_hexPieces hg
    exact ⟨isGroup_toDigits hn, lower_toDigits n⟩

theorem take_expandedGroups (f : IPv6Text) :
    (expandedGroups f).take 5 = (f.writtenGroups.take 5).map (List.map lowerChar) := by
  have hcount := f.length_writtenGroups
  have hfive : 5 ≤ (f.writtenGroups.map (List.map lowerChar)).length := by
    have hquad := f.quad_le_two
    rw [List.length_map]
    omega
  rw [expandedGroups, List.take_append_of_le_length hfive, List.map_take]

theorem isMapped_address_iff (f : IPv6Text) :
    Client.IsMapped f.address ↔ (∀ g ∈ (expandedGroups f).take 5, Numeral.value 16 g = 0) ∧
      (expandedGroups f)[5]? = some ['f', 'f', 'f', 'f'] := by
  have hgroups : f.address.groups = (expandedGroups f).map (Numeral.value 16) := values_eq f
  have hlt : 5 < (expandedGroups f).length := by
    rw [length_expandedGroups]
    decide
  have hfive := isGroup_expandedGroups f _ (List.getElem_mem hlt)
  rw [Client.IsMapped, hgroups, ← List.map_take, List.forall_mem_map, List.getElem?_map,
    List.getElem?_eq_getElem hlt, Option.map_some, Option.some_inj, Option.some_inj,
    eq_ffff_iff hfive.1 hfive.2]

/-- The code sees a mapped address when the text shows one digit a zero. -/
theorem mapped_test_iff (f : IPv6Text) :
    ((expandedGroups f).take 5).all (fun group => group = ['0']) = true ∧
        (expandedGroups f)[5]? = some ['f', 'f', 'f', 'f'] ↔
      Client.IsMapped f.address ∧ ¬ Padded (.v6 f) := by
  have hwide : (∃ g ∈ f.writtenGroups.take 5, 1 < g.length) ↔
      ∃ g ∈ (expandedGroups f).take 5, 1 < g.length := by
    rw [take_expandedGroups]
    constructor
    · rintro ⟨g, hg, hlength⟩
      exact ⟨g.map lowerChar, List.mem_map_of_mem hg, by rwa [List.length_map]⟩
    · rintro ⟨g, hg, hlength⟩
      obtain ⟨written, hwritten, rfl⟩ := List.mem_map.mp hg
      exact ⟨written, hwritten, by rwa [List.length_map] at hlength⟩
  have hzero : (∀ g ∈ (expandedGroups f).take 5, g = ['0']) ↔
      (∀ g ∈ (expandedGroups f).take 5, Numeral.value 16 g = 0) ∧
        ¬ ∃ g ∈ (expandedGroups f).take 5, 1 < g.length := by
    constructor
    · intro h
      refine ⟨fun g hg => h g hg ▸ rfl, ?_⟩
      rintro ⟨g, hg, hlength⟩
      rw [h g hg] at hlength
      exact absurd hlength (by decide)
    · rintro ⟨hvalue, hlength⟩ g hg
      have hgroup := (isGroup_expandedGroups f g (List.mem_of_mem_take hg)).1
      exact (eq_zero_group_iff hgroup).mpr ⟨hvalue g hg, fun h => hlength ⟨g, hg, h⟩⟩
  simp only [List.all_eq_true, decide_eq_true_eq]
  rw [hzero, Padded, hwide, isMapped_address_iff]
  constructor
  · rintro ⟨⟨hvalue, hnarrow⟩, hffff⟩
    exact ⟨⟨hvalue, hffff⟩, fun h => hnarrow h.2⟩
  · rintro ⟨hmapped, hnarrow⟩
    exact ⟨⟨hmapped.1, fun h => hnarrow ⟨hmapped, h⟩⟩, hmapped.2⟩

end Groups

section Keys

open ClientIp IPv6Text

/-- Two groups of sixteen bits in the notation of IPv4. -/
theorem text_ofGroups {high low : ℕ} (hhigh : high < 0x10000) (hlow : low < 0x10000) :
    (Client.ofGroups high low).text = ['.'].intercalate
      ([high >>> 8, high &&& 0xff, low >>> 8, low &&& 0xff].map (Nat.toDigits 10)) := by
  have hupper : ∀ n < 0x10000, n >>> 8 = n / 256 % 256 := by
    intro n hn
    rw [Nat.shiftRight_eq_div_pow]
    omega
  have hmask : ∀ n : ℕ, n &&& 0xff = n % 256 := fun n => Nat.and_two_pow_sub_one_eq_mod n 8
  rw [hupper high hhigh, hupper low hlow, hmask, hmask]
  rfl

theorem value_getD_lt (f : IPv6Text) (i : ℕ) :
    Numeral.value 16 ((expandedGroups f).getD i []) < 0x10000 := by
  rcases lt_or_ge i (expandedGroups f).length with hi | hi
  · rw [List.getD_eq_getElem _ _ hi]
    exact value_lt_of_isGroup (isGroup_expandedGroups f _ (List.getElem_mem hi)).1
  · rw [List.getD_eq_default _ _ hi]
    decide

theorem zeros_of_isMapped {a : IPv6} (h : Client.IsMapped a) : a.groups.take 4 = [0, 0, 0, 0] := by
  have hlength : (a.groups.take 4).length = 4 := by
    rw [List.length_take, a.length_eq]
    rfl
  refine List.eq_replicate_iff.mpr ⟨hlength, fun g hg => h.1 g ?_⟩
  exact List.take_subset_take_left _ (by decide) hg

/-- The key of an IPv6 address in any of its texts. -/
theorem keyOfGroups_expandedGroups (f : IPv6Text) :
    String.ofList (keyOfGroups (expandedGroups f)) = (seenClient (.v6 f)).key := by
  have hgroups : f.address.groups = (expandedGroups f).map (Numeral.value 16) := values_eq f
  have hgetD : ∀ i, f.address.groups.getD i 0 =
      Numeral.value 16 ((expandedGroups f).getD i []) := by
    intro i
    rw [hgroups]
    exact List.getD_map _ [] (Numeral.value 16)
  have hnetwork : (Client.network (f.address.groups.take 4)).key =
      String.ofList ([':'].intercalate (((expandedGroups f).take 4).map fun group =>
        Nat.toDigits 16 (Numeral.value 16 group)) ++ "::/64".toList) := by
    rw [Client.key, hgroups, ← List.map_take, List.map_map]
    rfl
  unfold keyOfGroups
  simp only [Bool.and_eq_true, decide_eq_true_eq, mapped_test_iff f]
  by_cases hpadded : Padded (.v6 f)
  · have hzeros : f.address.groups.take 4 = [0, 0, 0, 0] := zeros_of_isMapped hpadded.1
    rw [if_neg fun h => h.2 hpadded, ← hnetwork, hzeros, seenClient, if_pos hpadded, zeroNetwork]
  · rw [seenClient, if_neg hpadded]
    by_cases hmapped : Client.IsMapped f.address
    · rw [if_pos ⟨hmapped, hpadded⟩, AddressText.address, Client.ofAddress, if_pos hmapped,
        Client.key, hgetD, hgetD, text_ofGroups (value_getD_lt f 6) (value_getD_lt f 7)]
    · rw [if_neg fun h => hmapped h.1, ← hnetwork, AddressText.address, Client.ofAddress,
        if_neg hmapped]

theorem clientIpKey_eq (t : AddressText) : clientIpKey (some t.text) = (seenClient t).key := by
  cases t with
  | v4 a =>
      have hlower : (split (toLowerCase (String.ofList a.text)) '%').headD "" =
          String.ofList a.text := by
        have hpercent : '%' ∉ a.text := by
          intro h
          rcases Net.mem_text h with h | h
          · exact absurd h (by decide)
          · exact absurd h (by decide)
        rw [split, toList_toLowerCase, String.toList_ofList, lower_text,
          List.splitOn_eq_singleton hpercent]
        rfl
      have hne : String.ofList a.text ≠ "" := by
        intro h
        have hdot := Net.dot_mem_text a
        rw [← String.toList_ofList (l := a.text), h] at hdot
        exact absurd hdot (by decide)
      simp only [AddressText.text, clientIpKey, hne, if_false, hlower, Net.isIP_v4]
      rfl
  | v6 f =>
      have hne : String.ofList f.text ≠ "" := by
        intro h
        have hcolon : ':' ∈ f.text := List.mem_append_left _ f.colon_mem_body
        rw [← String.toList_ofList (l := f.text), h] at hcolon
        exact absurd hcolon (by decide)
      simp only [AddressText.text, clientIpKey, hne, if_false, lower_split, Net.isIP_v6, ne_eq,
        not_true_eq_false, String.toList_ofList, expandIpv6_lowered]
      exact keyOfGroups_expandedGroups f

theorem seenClient_ne (t : AddressText) : seenClient t ≠ .network [] := by
  have hupper : ∀ a : IPv6, a.groups.take 4 ≠ [] := by
    intro a h
    have hlength := congrArg List.length h
    rw [List.length_take, a.length_eq] at hlength
    cases hlength
  unfold seenClient
  split_ifs with hpadded
  · simp [zeroNetwork]
  · cases t with
    | v4 a => simp [AddressText.address, Client.ofAddress]
    | v6 f =>
        rw [AddressText.address, Client.ofAddress]
        split_ifs with hmapped
        · simp
        · simpa using hupper f.address

/-- Two texts have one key when they are taken for one client. -/
theorem clientIpKey_eq_iff (s t : AddressText) :
    clientIpKey (some s.text) = clientIpKey (some t.text) ↔ seenClient s = seenClient t := by
  rw [clientIpKey_eq, clientIpKey_eq]
  exact ⟨Client.key_injective (seenClient_ne s) (seenClient_ne t), fun h => h ▸ rfl⟩

theorem ofAddress_ne_of_padded {t : AddressText} (h : Padded t) :
    Client.ofAddress t.address ≠ zeroNetwork := by
  cases t with
  | v4 a => exact h.elim
  | v6 f =>
      rw [AddressText.address, Client.ofAddress, if_pos h.1, zeroNetwork]
      simp

/-- A padded text does no harm beside another one of its client, nor beside a
text of any client but its own and the zero network. -/
def Harmless (s t : AddressText) : Prop :=
  Padded s → Padded t ∧ SameClient s.address t.address ∨
    ¬ Padded t ∧ ¬ SameClient s.address t.address ∧ Client.ofAddress t.address ≠ zeroNetwork

theorem sameKey_iff_sameClient (s t : AddressText) :
    (clientIpKey (some s.text) = clientIpKey (some t.text) ↔ SameClient s.address t.address) ↔
      Harmless s t ∧ Harmless t s := by
  have hsymm : SameClient t.address s.address ↔ SameClient s.address t.address := eq_comm
  rw [clientIpKey_eq_iff, Harmless, Harmless, hsymm]
  by_cases hs : Padded s
  · by_cases ht : Padded t
    · simp only [seenClient, hs, ht, if_true, true_iff, true_and, not_true_eq_false, false_and,
        or_false, forall_const, and_self]
    · have hhost := ofAddress_ne_of_padded hs
      simp only [seenClient, hs, ht, if_true, if_false, false_and, false_or, not_false_eq_true,
        true_and, forall_const, IsEmpty.forall_iff, and_true, SameClient]
      constructor
      · intro h
        refine ⟨fun hsame => hhost (hsame.trans (h.mpr hsame).symm), fun hzero => ?_⟩
        exact hhost ((h.mp hzero.symm).trans hzero)
      · exact fun h => iff_of_false (fun hzero => h.2 hzero.symm) h.1
  · by_cases ht : Padded t
    · have hhost := ofAddress_ne_of_padded ht
      simp only [seenClient, hs, ht, if_true, if_false, false_and, false_or, not_false_eq_true,
        true_and, forall_const, IsEmpty.forall_iff, SameClient]
      constructor
      · intro h
        refine ⟨fun hsame => hhost (hsame.symm.trans (h.mpr hsame)), fun hzero => ?_⟩
        exact hhost ((h.mp hzero).symm.trans hzero)
      · exact fun h => iff_of_false h.2 h.1
    · simp only [seenClient, hs, ht, if_false, IsEmpty.forall_iff, and_self, SameClient]

/-- Every accepted text is the text of an address, and keys tell clients apart
but not spellings, except for padded texts of mapped addresses. -/
theorem key_identifies_addresses_iff (text : String) (s t : AddressText) :
    (Net.isIP text ≠ 0 ↔ ∃ u : AddressText, u.text = text) ∧
    ((clientIpKey (some s.text) = clientIpKey (some t.text) ↔ SameClient s.address t.address) ↔
      Harmless s t ∧ Harmless t s) :=
  ⟨Net.isIP_ne_zero_iff, sameKey_iff_sameClient s t⟩

end Keys

section Counters

open ClientIp

/-- A key is never the one of the shared counter. -/
theorem Client.key_ne_overflow (x : Client) : x.key ≠ OVERFLOW_KEY := by
  intro h
  have hmem : '\x00' ∈ x.key.toList := by
    rw [h]
    decide
  cases x with
  | host a =>
      rw [key, String.toList_ofList] at hmem
      rcases Net.mem_text hmem with h | h
      · exact absurd h (by decide)
      · exact absurd h (by decide)
  | network upper =>
      rw [key, String.toList_ofList, List.mem_append] at hmem
      rcases hmem with hmem | hmem
      · rcases mem_of_mem_intercalate hmem with h | ⟨group, hgroup, hmem⟩
        · exact absurd h (by decide)
        · obtain ⟨n, -, rfl⟩ := List.mem_map.mp hgroup
          exact Net.not_mem_of_digits le_rfl
            (Numeral.isNumeral_toDigits (by decide) (by decide) n).digits rfl hmem
      · exact absurd hmem (by decide)

/-- The key of a request from an address. -/
def clientKey (t : AddressText) : ClientKey :=
  ⟨clientIpKey (some t.text), clientIpKey_eq t ▸ (seenClient t).key_ne_overflow⟩

theorem clientKey_eq_iff {s t : AddressText} (hs : ¬ Padded s) (ht : ¬ Padded t) :
    clientKey s = clientKey t ↔ SameClient s.address t.address := by
  rw [clientKey, clientKey, Subtype.mk.injEq]
  exact (sameKey_iff_sameClient s t).mpr ⟨fun h => absurd h hs, fun h => absurd h ht⟩

variable {g : RateLimitGuard} {s s' : RateLimitGuard.State} {tr : List RateLimitGuard.Hit}

/-- Outside the overflow bucket two requests of a run are charged to one counter
exactly when one client sent both. -/
theorem bucket_eq_iff_sameClient (run : Run (RateLimitGuard.Step g) s tr s')
    (hown : ∀ h ∈ tr, h.bucket ≠ OVERFLOW_KEY) {h₁ h₂ : RateLimitGuard.Hit} (hmem₁ : h₁ ∈ tr)
    (hmem₂ : h₂ ∈ tr) {t₁ t₂ : AddressText} (hfrom₁ : h₁.client = clientKey t₁)
    (hfrom₂ : h₂.client = clientKey t₂) (hplain₁ : ¬ Padded t₁) (hplain₂ : ¬ Padded t₂) :
    h₁.bucket = h₂.bucket ↔ SameClient t₁.address t₂.address := by
  have hbucket : ∀ h ∈ tr, h.bucket = h.client := by
    intro h hmem
    obtain ⟨before, after, rfl⟩ := List.append_of_mem hmem
    obtain ⟨t, t', -, hstep, -⟩ := run.at_label
    exact hstep.bucket_eq (hown h hmem)
  rw [hbucket h₁ hmem₁, hbucket h₂ hmem₂, hfrom₁, hfrom₂, ← clientKey_eq_iff hplain₁ hplain₂]
  exact Subtype.ext_iff.symm

end Counters

section Samples

open ClientIp

/-- `::ffff:203.0.113.7`. -/
def mappedText : IPv6Text where
  left := []
  right := some [['f', 'f', 'f', 'f']]
  quad := some ⟨203, 0, 113, 7⟩
  zone := none
  isGroup_left := List.all_eq_true.mp rfl
  isGroup_right := List.all_eq_true.mp rfl
  full := nofun
  compressed := fun _ h => Option.some.inj h ▸ by decide
  zone_ne_nil := nofun
  isZoneChar_zone := nofun

/-- The same address with every digit of its groups. -/
def paddedText : IPv6Text where
  left := List.replicate 5 ['0', '0', '0', '0'] ++
    [['f', 'f', 'f', 'f'], ['c', 'b', '0', '0'], ['7', '1', '0', '7']]
  right := none
  quad := none
  zone := none
  isGroup_left := List.all_eq_true.mp rfl
  isGroup_right := List.all_eq_true.mp rfl
  full := fun _ => rfl
  compressed := nofun
  zone_ne_nil := nofun
  isZoneChar_zone := nofun

/-- One address has two keys, and the second is that of the loopback address. -/
theorem padded_text_changes_key :
    mappedText.address.groups = paddedText.address.groups ∧
    String.ofList mappedText.text = "::ffff:203.0.113.7" ∧
    String.ofList paddedText.text = "0000:0000:0000:0000:0000:ffff:cb00:7107" ∧
    Net.isIP "::ffff:203.0.113.7" = 6 ∧
    Net.isIP "0000:0000:0000:0000:0000:ffff:cb00:7107" = 6 ∧
    clientIpKey (some "::ffff:203.0.113.7") = "203.0.113.7" ∧
    clientIpKey (some "0000:0000:0000:0000:0000:ffff:cb00:7107") = "0:0:0:0::/64" ∧
    clientIpKey (some "::1") = "0:0:0:0::/64" := by
  decide +kernel

end Samples

end EncryptionGateway.Common
