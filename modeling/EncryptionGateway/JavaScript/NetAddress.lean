import EncryptionGateway.Foundation.Numerals
import EncryptionGateway.Foundation.Splitting
import EncryptionGateway.JavaScript.Text

/-!
# Texts of IP addresses

`isIP` of `node:net`, and the texts it accepts: an IPv4 address has one text, an
IPv6 address has many. Up to seven groups stand around a `::` for the zeros
between them, a group has up to four digits, the last two groups may be written
as an IPv4 address, and a zone may follow.

## Implementation notes

The regular expression of the platform lists the admissible numbers of groups
before and after the `::` one by one; here they are counted.
-/

namespace EncryptionGateway.JavaScript

open Foundation Splitting

structure IPv4 where
  a : Fin 256
  b : Fin 256
  c : Fin 256
  d : Fin 256
deriving DecidableEq, Repr

/-- Eight groups of sixteen bits. -/
structure IPv6 where
  groups : List ℕ
  length_eq : groups.length = 8
  group_lt : ∀ g ∈ groups, g < 0x10000

namespace IPv4

def octets (a : IPv4) : List ℕ := [a.a, a.b, a.c, a.d]

/-- Four decimal numerals without zeros in front. -/
def text (a : IPv4) : List Char := ['.'].intercalate (a.octets.map (Nat.toDigits 10))

/-- The same 32 bits as two groups. -/
def groups (a : IPv4) : List ℕ := [a.a * 256 + a.b, a.c * 256 + a.d]

end IPv4

namespace Net

/-- `/25[0-5]|2[0-4]\d|1\d\d|[1-9]\d|\d/`, on the whole text. -/
def isOctet : List Char → Bool
  | [x] => x.isDigit
  | [x, y] => x.isDigit && x ≠ '0' && y.isDigit
  | [x, y, z] =>
      (x = '1' && y.isDigit && z.isDigit) ||
      (x = '2' && y.isDigit && y ≤ '4' && z.isDigit) ||
      (x = '2' && y = '5' && z.isDigit && z ≤ '5')
  | _ => false

def isIPv4 (l : List Char) : Bool := (l.splitOn '.').length = 4 && (l.splitOn '.').all isOctet

/-- `/[0-9a-fA-F]{1,4}/`, on the whole text. -/
def isGroup (l : List Char) : Bool :=
  l ≠ [] && l.length ≤ 4 && l.all fun c => Numeral.digit c < 16

/-- The groups that texts between colons stand for: the last one may be an IPv4 address. -/
def countGroups : List (List Char) → Option ℕ
  | [] => some 0
  | [piece] => if isGroup piece then some 1 else if isIPv4 piece then some 2 else none
  | piece :: rest => if isGroup piece then (countGroups rest).map (· + 1) else none

/-- `half ? half.split(':') : []`. -/
def colonPieces (half : List Char) : List (List Char) :=
  if half = [] then [] else half.splitOn ':'

/-- An address without a zone. -/
def isBody (l : List Char) : Bool :=
  match splitDouble ':' l with
  | [whole] => countGroups (whole.splitOn ':') = some 8
  | [left, right] =>
      (colonPieces left).all isGroup &&
        (countGroups (colonPieces right)).any fun n => (colonPieces left).length + n ≤ 7
  | _ => false

/-- `/[0-9a-zA-Z-.:]/`. -/
def isZoneChar (c : Char) : Bool := c.isAlphanum || c = '-' || c = '.' || c = ':'

def isIPv6 (l : List Char) : Bool :=
  match l.splitOn '%' with
  | [body] => isBody body
  | [body, zone] => isBody body && zone ≠ [] && zone.all isZoneChar
  | _ => false

/-- The version of the address that a text is, or 0. -/
def isIP (s : String) : ℕ := if isIPv4 s.toList then 4 else if isIPv6 s.toList then 6 else 0

theorem digit_of_isDigit {c : Char} (h : c.isDigit = true) :
    Numeral.digit c = c.toNat - 48 ∧ 48 ≤ c.toNat ∧ c.toNat ≤ 57 := by
  have hrange : 48 ≤ c.toNat ∧ c.toNat ≤ 57 := by
    rw [Char.isDigit, Bool.and_eq_true, decide_eq_true_eq, decide_eq_true_eq, ge_iff_le,
      UInt32.le_iff_toNat_le, UInt32.le_iff_toNat_le] at h
    exact h
  exact ⟨if_pos hrange, hrange⟩

/-- What an octet looks like: no zero in front, and at most 255. -/
private theorem isOctet_spec {l : List Char} (h : isOctet l = true) :
    ∃ x rest, l = x :: rest ∧ (∀ c ∈ l, Numeral.digit c < 10) ∧ (x ≠ '0' ∨ rest = []) ∧
      Numeral.value 10 l < 256 := by
  have hchar : ∀ {c d : Char}, c ≤ d → c.toNat ≤ d.toNat := fun h => h
  match l with
  | [] => cases h
  | [x] =>
      have hx : x.isDigit = true := h
      obtain ⟨hx, _, _⟩ := digit_of_isDigit hx
      have hlt : Numeral.digit x < 10 := by omega
      refine ⟨x, [], rfl, by simpa using hlt, Or.inr rfl, ?_⟩
      change 10 * 0 + Numeral.digit x < 256
      omega
  | [x, y] =>
      simp only [isOctet, Bool.and_eq_true, decide_eq_true_eq] at h
      obtain ⟨hx, _, _⟩ := digit_of_isDigit h.1.1
      obtain ⟨hy, _, _⟩ := digit_of_isDigit h.2
      have hlt : ∀ c ∈ [x, y], Numeral.digit c < 10 := by
        simp only [List.forall_mem_cons]
        exact ⟨by omega, by omega, by simp⟩
      refine ⟨x, [y], rfl, hlt, Or.inl h.1.2, ?_⟩
      have hvalue := Numeral.value_lt hlt
      rw [List.length_cons, List.length_singleton] at hvalue
      omega
  | [x, y, z] =>
      simp only [isOctet, Bool.or_eq_true, Bool.and_eq_true, decide_eq_true_eq] at h
      have hvalue : Numeral.value 10 [x, y, z] =
          10 * (10 * (10 * 0 + Numeral.digit x) + Numeral.digit y) + Numeral.digit z := rfl
      rcases h with (⟨⟨rfl, hy⟩, hz⟩ | ⟨⟨⟨rfl, hy⟩, hy4⟩, hz⟩) | ⟨⟨⟨rfl, rfl⟩, hz⟩, hz5⟩
      · obtain ⟨hy, _, _⟩ := digit_of_isDigit hy
        obtain ⟨hz, _, _⟩ := digit_of_isDigit hz
        have hx : Numeral.digit '1' = 1 := rfl
        refine ⟨'1', [y, z], rfl, ?_, Or.inl (by decide), by omega⟩
        simp only [List.forall_mem_cons]
        exact ⟨by omega, by omega, by omega, by simp⟩
      · obtain ⟨hy, _, _⟩ := digit_of_isDigit hy
        obtain ⟨hz, _, _⟩ := digit_of_isDigit hz
        have hx : Numeral.digit '2' = 2 := rfl
        have hle : y.toNat ≤ 52 := hchar hy4
        refine ⟨'2', [y, z], rfl, ?_, Or.inl (by decide), by omega⟩
        simp only [List.forall_mem_cons]
        exact ⟨by omega, by omega, by omega, by simp⟩
      · obtain ⟨hz, _, _⟩ := digit_of_isDigit hz
        have hx : Numeral.digit '2' = 2 := rfl
        have hy : Numeral.digit '5' = 5 := rfl
        have hle : z.toNat ≤ 53 := hchar hz5
        refine ⟨'2', ['5', z], rfl, ?_, Or.inl (by decide), by omega⟩
        simp only [List.forall_mem_cons]
        exact ⟨by omega, by omega, by omega, by simp⟩
  | _ :: _ :: _ :: _ :: _ => cases h

theorem isOctet_iff {l : List Char} : isOctet l = true ↔ ∃ n : Fin 256, l = Nat.toDigits 10 n := by
  constructor
  · intro h
    obtain ⟨x, rest, rfl, hdigits, hfirst, hlt⟩ := isOctet_spec h
    refine ⟨⟨_, hlt⟩, ?_⟩
    have hlower : (x :: rest).map Char.toLower = x :: rest := by
      conv_rhs => rw [← List.map_id (x :: rest)]
      exact List.map_congr_left fun c hc => Numeral.toLower_of_digit (hdigits c hc)
    exact ((Numeral.toDigits_value (by decide) (by decide) hdigits hfirst).trans hlower).symm
  · rintro ⟨n, rfl⟩
    have hall : ∀ n : Fin 256, isOctet (Nat.toDigits 10 n) = true := by decide +kernel
    exact hall n

theorem not_mem_of_digits {b : ℕ} (hb : b ≤ 16) {l : List Char}
    (hl : ∀ c ∈ l, Numeral.digit c < b) {sep : Char} (hsep : Numeral.digit sep = 16) : sep ∉ l := by
  intro h
  have hlt := hl sep h
  omega

theorem dot_not_mem_octet (n : ℕ) : '.' ∉ Nat.toDigits 10 n :=
  not_mem_of_digits (by decide) (Numeral.isNumeral_toDigits (by decide) (by decide) n).digits rfl

theorem splitOn_text (a : IPv4) : a.text.splitOn '.' = a.octets.map (Nat.toDigits 10) := by
  apply List.splitOn_intercalate
  · intro piece hpiece
    obtain ⟨n, -, rfl⟩ := List.mem_map.mp hpiece
    exact dot_not_mem_octet n
  · simp [IPv4.octets]

/-- The recogniser accepts the texts of IPv4 addresses. -/
theorem isIPv4_iff {l : List Char} : isIPv4 l = true ↔ ∃ a : IPv4, l = a.text := by
  rw [isIPv4, Bool.and_eq_true, decide_eq_true_eq, List.all_eq_true]
  constructor
  · rintro ⟨hlength, hoctets⟩
    obtain ⟨p, q, r, t, hpieces⟩ := List.length_eq_four.mp hlength
    rw [hpieces] at hoctets
    simp only [List.forall_mem_cons] at hoctets
    obtain ⟨a, ha⟩ := isOctet_iff.mp hoctets.1
    obtain ⟨b, hb⟩ := isOctet_iff.mp hoctets.2.1
    obtain ⟨c, hc⟩ := isOctet_iff.mp hoctets.2.2.1
    obtain ⟨d, hd⟩ := isOctet_iff.mp hoctets.2.2.2.1
    refine ⟨⟨a, b, c, d⟩, ?_⟩
    have hjoined : ['.'].intercalate (l.splitOn '.') = l := List.intercalate_splitOn '.'
    rw [← hjoined, hpieces, ha, hb, hc, hd]
    rfl
  · rintro ⟨a, rfl⟩
    rw [splitOn_text]
    refine ⟨rfl, fun piece hpiece => ?_⟩
    simp only [IPv4.octets, List.map_cons, List.map_nil, List.mem_cons, List.not_mem_nil,
      or_false] at hpiece
    rcases hpiece with rfl | rfl | rfl | rfl
    · exact isOctet_iff.mpr ⟨a.a, rfl⟩
    · exact isOctet_iff.mpr ⟨a.b, rfl⟩
    · exact isOctet_iff.mpr ⟨a.c, rfl⟩
    · exact isOctet_iff.mpr ⟨a.d, rfl⟩

/-- The characters of an IPv4 address. -/
theorem mem_text {a : IPv4} {c : Char} (hc : c ∈ a.text) : c = '.' ∨ Numeral.digit c < 10 := by
  rcases mem_of_mem_intercalate hc with rfl | ⟨piece, hpiece, hc⟩
  · exact Or.inl rfl
  · obtain ⟨n, -, rfl⟩ := List.mem_map.mp hpiece
    exact Or.inr ((Numeral.isNumeral_toDigits (by decide) (by decide) n).digits c hc)

theorem dot_mem_text (a : IPv4) : '.' ∈ a.text := by
  rw [IPv4.text, IPv4.octets, List.map_cons, List.map_cons, List.intercalate_cons_cons]
  simp

theorem isGroup_iff {l : List Char} :
    isGroup l = true ↔ l ≠ [] ∧ l.length ≤ 4 ∧ ∀ c ∈ l, Numeral.digit c < 16 := by
  simp only [isGroup, Bool.and_eq_true, decide_eq_true_eq, List.all_eq_true, and_assoc]

theorem isGroup_text (a : IPv4) : isGroup a.text = false := by
  rw [Bool.eq_false_iff, Ne, isGroup_iff]
  rintro ⟨-, -, hdigits⟩
  exact not_mem_of_digits le_rfl hdigits rfl (dot_mem_text a)

theorem countGroups_cons {g : List Char} (hg : isGroup g = true) (rest : List (List Char)) :
    countGroups (g :: rest) = (countGroups rest).map (· + 1) := by
  cases rest with
  | nil => exact if_pos hg
  | cons piece rest => rw [countGroups, if_pos hg]; simp

/-- Groups, and maybe an IPv4 address behind them. -/
theorem countGroups_eq_some {pieces : List (List Char)} {n : ℕ} :
    countGroups pieces = some n ↔ ∃ (groups : List (List Char)) (quad : Option IPv4),
      pieces = groups ++ (quad.elim [] fun a => [a.text]) ∧
      (∀ g ∈ groups, isGroup g = true) ∧ groups.length + (quad.elim 0 fun _ => 2) = n := by
  constructor
  · intro h
    induction pieces generalizing n with
    | nil =>
        cases h
        exact ⟨[], none, rfl, by simp, rfl⟩
    | cons piece rest ih =>
        by_cases hpiece : isGroup piece = true
        · rw [countGroups_cons hpiece, Option.map_eq_some_iff] at h
          obtain ⟨m, hm, rfl⟩ := h
          obtain ⟨groups, quad, rfl, hgroups, rfl⟩ := ih hm
          refine ⟨piece :: groups, quad, rfl, List.forall_mem_cons.mpr ⟨hpiece, hgroups⟩, ?_⟩
          rw [List.length_cons]
          omega
        · cases rest with
          | nil =>
              rw [countGroups, if_neg hpiece] at h
              split at h
              · next hquad =>
                  obtain ⟨a, rfl⟩ := isIPv4_iff.mp hquad
                  exact ⟨[], some a, rfl, by simp, by simpa using h⟩
              · cases h
          | cons next rest =>
              rw [countGroups, if_neg hpiece] at h
              · cases h
              · simp
  · rintro ⟨groups, quad, rfl, hgroups, rfl⟩
    induction groups with
    | nil =>
        cases quad with
        | none => rfl
        | some a =>
            have hnot : ¬ isGroup a.text = true := by simp [isGroup_text a]
            have hquad : isIPv4 a.text = true := isIPv4_iff.mpr ⟨a, rfl⟩
            change countGroups [a.text] = some 2
            rw [countGroups, if_neg hnot, if_pos hquad]
    | cons g groups ih =>
        rw [List.forall_mem_cons] at hgroups
        rw [List.cons_append, countGroups_cons hgroups.1, ih hgroups.2, Option.map_some,
          List.length_cons]
        congr 1
        omega

end Net

/-- A text of an IPv6 address. With a `::` there are groups on its right, maybe
none; `quad` is the last two groups when they are written as an IPv4 address. -/
structure IPv6Text where
  left : List (List Char)
  right : Option (List (List Char))
  quad : Option IPv4
  zone : Option (List Char)
  isGroup_left : ∀ g ∈ left, Net.isGroup g = true
  isGroup_right : ∀ g ∈ right.getD [], Net.isGroup g = true
  full : right = none → left.length + (quad.elim 0 fun _ => 2) = 8
  compressed : ∀ groups, right = some groups →
    left.length + groups.length + (quad.elim 0 fun _ => 2) ≤ 7
  zone_ne_nil : zone ≠ some []
  isZoneChar_zone : ∀ c ∈ zone.getD [], Net.isZoneChar c = true

namespace IPv6Text

/-- The groups around the `::`, and behind them the pieces `tail`. -/
def withTail (f : IPv6Text) (tail : List (List Char)) : List Char :=
  match f.right with
  | none => [':'].intercalate (f.left ++ tail)
  | some right => [':'].intercalate f.left ++ ':' :: ':' :: [':'].intercalate (right ++ tail)

def quadPieces (f : IPv6Text) : List (List Char) := f.quad.elim [] fun a => [a.text]

def body (f : IPv6Text) : List Char := f.withTail f.quadPieces

def text (f : IPv6Text) : List Char := f.body ++ f.zone.elim [] fun zone => '%' :: zone

/-- The zeros that the `::` stands for. -/
def missing (f : IPv6Text) : ℕ :=
  8 - (f.left.length + (f.right.getD []).length + f.quad.elim 0 fun _ => 2)

/-- The groups that are written as such, an omitted one as a single zero. -/
def writtenGroups (f : IPv6Text) : List (List Char) :=
  f.left ++ List.replicate f.missing ['0'] ++ f.right.getD []

def values (f : IPv6Text) : List ℕ :=
  f.writtenGroups.map (Numeral.value 16) ++ f.quad.elim [] IPv4.groups

section Pieces

open Net

/-- A piece between two colons. -/
def IsPiece (piece : List Char) : Prop := piece ≠ [] ∧ ':' ∉ piece

theorem isPiece_of_isGroup {g : List Char} (hg : isGroup g = true) : IsPiece g := by
  obtain ⟨hne, -, hdigits⟩ := isGroup_iff.mp hg
  exact ⟨hne, not_mem_of_digits le_rfl hdigits rfl⟩

theorem isPiece_text (a : IPv4) : IsPiece a.text := by
  refine ⟨List.ne_nil_of_mem (dot_mem_text a), fun h => ?_⟩
  rcases mem_text h with hdot | hdigit
  · exact absurd hdot (by decide)
  · exact absurd hdigit (by decide)

theorem isGroup_of_right (f : IPv6Text) {right : List (List Char)} (hright : f.right = some right) :
    ∀ g ∈ right, isGroup g = true := by
  have hall := f.isGroup_right
  rwa [hright] at hall

theorem mem_quadPieces {f : IPv6Text} {piece : List Char} (h : piece ∈ f.quadPieces) :
    ∃ a : IPv4, piece = a.text := by
  unfold quadPieces at h
  cases hquad : f.quad with
  | none =>
      rw [hquad] at h
      cases h
  | some a =>
      rw [hquad] at h
      exact ⟨a, List.mem_singleton.mp h⟩

theorem isPiece_quadPieces (f : IPv6Text) : ∀ piece ∈ f.quadPieces, IsPiece piece := by
  intro piece hpiece
  obtain ⟨a, rfl⟩ := mem_quadPieces hpiece
  exact isPiece_text a

theorem colonPieces_intercalate {pieces : List (List Char)} (h : ∀ p ∈ pieces, IsPiece p) :
    colonPieces ([':'].intercalate pieces) = pieces := by
  cases pieces with
  | nil => rfl
  | cons p rest =>
      have hne : [':'].intercalate (p :: rest) ≠ [] := by
        obtain ⟨before, after, hjoined, -⟩ := intercalate_append_cons ':' [] p rest
        rw [List.nil_append] at hjoined
        rw [hjoined]
        simp [(h p List.mem_cons_self).1]
      rw [colonPieces, if_neg hne]
      exact List.splitOn_intercalate ':' (fun q hq => (h q hq).2) (List.cons_ne_nil _ _)

theorem splitDouble_joined {pieces : List (List Char)} (h : ∀ p ∈ pieces, IsPiece p) :
    splitDouble ':' ([':'].intercalate pieces) = [[':'].intercalate pieces] := by
  have hjoined : splitDouble ':' ([':'].intercalate pieces ++ []) = [[':'].intercalate pieces] :=
    splitDouble_intercalate h rfl
  rwa [List.append_nil] at hjoined

/-- The halves around the `::`, or the whole text. -/
theorem splitDouble_withTail (f : IPv6Text) {tail : List (List Char)}
    (htail : ∀ p ∈ tail, IsPiece p) :
    splitDouble ':' (f.withTail tail) =
      match f.right with
      | none => [[':'].intercalate (f.left ++ tail)]
      | some right => [[':'].intercalate f.left, [':'].intercalate (right ++ tail)] := by
  have hleft : ∀ p ∈ f.left, IsPiece p := fun p hp => isPiece_of_isGroup (f.isGroup_left p hp)
  have hjoin : ∀ groups : List (List Char), (∀ g ∈ groups, isGroup g = true) →
      ∀ p ∈ groups ++ tail, IsPiece p := fun groups hgroups =>
    List.forall_mem_append.mpr ⟨fun p hp => isPiece_of_isGroup (hgroups p hp), htail⟩
  unfold withTail
  cases hright : f.right with
  | none => exact splitDouble_joined (hjoin _ f.isGroup_left)
  | some right =>
      have hgroups := f.isGroup_of_right hright
      exact splitDouble_intercalate hleft ((splitDouble_double ':' _).trans
        (congrArg _ (splitDouble_joined (hjoin right hgroups))))

theorem countGroups_quadPieces (f : IPv6Text) {groups : List (List Char)}
    (hgroups : ∀ g ∈ groups, isGroup g = true) :
    countGroups (groups ++ f.quadPieces) =
      some (groups.length + f.quad.elim 0 fun _ => 2) :=
  countGroups_eq_some.mpr ⟨groups, f.quad, rfl, hgroups, rfl⟩

theorem isPiece_append_quadPieces (f : IPv6Text) {groups : List (List Char)}
    (hgroups : ∀ g ∈ groups, isGroup g = true) : ∀ p ∈ groups ++ f.quadPieces, IsPiece p :=
  List.forall_mem_append.mpr
    ⟨fun p hp => isPiece_of_isGroup (hgroups p hp), f.isPiece_quadPieces⟩

theorem isBody_body (f : IPv6Text) : isBody f.body = true := by
  rw [isBody, body, splitDouble_withTail f f.isPiece_quadPieces]
  cases hright : f.right with
  | none =>
      have hfull := f.full hright
      have hne : f.left ++ f.quadPieces ≠ [] := by
        intro h
        have hcount := countGroups_quadPieces f f.isGroup_left
        rw [h, hfull] at hcount
        cases hcount
      have hpieces : ([':'].intercalate (f.left ++ f.quadPieces)).splitOn ':' =
          f.left ++ f.quadPieces :=
        List.splitOn_intercalate ':'
          (fun p hp => (isPiece_append_quadPieces f f.isGroup_left p hp).2) hne
      simp only [hpieces, countGroups_quadPieces f f.isGroup_left, hfull, decide_true]
  | some right =>
      have hgroups := f.isGroup_of_right hright
      have hcompressed := f.compressed right hright
      have hleft : f.left.all isGroup = true := List.all_eq_true.mpr f.isGroup_left
      have hpieces := colonPieces_intercalate (isPiece_append_quadPieces f hgroups)
      have hfront := colonPieces_intercalate fun p hp => isPiece_of_isGroup (f.isGroup_left p hp)
      simp only [hpieces, hfront, hleft, countGroups_quadPieces f hgroups, Bool.true_and,
        Option.any_some, decide_eq_true_eq]
      omega

/-- What is written between the colons. -/
theorem mem_withTail {f : IPv6Text} {tail : List (List Char)} {c : Char}
    (hc : c ∈ f.withTail tail) : c = ':' ∨ Numeral.digit c < 16 ∨ ∃ piece ∈ tail, c ∈ piece := by
  have hdigit : ∀ {groups : List (List Char)}, (∀ g ∈ groups, isGroup g = true) →
      (∃ piece ∈ groups ++ tail, c ∈ piece) → Numeral.digit c < 16 ∨ ∃ piece ∈ tail, c ∈ piece := by
    rintro groups hgroups ⟨piece, hpiece, hc⟩
    rcases List.mem_append.mp hpiece with hpiece | hpiece
    · exact Or.inl ((isGroup_iff.mp (hgroups piece hpiece)).2.2 c hc)
    · exact Or.inr ⟨piece, hpiece, hc⟩
  unfold withTail at hc
  cases hright : f.right with
  | none =>
      rw [hright] at hc
      exact (mem_of_mem_intercalate hc).imp_right (hdigit f.isGroup_left)
  | some right =>
      have hgroups := f.isGroup_of_right hright
      rw [hright] at hc
      simp only [List.mem_append, List.mem_cons] at hc
      rcases hc with hc | hc | hc | hc
      · refine (mem_of_mem_intercalate hc).imp_right fun ⟨piece, hpiece, hc⟩ => ?_
        exact Or.inl ((isGroup_iff.mp (f.isGroup_left piece hpiece)).2.2 c hc)
      · exact Or.inl hc
      · exact Or.inl hc
      · exact (mem_of_mem_intercalate hc).imp_right (hdigit hgroups)

theorem mem_body {f : IPv6Text} {c : Char} (hc : c ∈ f.body) :
    c = ':' ∨ c = '.' ∨ Numeral.digit c < 16 := by
  rcases mem_withTail hc with hc | hc | ⟨piece, hpiece, hc⟩
  · exact Or.inl hc
  · exact Or.inr (Or.inr hc)
  · obtain ⟨a, rfl⟩ := mem_quadPieces hpiece
    exact Or.inr ((mem_text hc).imp_right fun hlt => by omega)

theorem quad_le_two (f : IPv6Text) : (f.quad.elim 0 fun _ => 2) ≤ 2 := by
  cases f.quad with
  | none => exact Nat.zero_le 2
  | some a => exact le_rfl

theorem colon_mem_body (f : IPv6Text) : ':' ∈ f.body := by
  unfold body withTail
  cases hright : f.right with
  | none =>
      have hfull := f.full hright
      have hquad := f.quad_le_two
      have htwo : 1 < f.left.length := by omega
      obtain ⟨g, g', rest, hleft⟩ : ∃ g g' rest, f.left = g :: g' :: rest := by
        match hleft : f.left with
        | [] => simp [hleft] at htwo
        | [_] => simp [hleft] at htwo
        | g :: g' :: rest => exact ⟨g, g', rest, rfl⟩
      rw [hleft, List.cons_append, List.cons_append, List.intercalate_cons_cons]
      simp
  | some right => simp

theorem percent_not_mem_body (f : IPv6Text) : '%' ∉ f.body := by
  intro h
  rcases mem_body h with h | h | h
  · exact absurd h (by decide)
  · exact absurd h (by decide)
  · exact absurd h (by decide)

theorem percent_not_mem_zone {zone : List Char} (h : ∀ c ∈ zone, isZoneChar c = true) :
    '%' ∉ zone := by
  intro hmem
  exact absurd (h '%' hmem) (by decide)

/-- An accepted text without a zone. -/
theorem exists_of_isBody {l : List Char} (h : isBody l = true) :
    ∃ f : IPv6Text, f.zone = none ∧ f.body = l := by
  have hjoined := intercalate_splitDouble ':' l
  unfold isBody at h
  split at h
  · next whole hpieces =>
      rw [hpieces, List.intercalate_singleton] at hjoined
      obtain ⟨groups, quad, hwhole, hgroups, hcount⟩ :=
        countGroups_eq_some.mp (of_decide_eq_true h)
      refine ⟨⟨groups, none, quad, none, hgroups, by simp, fun _ => hcount, by simp, by simp,
        by simp⟩, rfl, ?_⟩
      have hcolons : [':'].intercalate (whole.splitOn ':') = whole := List.intercalate_splitOn ':'
      rw [← hjoined, ← hcolons, hwhole]
      rfl
  · next left right hpieces =>
      rw [hpieces, List.intercalate_cons_cons, List.intercalate_singleton] at hjoined
      rw [Bool.and_eq_true, List.all_eq_true, Option.any_eq_true] at h
      obtain ⟨hleft, n, hn, hle⟩ := h
      obtain ⟨groups, quad, hright, hgroups, hcount⟩ := countGroups_eq_some.mp hn
      refine ⟨⟨colonPieces left, some groups, quad, none, hleft, hgroups, by simp, ?_, by simp,
        by simp⟩, rfl, ?_⟩
      · rintro _ ⟨rfl⟩
        rw [decide_eq_true_eq] at hle
        omega
      · have hhalf : ∀ half, [':'].intercalate (colonPieces half) = half := by
          intro half
          unfold colonPieces
          split
          · next hempty => rw [hempty, List.intercalate_nil]
          · exact List.intercalate_splitOn ':'
        rw [← hjoined]
        change [':'].intercalate (colonPieces left) ++ ':' :: ':' :: [':'].intercalate
          (groups ++ quad.elim [] fun a => [a.text]) = left ++ [':', ':'] ++ right
        rw [← hright, hhalf, hhalf, List.append_assoc]
        rfl
  · cases h

theorem isIPv6_iff {l : List Char} : isIPv6 l = true ↔ ∃ f : IPv6Text, f.text = l := by
  constructor
  · intro h
    unfold isIPv6 at h
    have hjoined : ['%'].intercalate (l.splitOn '%') = l := List.intercalate_splitOn '%'
    split at h
    · next body hpieces =>
        rw [hpieces, List.intercalate_singleton] at hjoined
        obtain ⟨f, hzone, hbody⟩ := exists_of_isBody h
        exact ⟨f, by rw [text, hzone, hbody, ← hjoined]; simp⟩
    · next body zone hpieces =>
        rw [hpieces, List.intercalate_cons_cons, List.intercalate_singleton] at hjoined
        rw [Bool.and_eq_true, Bool.and_eq_true, decide_eq_true_eq, List.all_eq_true] at h
        obtain ⟨f, -, hbody⟩ := exists_of_isBody h.1.1
        refine ⟨{ f with zone := some zone, zone_ne_nil := by simpa using h.1.2,
                         isZoneChar_zone := h.2 }, ?_⟩
        change f.body ++ '%' :: zone = l
        rw [hbody, ← hjoined, List.append_assoc]
        rfl
    · cases h
  · rintro ⟨f, rfl⟩
    unfold isIPv6 text
    cases hzone : f.zone with
    | none =>
        rw [Option.elim_none, List.append_nil, List.splitOn_eq_singleton f.percent_not_mem_body]
        exact f.isBody_body
    | some zone =>
        have hchars : ∀ c ∈ zone, isZoneChar c = true := by
          have hall := f.isZoneChar_zone
          rwa [hzone] at hall
        have hne : zone ≠ [] := by
          have hnot := f.zone_ne_nil
          rwa [hzone, Ne, Option.some_inj] at hnot
        rw [Option.elim_some, splitOn_cut f.percent_not_mem_body,
          List.splitOn_eq_singleton (percent_not_mem_zone hchars)]
        simp only [f.isBody_body, hne, ne_eq, not_false_eq_true, decide_true, Bool.true_and,
          List.all_eq_true]
        exact hchars

end Pieces

section Address

theorem groups_lt (a : IPv4) : ∀ g ∈ a.groups, g < 0x10000 := by
  simp only [IPv4.groups, List.forall_mem_cons]
  exact ⟨by omega, by omega, by simp⟩

/-- The `::` leaves room for the groups that are written. -/
theorem count_le (f : IPv6Text) :
    f.left.length + (f.right.getD []).length + (f.quad.elim 0 fun _ => 2) ≤ 8 := by
  cases hright : f.right with
  | none =>
      have hfull := f.full hright
      rw [Option.getD_none, List.length_nil]
      omega
  | some right =>
      have hcompressed := f.compressed right hright
      rw [Option.getD_some]
      omega

theorem length_writtenGroups (f : IPv6Text) :
    f.writtenGroups.length + (f.quad.elim 0 fun _ => 2) = 8 := by
  have hle := f.count_le
  simp only [writtenGroups, missing, List.length_append, List.length_replicate]
  omega

theorem isGroup_writtenGroups (f : IPv6Text) : ∀ g ∈ f.writtenGroups, Net.isGroup g = true := by
  intro g hg
  rw [writtenGroups, List.mem_append, List.mem_append] at hg
  rcases hg with (hg | hg) | hg
  · exact f.isGroup_left g hg
  · rw [List.eq_of_mem_replicate hg]
    decide
  · exact f.isGroup_right g hg

theorem value_lt_of_isGroup {g : List Char} (hg : Net.isGroup g = true) :
    Numeral.value 16 g < 0x10000 := by
  obtain ⟨-, hlength, hdigits⟩ := Net.isGroup_iff.mp hg
  exact (Numeral.value_lt hdigits).trans_le (Nat.pow_le_pow_right (by decide) hlength)

/-- The address that a text spells. -/
def address (f : IPv6Text) : IPv6 where
  groups := f.values
  length_eq := by
    have hcount := f.length_writtenGroups
    rw [values, List.length_append, List.length_map]
    cases hquad : f.quad with
    | none =>
        rw [hquad] at hcount
        exact hcount
    | some a =>
        rw [hquad] at hcount
        exact hcount
  group_lt := by
    intro n hn
    rcases List.mem_append.mp hn with hn | hn
    · obtain ⟨g, hg, rfl⟩ := List.mem_map.mp hn
      exact value_lt_of_isGroup (f.isGroup_writtenGroups g hg)
    · cases hquad : f.quad with
      | none =>
          rw [hquad] at hn
          cases hn
      | some a =>
          rw [hquad] at hn
          exact groups_lt a n hn

end Address

end IPv6Text

/-- An address of either version. -/
inductive Address
  | v4 (a : IPv4)
  | v6 (a : IPv6)

inductive AddressText
  | v4 (a : IPv4)
  | v6 (f : IPv6Text)

namespace AddressText

def text : AddressText → String
  | v4 a => String.ofList a.text
  | v6 f => String.ofList f.text

def address : AddressText → Address
  | v4 a => .v4 a
  | v6 f => .v6 f.address

end AddressText

namespace Net

theorem isIP_v4 (a : IPv4) : isIP (String.ofList a.text) = 4 := by
  rw [isIP, String.toList_ofList, if_pos (isIPv4_iff.mpr ⟨a, rfl⟩)]

theorem isIP_v6 (f : IPv6Text) : isIP (String.ofList f.text) = 6 := by
  have hcolon : ':' ∈ f.text := List.mem_append_left _ f.colon_mem_body
  have hnot : ¬ isIPv4 f.text = true := by
    rw [isIPv4_iff]
    rintro ⟨a, ha⟩
    rw [ha] at hcolon
    exact (IPv6Text.isPiece_text a).2 hcolon
  rw [isIP, String.toList_ofList, if_neg hnot, if_pos (IPv6Text.isIPv6_iff.mpr ⟨f, rfl⟩)]

/-- The texts that `isIP` accepts. -/
theorem isIP_ne_zero_iff {s : String} : isIP s ≠ 0 ↔ ∃ t : AddressText, t.text = s := by
  constructor
  · intro h
    unfold isIP at h
    split at h
    · next hv4 =>
        obtain ⟨a, ha⟩ := isIPv4_iff.mp hv4
        exact ⟨.v4 a, by rw [AddressText.text, ← ha, String.ofList_toList]⟩
    · split at h
      · next hv6 =>
          obtain ⟨f, hf⟩ := IPv6Text.isIPv6_iff.mp hv6
          exact ⟨.v6 f, by rw [AddressText.text, hf, String.ofList_toList]⟩
      · exact absurd rfl h
  · rintro ⟨t, rfl⟩
    cases t with
    | v4 a =>
        rw [AddressText.text, isIP_v4]
        decide
    | v6 f =>
        rw [AddressText.text, isIP_v6]
        decide

end Net

end EncryptionGateway.JavaScript
