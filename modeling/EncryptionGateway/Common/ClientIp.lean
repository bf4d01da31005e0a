import EncryptionGateway.JavaScript.NetAddress

/-!
# Client keys

`clientIpKey` is the key a request is counted under: the address itself for
IPv4, the upper 64 bits for IPv6, and the IPv4 address for a mapped one. Whether
an address is mapped is read off its text.
-/

namespace EncryptionGateway.Common

open JavaScript Foundation Splitting

namespace ClientIp

/-- The text around the last colon. -/
def lastColon (l : List Char) : Option (List Char × List Char) :=
  match l.reverse.dropWhile fun c => c ≠ ':' with
  | [] => none
  | _ :: front => some (front.reverse, (l.reverse.takeWhile fun c => c ≠ ':').reverse)

/-- `(((x << 8) | y) >>> 0).toString(16)`, for two octets. -/
def hexGroup (x y : ℕ) : List Char := Nat.toDigits 16 (x <<< 8 ||| y)

/-- An IPv4 address at the end, rewritten as two groups. -/
def undotted (value : List Char) : Option (List Char) :=
  if '.' ∈ value then
    match lastColon value with
    | none => none
    | some (front, ipv4) =>
        if Net.isIP (String.ofList ipv4) ≠ 4 then none
        else
          match (ipv4.splitOn '.').map (Numeral.value 10) with
          | [a, b, c, d] => some (front ++ ':' :: (hexGroup a b ++ ':' :: hexGroup c d))
          | _ => none
  else some value

/-- `/^[0-9a-f]{1,4}$/`. -/
def isLowerGroup (l : List Char) : Bool :=
  1 ≤ l.length && l.length ≤ 4 && l.all fun c => c.isDigit || ('a' ≤ c && c ≤ 'f')

/-- The eight groups, zeros in place of the `::`. -/
def groupsOf (value : List Char) : Option (List (List Char)) :=
  let halves := splitDouble ':' value
  let left := Net.colonPieces (halves.headD [])
  let right := if halves.length = 2 then Net.colonPieces (halves.getD 1 []) else []
  let missing : ℤ := 8 - left.length - right.length
  let groups := left ++ List.replicate (max 0 missing).toNat ['0'] ++ right
  if 2 < halves.length then none
  else if halves.length = 1 && left.length ≠ 8 then none
  else if halves.length ≠ 1 && missing < 0 then none
  else if groups.length ≠ 8 then none
  else if groups.any fun group => !isLowerGroup group then none
  else some groups

def expandIpv6 (address : List Char) : Option (List (List Char)) :=
  (undotted address).bind groupsOf

/-- The key of the groups of an IPv6 address. -/
def keyOfGroups (groups : List (List Char)) : List Char :=
  if (groups.take 5).all (fun group => group = ['0']) && groups[5]? = some ['f', 'f', 'f', 'f'] then
    let high := Numeral.value 16 (groups.getD 6 [])
    let low := Numeral.value 16 (groups.getD 7 [])
    ['.'].intercalate
      ([high >>> 8, high &&& 0xff, low >>> 8, low &&& 0xff].map (Nat.toDigits 10))
  else
    [':'].intercalate ((groups.take 4).map fun group => Nat.toDigits 16 (Numeral.value 16 group)) ++
      "::/64".toList

def clientIpKey (ip : Option String) : String :=
  match ip with
  | none => "unknown"
  | some ip =>
      if ip = "" then "unknown"
      else
        let lower := (split (toLowerCase ip) '%').headD ""
        if Net.isIP lower ≠ 6 then lower
        else
          match expandIpv6 lower.toList with
          | none => lower
          | some groups => String.ofList (keyOfGroups groups)

section Expanding

open IPv6Text

/-- An IPv4 tail as the two groups it is rewritten to. -/
def hexPieces (f : IPv6Text) : List (List Char) :=
  f.quad.elim [] fun a => [hexGroup a.a a.b, hexGroup a.c a.d]

theorem lastColon_append (front : List Char) {tail : List Char} (h : ':' ∉ tail) :
    lastColon (front ++ ':' :: tail) = some (front, tail) := by
  have hpass : ∀ c ∈ tail.reverse, decide (c ≠ ':') = true := by
    intro c hc
    rw [decide_eq_true_eq]
    rintro rfl
    exact h (List.mem_reverse.mp hc)
  have hreverse : (front ++ ':' :: tail).reverse = tail.reverse ++ ':' :: front.reverse := by simp
  have hdrop : (tail.reverse ++ ':' :: front.reverse).dropWhile (fun c => decide (c ≠ ':')) =
      ':' :: front.reverse := by
    rw [List.dropWhile_append_of_pos hpass]
    rfl
  have htake : (tail.reverse ++ ':' :: front.reverse).takeWhile (fun c => decide (c ≠ ':')) =
      tail.reverse := by
    rw [List.takeWhile_append_of_pos hpass]
    exact List.append_nil _
  rw [lastColon, hreverse, hdrop]
  simp only [htake, List.reverse_reverse]

/-- What stands before the last pieces ends in a colon. -/
theorem exists_withTail (f : IPv6Text) (hquad : f.quad ≠ none) :
    ∃ front, ∀ tail, tail ≠ [] → f.withTail tail = front ++ ':' :: [':'].intercalate tail := by
  unfold withTail
  cases hright : f.right with
  | none =>
      have hne : f.left ≠ [] := by
        intro hleft
        have hfull := f.full hright
        obtain ⟨a, ha⟩ := Option.ne_none_iff_exists'.mp hquad
        rw [hleft, ha] at hfull
        cases hfull
      refine ⟨[':'].intercalate f.left, fun tail htail => ?_⟩
      rw [intercalate_append _ hne htail, List.append_assoc]
      rfl
  | some right =>
      by_cases hne : right = []
      · refine ⟨[':'].intercalate f.left ++ [':'], fun tail _ => ?_⟩
        simp only [hne, List.nil_append, List.append_assoc, List.singleton_append]
      · refine ⟨[':'].intercalate f.left ++ ':' :: ':' :: [':'].intercalate right,
          fun tail htail => ?_⟩
        simp only [intercalate_append _ hne htail, List.append_assoc, List.cons_append,
          List.nil_append]

theorem undotted_body (f : IPv6Text) : undotted f.body = some (f.withTail (hexPieces f)) := by
  unfold undotted
  cases hquad : f.quad with
  | none =>
      have hdot : '.' ∉ f.body := by
        intro h
        rw [body, quadPieces, hquad] at h
        rcases mem_withTail h with h | h | ⟨piece, hpiece, -⟩
        · exact absurd h (by decide)
        · exact absurd h (by decide)
        · cases hpiece
      rw [if_neg hdot, body, quadPieces, hexPieces, hquad]
      rfl
  | some a =>
      obtain ⟨front, hfront⟩ := exists_withTail f (by simp [hquad])
      have hbody : f.body = front ++ ':' :: a.text := by
        rw [body, quadPieces, hquad, Option.elim_some, hfront _ (List.cons_ne_nil _ _),
          List.intercalate_singleton]
      have hdot : '.' ∈ f.body := by
        rw [hbody]
        exact List.mem_append_right _ (List.mem_cons_of_mem _ (Net.dot_mem_text a))
      have hnumbers : (a.text.splitOn '.').map (Numeral.value 10) = a.octets := by
        rw [Net.splitOn_text, List.map_map]
        conv_rhs => rw [← List.map_id a.octets]
        exact List.map_congr_left fun n _ => Numeral.value_toDigits (by decide) (by decide) n
      rw [if_pos hdot, hbody, lastColon_append front (isPiece_text a).2]
      simp only [Net.isIP_v4, ne_eq, not_true_eq_false, if_false, hnumbers, IPv4.octets]
      rw [hexPieces, hquad, Option.elim_some, hfront _ (List.cons_ne_nil _ _),
        List.intercalate_cons_cons, List.intercalate_singleton, List.append_assoc]
      rfl

end Expanding

section Groups

open IPv6Text

variable {c : Char} {g : List Char}

/-- The lower case of a hexadecimal digit. -/
private theorem lowerChar_spec (h : Numeral.digit c < 16) :
    Numeral.digit (lowerChar c) = Numeral.digit c ∧ lowerChar (lowerChar c) = lowerChar c ∧
      ((lowerChar c).isDigit || ('a' ≤ lowerChar c && lowerChar c ≤ 'f')) = true := by
  have hall := Numeral.ascii_cases (P := fun c => Numeral.digit c < 16 →
      Numeral.digit (lowerChar c) = Numeral.digit c ∧ lowerChar (lowerChar c) = lowerChar c ∧
        ((lowerChar c).isDigit || ('a' ≤ lowerChar c && lowerChar c ≤ 'f')) = true)
    (by decide) (Numeral.toNat_lt_of_digit h)
  exact hall h

theorem lower_lower (hg : Net.isGroup g = true) :
    (g.map lowerChar).map lowerChar = g.map lowerChar := by
  rw [List.map_map]
  exact List.map_congr_left fun c hc =>
    (lowerChar_spec ((Net.isGroup_iff.mp hg).2.2 c hc)).2.1

theorem value_lower (hg : Net.isGroup g = true) :
    Numeral.value 16 (g.map lowerChar) = Numeral.value 16 g :=
  Numeral.value_map 16 fun c hc => (lowerChar_spec ((Net.isGroup_iff.mp hg).2.2 c hc)).1

theorem isLowerGroup_lower (hg : Net.isGroup g = true) : isLowerGroup (g.map lowerChar) = true := by
  obtain ⟨hne, hlength, hdigits⟩ := Net.isGroup_iff.mp hg
  have hpos := List.length_pos_of_ne_nil hne
  simp only [isLowerGroup, List.length_map, Bool.and_eq_true, decide_eq_true_eq, List.all_eq_true]
  refine ⟨⟨hpos, hlength⟩, fun c hc => ?_⟩
  obtain ⟨d, hd, rfl⟩ := List.mem_map.mp hc
  exact (lowerChar_spec (hdigits d hd)).2.2

theorem isGroup_lower (hg : Net.isGroup g = true) : Net.isGroup (g.map lowerChar) = true := by
  obtain ⟨hne, hlength, hdigits⟩ := Net.isGroup_iff.mp hg
  refine Net.isGroup_iff.mpr ⟨by simpa using hne, by simpa using hlength, fun c hc => ?_⟩
  obtain ⟨d, hd, rfl⟩ := List.mem_map.mp hc
  rw [(lowerChar_spec (hdigits d hd)).1]
  exact hdigits d hd

theorem hexGroup_eq (x : ℕ) {y : ℕ} (hy : y < 256) :
    hexGroup x y = Nat.toDigits 16 (x * 256 + y) := by
  have hor : x <<< 8 + y = x <<< 8 ||| y := Nat.shiftLeft_add_eq_or_of_lt hy x
  rw [hexGroup, ← hor, Nat.shiftLeft_eq]

theorem isGroup_toDigits {n : ℕ} (hn : n < 0x10000) : Net.isGroup (Nat.toDigits 16 n) = true :=
  Net.isGroup_iff.mpr ⟨Nat.toDigits_ne_nil,
    (Nat.length_toDigits_le_iff (by decide) (by decide)).mpr hn,
    (Numeral.isNumeral_toDigits (by decide) (by decide) n).digits⟩

theorem lower_toDigits (n : ℕ) : (Nat.toDigits 16 n).map lowerChar = Nat.toDigits 16 n := by
  have hall : ∀ d : Fin 16, lowerChar (Nat.digitChar d) = Nat.digitChar d := by decide
  conv_rhs => rw [← List.map_id (Nat.toDigits 16 n)]
  refine List.map_congr_left fun c hc => ?_
  obtain ⟨d, hd, rfl⟩ := Numeral.mem_toDigits (by decide) hc
  exact hall ⟨d, hd⟩

/-- The two groups of an IPv4 tail. -/
theorem hexPieces_eq (f : IPv6Text) :
    hexPieces f = (f.quad.elim [] IPv4.groups).map (Nat.toDigits 16) := by
  rw [hexPieces]
  cases f.quad with
  | none => rfl
  | some a =>
      rw [Option.elim_some, Option.elim_some, hexGroup_eq _ a.b.isLt, hexGroup_eq _ a.d.isLt]
      rfl

theorem mem_hexPieces {f : IPv6Text} (hg : g ∈ hexPieces f) :
    ∃ n < 0x10000, g = Nat.toDigits 16 n := by
  rw [hexPieces_eq] at hg
  obtain ⟨n, hn, rfl⟩ := List.mem_map.mp hg
  cases hquad : f.quad with
  | none =>
      rw [hquad] at hn
      cases hn
  | some a =>
      rw [hquad] at hn
      exact ⟨n, groups_lt a n hn, rfl⟩

theorem isGroup_hexPieces (f : IPv6Text) : ∀ g ∈ hexPieces f, Net.isGroup g = true := by
  intro g hg
  obtain ⟨n, hn, rfl⟩ := mem_hexPieces hg
  exact isGroup_toDigits hn

theorem length_hexPieces (f : IPv6Text) : (hexPieces f).length = f.quad.elim 0 fun _ => 2 := by
  rw [hexPieces]
  cases f.quad with
  | none => rfl
  | some a => rfl

theorem isLowerGroup_hexPieces (f : IPv6Text) : ∀ g ∈ hexPieces f, isLowerGroup g = true := by
  intro g hg
  have hlower := isLowerGroup_lower (isGroup_hexPieces f g hg)
  obtain ⟨n, -, rfl⟩ := mem_hexPieces hg
  rwa [lower_toDigits] at hlower

/-- What the checks of `groupsOf` ask of the pieces on both sides. -/
theorem groupsOf_eq_some {value : List Char} {halves left right groups : List (List Char)}
    (hhalves : splitDouble ':' value = halves) (htwo : halves.length ≤ 2)
    (hleft : Net.colonPieces (halves.headD []) = left)
    (hright : (if halves.length = 2 then Net.colonPieces (halves.getD 1 []) else []) = right)
    (hwhole : halves.length = 1 → left.length = 8) (hroom : left.length + right.length ≤ 8)
    (hgroups : left ++ List.replicate (8 - (left.length + right.length)) ['0'] ++ right = groups)
    (hlower : ∀ g ∈ groups, isLowerGroup g = true) : groupsOf value = some groups := by
  have hzeros : (max 0 (8 - (left.length : ℤ) - right.length)).toNat =
      8 - (left.length + right.length) := by omega
  have height : groups.length = 8 := by
    rw [← hgroups, List.length_append, List.length_append, List.length_replicate]
    omega
  have hany : ¬ groups.any (fun group => !isLowerGroup group) = true := by
    rw [List.any_eq_true]
    rintro ⟨g, hg, hnot⟩
    rw [hlower g hg] at hnot
    cases hnot
  have hone : ¬ (halves.length = 1 && left.length ≠ 8) = true := by
    rw [Bool.and_eq_true, decide_eq_true_eq, decide_eq_true_eq]
    exact fun h => h.2 (hwhole h.1)
  have hnonneg : ¬ (halves.length ≠ 1 && (8 - (left.length : ℤ) - right.length) < 0) = true := by
    rw [Bool.and_eq_true, decide_eq_true_eq, decide_eq_true_eq]
    omega
  unfold groupsOf
  simp only [hhalves, hleft, hright, hzeros, hgroups]
  rw [if_neg (by omega), if_neg hone, if_neg hnonneg, if_neg (by omega), if_neg hany]

/-- The zeros in place of the `::` make eight groups. -/
theorem groupsOf_withTail {f : IPv6Text} (hlower : ∀ g ∈ f.writtenGroups, isLowerGroup g = true) :
    groupsOf (f.withTail (hexPieces f)) = some (f.writtenGroups ++ hexPieces f) := by
  have hpieces : ∀ p ∈ hexPieces f, IsPiece p := fun p hp =>
    isPiece_of_isGroup (isGroup_hexPieces f p hp)
  have hleft : ∀ p ∈ f.left, IsPiece p := fun p hp => isPiece_of_isGroup (f.isGroup_left p hp)
  have hlength := length_hexPieces f
  have hall : ∀ g ∈ f.writtenGroups ++ hexPieces f, isLowerGroup g = true :=
    List.forall_mem_append.mpr ⟨hlower, isLowerGroup_hexPieces f⟩
  have hhalves := splitDouble_withTail f hpieces
  cases hright : f.right with
  | none =>
      have hfull := f.full hright
      have height : (f.left ++ hexPieces f).length = 8 := by
        rw [List.length_append, hlength, hfull]
      have hgroups : f.writtenGroups = f.left := by
        simp only [writtenGroups, missing, hright, Option.getD_none, List.length_nil, add_zero,
          hfull, Nat.sub_self, List.replicate_zero, List.append_nil]
      rw [hright] at hhalves
      rw [hgroups] at hall ⊢
      apply groupsOf_eq_some hhalves (by simp)
        (colonPieces_intercalate (List.forall_mem_append.mpr ⟨hleft, hpieces⟩)) rfl
        (fun _ => height) (by simp [height]) _ hall
      simp [height]
  | some right =>
      have hgroups := f.isGroup_of_right hright
      have hpair : ∀ p ∈ right ++ hexPieces f, IsPiece p := List.forall_mem_append.mpr
        ⟨fun p hp => isPiece_of_isGroup (hgroups p hp), hpieces⟩
      have hcompressed := f.compressed right hright
      rw [hright] at hhalves
      apply groupsOf_eq_some hhalves le_rfl (colonPieces_intercalate hleft)
        (colonPieces_intercalate hpair) (by simp) _ _ hall
      · rw [List.length_append, hlength]
        omega
      · rw [writtenGroups, missing, hright, Option.getD_some, List.length_append, hlength,
          add_assoc]
        simp only [List.append_assoc]

end Groups

section Lower

open IPv6Text

/-- The text in lower case, without its zone. -/
def lowered (f : IPv6Text) : IPv6Text where
  left := f.left.map (List.map lowerChar)
  right := f.right.map (List.map (List.map lowerChar))
  quad := f.quad
  zone := none
  isGroup_left := by
    intro g hg
    obtain ⟨written, hwritten, rfl⟩ := List.mem_map.mp hg
    exact isGroup_lower (f.isGroup_left written hwritten)
  isGroup_right := by
    cases hright : f.right with
    | none => exact fun g hg => absurd hg List.not_mem_nil
    | some right =>
        intro g hg
        obtain ⟨written, hwritten, rfl⟩ := List.mem_map.mp hg
        exact isGroup_lower (f.isGroup_of_right hright written hwritten)
  full := by
    intro hright
    rw [List.length_map]
    exact f.full (Option.map_eq_none_iff.mp hright)
  compressed := by
    intro groups hgroups
    obtain ⟨right, hright, rfl⟩ := Option.map_eq_some_iff.mp hgroups
    rw [List.length_map, List.length_map]
    exact f.compressed right hright
  zone_ne_nil := by simp
  isZoneChar_zone := by simp

@[simp] theorem left_lowered (f : IPv6Text) :
    (lowered f).left = f.left.map (List.map lowerChar) := rfl

@[simp] theorem right_lowered (f : IPv6Text) :
    (lowered f).right = f.right.map (List.map (List.map lowerChar)) := rfl

@[simp] theorem quad_lowered (f : IPv6Text) : (lowered f).quad = f.quad := rfl

theorem writtenGroups_lowered (f : IPv6Text) :
    (lowered f).writtenGroups = f.writtenGroups.map (List.map lowerChar) := by
  have hright : (lowered f).right.getD [] = (f.right.getD []).map (List.map lowerChar) := by
    rw [right_lowered]
    cases f.right with
    | none => rfl
    | some right => rfl
  have hmissing : (lowered f).missing = f.missing := by
    rw [missing, missing, hright, List.length_map, left_lowered, List.length_map, quad_lowered]
  rw [writtenGroups, writtenGroups, hmissing, hright, List.map_append, List.map_append,
    List.map_replicate]
  rfl

theorem lower_text (a : IPv4) : a.text.map lowerChar = a.text := by
  conv_rhs => rw [← List.map_id a.text]
  refine List.map_congr_left fun c hc => ?_
  have hlow : c.toNat < 65 := by
    rcases Net.mem_text hc with rfl | hdigit
    · decide
    · unfold Numeral.digit at hdigit
      split_ifs at hdigit <;> omega
  exact lowerChar_eq_self (Or.inl hlow) (by omega)

theorem body_lowered (f : IPv6Text) : (lowered f).body = f.body.map lowerChar := by
  have hquad : (lowered f).quadPieces = f.quadPieces.map (List.map lowerChar) := by
    rw [quadPieces, quadPieces, quad_lowered]
    cases f.quad with
    | none => rfl
    | some a =>
        change [a.text] = [a.text.map lowerChar]
        rw [lower_text]
  have hcolon : lowerChar ':' = ':' := by decide
  rw [body, body, hquad, withTail, withTail, left_lowered, right_lowered]
  cases f.right with
  | none =>
      simp only [Option.map_none, List.map_append, map_intercalate, List.map_cons, List.map_nil,
        hcolon]
  | some right =>
      simp only [Option.map_some, List.map_append, map_intercalate, List.map_cons, List.map_nil,
        hcolon]

/-- `ip.toLowerCase().split('%')[0]` cuts the zone off. -/
theorem lower_split (f : IPv6Text) :
    (split (toLowerCase (String.ofList f.text)) '%').headD "" =
      String.ofList (lowered f).text := by
  have htext : (lowered f).text = (lowered f).body := List.append_nil _
  have hnot : '%' ∉ f.body.map lowerChar := by
    rw [← body_lowered]
    exact percent_not_mem_body (lowered f)
  have hpercent : lowerChar '%' = '%' := by decide
  rw [split, toList_toLowerCase, String.toList_ofList, text, List.map_append, htext, body_lowered]
  cases f.zone with
  | none =>
      rw [Option.elim_none, List.map_nil, List.append_nil, List.splitOn_eq_singleton hnot]
      rfl
  | some zone =>
      rw [Option.elim_some, List.map_cons, hpercent, splitOn_cut hnot]
      rfl

theorem expandIpv6_lowered (f : IPv6Text) :
    expandIpv6 (lowered f).text =
      some (f.writtenGroups.map (List.map lowerChar) ++ hexPieces f) := by
  have htext : (lowered f).text = (lowered f).body := List.append_nil _
  have hlower : ∀ g ∈ (lowered f).writtenGroups, isLowerGroup g = true := by
    rw [writtenGroups_lowered]
    intro g hg
    obtain ⟨written, hwritten, rfl⟩ := List.mem_map.mp hg
    exact isLowerGroup_lower (f.isGroup_writtenGroups written hwritten)
  have hhex : hexPieces (lowered f) = hexPieces f := rfl
  rw [expandIpv6, htext, undotted_body, Option.bind_some, groupsOf_withTail hlower,
    writtenGroups_lowered, hhex]

end Lower

end ClientIp

end EncryptionGateway.Common
