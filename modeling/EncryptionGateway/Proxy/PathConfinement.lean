import EncryptionGateway.JavaScript.Base64
import EncryptionGateway.Proxy.RouteMatching

/-!
# Path confinement

An upstream may decode a path before it splits it. A path that a parser has
normalised and that the policy has accepted falls into the same segments before
and after one decoding, and no segment decodes to a dot segment, so a prefix
rule confines the upstream's reading of the path as well.
-/

namespace EncryptionGateway.Proxy.PathConfinement

open JavaScript Foundation TargetPolicy

/-! ## What a parser leaves -/

/-- The spellings of `.` and `..`, in lower case. -/
def dotSpellings : List (List Char) :=
  [".", "%2e", "..", ".%2e", "%2e.", "%2e%2e"].map String.toList

def IsDotSegment (segment : List Char) : Prop := segment.map Char.toLower ∈ dotSpellings

/-- A path name as a parser leaves it: absolute, ASCII, with no backslash and no
dot segment. -/
structure Normalized (pathname : String) : Prop where
  absolute : ∃ rest, pathname.toList = '/' :: rest
  ascii : ∀ c ∈ pathname.toList, c.toNat < 128
  no_backslash : '\\' ∉ pathname.toList
  no_dots : ∀ segment ∈ pathname.toList.splitOn '/', ¬ IsDotSegment segment

/-! ## What an upstream reads -/

def hexValue (c : Char) : Option ℕ :=
  if 48 ≤ c.toNat ∧ c.toNat ≤ 57 then some (c.toNat - 48)
  else if 97 ≤ c.toNat ∧ c.toNat ≤ 102 then some (c.toNat - 87)
  else if 65 ≤ c.toNat ∧ c.toNat ≤ 70 then some (c.toNat - 55)
  else none

/-- One decoding of an ASCII path; a malformed escape stays as it is. -/
def percentDecode : List Char → Bytes
  | '%' :: a :: b :: rest =>
      match hexValue a, hexValue b with
      | some u, some v => UInt8.ofNat (16 * u + v) :: percentDecode rest
      | _, _ => 37 :: percentDecode (a :: b :: rest)
  | c :: rest => UInt8.ofNat c.toNat :: percentDecode rest
  | [] => []

/-- A slash or a backslash. -/
def isSeparator (b : UInt8) : Bool := b = 47 || b = 92

/-- The segments an upstream sees after decoding the whole path. -/
def upstreamSegments (pathname : String) : List Bytes :=
  (percentDecode pathname.toList).splitOnP isSeparator

/-- `.` stays where it is and `..` leaves the last directory. -/
def resolveStep (path : List Bytes) (segment : Bytes) : List Bytes :=
  if segment = [46] then path else if segment = [46, 46] then path.dropLast else path ++ [segment]

/-- The path an upstream serves. -/
def upstreamPath (pathname : String) : List Bytes :=
  (upstreamSegments pathname).foldl resolveStep []

/-! ## Decoding keeps the segments -/

theorem hexValue_eq_some {c : Char} {n : ℕ} (h : hexValue c = some n) :
    n < 16 ∧ (c.toNat = n + 48 ∧ n ≤ 9 ∨ c.toNat = n + 87 ∧ 10 ≤ n ∨
      c.toNat = n + 55 ∧ 10 ≤ n) := by
  unfold hexValue at h
  split at h
  · cases h
    omega
  · split at h
    · cases h
      omega
    · split at h
      · cases h
        omega
      · cases h

/-- The character starts a well-formed escape. -/
def IsEscape (c : Char) (rest : List Char) : Prop :=
  c = '%' ∧ ∃ a b more u v, rest = a :: b :: more ∧ hexValue a = some u ∧ hexValue b = some v

theorem percentDecode_escape {a b : Char} {u v : ℕ} (hu : hexValue a = some u)
    (hv : hexValue b = some v) (rest : List Char) :
    percentDecode ('%' :: a :: b :: rest) = UInt8.ofNat (16 * u + v) :: percentDecode rest := by
  rw [percentDecode, hu, hv]

theorem percentDecode_literal {c : Char} {rest : List Char} (h : ¬ IsEscape c rest) :
    percentDecode (c :: rest) = UInt8.ofNat c.toNat :: percentDecode rest := by
  by_cases hshape : ∃ a b more, c = '%' ∧ rest = a :: b :: more
  · obtain ⟨a, b, more, rfl, rfl⟩ := hshape
    rw [percentDecode]
    split
    · next u v hu hv => exact absurd ⟨rfl, a, b, more, u, v, rfl, hu, hv⟩ h
    · rfl
  · rw [percentDecode]
    exact fun a b more hc hrest => hshape ⟨a, b, more, hc, hrest⟩

/-- The first byte of a decoded path stands for one character or one escape. -/
theorem percentDecode_eq_cons {l : List Char} {x : UInt8} {xs : Bytes}
    (h : percentDecode l = x :: xs) :
    (∃ c rest, l = c :: rest ∧ x = UInt8.ofNat c.toNat ∧ percentDecode rest = xs) ∨
      ∃ a b u v rest, l = '%' :: a :: b :: rest ∧ hexValue a = some u ∧ hexValue b = some v ∧
        x = UInt8.ofNat (16 * u + v) ∧ percentDecode rest = xs := by
  unfold percentDecode at h
  split at h
  · next a b rest =>
      split at h
      · next u v hu hv =>
          obtain ⟨hx, hxs⟩ := List.cons.inj h
          exact Or.inr ⟨a, b, u, v, rest, rfl, hu, hv, hx.symm, hxs⟩
      · obtain ⟨hx, hxs⟩ := List.cons.inj h
        exact Or.inl ⟨'%', a :: b :: rest, rfl, hx.symm, hxs⟩
  · next c rest _ =>
      obtain ⟨hx, hxs⟩ := List.cons.inj h
      exact Or.inl ⟨c, rest, rfl, hx.symm, hxs⟩
  · cases h

theorem percentDecode_eq_nil {l : List Char} (h : percentDecode l = []) : l = [] := by
  unfold percentDecode at h
  split at h
  · split at h <;> cases h
  · cases h
  · rfl

theorem not_isEscape {a b : Char} (h : ∀ u v, hexValue a = some u → hexValue b = some v → False)
    (more : List Char) : ¬ IsEscape '%' (a :: b :: more) := by
  rintro ⟨-, a', b', more', u, v, heq, hu, hv⟩
  obtain ⟨rfl, rfl, -⟩ : a = a' ∧ b = b' ∧ more = more' := by simpa using heq
  exact h u v hu hv

/-- A slash ends an escape. -/
theorem percentDecode_cut (piece rest : List Char) :
    percentDecode (piece ++ '/' :: rest) = percentDecode piece ++ 47 :: percentDecode rest := by
  have hslash : hexValue '/' = none := by decide
  induction piece using percentDecode.induct with
  | case1 a b more u v hu hv ih => simp [percentDecode, hu, hv, ih]
  | case2 a b more hno ih =>
      rw [percentDecode_literal (not_isEscape hno more)]
      exact (percentDecode_literal (not_isEscape hno _)).trans (congrArg _ ih)
  | case3 c more hno ih =>
      have hescape : ∀ tail, more = tail ∨ more ++ '/' :: rest = tail → ¬ IsEscape c tail := by
        rintro tail htail ⟨rfl, a, b, more', u, v, rfl, hu, hv⟩
        rcases htail with rfl | htail
        · exact hno a b more' rfl rfl
        · match more with
          | [] =>
              obtain ⟨rfl, -⟩ := List.cons.inj htail
              rw [hslash] at hu
              cases hu
          | [d] =>
              obtain ⟨-, htail⟩ := List.cons.inj htail
              obtain ⟨rfl, -⟩ := List.cons.inj htail
              rw [hslash] at hv
              cases hv
          | d :: e :: more => exact hno d e more rfl rfl
      rw [percentDecode_literal (hescape more (Or.inl rfl))]
      exact (percentDecode_literal (hescape _ (Or.inr rfl))).trans (congrArg _ ih)
  | case4 => rfl

theorem ofNat_inj_of_lt {m n : ℕ} (hm : m < 256) (hn : n < 256)
    (h : UInt8.ofNat m = UInt8.ofNat n) : m = n := by
  have hnat := congrArg UInt8.toNat h
  rwa [UInt8.toNat_ofNat', UInt8.toNat_ofNat', Nat.mod_eq_of_lt hm, Nat.mod_eq_of_lt hn] at hnat

theorem eq_of_toNat {c d : Char} (h : c.toNat = d.toNat) : c = d := Char.toNat_inj.mp h

/-- The escapes of the two separators are those the policy looks for. -/
theorem encodes_separator {a b : Char} {u v : ℕ}
    (ha : a.toNat = u + 48 ∧ u ≤ 9 ∨ a.toNat = u + 87 ∧ 10 ≤ u ∨ a.toNat = u + 55 ∧ 10 ≤ u)
    (hb : b.toNat = v + 48 ∧ v ≤ 9 ∨ b.toNat = v + 87 ∧ 10 ≤ v ∨ b.toNat = v + 55 ∧ 10 ≤ v)
    (hv : v < 16) (hcode : 16 * u + v = 47 ∨ 16 * u + v = 92) :
    (decide (a = '2') && (decide (b = 'f') || decide (b = 'F')) ||
      decide (a = '5') && (decide (b = 'c') || decide (b = 'C'))) = true := by
  rcases hcode with hcode | hcode
  · obtain rfl : a = '2' := eq_of_toNat (show a.toNat = 50 by omega)
    have hcases : b.toNat = 102 ∨ b.toNat = 70 := by omega
    rcases hcases with hb | hb
    · obtain rfl : b = 'f' := eq_of_toNat hb
      decide
    · obtain rfl : b = 'F' := eq_of_toNat hb
      decide
  · obtain rfl : a = '5' := eq_of_toNat (show a.toNat = 53 by omega)
    have hcases : b.toNat = 99 ∨ b.toNat = 67 := by omega
    rcases hcases with hb | hb
    · obtain rfl : b = 'c' := eq_of_toNat hb
      decide
    · obtain rfl : b = 'C' := eq_of_toNat hb
      decide

/-- A path without encoded slashes decodes to separators only at its own. -/
theorem isSeparator_percentDecode {l : List Char} (hascii : ∀ c ∈ l, c.toNat < 128)
    (hslash : '/' ∉ l) (hbackslash : '\\' ∉ l) (hencoded : hasEncodedSlash l = false) :
    ∀ x ∈ percentDecode l, isSeparator x = false := by
  induction l using percentDecode.induct with
  | case1 a b rest u v hv hu ih =>
      simp only [List.mem_cons, not_or] at hslash hbackslash
      rw [percentDecode_escape hu hv, List.forall_mem_cons]
      constructor
      · obtain ⟨hu16, ha⟩ := hexValue_eq_some hu
        obtain ⟨hv16, hb⟩ := hexValue_eq_some hv
        rw [hasEncodedSlash, Bool.or_eq_false_iff] at hencoded
        by_contra hsep
        simp only [isSeparator, Bool.not_eq_false, Bool.or_eq_true, decide_eq_true_eq] at hsep
        have hcode : 16 * u + v = 47 ∨ 16 * u + v = 92 :=
          hsep.imp (fun h => ofNat_inj_of_lt (by omega) (by decide) h)
            (fun h => ofNat_inj_of_lt (by omega) (by decide) h)
        refine absurd hencoded.1 (ne_of_eq_of_ne (encodes_separator ha hb hv16 hcode) (by decide))
      · exact ih (fun c hc => hascii c (by simp [hc])) hslash.2.2.2 hbackslash.2.2.2
          (hasEncodedSlash_cons (hasEncodedSlash_cons (hasEncodedSlash_cons hencoded)))
  | case2 a b rest hno ih =>
      rw [percentDecode_literal (not_isEscape hno rest), List.forall_mem_cons]
      exact ⟨by decide, ih (fun c hc => hascii c (List.mem_cons_of_mem _ hc))
        (fun h => hslash (List.mem_cons_of_mem _ h))
        (fun h => hbackslash (List.mem_cons_of_mem _ h))
        (hasEncodedSlash_cons hencoded)⟩
  | case3 c rest hno ih =>
      have hescape : ¬ IsEscape c rest := by
        rintro ⟨hc, a, b, more, -, -, hrest, -⟩
        exact hno a b more hc hrest
      rw [percentDecode_literal hescape, List.forall_mem_cons]
      refine ⟨?_, ih (fun d hd => hascii d (List.mem_cons_of_mem _ hd))
        (fun h => hslash (List.mem_cons_of_mem _ h))
        (fun h => hbackslash (List.mem_cons_of_mem _ h))
        (hasEncodedSlash_cons hencoded)⟩
      by_contra hsep
      simp only [isSeparator, Bool.not_eq_false, Bool.or_eq_true, decide_eq_true_eq] at hsep
      have hlt := hascii c List.mem_cons_self
      rcases hsep with h | h
      · have hcode : c.toNat = 47 := ofNat_inj_of_lt (by omega) (by decide) h
        exact hslash (eq_of_toNat (d := '/') hcode ▸ List.mem_cons_self)
      · have hcode : c.toNat = 92 := ofNat_inj_of_lt (by omega) (by decide) h
        exact hbackslash (eq_of_toNat (d := '\\') hcode ▸ List.mem_cons_self)
  | case4 => simp [percentDecode]

/-- Decoding the path and splitting it is decoding its segments. -/
theorem upstreamSegments_eq {pathname : String} (hnormal : Normalized pathname)
    (hencoded : hasEncodedSlash pathname.toList = false) :
    upstreamSegments pathname = (pathname.toList.splitOn '/').map percentDecode := by
  refine Splitting.splitOnP_decode percentDecode_cut rfl ?_
  intro piece hpiece
  obtain ⟨hslash, before, after, hpath, -⟩ := Splitting.mem_splitOn_iff.mp hpiece
  have hpart : piece <:+: pathname.toList := ⟨before, after, hpath.symm⟩
  exact isSeparator_percentDecode (fun c hc => hnormal.ascii c (hpart.subset hc)) hslash
    (fun h => hnormal.no_backslash (hpart.subset h)) (hasEncodedSlash_of_part hpart hencoded)

/-! ## No decoded segment is a dot segment -/

/-- The spellings of a dot. -/
theorem dot_of_percentDecode {l : List Char} {xs : Bytes} (hascii : ∀ c ∈ l, c.toNat < 128)
    (h : percentDecode l = 46 :: xs) :
    ∃ rest, percentDecode rest = xs ∧ (∀ c ∈ rest, c.toNat < 128) ∧
      (l.map Char.toLower = '.' :: rest.map Char.toLower ∨
        l.map Char.toLower = '%' :: '2' :: 'e' :: rest.map Char.toLower) := by
  rcases percentDecode_eq_cons h with ⟨c, rest, rfl, hc, hrest⟩ |
    ⟨a, b, u, v, rest, rfl, hu, hv, hx, hrest⟩
  · refine ⟨rest, hrest, fun d hd => hascii d (List.mem_cons_of_mem _ hd), Or.inl ?_⟩
    have hlt := hascii c List.mem_cons_self
    have hcode : (46 : ℕ) = c.toNat := ofNat_inj_of_lt (by decide) (by omega) hc
    obtain rfl : c = '.' := eq_of_toNat hcode.symm
    rfl
  · refine ⟨rest, hrest, fun d hd => hascii d (by simp [hd]), Or.inr ?_⟩
    obtain ⟨hu16, ha⟩ := hexValue_eq_some hu
    obtain ⟨hv16, hb⟩ := hexValue_eq_some hv
    have hcode : (46 : ℕ) = 16 * u + v := ofNat_inj_of_lt (by decide) (by omega) hx
    obtain rfl : a = '2' := eq_of_toNat (show a.toNat = 50 by omega)
    have hcases : b.toNat = 101 ∨ b.toNat = 69 := by omega
    rcases hcases with hb | hb
    · obtain rfl : b = 'e' := eq_of_toNat hb
      rfl
    · obtain rfl : b = 'E' := eq_of_toNat hb
      rfl

theorem isDotSegment_of_percentDecode {segment : List Char}
    (hascii : ∀ c ∈ segment, c.toNat < 128)
    (h : percentDecode segment = [46] ∨ percentDecode segment = [46, 46]) :
    IsDotSegment segment := by
  rcases h with h | h
  · obtain ⟨rest, hrest, -, hspell⟩ := dot_of_percentDecode hascii h
    rw [percentDecode_eq_nil hrest] at hspell
    rcases hspell with hspell | hspell <;> rw [IsDotSegment, hspell] <;> decide
  · obtain ⟨rest, hrest, hascii', hspell⟩ := dot_of_percentDecode hascii h
    obtain ⟨rest', hrest', -, hspell'⟩ := dot_of_percentDecode hascii' hrest
    rw [percentDecode_eq_nil hrest'] at hspell'
    rcases hspell with hspell | hspell <;> rcases hspell' with hspell' | hspell' <;>
      rw [IsDotSegment, hspell, hspell'] <;> decide

/-- Without dot segments there is nothing to resolve. -/
theorem foldl_resolveStep {segments : List Bytes} (h : ∀ s ∈ segments, s ≠ [46] ∧ s ≠ [46, 46])
    (path : List Bytes) : segments.foldl resolveStep path = path ++ segments := by
  induction segments generalizing path with
  | nil => simp
  | cons s rest ih =>
      obtain ⟨hdot, hdots⟩ := h s List.mem_cons_self
      rw [List.foldl_cons, resolveStep, if_neg hdot, if_neg hdots,
        ih fun s hs => h s (List.mem_cons_of_mem _ hs), List.append_assoc, List.singleton_append]

theorem upstreamPath_eq {pathname : String} (hnormal : Normalized pathname)
    (hencoded : hasEncodedSlash pathname.toList = false) :
    upstreamPath pathname = (pathname.toList.splitOn '/').map percentDecode := by
  rw [upstreamPath, upstreamSegments_eq hnormal hencoded, foldl_resolveStep, List.nil_append]
  intro s hs
  obtain ⟨segment, hsegment, rfl⟩ := List.mem_map.mp hs
  obtain ⟨-, before, after, hpath, -⟩ := Splitting.mem_splitOn_iff.mp hsegment
  have hpart : segment <:+: pathname.toList := ⟨before, after, hpath.symm⟩
  rw [← not_or]
  exact fun hdot => hnormal.no_dots segment hsegment
    (isDotSegment_of_percentDecode (fun c hc => hnormal.ascii c (hpart.subset hc)) hdot)

/-! ## Prefix rules -/

/-- A path matched by a prefix rule starts with the segments of the rule. -/
theorem ruleSegments_isPrefix {rule : Rule} {pathname : String} (hrule : rule.isPrefix = true)
    (habsolute : ∃ rest, pathname.toList = '/' :: rest)
    (hmatch : matchesPath rule pathname = true) :
    ruleSegments rule.path <+: pathname.toList.splitOn '/' := by
  obtain ⟨rest, hrest⟩ := habsolute
  have hslash : ['/'] <+: pathname.toList := ⟨rest, hrest.symm⟩
  obtain ⟨hsegments, -⟩ := (matchesPath_prefix_iff hrule hslash).mp hmatch
  exact hsegments

/-- What a prefix rule lets pass stays below it in an upstream that decodes the
path once before it splits and resolves it. -/
theorem prefix_rule_confines (policy : TargetPolicy) (method : String) (url : Url) (rule : Rule)
    (hnormal : Normalized url.pathname) (hallowed : policy.assertAllowed method url = .ok ())
    (hrule : rule.isPrefix = true) (hadmits : admits method url rule = true) :
    (ruleSegments rule.path).map percentDecode <+: upstreamPath url.pathname := by
  obtain ⟨hencoded, -⟩ := assertAllowed_eq_ok.mp hallowed
  obtain ⟨-, -, hmatch⟩ := admits_iff.mp hadmits
  rw [upstreamPath_eq hnormal hencoded]
  exact (ruleSegments_isPrefix hrule hnormal.absolute hmatch).map percentDecode

section Samples

def publicRule : Rule where
  method := "*"
  host := "api.example.com"
  path := "/public/"
  isPrefix := true
  source := "api.example.com/public/*"

/-- What a parser makes of `https://api.example.com/public/%2e%2e/public/a%252fb`. -/
def publicUrl : Url where
  protocol := "https:"
  hostname := "api.example.com"
  port := none
  pathname := "/public/a%252fb"
  href := "https://api.example.com/public/a%252fb"

theorem publicUrl_normalized : Normalized publicUrl.pathname where
  absolute := ⟨_, rfl⟩
  ascii := by
    have hall : (publicUrl.pathname.toList.all fun c => decide (c.toNat < 128)) = true := by decide
    simpa using hall
  no_backslash := by decide
  no_dots := by
    have hsplit : publicUrl.pathname.toList.splitOn '/' =
        [[], "public".toList, "a%252fb".toList] := by decide +kernel
    rw [hsplit]
    simp only [IsDotSegment]
    decide

theorem prefix_rule_confines_public :
    (ruleSegments "/public/").map percentDecode <+: upstreamPath "/public/a%252fb" := by
  have hadmits : admits "GET" publicUrl publicRule = true := by decide
  exact prefix_rule_confines ⟨[publicRule]⟩ "GET" publicUrl publicRule publicUrl_normalized
    (assertAllowed_eq_ok.mpr ⟨by decide, publicRule, List.mem_singleton_self _, hadmits⟩)
    rfl hadmits

end Samples

end EncryptionGateway.Proxy.PathConfinement
