import EncryptionGateway.Proxy.TargetPolicy

/-!
# Prefix rules and path segments

`matchesPath` compares texts. What it decides about a prefix rule is a relation
of two lists of segments: those of the rule begin those of the path.
-/

namespace EncryptionGateway.Proxy.PathConfinement

/-- The segments a prefix rule spells; a final slash adds none. -/
def ruleSegments (path : String) : List (List Char) :=
  if "/".toList <:+ path.toList then (path.toList.splitOn '/').dropLast
  else path.toList.splitOn '/'

theorem ruleSegments_of_slash {path : String} {front : List Char}
    (h : path.toList = front ++ ['/']) : ruleSegments path = front.splitOn '/' := by
  have hsplit : path.toList.splitOn '/' = front.splitOn '/' ++ [[]] := by
    rw [h, List.splitOn_append_cons_self, List.splitOn_nil]
  have hends : "/".toList <:+ path.toList := h ▸ List.suffix_append front _
  rw [ruleSegments, if_pos hends, hsplit, List.dropLast_concat]

end EncryptionGateway.Proxy.PathConfinement

namespace EncryptionGateway.Proxy.TargetPolicy

open JavaScript Foundation PathConfinement

/-- The pieces of a path between its slashes, empty ones included. -/
def segments (path : String) : List (List Char) := path.toList.splitOn '/'

def EndsInSlash (path : String) : Prop := "/".toList <:+ path.toList

/-- The segments of the rule begin those of the path, and leave a rest when the
rule ends in a slash. -/
def SegmentPrefix (path pathname : String) : Prop :=
  ruleSegments path <+: segments pathname ∧
    (EndsInSlash path → ruleSegments path ≠ segments pathname)

theorem segmentPrefix_of_slash {path pathname : String} {front : List Char}
    (h : path.toList = front ++ ['/']) :
    SegmentPrefix path pathname ↔ path.toList <+: pathname.toList := by
  have hends : EndsInSlash path := by
    rw [EndsInSlash, h]
    exact List.suffix_append front _
  rw [SegmentPrefix, ruleSegments_of_slash h, segments, forall_prop_of_true hends,
    Splitting.splitOn_properPrefix_iff, h]

theorem segmentPrefix_of_no_slash {path pathname : String} (h : ¬ EndsInSlash path) :
    SegmentPrefix path pathname ↔ path = pathname ∨ path.toList ++ ['/'] <+: pathname.toList := by
  have hrule : ruleSegments path = path.toList.splitOn '/' := if_neg h
  rw [SegmentPrefix, hrule, segments, Splitting.splitOn_isPrefix_iff, String.toList_inj]
  exact and_iff_left fun hends => absurd hends h

/-- A prefix rule matches the paths that begin with its segments. -/
theorem matchesPath_prefix_iff {rule : Rule} {pathname : String} (hrule : rule.isPrefix = true)
    (habsolute : ['/'] <+: pathname.toList) :
    matchesPath rule pathname = true ↔ SegmentPrefix rule.path pathname := by
  unfold matchesPath
  rw [hrule, if_neg (by decide)]
  by_cases hends : EndsInSlash rule.path
  · obtain ⟨front, hfront⟩ := hends
    rw [segmentPrefix_of_slash hfront.symm]
    split
    · next hroot =>
        rw [hroot]
        exact iff_of_true rfl habsolute
    · split
      · next heq => exact iff_of_true rfl (heq ▸ List.prefix_refl _)
      · rw [if_pos (List.isSuffixOf_iff_suffix.mpr ⟨front, hfront⟩), startsWith_iff]
  · rw [segmentPrefix_of_no_slash hends]
    have hroot : rule.path ≠ "/" := by
      intro hroot
      exact hends (hroot ▸ List.suffix_refl _)
    rw [if_neg hroot]
    split
    · next heq => exact iff_of_true rfl (Or.inl heq.symm)
    · next hne =>
        rw [if_neg (fun h => hends (List.isSuffixOf_iff_suffix.mp h)), startsWith_iff,
          String.toList_append]
        exact (or_iff_right (Ne.symm hne)).symm

/-- A prefix rule matches exactly by whole segments: never a segment of which it
spells the beginning, and every path when it is a slash alone. -/
theorem prefix_rule_matches_segments (rule : Rule) (hrule : rule.isPrefix = true) :
    (∀ pathname, ['/'] <+: pathname.toList →
      (matchesPath rule pathname = true ↔
        ruleSegments rule.path <+: segments pathname ∧
          (EndsInSlash rule.path → ruleSegments rule.path ≠ segments pathname))) ∧
    (∀ (c : Char) (more : List Char), ['/'] <+: rule.path.toList → ¬ EndsInSlash rule.path →
      c ≠ '/' → matchesPath rule (rule.path ++ String.ofList (c :: more)) = false) ∧
    (rule.path = "/" → ∀ pathname, matchesPath rule pathname = true) := by
  refine ⟨fun pathname habsolute => matchesPath_prefix_iff hrule habsolute, ?_, ?_⟩
  · intro c more habsolute hends hc
    have hlonger : (rule.path ++ String.ofList (c :: more)).toList =
        rule.path.toList ++ c :: more := by
      rw [String.toList_append, String.toList_ofList]
    rw [← Bool.not_eq_true, matchesPath_prefix_iff hrule (hlonger ▸ habsolute.trans
      (List.prefix_append _ _)), segmentPrefix_of_no_slash hends, ← String.toList_inj, hlonger]
    rintro (heq | hprefix)
    · have hlength := congrArg List.length heq
      simp at hlength
    · obtain ⟨rest, hrest⟩ := hprefix
      rw [List.append_assoc] at hrest
      have hhead := (List.cons.inj (List.append_cancel_left hrest)).1
      exact hc hhead.symm
  · intro hroot pathname
    rw [matchesPath, hrule, if_neg (by decide), if_pos hroot]

section Samples

def adminRule : Rule where
  method := "*"
  host := "api.example.com"
  path := "/admin"
  isPrefix := true
  source := "api.example.com/admin*"

/-- The path of another service whose name only starts like it. -/
theorem prefix_rule_matches_segments_admin :
    matchesPath adminRule "/admin/users" = true ∧
      matchesPath adminRule "/administrator" = false := by
  obtain ⟨hmatches, hlonger, -⟩ := prefix_rule_matches_segments adminRule rfl
  constructor
  · refine (hmatches "/admin/users" ⟨"admin/users".toList, rfl⟩).mpr ⟨?_, ?_⟩
    · have hrule : ruleSegments adminRule.path = [[], "admin".toList] := by decide +kernel
      have hpath : segments "/admin/users" = [[], "admin".toList, "users".toList] := by
        decide +kernel
      rw [hrule, hpath]
      exact ⟨["users".toList], rfl⟩
    · intro hends
      exact absurd (List.isSuffixOf_iff_suffix.mpr hends) (by decide)
  · have hends : ¬ EndsInSlash adminRule.path := fun hends =>
      absurd (List.isSuffixOf_iff_suffix.mpr hends) (by decide)
    exact hlonger 'i' "strator".toList ⟨"admin".toList, rfl⟩ hends (by decide)

end Samples

end EncryptionGateway.Proxy.TargetPolicy
