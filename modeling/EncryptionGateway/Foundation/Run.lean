import Mathlib.Data.List.Basic
import Mathlib.Data.List.Infix

/-!
# Runs of labelled transition systems

A run lists the labels of its steps in the order in which they were taken. The
rules below are the only inductions over runs: an invariant of the state, an
invariant relating the state to the labels so far, the cut of a run at any one
of its labels, and the part of a run that a component sees.
-/

namespace EncryptionGateway.Foundation

variable {S L : Type*}

/-- `Run step s tr t`: the steps labelled `tr` lead from `s` to `t`. -/
inductive Run (step : S → L → S → Prop) : S → List L → S → Prop
  | nil (s : S) : Run step s [] s
  | cons {s t u : S} {l : L} {tr : List L} (head : step s l t) (tail : Run step t tr u) :
      Run step s (l :: tr) u

namespace Run

variable {step : S → L → S → Prop} {s t u : S} {l : L} {tr tr' : List L}

theorem append (h₁ : Run step s tr t) (h₂ : Run step t tr' u) : Run step s (tr ++ tr') u := by
  induction h₁ with
  | nil => exact h₂
  | cons head _ ih => exact cons head (ih h₂)

theorem snoc (h : Run step s tr t) (hl : step t l u) : Run step s (tr ++ [l]) u :=
  h.append (cons hl (nil u))

/-- A run of a concatenation passes through a state between the two parts. -/
theorem append_iff : Run step s (tr ++ tr') u ↔ ∃ t, Run step s tr t ∧ Run step t tr' u := by
  refine ⟨fun h => ?_, fun ⟨_, h₁, h₂⟩ => h₁.append h₂⟩
  induction tr generalizing s with
  | nil => exact ⟨s, nil s, h⟩
  | cons l tr ih =>
      cases h with
      | cons head tail =>
          obtain ⟨t, h₁, h₂⟩ := ih tail
          exact ⟨t, cons head h₁, h₂⟩

/-- Cutting a run at one of its labels exposes that step. -/
theorem at_label {pre post : List L} (h : Run step s (pre ++ l :: post) u) :
    ∃ t t', Run step s pre t ∧ step t l t' ∧ Run step t' post u := by
  obtain ⟨t, hpre, hrest⟩ := append_iff.mp h
  cases hrest with
  | cons head tail => exact ⟨t, _, hpre, head, tail⟩

/-- Induction along a run from its first step to its last. The motive sees the
labels taken so far. -/
theorem snoc_induction {motive : List L → S → Prop} (h : Run step s tr u)
    (init : motive [] s)
    (next : ∀ {tr l t u}, Run step s tr t → motive tr t → step t l u →
      motive (tr ++ [l]) u) : motive tr u := by
  induction tr using List.reverseRecOn generalizing u with
  | nil => cases h; exact init
  | append_singleton tr l ih =>
      obtain ⟨t, hpre, hlast⟩ := append_iff.mp h
      cases hlast with
      | cons head tail =>
          cases tail
          exact next hpre (ih hpre) head

/-- What holds first and is preserved by every step holds at the end. -/
theorem invariant {I : S → Prop} (h : Run step s tr u) (init : I s)
    (next : ∀ {t l u}, I t → step t l u → I u) : I u :=
  h.snoc_induction (motive := fun _ t => I t) init fun _ ht hl => next ht hl

/-- Where a label decides the step, the labels decide the run. -/
theorem deterministic (h : Run step s tr t) (h' : Run step s tr u)
    (hstep : ∀ {s l t t'}, step s l t → step s l t' → t = t') : t = u := by
  induction h with
  | nil s =>
      cases h'
      rfl
  | cons head tail ih =>
      cases h' with
      | cons head' tail' =>
          cases hstep head head'
          exact ih tail'

/-- Weakening the step relation. -/
theorem mono {step' : S → L → S → Prop} (h : Run step s tr u)
    (hle : ∀ {t l u}, step t l u → step' t l u) : Run step' s tr u := by
  induction h with
  | nil s => exact nil s
  | cons head _ ih => exact cons (hle head) ih

/-- A relation that every step preserves against some step of another system
carries whole runs over, label by label. -/
theorem simulation {T : Type*} {step' : T → L → T → Prop} {R : S → T → Prop} {s' : S} {t : T}
    (h : Run step s tr s') (hR : R s t)
    (hstep : ∀ {s l s' t}, R s t → step s l s' → ∃ t', step' t l t' ∧ R s' t') :
    ∃ t', Run step' t tr t' ∧ R s' t' := by
  induction h generalizing t with
  | nil s => exact ⟨t, nil t, hR⟩
  | cons head _ ih =>
      obtain ⟨t₁, hhead, hR₁⟩ := hstep hR head
      obtain ⟨t', htail, hR'⟩ := ih hR₁
      exact ⟨t', cons hhead htail, hR'⟩

/-- A second system that takes part in some of the steps, and stands still
during the others, runs along the labels it sees. -/
theorem projection {T M : Type*} (step' : T → M → T → Prop) (view : L → Option M) {R : S → T → Prop}
    {s' : S} {t : T} (h : Run step s tr s') (hR : R s t)
    (hstill : ∀ {s l s' t}, R s t → step s l s' → view l = none → R s' t)
    (hstep : ∀ {s l s' t m}, R s t → step s l s' → view l = some m → ∃ t', step' t m t' ∧ R s' t') :
    ∃ t', Run step' t (tr.filterMap view) t' ∧ R s' t' := by
  induction h generalizing t with
  | nil s => exact ⟨t, nil t, hR⟩
  | @cons _ _ _ l _ head _ ih =>
      cases hview : view l with
      | none =>
          rw [List.filterMap_cons_none hview]
          exact ih (hstill hR head hview)
      | some m =>
          obtain ⟨t₁, hhead, hR₁⟩ := hstep hR head hview
          obtain ⟨t', htail, hR'⟩ := ih hR₁
          rw [List.filterMap_cons_some hview]
          exact ⟨t', cons hhead htail, hR'⟩

end Run

section Positions

variable {tr : List L} {k : ℕ} {e l : L}

/-- A position of a history keeps its label when the history grows. -/
theorem at_append (h : tr[k]? = some e) (more : List L) : (tr ++ more)[k]? = some e := by
  rw [List.getElem?_append_left (List.getElem?_eq_some_iff.mp h).1, h]

theorem at_snoc_iff : (tr ++ [l])[k]? = some e ↔ tr[k]? = some e ∨ k = tr.length ∧ e = l := by
  rcases Nat.lt_trichotomy k tr.length with hlt | rfl | hgt
  · rw [List.getElem?_append_left hlt]
    exact ⟨Or.inl, fun h => h.resolve_right fun ⟨he, _⟩ => absurd he (Nat.ne_of_lt hlt)⟩
  · rw [List.getElem?_concat_length, List.getElem?_eq_none_iff.mpr le_rfl]
    constructor
    · intro h
      exact Or.inr ⟨rfl, (Option.some.inj h).symm⟩
    · rintro (h | ⟨_, rfl⟩)
      · cases h
      · rfl
  · have hlen : (tr ++ [l]).length ≤ k := by simp; omega
    rw [List.getElem?_eq_none_iff.mpr hlen, List.getElem?_eq_none_iff.mpr hgt.le]
    constructor
    · intro h
      cases h
    · rintro (h | ⟨rfl, _⟩)
      · cases h
      · exact absurd hgt (Nat.lt_irrefl _)

theorem at_last : (tr ++ [l])[tr.length]? = some l := List.getElem?_concat_length

/-- Cutting a history at a position. -/
theorem split_at (h : tr[k]? = some e) : ∃ pre post, tr = pre ++ e :: post ∧ pre.length = k := by
  obtain ⟨hk, rfl⟩ := List.getElem?_eq_some_iff.mp h
  refine ⟨tr.take k, tr.drop (k + 1), ?_, by simp [hk.le]⟩
  rw [List.getElem_cons_drop, List.take_append_drop]

/-- The step of a run at a position. -/
theorem Run.at_index {step : S → L → S → Prop} {s u : S} (h : Run step s tr u)
    (hk : k < tr.length) : ∃ t t', Run step s (tr.take k) t ∧ step t tr[k] t' := by
  have hsplit : tr = tr.take k ++ tr[k] :: tr.drop (k + 1) := by
    rw [List.getElem_cons_drop, List.take_append_drop]
  obtain ⟨t, t', hpre, hstep, -⟩ := Run.at_label (hsplit ▸ h)
  exact ⟨t, t', hpre, hstep⟩

theorem lt_length_of_at (h : tr[k]? = some e) : k < tr.length := (List.getElem?_eq_some_iff.mp h).1

end Positions

end EncryptionGateway.Foundation
