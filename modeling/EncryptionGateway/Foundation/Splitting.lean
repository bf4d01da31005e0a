import Mathlib.Data.List.Basic
import Mathlib.Data.List.DropRight
import Mathlib.Data.List.Infix

/-!
# Pieces between separators

`List.splitOn` cuts a list at every occurrence of a separator, `splitDouble` at
every doubled one. The rules below say how the pieces lie in the list, and how
they change when an element-wise decoding is applied before the cut.
-/

namespace EncryptionGateway.Foundation.Splitting

variable {α β : Type*}

section Joined

theorem mem_of_mem_intercalate {a x : α} {pieces : List (List α)}
    (h : x ∈ [a].intercalate pieces) : x = a ∨ ∃ q ∈ pieces, x ∈ q := by
  induction pieces with
  | nil => cases h
  | cons q rest ih =>
      by_cases hrest : rest = []
      · rw [hrest, List.intercalate_singleton] at h
        exact Or.inr ⟨q, List.mem_cons_self, h⟩
      · rw [List.intercalate_cons_of_ne_nil hrest, List.mem_append, List.mem_append,
          List.mem_singleton] at h
        rcases h with (h | h) | h
        · exact Or.inr ⟨q, List.mem_cons_self, h⟩
        · exact Or.inl h
        · exact (ih h).imp_right fun ⟨q', hq', hx⟩ => ⟨q', List.mem_cons_of_mem q hq', hx⟩

/-- What stands before a piece are earlier pieces and separators. -/
theorem intercalate_append_cons (a : α) (front : List (List α)) (piece : List α)
    (rest : List (List α)) :
    ∃ before after, [a].intercalate (front ++ piece :: rest) = before ++ piece ++ after ∧
      ∀ x ∈ before, x = a ∨ ∃ q ∈ front, x ∈ q := by
  induction front with
  | nil =>
      cases rest with
      | nil => exact ⟨[], [], by simp, by simp⟩
      | cons next rest =>
          exact ⟨[], a :: [a].intercalate (next :: rest), by simp, by simp⟩
  | cons first front ih =>
      obtain ⟨before, after, heq, hbefore⟩ := ih
      refine ⟨first ++ a :: before, after, ?_, ?_⟩
      · rw [List.cons_append, List.intercalate_cons_of_ne_nil (by simp), heq]
        simp
      · intro x hx
        rcases List.mem_append.mp hx with hx | hx
        · exact Or.inr ⟨first, List.mem_cons_self, hx⟩
        · rcases List.mem_cons.mp hx with rfl | hx
          · exact Or.inl rfl
          · obtain h | ⟨q, hq, hx⟩ := hbefore x hx
            · exact Or.inl h
            · exact Or.inr ⟨q, List.mem_cons_of_mem first hq, hx⟩

theorem intercalate_append (sep : List α) {l m : List (List α)} (hl : l ≠ []) (hm : m ≠ []) :
    sep.intercalate (l ++ m) = sep.intercalate l ++ sep ++ sep.intercalate m := by
  induction l with
  | nil => exact absurd rfl hl
  | cons piece l ih =>
      by_cases hrest : l = []
      · rw [hrest, List.singleton_append, List.intercalate_singleton,
          List.intercalate_cons_of_ne_nil hm]
      · rw [List.cons_append, List.intercalate_cons_of_ne_nil (by simp [hrest]), ih hrest,
          List.intercalate_cons_of_ne_nil hrest]
        simp only [List.append_assoc]

theorem map_intercalate (f : α → β) (sep : List α) (pieces : List (List α)) :
    (sep.intercalate pieces).map f = (sep.map f).intercalate (pieces.map (List.map f)) := by
  induction pieces with
  | nil => rfl
  | cons piece rest ih =>
      by_cases hrest : rest = []
      · simp [hrest]
      · rw [List.intercalate_cons_of_ne_nil hrest, List.map_append, List.map_append, ih,
          List.map_cons, List.intercalate_cons_of_ne_nil (by simpa using hrest)]

end Joined

section Pieces

variable [DecidableEq α]

/-- Induction on the first separator of a list. -/
theorem cut_induction {motive : List α → Prop} (a : α) (last : ∀ l, a ∉ l → motive l)
    (cut : ∀ piece rest, a ∉ piece → motive rest → motive (piece ++ a :: rest)) (l : List α) :
    motive l := by
  by_cases h : a ∈ l
  · obtain ⟨piece, rest, rfl, hpiece⟩ := List.eq_append_cons_of_mem h
    exact cut piece rest hpiece (cut_induction a last cut rest)
  · exact last l h
termination_by l.length
decreasing_by
  subst_vars
  simp
  omega

theorem splitOn_cut {a : α} {piece : List α} (h : a ∉ piece) (rest : List α) :
    (piece ++ a :: rest).splitOn a = piece :: rest.splitOn a :=
  List.splitOn_append_cons_self_of_not_mem h rest

/-- The two ends of a piece are ends of the list or separators. -/
def Bounded (a : α) (before after : List α) : Prop :=
  (before = [] ∨ [a] <:+ before) ∧ (after = [] ∨ [a] <+: after)

theorem mem_splitOn_of_bounded {a : α} {piece before after : List α} (hpiece : a ∉ piece)
    (h : Bounded a before after) : piece ∈ (before ++ piece ++ after).splitOn a := by
  have hfirst : piece ∈ (piece ++ after).splitOn a := by
    rcases h.2 with rfl | ⟨rest, rfl⟩
    · rw [List.append_nil, List.splitOn_eq_singleton hpiece]
      exact List.mem_singleton_self piece
    · rw [List.singleton_append, splitOn_cut hpiece]
      exact List.mem_cons_self
  rcases h.1 with rfl | ⟨start, rfl⟩
  · exact hfirst
  · rw [List.append_assoc, List.append_assoc, List.singleton_append,
      List.splitOn_append_cons_self]
    exact List.mem_append_right _ hfirst

/-- The pieces are the separator-free segments between two separators or ends. -/
theorem mem_splitOn_iff {a : α} {piece l : List α} :
    piece ∈ l.splitOn a ↔
      a ∉ piece ∧ ∃ before after, l = before ++ piece ++ after ∧ Bounded a before after := by
  refine ⟨fun h => ?_, fun ⟨hpiece, _, _, hl, hb⟩ => hl ▸ mem_splitOn_of_bounded hpiece hb⟩
  induction l using cut_induction a with
  | last l hl =>
      rw [List.splitOn_eq_singleton hl, List.mem_singleton] at h
      subst h
      exact ⟨hl, [], [], by simp, Or.inl rfl, Or.inl rfl⟩
  | cut first rest hfirst ih =>
      rw [splitOn_cut hfirst, List.mem_cons] at h
      rcases h with rfl | h
      · exact ⟨hfirst, [], a :: rest, by simp, Or.inl rfl, Or.inr (by simp)⟩
      · obtain ⟨hpiece, before, after, rfl, hbefore, hafter⟩ := ih h
        refine ⟨hpiece, first ++ a :: before, after, by simp, Or.inr ?_, hafter⟩
        rcases hbefore with rfl | ⟨start, rfl⟩
        · exact List.suffix_append _ _
        · exact ⟨first ++ a :: start, by simp⟩

/-- The pieces determine the list. -/
theorem splitOn_injective {a : α} {l l' : List α} (h : l.splitOn a = l'.splitOn a) : l = l' := by
  have hjoined : [a].intercalate (l.splitOn a) = l := List.intercalate_splitOn a
  rw [← hjoined, h, List.intercalate_splitOn]

/-- The pieces of one list are the first pieces of another when it ends where a
piece of the other does. -/
theorem splitOn_isPrefix_iff {a : α} {l l' : List α} :
    l.splitOn a <+: l'.splitOn a ↔ l = l' ∨ l ++ [a] <+: l' := by
  constructor
  · rintro ⟨more, hmore⟩
    cases more with
    | nil =>
        rw [List.append_nil] at hmore
        exact Or.inl (splitOn_injective hmore)
    | cons piece more =>
        have hpieces : ∀ q ∈ piece :: more, a ∉ q := fun q hq =>
          (mem_splitOn_iff.mp (hmore ▸ List.mem_append_right (l.splitOn a) hq)).1
        have hrest := List.splitOn_intercalate a hpieces (List.cons_ne_nil piece more)
        have hcut : (l ++ a :: [a].intercalate (piece :: more)).splitOn a = l'.splitOn a := by
          rw [List.splitOn_append_cons_self, hrest, hmore]
        refine Or.inr ⟨[a].intercalate (piece :: more), ?_⟩
        rw [List.append_assoc]
        exact splitOn_injective hcut
  · rintro (rfl | ⟨rest, rfl⟩)
    · exact List.prefix_refl _
    · rw [List.append_assoc, List.singleton_append, List.splitOn_append_cons_self]
      exact List.prefix_append _ _

/-- They are not all of the pieces exactly when a separator follows. -/
theorem splitOn_properPrefix_iff {a : α} {l l' : List α} :
    l.splitOn a <+: l'.splitOn a ∧ l.splitOn a ≠ l'.splitOn a ↔ l ++ [a] <+: l' := by
  rw [splitOn_isPrefix_iff]
  constructor
  · rintro ⟨rfl | hprefix, hne⟩
    · exact absurd rfl hne
    · exact hprefix
  · intro hprefix
    refine ⟨Or.inr hprefix, fun heq => ?_⟩
    have hlength := hprefix.length_le
    rw [splitOn_injective heq, List.length_append, List.length_singleton] at hlength
    omega

/-- Decoding before or after the cut makes no difference, when it keeps the
separators and makes no others. -/
theorem splitOnP_decode {decode : List α → List β} {a : α} {p : β → Bool} {b : β}
    (hcut : ∀ piece rest, decode (piece ++ a :: rest) = decode piece ++ b :: decode rest)
    (hb : p b = true) {l : List α}
    (hpieces : ∀ piece ∈ l.splitOn a, ∀ x ∈ decode piece, p x = false) :
    (decode l).splitOnP p = (l.splitOn a).map decode := by
  induction l using cut_induction a with
  | last l h =>
      rw [List.splitOn_eq_singleton h] at hpieces ⊢
      exact List.splitOnP_eq_singleton (hpieces l (List.mem_singleton_self l))
  | cut first rest hfirst ih =>
      rw [splitOn_cut hfirst] at hpieces ⊢
      rw [hcut, List.splitOnP_append_cons _ _ hb, List.map_cons,
        List.splitOnP_eq_singleton (hpieces first List.mem_cons_self),
        ih fun piece hp => hpieces piece (List.mem_cons_of_mem _ hp), List.singleton_append]

end Pieces

section Doubled

/-- The list in front of the first piece. -/
def attach (l : List α) : List (List α) → List (List α)
  | [] => [l]
  | piece :: rest => (l ++ piece) :: rest

theorem attach_attach (l m : List α) (pieces : List (List α)) :
    attach l (attach m pieces) = attach (l ++ m) pieces := by
  cases pieces with
  | nil => rfl
  | cons piece rest => simp [attach]

variable [DecidableEq α]

/-- Cuts a list at every doubled separator, from the left. -/
def splitDouble (a : α) : List α → List (List α)
  | [] => [[]]
  | [x] => [[x]]
  | x :: y :: rest =>
      if x = a ∧ y = a then [] :: splitDouble a rest else attach [x] (splitDouble a (y :: rest))

theorem splitDouble_ne_nil (a : α) (l : List α) : splitDouble a l ≠ [] := by
  fun_cases splitDouble a l with
  | case4 x y rest _ => cases splitDouble a (y :: rest) <;> simp [attach]
  | _ => simp

theorem splitDouble_double (a : α) (rest : List α) :
    splitDouble a (a :: a :: rest) = [] :: splitDouble a rest := by
  rw [splitDouble, if_pos ⟨rfl, rfl⟩]

/-- An element that does not begin a doubled separator stays in its piece. -/
theorem splitDouble_cons {a x : α} {l : List α} (h : x ≠ a ∨ l.head? ≠ some a) :
    splitDouble a (x :: l) = attach [x] (splitDouble a l) := by
  cases l with
  | nil => rfl
  | cons y rest =>
      rw [splitDouble, if_neg]
      rintro ⟨hx, hy⟩
      exact h.elim (fun h => h hx) (fun h => h (congrArg some hy))

theorem splitDouble_append {a : α} {q : List α} (hq : a ∉ q) (l : List α) :
    splitDouble a (q ++ l) = attach q (splitDouble a l) := by
  induction q with
  | nil =>
      obtain ⟨piece, rest, hpieces⟩ := List.exists_cons_of_ne_nil (splitDouble_ne_nil a l)
      rw [List.nil_append, hpieces]
      rfl
  | cons x q ih =>
      rw [List.mem_cons, not_or] at hq
      rw [List.cons_append, splitDouble_cons (Or.inl (Ne.symm hq.1)), ih hq.2, attach_attach]
      rfl

/-- Pieces that are joined by single separators make one piece. -/
theorem splitDouble_intercalate {a : α} {pieces more : List (List α)} {rest : List α}
    (hpieces : ∀ q ∈ pieces, q ≠ [] ∧ a ∉ q) (hrest : splitDouble a rest = [] :: more) :
    splitDouble a ([a].intercalate pieces ++ rest) = [a].intercalate pieces :: more := by
  induction pieces with
  | nil => exact hrest
  | cons q qs ih =>
      obtain ⟨hq, hqs⟩ := List.forall_mem_cons.mp hpieces
      cases qs with
      | nil =>
          rw [List.intercalate_singleton, splitDouble_append hq.2, hrest]
          simp [attach]
      | cons q' qs =>
          have hhead : ([a].intercalate (q' :: qs) ++ rest).head? ≠ some a := by
            obtain ⟨hne, hnot⟩ := hqs q' List.mem_cons_self
            obtain ⟨x, q', rfl⟩ := List.exists_cons_of_ne_nil hne
            cases qs with
            | nil =>
                rw [List.intercalate_singleton]
                simpa using fun h : x = a => hnot (h ▸ List.mem_cons_self)
            | cons q'' qs =>
                rw [List.intercalate_cons_cons]
                simpa using fun h : x = a => hnot (h ▸ List.mem_cons_self)
          rw [List.intercalate_cons_cons, List.append_assoc, List.append_assoc,
            splitDouble_append hq.2, List.singleton_append, splitDouble_cons (Or.inr hhead), ih hqs]
          simp [attach]

/-- The pieces make up the list again. -/
theorem intercalate_splitDouble (a : α) (l : List α) :
    [a, a].intercalate (splitDouble a l) = l := by
  have hattach : ∀ (x : α) (pieces : List (List α)), pieces ≠ [] →
      [a, a].intercalate (attach [x] pieces) = x :: [a, a].intercalate pieces := by
    intro x pieces hne
    obtain ⟨piece, rest, rfl⟩ := List.exists_cons_of_ne_nil hne
    cases rest with
    | nil => simp [attach]
    | cons next rest => simp [attach, List.intercalate_cons_cons]
  fun_induction splitDouble a l with
  | case1 => rfl
  | case2 x => rfl
  | case3 x y rest h ih =>
      obtain ⟨rfl, rfl⟩ := h
      rw [List.intercalate_cons_of_ne_nil (splitDouble_ne_nil _ _), ih]
      rfl
  | case4 x y rest h ih => rw [hattach x _ (splitDouble_ne_nil _ _), ih]

end Doubled

end EncryptionGateway.Foundation.Splitting
