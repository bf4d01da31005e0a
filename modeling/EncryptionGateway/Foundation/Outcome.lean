import Mathlib.Data.List.Forall2

/-!
# Computations that may throw

When a sequence of steps in `Except` succeeds: every step of it does.
-/

namespace EncryptionGateway.Foundation

universe u

variable {ε : Type*} {α β : Type u}

theorem bind_eq_ok {x : Except ε α} {f : α → Except ε β} {b : β} :
    (x >>= f) = .ok b ↔ ∃ a, x = .ok a ∧ f a = .ok b := by
  cases x with
  | error e => simp [bind, Except.bind]
  | ok a => simp [bind, Except.bind]

/-- Throws `e` unless the condition holds. -/
def require (c : Bool) (e : ε) : Except ε Unit := if c then .ok () else .error e

@[simp] theorem require_eq_ok {c : Bool} {e : ε} {u : Unit} : require c e = .ok u ↔ c = true := by
  cases c <;> simp [require]

theorem require_eq_error {c : Bool} {e e' : ε} :
    require c e = .error e' ↔ c = false ∧ e = e' := by
  cases c <;> simp [require]

/-- The value, or the exception `e` when there is none. -/
def ofOption (e : ε) : Option α → Except ε α
  | some a => .ok a
  | none => .error e

@[simp] theorem ofOption_eq_ok {e : ε} {x : Option α} {a : α} :
    ofOption e x = .ok a ↔ x = some a := by
  cases x <;> simp [ofOption]

theorem bind_eq_error {x : Except ε α} {f : α → Except ε β} {e : ε} :
    (x >>= f) = .error e ↔ x = .error e ∨ ∃ a, x = .ok a ∧ f a = .error e := by
  cases x <;> simp [bind, Except.bind]

theorem map_eq_ok {x : Except ε α} {f : α → β} {b : β} :
    x.map f = .ok b ↔ ∃ a, x = .ok a ∧ f a = b := by
  cases x <;> simp [Except.map]

theorem map_bind {γ : Type u} (x : Except ε α) (f : α → Except ε β) (g : β → γ) :
    (x >>= f).map g = x >>= fun a => (f a).map g := by
  cases x <;> rfl

theorem mapError_eq_ok {ε' : Type*} {x : Except ε α} {f : ε → ε'} {a : α} :
    x.mapError f = .ok a ↔ x = .ok a := by
  cases x <;> simp [Except.mapError]

/-- A loop succeeds when its body does on every element. -/
theorem forM_eq_ok {l : List α} {f : α → Except ε PUnit} {u : PUnit} :
    l.forM f = .ok u ↔ ∀ a ∈ l, f a = .ok () := by
  induction l with
  | nil => simp [pure, Except.pure]
  | cons a rest ih =>
      rw [List.forM_eq_forM] at ih ⊢
      rw [List.forM_cons, bind_eq_ok, List.forall_mem_cons, ← ih]
      exact ⟨fun ⟨_, h₁, h₂⟩ => ⟨h₁, h₂⟩, fun ⟨h₁, h₂⟩ => ⟨(), h₁, h₂⟩⟩

theorem mapM_eq_ok {l : List α} {f : α → Except ε β} {bs : List β} :
    l.mapM f = .ok bs ↔ List.Forall₂ (fun a b => f a = .ok b) l bs := by
  induction l generalizing bs with
  | nil => simp [pure, Except.pure, eq_comm]
  | cons a rest ih =>
      rw [List.mapM_cons, bind_eq_ok]
      constructor
      · rintro ⟨b, hb, h⟩
        obtain ⟨tail, htail, hbs⟩ := bind_eq_ok.mp h
        cases hbs
        exact List.Forall₂.cons hb (ih.mp htail)
      · intro h
        cases h with
        | cons hb htail => exact ⟨_, hb, bind_eq_ok.mpr ⟨_, ih.mpr htail, rfl⟩⟩

/-- The results of a loop are those of its elements. -/
theorem mem_iff_of_forall₂ {l : List α} {f : α → Except ε β} {bs : List β}
    (h : List.Forall₂ (fun a b => f a = .ok b) l bs) {b : β} : b ∈ bs ↔ ∃ a ∈ l, f a = .ok b := by
  induction h with
  | nil => simp
  | @cons a b' l bs hab _ ih =>
      rw [List.mem_cons, ih, List.exists_mem_cons_iff, hab, Except.ok.injEq, eq_comm]

/-- Every element of a loop that succeeds has its result. -/
theorem exists_of_forall₂ {l : List α} {f : α → Except ε β} {bs : List β}
    (h : List.Forall₂ (fun a b => f a = .ok b) l bs) {a : α} (ha : a ∈ l) :
    ∃ b ∈ bs, f a = .ok b := by
  induction h with
  | nil => cases ha
  | @cons a' b l bs hab _ ih =>
      rcases List.mem_cons.mp ha with rfl | ha
      · exact ⟨b, List.mem_cons_self, hab⟩
      · obtain ⟨b', hb', hfa⟩ := ih ha
        exact ⟨b', List.mem_cons_of_mem b hb', hfa⟩

/-- Every exception that can be thrown satisfies `P`. -/
def ThrowsOnly (P : ε → Prop) (x : Except ε α) : Prop := ∀ e, x = .error e → P e

section ThrowsOnly

variable {P : ε → Prop}

theorem throwsOnly_ok {a : α} : ThrowsOnly P (.ok a : Except ε α) := fun _ h => by cases h

theorem throwsOnly_error {e : ε} (h : P e) : ThrowsOnly P (.error e : Except ε α) := by
  intro e' he
  cases he
  exact h

theorem throwsOnly_require {c : Bool} {e : ε} (h : P e) : ThrowsOnly P (require c e) := by
  intro e' he
  exact (require_eq_error.mp he).2 ▸ h

theorem throwsOnly_ofOption {e : ε} (h : P e) {x : Option α} : ThrowsOnly P (ofOption e x) := by
  cases x with
  | some a => exact throwsOnly_ok
  | none => exact throwsOnly_error h

theorem ThrowsOnly.bind {x : Except ε α} {f : α → Except ε β} (hx : ThrowsOnly P x)
    (hf : ∀ a, ThrowsOnly P (f a)) : ThrowsOnly P (x >>= f) := by
  intro e he
  rcases bind_eq_error.mp he with he | ⟨a, -, he⟩
  · exact hx e he
  · exact hf a e he

theorem ThrowsOnly.map {x : Except ε α} (hx : ThrowsOnly P x) (f : α → β) :
    ThrowsOnly P (x.map f) := by
  cases x with
  | ok a => exact throwsOnly_ok
  | error e => exact throwsOnly_error (hx e rfl)

theorem throwsOnly_mapError {ε' : Type*} {P : ε' → Prop} {f : ε → ε'} (hf : ∀ e, P (f e))
    (x : Except ε α) : ThrowsOnly P (x.mapError f) := by
  cases x with
  | ok a => exact throwsOnly_ok
  | error e => exact throwsOnly_error (hf e)

theorem throwsOnly_forM {l : List α} {f : α → Except ε PUnit} (hf : ∀ a ∈ l, ThrowsOnly P (f a)) :
    ThrowsOnly P (l.forM f) := by
  induction l with
  | nil => exact throwsOnly_ok
  | cons a rest ih =>
      rw [List.forM_eq_forM] at ih ⊢
      rw [List.forM_cons]
      exact (hf a List.mem_cons_self).bind fun _ => ih fun b hb => hf b (List.mem_cons_of_mem a hb)

end ThrowsOnly

/-- Where `P` holds the computation succeeds with a value in `V`, and where it
does not it fails with an error in `B`. -/
def Settles (P : Prop) (V : α → Prop) (B : ε → Prop) (x : Except ε α) : Prop :=
  P ∧ (∃ a, x = .ok a ∧ V a) ∨ ¬ P ∧ ∃ e, x = .error e ∧ B e

section Settles

variable {P Q : Prop} {V : α → Prop} {W : β → Prop} {B C : ε → Prop} {x : Except ε α}

/-- A computation settles whether it succeeds. -/
theorem settles_self (hB : ∀ e, x = .error e → B e) :
    Settles (∃ a, x = .ok a) (fun a => x = .ok a) B x := by
  cases x with
  | ok a => exact Or.inl ⟨⟨a, rfl⟩, a, rfl, rfl⟩
  | error e =>
      refine Or.inr ⟨?_, e, rfl, hB e rfl⟩
      rintro ⟨_, h⟩
      cases h

theorem Settles.bind {f : α → Except ε β} (hx : Settles P V B x)
    (hf : ∀ a, V a → Settles Q W B (f a)) : Settles (P ∧ Q) W B (x >>= f) := by
  rcases hx with ⟨hP, a, rfl, ha⟩ | ⟨hP, e, rfl, he⟩
  · rcases hf a ha with ⟨hQ, hok⟩ | ⟨hQ, herror⟩
    · exact Or.inl ⟨⟨hP, hQ⟩, hok⟩
    · exact Or.inr ⟨fun h => hQ h.2, herror⟩
  · exact Or.inr ⟨fun h => hP h.1, e, rfl, he⟩

theorem Settles.map {f : α → β} (hx : Settles P V B x) (hf : ∀ a, V a → W (f a)) :
    Settles P W B (x.map f) := by
  rcases hx with ⟨hP, a, rfl, ha⟩ | ⟨hP, e, rfl, he⟩
  · exact Or.inl ⟨hP, f a, rfl, hf a ha⟩
  · exact Or.inr ⟨hP, e, rfl, he⟩

theorem Settles.congr (hx : Settles P V B x) (hPQ : P ↔ Q) (hB : ∀ e, ¬ P → B e → C e) :
    Settles Q V C x := by
  rcases hx with ⟨hP, hok⟩ | ⟨hP, e, hx, he⟩
  · exact Or.inl ⟨hPQ.mp hP, hok⟩
  · exact Or.inr ⟨fun h => hP (hPQ.mpr h), e, hx, hB e hP he⟩

/-- The value is the one the computation has. -/
theorem Settles.value (hx : Settles P V B x) : Settles P (fun a => x = .ok a) B x := by
  rcases hx with ⟨hP, a, rfl, -⟩ | hfails
  · exact Or.inl ⟨hP, a, rfl, rfl⟩
  · exact Or.inr hfails

/-- A loop fails with the error of one of its elements. -/
theorem settles_mapM (l : List α) (f : α → Except ε β) :
    Settles (∀ a ∈ l, ∃ b, f a = .ok b) (List.Forall₂ (fun a b => f a = .ok b) l)
      (fun e => ∃ a ∈ l, f a = .error e) (l.mapM f) := by
  induction l with
  | nil => exact Or.inl ⟨by simp, [], rfl, .nil⟩
  | cons a l ih =>
      rw [List.mapM_cons]
      have hhead : Settles (∃ b, f a = .ok b) (fun b => f a = .ok b)
          (fun e => ∃ a' ∈ a :: l, f a' = .error e) (f a) :=
        settles_self fun e he => ⟨a, List.mem_cons_self, he⟩
      have htail : Settles (∀ a' ∈ l, ∃ b, f a' = .ok b) (List.Forall₂ (fun a b => f a = .ok b) l)
          (fun e => ∃ a' ∈ a :: l, f a' = .error e) (l.mapM f) :=
        ih.congr Iff.rfl fun e _ ⟨a', ha', he⟩ => ⟨a', List.mem_cons_of_mem a ha', he⟩
      have hall := hhead.bind fun b hb => htail.map fun bs hbs =>
        List.Forall₂.cons (R := fun a b => f a = .ok b) hb hbs
      exact hall.congr (by rw [List.forall_mem_cons]) fun _ _ he => he

/-- A check of a value that may be missing. -/
theorem settles_forM (o : Option α) (f : α → Except ε PUnit) :
    Settles (∀ a ∈ o, f a = .ok ⟨⟩) (fun _ => True) (fun e => ∃ a ∈ o, f a = .error e)
      (o.forM f) := by
  cases o with
  | none => exact Or.inl ⟨by simp, ⟨⟩, rfl, trivial⟩
  | some a =>
      cases h : f a with
      | ok => exact Or.inl ⟨by simp [h], ⟨⟩, h, trivial⟩
      | error e => exact Or.inr ⟨by simp [h], e, h, a, rfl, h⟩

theorem Settles.exists_iff (hx : Settles P V B x) : (∃ a, x = .ok a) ↔ P := by
  rcases hx with ⟨hP, a, rfl, -⟩ | ⟨hP, e, rfl, -⟩
  · exact ⟨fun _ => hP, fun _ => ⟨a, rfl⟩⟩
  · exact ⟨fun ⟨_, h⟩ => (by cases h), fun h => absurd h hP⟩

theorem Settles.of_ok (hx : Settles P V B x) {a : α} (h : x = .ok a) : V a := by
  rcases hx with ⟨-, a', h', ha⟩ | ⟨-, e, h', -⟩
  · rw [h] at h'
    cases h'
    exact ha
  · rw [h] at h'
    cases h'

theorem Settles.of_error (hx : Settles P V B x) {e : ε} (h : x = .error e) : B e := by
  rcases hx with ⟨-, a, h', -⟩ | ⟨-, e', h', he⟩
  · rw [h] at h'
    cases h'
  · rw [h] at h'
    cases h'
    exact he

end Settles

section CheckedFolds

variable {σ : Type u} {f : σ → α → Except ε σ} {p : α → Bool} {g : σ → α → σ} {e : α → ε}

/-- A fold whose body tests the element alone succeeds when every element
passes, with the result of the fold without the test. -/
theorem foldlM_checked_eq_ok (hf : ∀ s a, f s a = if p a then .ok (g s a) else .error (e a))
    {l : List α} {s r : σ} :
    l.foldlM f s = .ok r ↔ (∀ a ∈ l, p a = true) ∧ l.foldl g s = r := by
  induction l generalizing s with
  | nil => simp [pure, Except.pure]
  | cons a rest ih =>
      rw [List.foldlM_cons, List.forall_mem_cons, List.foldl_cons, hf]
      cases hp : p a with
      | true => simp [bind, Except.bind, ih]
      | false => simp [bind, Except.bind]

theorem foldlM_checked_eq_error (hf : ∀ s a, f s a = if p a then .ok (g s a) else .error (e a))
    {l : List α} {s : σ} {err : ε} (h : l.foldlM f s = .error err) :
    ∃ a ∈ l, p a = false ∧ err = e a := by
  induction l generalizing s with
  | nil => simp [pure, Except.pure] at h
  | cons a rest ih =>
      rw [List.foldlM_cons, hf] at h
      cases hp : p a with
      | true =>
          rw [hp, if_pos rfl] at h
          obtain ⟨b, hb, hspec⟩ := ih h
          exact ⟨b, List.mem_cons_of_mem a hb, hspec⟩
      | false =>
          rw [hp, if_neg (by simp)] at h
          exact ⟨a, List.mem_cons_self, hp, (Except.error.inj h).symm⟩

end CheckedFolds

end EncryptionGateway.Foundation
