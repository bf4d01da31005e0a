import EncryptionGateway.Common.ReplayProtection
import EncryptionGateway.JavaScript.JsonPrinter
import Mathlib.Data.Finset.Card

/-!
# Replays inside the clock window

In a run whose nonces all fit into the cache, a nonce is refused from the
arrival of an accepted request until the allowed skew has passed. The payload
itself stays acceptable up to the skew after its own timestamp, which may lie
ahead of the arrival, so a copy can outlive the memory of its nonce.
-/

namespace EncryptionGateway.Common.ReplayProtection

open JavaScript Foundation

variable {N : Type} [JsNumber N]

/-- One call of `assertFresh` with its outcome. -/
structure Call (N : Type) where
  now : Int
  payload : DecryptedPayload N
  verdict : Except HttpException Unit

def Call.accepted (c : Call N) : Bool :=
  match c.verdict with
  | .ok _ => true
  | .error _ => false

/-- The cache and the time of the last call. -/
structure State where
  clock : Int
  seen : Seen

def State.initial (clock : Int) : State := ⟨clock, .empty⟩

/-- A call at a time that is not before the last one. -/
def Step (p : ReplayProtection) (t : Timestamps N) (s : State) (c : Call N) (s' : State) : Prop :=
  s.clock ≤ c.now ∧ s'.clock = c.now ∧
    p.assertFresh t c.payload c.now s.seen = (c.verdict, s'.seen)

/-- The distinct nonces presented in a run. -/
def presented (tr : List (Call N)) : Finset String :=
  (tr.filterMap fun c => nonceOf c.payload).toFinset

def Call.uses (nonce : String) (c : Call N) : Bool :=
  c.accepted && decide (nonceOf c.payload = some nonce)

/-- The time of the last accepted call with a nonce. -/
def lastAccepted (tr : List (Call N)) (nonce : String) : Option Int :=
  ((tr.filter (Call.uses nonce)).getLast?).map Call.now

/-- A payload that only the memory of its nonce can refuse at this time. -/
def Admissible (p : ReplayProtection) (t : Timestamps N) (payload : DecryptedPayload N)
    (now : Int) : Prop :=
  (∃ nonce, nonceOf payload = some nonce ∧ matchesNoncePattern nonce = true) ∧
    InWindow p t payload now

def SameStamp (payload payload' : DecryptedPayload N) : Prop :=
  payload.Nonce = payload'.Nonce ∧ payload.Timestamp = payload'.Timestamp

/-- No two calls with the payload are accepted. -/
def AcceptedAtMostOnce (tr : List (Call N)) (payload : DecryptedPayload N) : Prop :=
  ∀ (k k' : ℕ) (c c' : Call N), tr[k]? = some c → tr[k']? = some c' → SameStamp c.payload payload →
    SameStamp c'.payload payload → c.accepted = true → c'.accepted = true → k = k'

/-- Two admissible presentations of the payload are less than the skew apart. -/
def Spaced (p : ReplayProtection) (t : Timestamps N) (tr : List (Call N))
    (payload : DecryptedPayload N) : Prop :=
  ∀ (k k' : ℕ) (c c' : Call N), k < k' → tr[k]? = some c → tr[k']? = some c' →
    SameStamp c.payload payload → SameStamp c'.payload payload →
    Admissible p t payload c.now → Admissible p t payload c'.now → c'.now < c.now + p.maxSkewMs

/-- No other payload of the run uses the nonce. -/
def OwnsNonce (tr : List (Call N)) (payload : DecryptedPayload N) : Prop :=
  ∀ c ∈ tr, nonceOf c.payload = nonceOf payload → SameStamp c.payload payload

section Stamps

omit [JsNumber N]

theorem SameStamp.nonceOf_eq {payload payload' : DecryptedPayload N}
    (h : SameStamp payload payload') : nonceOf payload = nonceOf payload' := by
  simp only [nonceOf, h.1]

theorem presented_snoc (tr : List (Call N)) (c : Call N) :
    presented (tr ++ [c]) = presented tr ∪ (nonceOf c.payload).toFinset := by
  ext nonce
  simp [presented]

theorem presented_mono (tr more : List (Call N)) : presented tr ⊆ presented (tr ++ more) := by
  intro nonce h
  simp only [presented, List.mem_toFinset, List.filterMap_append, List.mem_append] at h ⊢
  exact Or.inl h

theorem lastAccepted_snoc (tr : List (Call N)) (c : Call N) (nonce : String) :
    lastAccepted (tr ++ [c]) nonce =
      if c.uses nonce = true then some c.now else lastAccepted tr nonce := by
  unfold lastAccepted
  by_cases h : c.uses nonce = true <;> simp [h]

/-- A nonce was accepted last at a time at which some call with it was. -/
theorem exists_of_lastAccepted {tr : List (Call N)} {nonce : String} {t : Int}
    (h : lastAccepted tr nonce = some t) :
    ∃ (k : ℕ) (c : Call N), tr[k]? = some c ∧ c.uses nonce = true ∧ c.now = t := by
  obtain ⟨c, hc, rfl⟩ := Option.map_eq_some_iff.mp h
  obtain ⟨hmem, huses⟩ := List.mem_filter.mp (List.mem_of_getLast? hc)
  obtain ⟨k, hk⟩ := List.mem_iff_getElem?.mp hmem
  exact ⟨k, c, hk, huses, rfl⟩

theorem uses_iff {c : Call N} {nonce : String} :
    c.uses nonce = true ↔ c.accepted = true ∧ nonceOf c.payload = some nonce := by
  simp [Call.uses]

end Stamps

theorem SameStamp.admissible_iff {p : ReplayProtection} {t : Timestamps N}
    {payload payload' : DecryptedPayload N} {now : Int} (h : SameStamp payload payload') :
    Admissible p t payload now ↔ Admissible p t payload' now := by
  simp only [Admissible, InWindow, h.nonceOf_eq, h.2]

/-- What the cache holds for a nonce that was accepted last at `last`: its
expiry, unless it has expired and was swept out. -/
def Remembers (p : ReplayProtection) (clock : Int) (last held : Option Int) : Prop :=
  match last with
  | none => held = none
  | some t => held = some (t + p.maxSkewMs) ∨ held = none ∧ t + p.maxSkewMs ≤ clock

/-- The nonce was never accepted, or so long ago that its memory has run out. -/
def Unspent (p : ReplayProtection) (last : Option Int) (now : Int) : Prop :=
  ∀ t, last = some t → t + p.maxSkewMs ≤ now

structure Tracks (p : ReplayProtection) (tr : List (Call N)) (s : State) : Prop where
  keys : ∀ nonce ∈ s.seen.keys, nonce ∈ presented tr
  remembers : ∀ nonce, p.Remembers s.clock (lastAccepted tr nonce) (s.seen.get nonce)

variable {p : ReplayProtection} {t : Timestamps N}

theorem Remembers.later {clock clock' : Int} {last held : Option Int}
    (h : p.Remembers clock last held) (hle : clock ≤ clock') : p.Remembers clock' last held := by
  cases last with
  | none => exact h
  | some t => exact h.imp_right fun ⟨hnone, hexp⟩ => ⟨hnone, hexp.trans hle⟩

/-- The comparison in `claim` passes unspent nonces only; on a clock that starts
at the epoch it passes them all. -/
theorem Remembers.unspent {now : Int} {last held : Option Int} (h : p.Remembers now last held)
    (hpass : ¬ now < held.getD 0) : p.Unspent last now := by
  intro t hlast
  subst hlast
  rcases h with rfl | ⟨-, hexp⟩
  · simpa using hpass
  · exact hexp

theorem Remembers.passes {now : Int} {last held : Option Int} (h : p.Remembers now last held)
    (hnow : 0 ≤ now) (hunspent : p.Unspent last now) : ¬ now < held.getD 0 := by
  cases last with
  | none =>
      obtain rfl : held = none := h
      exact not_lt.mpr hnow
  | some t =>
      rcases h with rfl | ⟨rfl, -⟩
      · exact not_lt.mpr (hunspent t rfl)
      · exact not_lt.mpr hnow

theorem Remembers.sweep {now : Int} {seen : Seen} {last : Option Int} {nonce : String}
    (h : p.Remembers now last (seen.get nonce)) :
    p.Remembers now last ((p.sweep now seen).get nonce) := by
  unfold ReplayProtection.sweep
  split
  · exact h
  · cases hget : (seen.keep fun _ expiresAt => decide (now < expiresAt)).get nonce with
    | some expiresAt =>
        obtain ⟨hold, -⟩ := InsertionMap.get_keep_eq_some.mp hget
        rwa [hold] at h
    | none =>
        cases last with
        | none => rfl
        | some t =>
            refine Or.inr ⟨rfl, ?_⟩
            rcases h with hold | ⟨-, hexp⟩
            · by_contra hlate
              have hkept : (seen.keep fun _ expiresAt => decide (now < expiresAt)).get nonce =
                  some (t + p.maxSkewMs) :=
                InsertionMap.get_keep_eq_some.mpr ⟨hold, decide_eq_true (not_le.mp hlate)⟩
              rw [hget] at hkept
              cases hkept
            · exact hexp

theorem keys_sweep_sublist (now : Int) (seen : Seen) :
    (p.sweep now seen).keys.Sublist seen.keys := by
  unfold ReplayProtection.sweep
  split
  · exact List.Sublist.refl _
  · exact seen.keys_keep_sublist _

theorem keys_sweep {now : Int} {seen : Seen} {nonce : String}
    (h : nonce ∈ (p.sweep now seen).keys) : nonce ∈ seen.keys :=
  (keys_sweep_sublist now seen).subset h

/-- A cache whose nonces come from a set that fits never evicts. -/
theorem remember_of_fits {now : Int} {nonce : String} {seen : Seen} {nonces : Finset String}
    (hkeys : ∀ k ∈ seen.keys, k ∈ nonces) (hnonce : nonce ∈ nonces)
    (hfits : nonces.card ≤ p.maxEntries) :
    p.remember now nonce seen = seen.set nonce (now + p.maxSkewMs) := by
  have hsub : (seen.set nonce (now + p.maxSkewMs)).keys.toFinset ⊆ nonces := by
    intro k hk
    rcases InsertionMap.mem_keys_set.mp (List.mem_toFinset.mp hk) with rfl | hk
    · exact hnonce
    · exact hkeys k hk
  have hsize : (seen.set nonce (now + p.maxSkewMs)).size ≤ p.maxEntries := by
    rw [← InsertionMap.length_keys,
      ← List.toFinset_card_of_nodup (InsertionMap.nodup_keys _)]
    exact (Finset.card_le_card hsub).trans hfits
  exact if_neg (Nat.not_lt.mpr hsize)

theorem Step.deterministic {s s' s'' : State} {c : Call N} (h : Step p t s c s')
    (h' : Step p t s c s'') : s' = s'' := by
  obtain ⟨clock, seen⟩ := s'
  obtain ⟨clock', seen'⟩ := s''
  obtain ⟨-, hclock, hcall⟩ := h
  obtain ⟨-, hclock', hcall'⟩ := h'
  rw [hcall, Prod.mk.injEq] at hcall'
  simp only at hclock hclock' hcall'
  rw [hclock, hclock', hcall'.2]

/-- What one call does: an admissible payload is decided by the memory of its
nonce after the sweep, and any other is refused without touching the cache. -/
theorem Step.cases {s s' : State} {c : Call N} (h : Step p t s c s')
    (hrequired : p.required = true) :
    (∃ nonce, nonceOf c.payload = some nonce ∧ Admissible p t c.payload c.now ∧
      ((c.accepted = true ∧ ¬ c.now < ((p.sweep c.now s.seen).get nonce).getD 0 ∧
          s'.seen = p.remember c.now nonce (p.sweep c.now s.seen)) ∨
        (c.verdict = reject "REQUEST_REPLAYED" "Nonce has already been used" ∧
          c.now < ((p.sweep c.now s.seen).get nonce).getD 0 ∧ s'.seen = p.sweep c.now s.seen))) ∨
    (¬ Admissible p t c.payload c.now ∧ c.accepted = false ∧ s'.seen = s.seen) := by
  obtain ⟨-, -, hcall⟩ := h
  rcases assertFresh_cases p t c.payload c.now s.seen hrequired with
    ⟨nonce, hnonce, hpattern, hwindow, hclaim⟩ | ⟨hoff, e, herror⟩
  · refine Or.inl ⟨nonce, hnonce, ⟨⟨nonce, hnonce, hpattern⟩, hwindow⟩, ?_⟩
    rw [hclaim, claim] at hcall
    by_cases hspent : c.now < ((p.sweep c.now s.seen).get nonce).getD 0
    · rw [if_pos hspent, Prod.mk.injEq] at hcall
      exact Or.inr ⟨hcall.1.symm, hspent, hcall.2.symm⟩
    · rw [if_neg hspent, Prod.mk.injEq] at hcall
      exact Or.inl ⟨by rw [Call.accepted, ← hcall.1], hspent, hcall.2.symm⟩
  · rw [herror, Prod.mk.injEq] at hcall
    refine Or.inr ⟨?_, by rw [Call.accepted, ← hcall.1], hcall.2.symm⟩
    rintro ⟨⟨nonce, hnonce, hpattern⟩, hwindow⟩
    exact hoff nonce hnonce hpattern hwindow

/-- Whatever is accepted is admissible, with any cache. -/
theorem Step.admissible {s s' : State} {c : Call N} (h : Step p t s c s')
    (hrequired : p.required = true) (haccepted : c.accepted = true) :
    Admissible p t c.payload c.now := by
  rcases h.cases hrequired with ⟨nonce, -, hadmissible, -⟩ | ⟨-, hrefused, -⟩
  · exact hadmissible
  · rw [haccepted] at hrefused
    cases hrefused

omit [JsNumber N] in
theorem accepted_of_replayed {c : Call N}
    (h : c.verdict = reject "REQUEST_REPLAYED" "Nonce has already been used") :
    c.accepted = false := by
  rw [Call.accepted, h, reject]

/-- The call evicts nothing if it is accepted. -/
def EvictsNone (p : ReplayProtection) (s : State) (c : Call N) : Prop :=
  ∀ nonce, nonceOf c.payload = some nonce → c.accepted = true →
    p.remember c.now nonce (p.sweep c.now s.seen) =
      (p.sweep c.now s.seen).set nonce (c.now + p.maxSkewMs)

/-- A call that evicts nothing is accepted when the payload is admissible and
its nonce unspent, and then remembered; a refused call adds nothing. -/
theorem Step.spec {s s' : State} {c : Call N} {tr : List (Call N)} (h : Step p t s c s')
    (hrequired : p.required = true) (htracks : Tracks p tr s) (hroom : p.EvictsNone s c) :
    (∃ nonce, c.accepted = true ∧ nonceOf c.payload = some nonce ∧ Admissible p t c.payload c.now ∧
      p.Unspent (lastAccepted tr nonce) c.now ∧
      s'.seen = (p.sweep c.now s.seen).set nonce (c.now + p.maxSkewMs)) ∨
    (c.accepted = false ∧
      (∀ nonce, 0 ≤ c.now → nonceOf c.payload = some nonce → Admissible p t c.payload c.now →
        ¬ p.Unspent (lastAccepted tr nonce) c.now) ∧
      (s'.seen = s.seen ∨ s'.seen = p.sweep c.now s.seen)) := by
  rcases h.cases hrequired with ⟨nonce, hnonce, hadmissible, hdecided⟩ | ⟨hoff, hrefused, hseen⟩
  · have hremembers := ((htracks.remembers nonce).later h.1).sweep
    rcases hdecided with ⟨haccepted, hpass, hseen⟩ | ⟨hreplayed, hspent, hseen⟩
    · refine Or.inl ⟨nonce, haccepted, hnonce, hadmissible, hremembers.unspent hpass, ?_⟩
      rw [hseen, hroom nonce hnonce haccepted]
    · refine Or.inr ⟨accepted_of_replayed hreplayed, ?_, Or.inr hseen⟩
      intro nonce' hnow hnonce' _ hunspent
      obtain rfl := Option.some.inj (hnonce.symm.trans hnonce')
      exact hremembers.passes hnow hunspent hspent
  · exact Or.inr ⟨hrefused, fun _ _ _ hadmissible => absurd hadmissible hoff, Or.inl hseen⟩

/-- The cache goes on tracking the accepted calls. -/
theorem Step.tracks {s s' : State} {c : Call N} {tr : List (Call N)} (h : Step p t s c s')
    (hrequired : p.required = true) (htracks : Tracks p tr s) (hroom : p.EvictsNone s c) :
    Tracks p (tr ++ [c]) s' := by
  have hlater : ∀ nonce, p.Remembers c.now (lastAccepted tr nonce) (s.seen.get nonce) :=
    fun nonce => (htracks.remembers nonce).later h.1
  have hkept : ∀ seen, seen = s.seen ∨ seen = p.sweep c.now s.seen →
      (∀ k ∈ seen.keys, k ∈ presented (tr ++ [c])) ∧
      ∀ nonce, p.Remembers c.now (lastAccepted tr nonce) (seen.get nonce) := by
    rintro seen (rfl | rfl)
    · exact ⟨fun k hk => presented_mono tr [c] (htracks.keys k hk), hlater⟩
    · exact ⟨fun k hk => presented_mono tr [c] (htracks.keys k (keys_sweep hk)),
        fun nonce => (hlater nonce).sweep⟩
  rcases h.spec hrequired htracks hroom with
    ⟨nonce, haccepted, hnonce, -, -, hseen⟩ | ⟨hrefused, -, hseen⟩
  · obtain ⟨hkeys, hremembers⟩ := hkept _ (Or.inr rfl)
    constructor
    · intro k hk
      rw [hseen] at hk
      rcases InsertionMap.mem_keys_set.mp hk with rfl | hk
      · rw [presented_snoc]
        exact Finset.mem_union_right _ (by simp [hnonce])
      · exact hkeys k hk
    · intro nonce'
      rw [lastAccepted_snoc, hseen, h.2.1]
      by_cases heq : nonce' = nonce
      · subst heq
        rw [if_pos (uses_iff.mpr ⟨haccepted, hnonce⟩), InsertionMap.get_set_self]
        exact Or.inl rfl
      · have hother : c.uses nonce' ≠ true := by
          rw [Ne, uses_iff, hnonce, Option.some.injEq]
          exact fun hu => heq hu.2.symm
        rw [if_neg hother, InsertionMap.get_set_ne _ _ heq]
        exact hremembers nonce'
  · obtain ⟨hkeys, hremembers⟩ := hkept _ hseen
    refine ⟨hkeys, fun nonce => ?_⟩
    rw [lastAccepted_snoc, if_neg (by simp [uses_iff, hrefused]), h.2.1]
    exact hremembers nonce

omit [JsNumber N] in
/-- A call is not evicting while all nonces of the run fit into the cache. -/
theorem Tracks.evictsNone {s : State} {c : Call N} {tr : List (Call N)} (htracks : Tracks p tr s)
    (hfits : (presented (tr ++ [c])).card ≤ p.maxEntries) : p.EvictsNone s c := by
  intro nonce hnonce _
  have hmem : nonce ∈ presented (tr ++ [c]) := by
    rw [presented_snoc]
    exact Finset.mem_union_right _ (by simp [hnonce])
  have hkeys : ∀ k ∈ (p.sweep c.now s.seen).keys, k ∈ presented (tr ++ [c]) :=
    fun k hk => presented_mono tr [c] (htracks.keys k (keys_sweep hk))
  exact remember_of_fits hkeys hmem hfits

section Runs

variable {clock : Int} {tr : List (Call N)} {s : State}

theorem clock_mono (run : Run (Step p t) (State.initial clock) tr s) : clock ≤ s.clock := by
  refine run.snoc_induction (motive := fun _ s => clock ≤ s.clock) le_rfl ?_
  intro tr c s s' _ ih hstep
  rw [hstep.2.1]
  exact ih.trans hstep.1

theorem tracks_of_run (run : Run (Step p t) (State.initial clock) tr s)
    (hrequired : p.required = true) (hfits : (presented tr).card ≤ p.maxEntries) :
    Tracks p tr s := by
  refine run.snoc_induction
    (motive := fun tr s => (presented tr).card ≤ p.maxEntries → Tracks p tr s) ?_ ?_ hfits
  · intro _
    exact ⟨fun nonce hn => by simp [State.initial, InsertionMap.keys] at hn, fun nonce => rfl⟩
  · intro tr c s s' _ ih hstep hfits
    have hcard := (Finset.card_le_card (presented_mono tr [c])).trans hfits
    exact hstep.tracks hrequired (ih hcard) ((ih hcard).evictsNone hfits)

/-- Cutting a run at a call shows what decided it. -/
theorem decided_of_run (run : Run (Step p t) (State.initial clock) tr s)
    (hrequired : p.required = true) (hfits : (presented tr).card ≤ p.maxEntries) {k : ℕ}
    {c : Call N} (hat : tr[k]? = some c) :
    (∃ nonce, c.accepted = true ∧ nonceOf c.payload = some nonce ∧ Admissible p t c.payload c.now ∧
      p.Unspent (lastAccepted (tr.take k) nonce) c.now) ∨
    (c.accepted = false ∧ ∀ nonce, 0 ≤ clock → nonceOf c.payload = some nonce →
      Admissible p t c.payload c.now → ¬ p.Unspent (lastAccepted (tr.take k) nonce) c.now) := by
  obtain ⟨pre, post, rfl, rfl⟩ := split_at hat
  obtain ⟨s₁, s₂, hpre, hstep, -⟩ := Run.at_label run
  rw [List.take_left' rfl]
  rw [List.append_cons] at hfits
  have hfits' := (Finset.card_le_card (presented_mono (pre ++ [c]) post)).trans hfits
  have htracks := tracks_of_run hpre hrequired
    ((Finset.card_le_card (presented_mono pre [c])).trans hfits')
  rcases hstep.spec hrequired htracks (htracks.evictsNone hfits') with
    ⟨nonce, haccepted, hnonce, hadmissible, hunspent, -⟩ | ⟨hrefused, hspent, -⟩
  · exact Or.inl ⟨nonce, haccepted, hnonce, hadmissible, hunspent⟩
  · refine Or.inr ⟨hrefused, fun nonce hclock => hspent nonce ?_⟩
    exact hclock.trans ((clock_mono hpre).trans hstep.1)

theorem accepted_spec (run : Run (Step p t) (State.initial clock) tr s)
    (hrequired : p.required = true) (hfits : (presented tr).card ≤ p.maxEntries) {k : ℕ}
    {c : Call N} (hat : tr[k]? = some c) (haccepted : c.accepted = true) :
    ∃ nonce, nonceOf c.payload = some nonce ∧ Admissible p t c.payload c.now ∧
      p.Unspent (lastAccepted (tr.take k) nonce) c.now := by
  rcases decided_of_run run hrequired hfits hat with ⟨nonce, -, hspec⟩ | ⟨hrefused, -⟩
  · exact ⟨nonce, hspec⟩
  · rw [haccepted] at hrefused
    cases hrefused

theorem now_le_clock (run : Run (Step p t) (State.initial clock) tr s) {k : ℕ} {c : Call N}
    (hat : tr[k]? = some c) : c.now ≤ s.clock := by
  refine run.snoc_induction
    (motive := fun tr s => ∀ (k : ℕ) (c : Call N), tr[k]? = some c → c.now ≤ s.clock) ?_ ?_ k c hat
  · intro k c h
    simp at h
  · intro tr l s s' _ ih hstep k c h
    rw [hstep.2.1]
    rcases at_snoc_iff.mp h with h | ⟨-, rfl⟩
    · exact (ih k c h).trans hstep.1
    · exact le_rfl

/-- Calls are made in the order of their times. -/
theorem now_mono (run : Run (Step p t) (State.initial clock) tr s) {k k' : ℕ} {c c' : Call N}
    (hle : k ≤ k') (hat : tr[k]? = some c) (hat' : tr[k']? = some c') : c.now ≤ c'.now := by
  obtain ⟨pre, post, rfl, rfl⟩ := split_at hat'
  obtain ⟨s₁, s₂, hpre, hstep, -⟩ := Run.at_label run
  rcases Nat.lt_or_eq_of_le hle with hlt | rfl
  · rw [List.getElem?_append_left hlt] at hat
    exact (now_le_clock hpre hat).trans hstep.1
  · obtain rfl := Option.some.inj (hat.symm.trans hat')
    exact le_rfl

/-- The last use of a nonce is at or after every use of it. -/
theorem le_lastAccepted (run : Run (Step p t) (State.initial clock) tr s) {k : ℕ} {c : Call N}
    {nonce : String} (hat : tr[k]? = some c) (huses : c.uses nonce = true) :
    ∃ time, lastAccepted tr nonce = some time ∧ c.now ≤ time := by
  refine run.snoc_induction (motive := fun tr _ => ∀ (k : ℕ) (c : Call N), tr[k]? = some c →
    c.uses nonce = true → ∃ time, lastAccepted tr nonce = some time ∧ c.now ≤ time)
    ?_ ?_ k c hat huses
  · intro k c h
    simp at h
  · intro tr l s s' hrun ih hstep k c h huses
    rw [lastAccepted_snoc]
    rcases at_snoc_iff.mp h with h | ⟨-, rfl⟩
    · by_cases hl : l.uses nonce = true
      · exact ⟨l.now, if_pos hl, (now_le_clock hrun h).trans hstep.1⟩
      · rw [if_neg hl]
        exact ih k c h huses
    · exact ⟨c.now, if_pos huses, le_rfl⟩

/-- Presentations less than the skew apart are refused after the first. -/
theorem acceptedAtMostOnce_of_spaced (run : Run (Step p t) (State.initial clock) tr s)
    (hrequired : p.required = true)
    (hfits : (presented tr).card ≤ p.maxEntries) {payload : DecryptedPayload N}
    (hspaced : Spaced p t tr payload) : AcceptedAtMostOnce tr payload := by
  have hlt : ∀ (k k' : ℕ) (c c' : Call N), tr[k]? = some c → tr[k']? = some c' →
      SameStamp c.payload payload → SameStamp c'.payload payload → c.accepted = true →
      c'.accepted = true → ¬ k < k' := by
    intro k k' c c' hat hat' hsame hsame' haccepted haccepted' hk
    obtain ⟨-, -, hadmissible, -⟩ := accepted_spec run hrequired hfits hat haccepted
    obtain ⟨nonce, hnonce', hadmissible', hunspent⟩ :=
      accepted_spec run hrequired hfits hat' haccepted'
    have hnonce : nonceOf c.payload = some nonce := by
      rw [hsame.nonceOf_eq, ← hsame'.nonceOf_eq, hnonce']
    obtain ⟨s', hpre, -⟩ := Run.append_iff.mp (List.take_append_drop k' tr ▸ run)
    have hat₀ : (tr.take k')[k]? = some c := by rw [List.getElem?_take_of_lt hk, hat]
    obtain ⟨time, hlast, hle⟩ := le_lastAccepted hpre hat₀ (uses_iff.mpr ⟨haccepted, hnonce⟩)
    have hlate : time + p.maxSkewMs ≤ c'.now := hunspent time hlast
    have hsoon : c'.now < c.now + p.maxSkewMs :=
      hspaced k k' c c' hk hat hat' hsame hsame' (hsame.admissible_iff.mp hadmissible)
        (hsame'.admissible_iff.mp hadmissible')
    omega
  intro k k' c c' hat hat' hsame hsame' haccepted haccepted'
  rcases Nat.lt_trichotomy k k' with hk | rfl | hk
  · exact absurd hk (hlt k k' c c' hat hat' hsame hsame' haccepted haccepted')
  · rfl
  · exact absurd hk (hlt k' k c' c hat' hat hsame' hsame haccepted' haccepted)

/-- An admissible presentation is accepted, or one was accepted before it less
than the skew ago. -/
theorem accepted_or_recent (run : Run (Step p t) (State.initial clock) tr s)
    (hrequired : p.required = true) (hclock : 0 ≤ clock)
    (hfits : (presented tr).card ≤ p.maxEntries) {payload : DecryptedPayload N}
    (howns : OwnsNonce tr payload) {k : ℕ} {c : Call N} (hat : tr[k]? = some c)
    (hsame : SameStamp c.payload payload) (hadmissible : Admissible p t payload c.now) :
    ∃ (j : ℕ) (d : Call N), j ≤ k ∧ tr[j]? = some d ∧ SameStamp d.payload payload ∧
      d.accepted = true ∧ c.now < d.now + p.maxSkewMs := by
  rcases decided_of_run run hrequired hfits hat with ⟨-, haccepted, -⟩ | ⟨-, hspent⟩
  · have hpos := p.maxSkewMs_pos
    exact ⟨k, c, le_rfl, hat, hsame, haccepted, by omega⟩
  · obtain ⟨nonce, hof, -⟩ := hadmissible.1
    have hnonce : nonceOf c.payload = some nonce := by rw [hsame.nonceOf_eq, hof]
    have hspent := hspent nonce hclock hnonce (hsame.admissible_iff.mpr hadmissible)
    simp only [Unspent, not_forall, not_le] at hspent
    obtain ⟨time, hlast, hsoon⟩ := hspent
    obtain ⟨j, d, hd, huses, rfl⟩ := exists_of_lastAccepted hlast
    have hj : j < k := (lt_length_of_at hd).trans_le (by simp)
    rw [List.getElem?_take_of_lt hj] at hd
    obtain ⟨hdaccepted, hdnonce⟩ := uses_iff.mp huses
    have hdsame : SameStamp d.payload payload := by
      apply howns d (List.mem_of_getElem? hd)
      rw [hdnonce, hof]
    exact ⟨j, d, hj.le, hd, hdsame, hdaccepted, hsoon⟩

theorem spaced_of_acceptedAtMostOnce (run : Run (Step p t) (State.initial clock) tr s)
    (hrequired : p.required = true) (hclock : 0 ≤ clock)
    (hfits : (presented tr).card ≤ p.maxEntries) {payload : DecryptedPayload N}
    (howns : OwnsNonce tr payload) (honce : AcceptedAtMostOnce tr payload) :
    Spaced p t tr payload := by
  intro k k' c c' hk hat hat' hsame hsame' hadmissible hadmissible'
  obtain ⟨j, d, hj, hd, hdsame, hdaccepted, -⟩ :=
    accepted_or_recent run hrequired hclock hfits howns hat hsame hadmissible
  obtain ⟨j', d', hj', hd', hdsame', hdaccepted', hsoon⟩ :=
    accepted_or_recent run hrequired hclock hfits howns hat' hsame' hadmissible'
  -- the one accepted presentation is the first of the two, or an earlier one
  obtain rfl := honce j j' d d' hd hd' hdsame hdsame' hdaccepted hdaccepted'
  obtain rfl := Option.some.inj (hd.symm.trans hd')
  have hle := now_mono run hj hd hat
  omega

end Runs

/-- With nonces required and never more of them than the cache holds, a payload
is accepted at most once if its admissible presentations are less than the skew
apart; where no other payload uses its nonce, only then. -/
theorem replay_refused_of_spaced (p : ReplayProtection) (t : Timestamps N) (clock : Int)
    (tr : List (Call N)) (s : State) (payload : DecryptedPayload N)
    (hrequired : p.required = true) (run : Run (Step p t) (State.initial clock) tr s)
    (hfits : (presented tr).card ≤ p.maxEntries) :
    (Spaced p t tr payload → AcceptedAtMostOnce tr payload) ∧
      (0 ≤ clock → OwnsNonce tr payload → AcceptedAtMostOnce tr payload →
        Spaced p t tr payload) :=
  ⟨acceptedAtMostOnce_of_spaced run hrequired hfits, fun hclock howns =>
    spaced_of_acceptedAtMostOnce run hrequired hclock hfits howns⟩

section Samples

/-- The documented defaults, with nonces required. -/
def documented : ReplayProtection := ⟨true, 60000, 10000, by decide, by decide⟩

def integerTimestamps : Timestamps ℤ := ⟨fun n => n * 1000, fun _ => none⟩

def stamped (timestamp : ℤ) : DecryptedPayload ℤ where
  AccessPoint := "https://api.example/pay"
  Method := some "POST"
  Header := none
  Body := none
  Parameter := none
  Nonce := some (.str "0123456789abcdef")
  Timestamp := some (.num timestamp)

theorem presented_stamped (calls : List (Call ℤ)) (timestamp : ℤ)
    (h : ∀ c ∈ calls, c.payload = stamped timestamp) : (presented calls).card ≤ 1 := by
  rw [Finset.card_le_one]
  have hnonce : ∀ nonce ∈ presented calls, nonce = "0123456789abcdef" := by
    intro nonce hn
    obtain ⟨c, hc, hof⟩ := List.mem_filterMap.mp (List.mem_toFinset.mp hn)
    rw [h c hc] at hof
    exact (Option.some.inj hof).symm
  intro a ha b hb
  rw [hnonce a ha, hnonce b hb]

/-- A stamped call inside the window is decided by the cache. -/
theorem step_stamped (s : State) {now timestamp : ℤ} (hclock : s.clock ≤ now)
    (hmillis : (SECONDS_THRESHOLD : ℚ) ≤ timestamp) (hwindow : |now - timestamp| ≤ 60000) :
    Step documented integerTimestamps s
      ⟨now, stamped timestamp, (documented.claim now "0123456789abcdef" s.seen).1⟩
      ⟨now, (documented.claim now "0123456789abcdef" s.seen).2⟩ := by
  refine ⟨hclock, rfl, ?_⟩
  have hparse : parseTimestamp integerTimestamps (stamped timestamp).Timestamp =
      some (timestamp : ℚ) := by
    show (JsNumber.finiteValue timestamp).map _ = _
    simp only [JsNumber.finiteValue, Option.map_some, not_lt.mpr hmillis, if_false]
  have hin : InWindow documented integerTimestamps (stamped timestamp) now := by
    refine ⟨timestamp, hparse, ?_⟩
    show |(now : ℚ) - timestamp| ≤ (60000 : ℕ)
    exact_mod_cast hwindow
  rcases assertFresh_cases documented integerTimestamps (stamped timestamp) now s.seen rfl with
    ⟨nonce, hnonce, -, -, hclaim⟩ | ⟨hoff, -⟩
  · obtain rfl : "0123456789abcdef" = nonce := Option.some.inj hnonce
    exact hclaim
  · exact absurd hin (hoff _ rfl (by decide))

/-- A payload stamped half a minute ahead is accepted on arrival and again a
minute later, when its nonce is forgotten and its timestamp still acceptable. -/
theorem replay_accepted : ∃ s : State,
    Run (Step documented integerTimestamps) (State.initial 1700000000000)
      [⟨1700000000000, stamped 1700000030000, .ok ()⟩,
        ⟨1700000060000, stamped 1700000030000, .ok ()⟩] s ∧
    (presented [(⟨1700000000000, stamped 1700000030000, .ok ()⟩ : Call ℤ),
      ⟨1700000060000, stamped 1700000030000, .ok ()⟩]).card ≤ documented.maxEntries ∧
    ¬ AcceptedAtMostOnce [⟨1700000000000, stamped 1700000030000, .ok ()⟩,
      ⟨1700000060000, stamped 1700000030000, .ok ()⟩] (stamped 1700000030000) := by
  have hmillis : (SECONDS_THRESHOLD : ℚ) ≤ (1700000030000 : ℤ) := by norm_num [SECONDS_THRESHOLD]
  have hfirst := step_stamped (State.initial 1700000000000) (le_refl 1700000000000) hmillis
    (by decide)
  have hagain := step_stamped
    ⟨1700000000000, (documented.claim 1700000000000 "0123456789abcdef" .empty).2⟩
    (show (1700000000000 : ℤ) ≤ 1700000060000 by decide) hmillis (by decide)
  refine ⟨_, .cons hfirst (.cons hagain (.nil _)), ?_, ?_⟩
  · exact (presented_stamped _ 1700000030000 (by simp)).trans (by decide)
  · intro honce
    have := honce 0 1 _ _ rfl rfl ⟨rfl, rfl⟩ ⟨rfl, rfl⟩ rfl rfl
    cases this

/-- A copy that arrives a second later is refused. -/
theorem replay_refused_of_spaced_soon :
    AcceptedAtMostOnce [(⟨1700000000000, stamped 1700000000000, .ok ()⟩ : Call ℤ),
      ⟨1700000001000, stamped 1700000000000,
        reject "REQUEST_REPLAYED" "Nonce has already been used"⟩] (stamped 1700000000000) := by
  have hmillis : (SECONDS_THRESHOLD : ℚ) ≤ (1700000000000 : ℤ) := by norm_num [SECONDS_THRESHOLD]
  have hfirst := step_stamped (State.initial 1700000000000) (le_refl 1700000000000) hmillis
    (by decide)
  have hagain := step_stamped
    ⟨1700000000000, (documented.claim 1700000000000 "0123456789abcdef" .empty).2⟩
    (show (1700000000000 : ℤ) ≤ 1700000001000 by decide) hmillis (by decide)
  refine (replay_refused_of_spaced documented integerTimestamps 1700000000000 _ _
    (stamped 1700000000000) rfl (.cons hfirst (.cons hagain (.nil _)))
    ((presented_stamped _ 1700000000000 (by simp)).trans (by decide))).1 ?_
  intro k k' c c' hk hat hat' _ _ _ _
  have hk' : k' = 1 := by
    have := lt_length_of_at hat'
    simp at this
    omega
  have hk0 : k = 0 := by omega
  subst hk' hk0
  cases hat
  cases hat'
  decide

end Samples

end EncryptionGateway.Common.ReplayProtection
