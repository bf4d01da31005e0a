import EncryptionGateway.Common.ReplayReference

/-!
# The order in which the nonce cache forgets

The cache evicts the first nonce in insertion order. That is the order of
acceptance as long as no nonce is accepted again while its expired entry is
still in the cache: such a nonce keeps its old place and is evicted before
others accepted earlier than it.
-/

namespace EncryptionGateway.Common.ReplayProtection

open JavaScript Foundation

variable {N : Type} [JsNumber N]

/-- The nonce a call was accepted with. -/
def Call.acceptedNonce (c : Call N) : Option String :=
  if c.accepted then nonceOf c.payload else none

/-- The nonces accepted since the last acceptance of this one. -/
def since (tr : List (Call N)) (nonce : String) : Finset String :=
  ((tr.reverse.takeWhile fun c => !c.uses nonce).filterMap Call.acceptedNonce).toFinset

/-- The other nonces accepted by some calls. -/
def others (calls : List (Call N)) (nonce : String) : Finset String :=
  (calls.filterMap Call.acceptedNonce).toFinset.erase nonce

/-- The call accepts a nonce whose expired entry is still in the cache, which is
less than half full and so not swept. -/
def StaleReuse (p : ReplayProtection) (t : Timestamps N) (s : State) (c : Call N) : Prop :=
  ∃ nonce expiresAt, nonceOf c.payload = some nonce ∧ Admissible p t c.payload c.now ∧
    s.seen.get nonce = some expiresAt ∧ expiresAt ≤ c.now ∧ 2 * s.seen.size < p.maxEntries

def CleanStep (p : ReplayProtection) (t : Timestamps N) (s : State) (c : Call N) (s' : State) :
    Prop :=
  Step p t s c s' ∧ ¬ StaleReuse p t s c

/-- An accepted nonce is refused within the skew unless as many other nonces
were accepted since as the cache holds, and an unexpired nonce that a call
drops is the one whose last acceptance is the oldest. -/
structure ForgetsInOrder (p : ReplayProtection) (t : Timestamps N) (start : ℕ)
    (tr : List (Call N)) : Prop where
  replayed : ∀ (pre : List (Call N)) (c : Call N) (mid : List (Call N)) (d : Call N)
    (post : List (Call N)) (nonce : String), tr = pre ++ c :: (mid ++ d :: post) →
    c.uses nonce = true → nonceOf d.payload = some nonce → InWindow p t d.payload d.now →
    d.now < c.now + p.maxSkewMs → (others mid nonce).card < p.maxEntries →
    d.verdict = reject "REQUEST_REPLAYED" "Nonce has already been used"
  oldest : ∀ (pre : List (Call N)) (c : Call N) (post : List (Call N)) (s s' : State)
    (nonce : String) (expiresAt : Int), tr = pre ++ c :: post →
    Run (Step p t) (State.initial start) pre s → Step p t s c s' →
    s.seen.get nonce = some expiresAt → c.now < expiresAt → s'.seen.get nonce = none →
    ∀ other ∈ s'.seen.keys, other ∈ since (pre ++ [c]) nonce

section Histories

omit [JsNumber N]

theorem acceptedNonce_eq_some {c : Call N} {nonce : String} :
    c.acceptedNonce = some nonce ↔ c.uses nonce = true := by
  rw [uses_iff, Call.acceptedNonce]
  cases c.accepted <;> simp

theorem since_snoc (tr : List (Call N)) (c : Call N) (nonce : String) :
    since (tr ++ [c]) nonce =
      if c.uses nonce = true then ∅ else c.acceptedNonce.toFinset ∪ since tr nonce := by
  unfold since
  by_cases h : c.uses nonce = true
  · simp [h]
  · ext other
    simp [h]

/-- A refused call changes no order. -/
theorem since_of_refused {tr : List (Call N)} {c : Call N} (h : c.accepted = false)
    (nonce : String) :
    since (tr ++ [c]) nonce = since tr nonce := by
  rw [since_snoc, if_neg (by simp [uses_iff, h]), Call.acceptedNonce, h]
  simp

theorem lastAccepted_of_refused {tr : List (Call N)} {c : Call N} (h : c.accepted = false)
    (nonce : String) : lastAccepted (tr ++ [c]) nonce = lastAccepted tr nonce := by
  rw [lastAccepted_snoc, if_neg (by simp [uses_iff, h])]

theorem uses_unique {c : Call N} {nonce nonce' : String} (h : c.uses nonce = true)
    (h' : c.uses nonce' = true) : nonce = nonce' := by
  rw [uses_iff] at h h'
  exact Option.some.inj (h.2.symm.trans h'.2)

theorem since_of_other {tr : List (Call N)} {c : Call N} {nonce nonce' : String}
    (huses : c.uses nonce = true) (hne : nonce' ≠ nonce) :
    since (tr ++ [c]) nonce' = insert nonce (since tr nonce') := by
  rw [since_snoc, if_neg fun h => hne (uses_unique h huses), acceptedNonce_eq_some.mpr huses]
  rfl

theorem not_mem_since (tr : List (Call N)) (nonce : String) : nonce ∉ since tr nonce := by
  induction tr using List.reverseRecOn with
  | nil => simp [since]
  | append_singleton tr c ih =>
      rw [since_snoc]
      split
      · simp
      · next h =>
          rw [Finset.mem_union, not_or]
          refine ⟨fun hmem => h ?_, ih⟩
          exact acceptedNonce_eq_some.mp (by simpa using hmem)

/-- What was accepted since the last acceptance was accepted since any of them. -/
theorem since_subset_others (pre : List (Call N)) {c : Call N} (mid : List (Call N))
    {nonce : String} (huses : c.uses nonce = true) :
    since (pre ++ c :: mid) nonce ⊆ others mid nonce := by
  intro other hmem
  refine Finset.mem_erase.mpr ⟨?_, ?_⟩
  · rintro rfl
    exact not_mem_since _ _ hmem
  · rw [since, List.mem_toFinset, List.mem_filterMap] at hmem
    obtain ⟨d, hd, haccepted⟩ := hmem
    refine List.mem_toFinset.mpr (List.mem_filterMap.mpr ⟨d, ?_, haccepted⟩)
    -- the scan back from the end stops at the call that used the nonce
    rw [List.reverse_append, List.reverse_cons, List.append_assoc, List.takeWhile_append] at hd
    split at hd
    · rw [List.singleton_append, List.takeWhile_cons_of_neg (by simp [huses]),
        List.append_nil] at hd
      exact List.mem_reverse.mp hd
    · exact List.mem_reverse.mp (List.takeWhile_subset _ hd)

end Histories

variable {p : ReplayProtection} {t : Timestamps N}

theorem get_sweep_of_live {now : Int} {seen : Seen} {nonce : String} {expiresAt : Int}
    (h : seen.get nonce = some expiresAt) (hlive : now < expiresAt) :
    (p.sweep now seen).get nonce = some expiresAt := by
  unfold ReplayProtection.sweep
  split
  · exact h
  · exact InsertionMap.get_keep_eq_some.mpr ⟨h, decide_eq_true hlive⟩

theorem mem_of_mem_sweep {now : Int} {seen : Seen} {e : String × Int}
    (h : e ∈ (p.sweep now seen).entries) : e ∈ seen.entries := by
  unfold ReplayProtection.sweep at h
  split at h
  · exact h
  · exact (InsertionMap.mem_keep.mp h).1

/-- A new nonce goes to the end; if that is one too many, the first is dropped. -/
theorem remember_of_new (now : Int) {nonce : String} {seen : Seen} (hnew : nonce ∉ seen.keys) :
    p.remember now nonce seen = seen.set nonce (now + p.maxSkewMs) ∨
      ∃ first rest, seen.keys = first :: rest ∧
        p.remember now nonce seen = (seen.set nonce (now + p.maxSkewMs)).erase first ∧
        (p.remember now nonce seen).keys = rest ++ [nonce] ∧
        p.maxEntries ≤ (rest ++ [nonce]).length := by
  have hkeys : (seen.set nonce (now + p.maxSkewMs)).keys = seen.keys ++ [nonce] :=
    InsertionMap.keys_set_of_absent _ hnew
  have hpos := p.maxEntries_pos
  unfold remember
  dsimp only
  split
  · next hfull =>
      rw [← InsertionMap.length_keys, hkeys] at hfull
      cases hseen : seen.keys with
      | nil =>
          rw [hseen] at hfull
          simp only [List.nil_append, List.length_singleton] at hfull
          omega
      | cons first rest =>
          rw [hseen] at hkeys hfull
          have hold : (seen.set nonce (now + p.maxSkewMs)).oldest = some first := by
            rw [InsertionMap.oldest_eq_head_keys, hkeys]
            rfl
          rw [hold]
          refine Or.inr ⟨first, rest, rfl, rfl, ?_, Nat.le_of_lt_succ hfull⟩
          rw [InsertionMap.keys_erase, hkeys, List.cons_append, List.erase_cons_head]
  · exact Or.inl rfl

/-- A nonce that was accepted is in the cache until it expires or as many
others as the cache holds were accepted since. -/
def Kept (p : ReplayProtection) (clock : Int) (since : Finset String) (last held : Option Int) :
    Prop :=
  match last with
  | none => held = none
  | some time => held = some (time + p.maxSkewMs) ∨
      held = none ∧ (time + p.maxSkewMs ≤ clock ∨ p.maxEntries ≤ since.card)

/-- The cache is in the order of acceptance. -/
structure Ordered (p : ReplayProtection) (tr : List (Call N)) (s : State) : Prop where
  order : s.seen.keys.Pairwise fun a b => b ∈ since tr a
  kept : ∀ nonce, p.Kept s.clock (since tr nonce) (lastAccepted tr nonce) (s.seen.get nonce)

theorem Kept.later {clock clock' : Int} {between between' : Finset String} {last held : Option Int}
    (h : p.Kept clock between last held) (hle : clock ≤ clock') (hsub : between ⊆ between') :
    p.Kept clock' between' last held := by
  cases last with
  | none => exact h
  | some time =>
      refine h.imp_right fun ⟨hnone, hwhy⟩ => ⟨hnone, ?_⟩
      exact hwhy.imp (fun hexp => hexp.trans hle) fun hcap => hcap.trans (Finset.card_le_card hsub)

theorem Kept.sweep {now : Int} {seen : Seen} {between : Finset String} {last : Option Int}
    {nonce : String} (h : p.Kept now between last (seen.get nonce)) :
    p.Kept now between last ((p.sweep now seen).get nonce) := by
  have habsent : seen.get nonce = none → (p.sweep now seen).get nonce = none := by
    intro hnone
    rw [InsertionMap.get_eq_none] at hnone ⊢
    exact fun hmem => hnone (keys_sweep hmem)
  cases last with
  | none => exact habsent h
  | some time =>
      rcases h with hheld | ⟨hnone, hwhy⟩
      · by_cases hlive : now < time + p.maxSkewMs
        · exact Or.inl (get_sweep_of_live hheld hlive)
        · cases hget : (p.sweep now seen).get nonce with
          | none => exact Or.inr ⟨rfl, Or.inl (not_lt.mp hlive)⟩
          | some expiresAt =>
              refine Or.inl ?_
              have hmem := InsertionMap.get_eq_some.mp hget
              rw [← hget, ← hheld, InsertionMap.get_eq_some.mpr (mem_of_mem_sweep hmem), hget]
      · exact Or.inr ⟨habsent hnone, hwhy⟩

/-- A call that is accepted without a stale entry accepts a nonce that the swept
cache does not hold. -/
theorem CleanStep.new_of_accepted {s s' : State} {c : Call N} {nonce : String}
    (h : CleanStep p t s c s') (hnonce : nonceOf c.payload = some nonce)
    (hadmissible : Admissible p t c.payload c.now)
    (hpass : ¬ c.now < ((p.sweep c.now s.seen).get nonce).getD 0) :
    nonce ∉ (p.sweep c.now s.seen).keys := by
  rw [← InsertionMap.get_eq_none, ← Option.not_isSome_iff_eq_none, Option.isSome_iff_exists]
  rintro ⟨expiresAt, hget⟩
  rw [hget, Option.getD_some, not_lt] at hpass
  apply h.2
  refine ⟨nonce, expiresAt, hnonce, hadmissible, ?_, hpass, ?_⟩
  · exact InsertionMap.get_eq_some.mpr (mem_of_mem_sweep (InsertionMap.get_eq_some.mp hget))
  · by_contra hhalf
    rw [ReplayProtection.sweep, if_neg hhalf, InsertionMap.get_keep_eq_some] at hget
    exact absurd (of_decide_eq_true hget.2) (not_lt.mpr hpass)

/-- What a clean call does to the cache. -/
theorem CleanStep.cases {s s' : State} {c : Call N} (h : CleanStep p t s c s')
    (hrequired : p.required = true) :
    (c.accepted = false ∧ (s'.seen = s.seen ∨ s'.seen = p.sweep c.now s.seen)) ∨
      ∃ nonce, c.uses nonce = true ∧ nonce ∉ (p.sweep c.now s.seen).keys ∧
        s'.seen = p.remember c.now nonce (p.sweep c.now s.seen) := by
  rcases h.1.cases hrequired with
    ⟨nonce, hnonce, hadmissible, ⟨haccepted, hpass, hseen⟩ | ⟨hreplayed, -, hseen⟩⟩ |
    ⟨-, hrefused, hseen⟩
  · exact Or.inr ⟨nonce, uses_iff.mpr ⟨haccepted, hnonce⟩,
      h.new_of_accepted hnonce hadmissible hpass, hseen⟩
  · exact Or.inl ⟨accepted_of_replayed hreplayed, Or.inr hseen⟩
  · exact Or.inl ⟨hrefused, Or.inl hseen⟩

omit [JsNumber N] in
/-- The order after a nonce that the cache does not hold was accepted. -/
theorem pairwise_since_of_new {tr : List (Call N)} {c : Call N} {nonce : String}
    {keys : List String} (huses : c.uses nonce = true) (hnew : nonce ∉ keys)
    (horder : keys.Pairwise fun a b => b ∈ since tr a) :
    (keys ++ [nonce]).Pairwise fun a b => b ∈ since (tr ++ [c]) a := by
  rw [List.pairwise_append]
  have hne : ∀ a ∈ keys, a ≠ nonce := fun a ha heq => hnew (heq ▸ ha)
  refine ⟨?_, List.pairwise_singleton _ _, ?_⟩
  · refine horder.imp_of_mem ?_
    intro a b ha _ hb
    rw [since_of_other huses (hne a ha)]
    exact Finset.mem_insert_of_mem hb
  · intro a ha b hb
    rw [List.mem_singleton.mp hb, since_of_other huses (hne a ha)]
    exact Finset.mem_insert_self _ _

/-- A refused call may sweep, which keeps the order of what is left. -/
theorem Ordered.of_refused {tr : List (Call N)} {s s' : State} {c : Call N}
    (hordered : Ordered p tr s) (h : Step p t s c s') (hrefused : c.accepted = false)
    (hseen : s'.seen = s.seen ∨ s'.seen = p.sweep c.now s.seen) : Ordered p (tr ++ [c]) s' := by
  constructor
  · simp only [since_of_refused hrefused]
    rcases hseen with heq | heq
    · rw [heq]
      exact hordered.order
    · rw [heq]
      exact hordered.order.sublist (keys_sweep_sublist _ _)
  · intro nonce
    have hkept := (hordered.kept nonce).later h.1 (Finset.Subset.refl _)
    rw [since_of_refused hrefused, lastAccepted_of_refused hrefused, h.2.1]
    rcases hseen with heq | heq
    · rw [heq]
      exact hkept
    · rw [heq]
      exact hkept.sweep

omit [JsNumber N] in
/-- Of a nonce other than the accepted one the cache still holds what it held
after the sweep, unless it is the one evicted. -/
theorem Ordered.kept_other {tr : List (Call N)} {s : State} {c : Call N} {nonce other : String}
    (hordered : Ordered p tr s) (hle : s.clock ≤ c.now) (huses : c.uses nonce = true)
    (hother : other ≠ nonce) :
    p.Kept c.now (since (tr ++ [c]) other) (lastAccepted (tr ++ [c]) other)
      ((p.sweep c.now s.seen).get other) := by
  rw [lastAccepted_snoc, if_neg fun hu => hother (uses_unique hu huses),
    since_of_other huses hother]
  exact ((hordered.kept other).later hle (Finset.subset_insert _ _)).sweep

omit [JsNumber N] in
/-- An evicted nonce is older than all the nonces that are left. -/
theorem Kept.evict {clock : Int} {between : Finset String} {last held : Option Int}
    (h : p.Kept clock between last held) {left : List String} (hnodup : left.Nodup)
    (hfull : p.maxEntries ≤ left.length) (hsince : ∀ b ∈ left, b ∈ between) :
    p.Kept clock between last none := by
  cases last with
  | none => rfl
  | some time =>
      refine Or.inr ⟨rfl, Or.inr (hfull.trans ?_)⟩
      rw [← List.toFinset_card_of_nodup hnodup]
      apply Finset.card_le_card
      intro b hb
      exact hsince b (List.mem_toFinset.mp hb)

/-- Accepting a nonce that the swept cache does not hold keeps the order. -/
theorem Ordered.of_accepted {tr : List (Call N)} {s s' : State} {c : Call N} {nonce : String}
    (hordered : Ordered p tr s) (h : Step p t s c s') (huses : c.uses nonce = true)
    (hnew : nonce ∉ (p.sweep c.now s.seen).keys)
    (hseen : s'.seen = p.remember c.now nonce (p.sweep c.now s.seen)) :
    Ordered p (tr ++ [c]) s' := by
  have horder := pairwise_since_of_new huses hnew
    (hordered.order.sublist (keys_sweep_sublist c.now s.seen))
  have hself : lastAccepted (tr ++ [c]) nonce = some c.now := by
    rw [lastAccepted_snoc, if_pos huses]
  rcases remember_of_new (p := p) c.now hnew with
    hset | ⟨first, rest, hcons, herase, hkeys, hfull⟩
  · rw [← hseen] at hset
    constructor
    · rw [hset, InsertionMap.keys_set_of_absent _ hnew]
      exact horder
    · intro other
      rw [h.2.1, hset]
      by_cases hother : other = nonce
      · subst hother
        rw [hself, InsertionMap.get_set_self]
        exact Or.inl rfl
      · rw [InsertionMap.get_set_ne _ _ hother]
        exact hordered.kept_other h.1 huses hother
  · rw [← hseen] at herase hkeys
    rw [hcons, List.cons_append, List.pairwise_cons] at horder
    have hfirst : first ≠ nonce := by
      rintro rfl
      exact hnew (hcons ▸ List.mem_cons_self)
    have hnodup : (rest ++ [nonce]).Nodup := hkeys ▸ InsertionMap.nodup_keys _
    constructor
    · rw [hkeys]
      exact horder.2
    · intro other
      rw [h.2.1, herase]
      by_cases hother : other = nonce
      · subst hother
        rw [hself, InsertionMap.get_erase_ne _ (Ne.symm hfirst), InsertionMap.get_set_self]
        exact Or.inl rfl
      · by_cases hof : other = first
        · subst hof
          rw [InsertionMap.get_erase_self]
          exact (hordered.kept_other h.1 huses hother).evict hnodup hfull horder.1
        · rw [InsertionMap.get_erase_ne _ hof, InsertionMap.get_set_ne _ _ hother]
          exact hordered.kept_other h.1 huses hother

theorem CleanStep.ordered {tr : List (Call N)} {s s' : State} {c : Call N}
    (h : CleanStep p t s c s') (hrequired : p.required = true) (hordered : Ordered p tr s) :
    Ordered p (tr ++ [c]) s' := by
  rcases h.cases hrequired with ⟨hrefused, hseen⟩ | ⟨nonce, huses, hnew, hseen⟩
  · exact hordered.of_refused h.1 hrefused hseen
  · exact hordered.of_accepted h.1 huses hnew hseen

/-- An unexpired nonce that a clean call drops is older than all that are left. -/
theorem CleanStep.oldest {tr : List (Call N)} {s s' : State} {c : Call N} {nonce : String}
    {expiresAt : Int} (h : CleanStep p t s c s') (hrequired : p.required = true)
    (hordered : Ordered p tr s) (hget : s.seen.get nonce = some expiresAt)
    (hlive : c.now < expiresAt) (hgone : s'.seen.get nonce = none) :
    ∀ other ∈ s'.seen.keys, other ∈ since (tr ++ [c]) nonce := by
  have hswept := get_sweep_of_live (p := p) hget hlive
  rcases h.cases hrequired with ⟨-, heq | heq⟩ | ⟨nonce', huses, hnew, hseen⟩
  · rw [heq, hget] at hgone
    cases hgone
  · rw [heq, hswept] at hgone
    cases hgone
  · have hne : nonce ≠ nonce' := by
      rintro rfl
      exact hnew (InsertionMap.mem_keys.mpr ⟨_, InsertionMap.get_eq_some.mp hswept⟩)
    have hset : ((p.sweep c.now s.seen).set nonce' (c.now + p.maxSkewMs)).get nonce =
        some expiresAt := by
      rw [InsertionMap.get_set_ne _ _ hne, hswept]
    rcases remember_of_new (p := p) c.now hnew with
      heq | ⟨first, rest, hcons, herase, hkeys, -⟩
    · rw [hseen, heq, hset] at hgone
      cases hgone
    · have hfirst : nonce = first := by
        by_contra hother
        rw [hseen, herase, InsertionMap.get_erase_ne _ hother, hset] at hgone
        cases hgone
      subst hfirst
      have horder := pairwise_since_of_new huses hnew
        (hordered.order.sublist (keys_sweep_sublist c.now s.seen))
      rw [hcons, List.cons_append, List.pairwise_cons] at horder
      rw [hseen, hkeys]
      exact horder.1

section Runs

variable {start : ℕ} {tr : List (Call N)} {s : State}

theorem ordered_of_run (run : Run (CleanStep p t) (State.initial start) tr s)
    (hrequired : p.required = true) : Ordered p tr s := by
  refine run.snoc_induction ?_ ?_
  · exact ⟨List.Pairwise.nil, fun nonce => rfl⟩
  · intro tr c s s' _ hordered hstep
    exact hstep.ordered hrequired hordered

/-- An accepted nonce is refused within the skew while fewer others were
accepted since than the cache holds. -/
theorem replayed_of_few {s' : State} {pre mid : List (Call N)} {c d : Call N} {nonce : String}
    (run : Run (CleanStep p t) (State.initial start) (pre ++ c :: mid) s)
    (hstep : CleanStep p t s d s') (hrequired : p.required = true) (huses : c.uses nonce = true)
    (hnonce : nonceOf d.payload = some nonce) (hwindow : InWindow p t d.payload d.now)
    (hsoon : d.now < c.now + p.maxSkewMs) (hfew : (others mid nonce).card < p.maxEntries) :
    d.verdict = reject "REQUEST_REPLAYED" "Nonce has already been used" := by
  have hrun : Run (Step p t) (State.initial start) (pre ++ c :: mid) s := run.mono fun h => h.1
  have hat : (pre ++ c :: mid)[pre.length]? = some c := by simp
  obtain ⟨time, hlast, hle⟩ := le_lastAccepted hrun hat huses
  have hcard := Finset.card_le_card (since_subset_others pre mid huses)
  have hkept := (ordered_of_run run hrequired).kept nonce
  have hclock := hstep.1.1
  rw [hlast] at hkept
  have hheld : s.seen.get nonce = some (time + p.maxSkewMs) := by
    rcases hkept with hheld | ⟨-, hexp | hcap⟩
    · exact hheld
    · omega
    · omega
  have hlive : d.now < time + p.maxSkewMs := by omega
  have hswept := get_sweep_of_live (p := p) hheld hlive
  have hpattern : matchesNoncePattern nonce = true := by
    obtain ⟨s₀, s₁, -, hused, -⟩ := Run.at_label hrun
    obtain ⟨haccepted, hof⟩ := uses_iff.mp huses
    rcases hused.cases hrequired with ⟨_, -, ⟨⟨nonce', hof', hpattern⟩, -⟩, -⟩ | ⟨-, hrefused, -⟩
    · obtain rfl := Option.some.inj (hof.symm.trans hof')
      exact hpattern
    · rw [haccepted] at hrefused
      cases hrefused
  rcases hstep.1.cases hrequired with
    ⟨nonce', hnonce', -, ⟨-, hpass, -⟩ | ⟨hreplayed, -, -⟩⟩ | ⟨hoff, -, -⟩
  · obtain rfl := Option.some.inj (hnonce.symm.trans hnonce')
    rw [hswept, Option.getD_some] at hpass
    omega
  · exact hreplayed
  · exact absurd ⟨⟨nonce, hnonce, hpattern⟩, hwindow⟩ hoff

end Runs

/-- The cache forgets in the order of acceptance in every run in which no call
accepts a nonce over a stale entry of its own. -/
theorem forgets_in_order_of_clean (p : ReplayProtection) (t : Timestamps N) (start : ℕ)
    (tr : List (Call N)) (s : State) (hrequired : p.required = true)
    (run : Run (CleanStep p t) (State.initial start) tr s) : ForgetsInOrder p t start tr := by
  constructor
  · intro pre c mid d post nonce htr huses hnonce hwindow hsoon hfew
    rw [htr, ← List.cons_append, ← List.append_assoc] at run
    obtain ⟨s₀, s₁, hpre, hstep, -⟩ := Run.at_label run
    exact replayed_of_few hpre hstep hrequired huses hnonce hwindow hsoon hfew
  · intro pre c post s₀ s₀' nonce expiresAt htr hpre hstep hget hlive hgone
    rw [htr] at run
    obtain ⟨s₁, s₁', hclean, hcall, -⟩ := Run.at_label run
    have hsame : Run (Step p t) (State.initial start) pre s₁ := hclean.mono fun h => h.1
    obtain rfl := hpre.deterministic hsame Step.deterministic
    exact CleanStep.oldest ⟨hstep, hcall.2⟩ hrequired (ordered_of_run hclean hrequired) hget hlive
      hgone

section Samples

/-- Five nonces within ten milliseconds. -/
def small : ReplayProtection := ⟨true, 10, 5, by decide, by decide⟩

def A : String := "AAAAAAAAAAAAAAAA"

/-- The first nonce is used again when it has expired, then four others arrive. -/
def reuseAndBurst : List (String × ℤ) :=
  [(A, 1700000000000), ("BBBBBBBBBBBBBBBB", 1700000000005), (A, 1700000000010),
    ("CCCCCCCCCCCCCCCC", 1700000000011), ("DDDDDDDDDDDDDDDD", 1700000000011),
    ("EEEEEEEEEEEEEEEE", 1700000000011), ("FFFFFFFFFFFFFFFF", 1700000000011),
    (A, 1700000000012)]

def accept (nonce : String) (now : ℤ) : Call ℤ := ⟨now, arriving nonce now, .ok ()⟩

/-- Four acceptances later the nonce is accepted once more within the skew. -/
theorem evicted_out_of_order :
    ¬ ∀ (p : ReplayProtection) (t : Timestamps ℤ) (start : ℕ) (tr : List (Call ℤ)) (s : State),
      p.required = true → Run (Step p t) (State.initial start) tr s →
        ForgetsInOrder p t start tr := by
  intro hclaim
  have hrun := run_claimAll small rfl (State.initial (1700000000000 : ℕ)) reuseAndBurst
    (by decide) (by decide)
  have hmid : (small.claimAll (State.initial (1700000000000 : ℕ)) reuseAndBurst).1 =
      [accept A 1700000000000, accept "BBBBBBBBBBBBBBBB" 1700000000005] ++
        accept A 1700000000010 ::
          ([accept "CCCCCCCCCCCCCCCC" 1700000000011, accept "DDDDDDDDDDDDDDDD" 1700000000011,
              accept "EEEEEEEEEEEEEEEE" 1700000000011, accept "FFFFFFFFFFFFFFFF" 1700000000011] ++
            accept A 1700000000012 :: []) := rfl
  have hreplayed := (hclaim small integerTimestamps 1700000000000 _ _ rfl hrun).replayed _ _ _ _ _ A
    hmid (by decide) rfl (admissible_arriving small (by decide) (by decide)).2 (by decide)
    (by decide)
  cases hreplayed

/-- No arrival finds an expired entry of its own nonce. -/
def findsNoStale (p : ReplayProtection) (s : State) : List (String × ℤ) → Bool
  | [] => true
  | (nonce, now) :: later =>
      (s.seen.get nonce).all (fun expiresAt => decide (now < expiresAt)) &&
        p.findsNoStale ⟨now, (p.claim now nonce s.seen).2⟩ later

theorem clean_claimAll (p : ReplayProtection) (hrequired : p.required = true) (s : State)
    (arrivals : List (String × ℤ)) (hsorted : (s.clock :: arrivals.map Prod.snd).IsChain (· ≤ ·))
    (hformed :
      (arrivals.all fun a => matchesNoncePattern a.1 && decide ((10 : ℤ) ^ 12 ≤ a.2)) = true)
    (hlive : p.findsNoStale s arrivals = true) :
    Run (CleanStep p integerTimestamps) s (p.claimAll s arrivals).1 (p.claimAll s arrivals).2 := by
  induction arrivals generalizing s with
  | nil => exact .nil s
  | cons a later ih =>
      rw [List.map_cons, List.isChain_cons_cons] at hsorted
      rw [List.all_cons, Bool.and_eq_true, Bool.and_eq_true, decide_eq_true_iff] at hformed
      rw [findsNoStale, Bool.and_eq_true] at hlive
      have hstep := step_arriving p hrequired hsorted.1 hformed.1.1 hformed.1.2
      refine .cons ⟨hstep, ?_⟩ (ih _ hsorted.2 hformed.2 hlive.2)
      rintro ⟨nonce, expiresAt, hnonce, -, hget, hexpired, -⟩
      obtain rfl : a.1 = nonce := Option.some.inj hnonce
      rw [hget, Option.all_some, decide_eq_true_iff] at hlive
      exact absurd hlive.1 (not_lt.mpr hexpired)

/-- Six nonces for five places, then one that is kept and the one that is not. -/
def overflow : List (String × ℤ) :=
  [(A, 1700000000000), ("BBBBBBBBBBBBBBBB", 1700000000001), ("CCCCCCCCCCCCCCCC", 1700000000001),
    ("DDDDDDDDDDDDDDDD", 1700000000001), ("EEEEEEEEEEEEEEEE", 1700000000001),
    ("FFFFFFFFFFFFFFFF", 1700000000002), ("BBBBBBBBBBBBBBBB", 1700000000003), (A, 1700000000004)]

/-- The nonce accepted first is evicted, and is the only one accepted again. -/
theorem forgets_in_order_of_clean_twice :
    ForgetsInOrder small integerTimestamps 1700000000000
        (small.claimAll (State.initial (1700000000000 : ℕ)) overflow).1 ∧
      (small.claimAll (State.initial (1700000000000 : ℕ)) overflow).1.map Call.accepted =
        [true, true, true, true, true, true, false, true] := by
  refine ⟨?_, by decide⟩
  exact forgets_in_order_of_clean small integerTimestamps 1700000000000 _ _ rfl
    (clean_claimAll small rfl _ overflow (by decide) (by decide) (by decide))

end Samples

end EncryptionGateway.Common.ReplayProtection
