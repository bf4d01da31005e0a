import EncryptionGateway.Common.RateLimitWindows

/-!
# Requests of one client in one period

A client is charged to its own bucket or to the overflow bucket, and can move
from one to the other when a sweep removes its counter or frees a place. Both
buckets together admit less than three times the limit in any period: a client
that was charged to the overflow bucket in the period has at most one window of
its own in it.
-/

namespace EncryptionGateway.Common.RateLimitGuard

open JavaScript Foundation

variable {g : RateLimitGuard} {left : Int} {client : ClientKey}

theorem bucketOf_eq_overflow_iff {s : Counters} :
    g.bucketOf client s = OVERFLOW_KEY ↔
      s.hits.get client = none ∧ g.maxEntries - 1 ≤ s.hits.size := by
  rw [← InsertionMap.has_eq_false]
  unfold bucketOf
  split
  · next h => exact ⟨fun _ => h, fun _ => rfl⟩
  · next h => exact ⟨fun heq => absurd heq client.2, fun h' => absurd h' h⟩

theorem bucketOf_cases (s : Counters) :
    g.bucketOf client s = OVERFLOW_KEY ∨ g.bucketOf client s = client := by
  unfold bucketOf
  split
  · exact Or.inl rfl
  · exact Or.inr rfl

theorem Step.bucket_cases {s s' : State} {h : Hit} (hstep : Step g s h s') :
    h.bucket = OVERFLOW_KEY ∨ h.bucket = h.client := by
  rw [hstep.spec.1]
  exact bucketOf_cases _

/-- Only a client itself is charged to its own bucket. -/
theorem Step.client_eq {s s' : State} {h : Hit} (hstep : Step g s h s')
    (hbucket : h.bucket = client) : h.client = client := by
  rcases hstep.bucket_cases with heq | heq
  · exact absurd (hbucket.symm.trans heq) client.2
  · exact Subtype.ext (heq.symm.trans hbucket)

/-- A sweep that drops a counter puts the next sweep a period off. -/
theorem nextSweepAt_of_dropped {now : Int} {s : Counters} {key : String} {w : Window}
    (h : s.hits.get key = some w) (hdropped : (g.sweep now s).hits.get key = none) :
    (g.sweep now s).nextSweepAt = now + g.ttlMs := by
  unfold sweep at hdropped ⊢
  split
  · next hearly =>
      rw [if_pos hearly, h] at hdropped
      cases hdropped
  · rfl

theorem sweep_of_early {now : Int} {s : Counters} (h : now < s.nextSweepAt) : g.sweep now s = s :=
  if_pos h

theorem get_sweep_of_absent {now : Int} {s : Counters} {key : String}
    (h : s.hits.get key = none) : (g.sweep now s).hits.get key = none := by
  cases hswept : (g.sweep now s).hits.get key with
  | none => rfl
  | some w =>
      rw [get_sweep hswept] at h
      cases h

/-- The admitted requests of a client from a time on, for one period. -/
def admittedOf (g : RateLimitGuard) (tr : List Hit) (client : ClientKey) (left : Int) : List Hit :=
  tr.filter fun h => decide (h.client = client ∧ left ≤ h.now ∧ h.now < left + g.ttlMs) &&
    h.admitted

/-- The requests that its own bucket admitted among them. -/
def own (g : RateLimitGuard) (tr : List Hit) (client : ClientKey) (left : Int) : ℕ :=
  Window.admittedIn g.ttlMs g.limit left (charged tr client)

/-- The requests of all clients that the overflow bucket admitted. -/
def shared (g : RateLimitGuard) (tr : List Hit) (left : Int) : ℕ :=
  Window.admittedIn g.ttlMs g.limit left (charged tr OVERFLOW_KEY)

/-- The client was charged to the overflow bucket in the period. -/
def Overflowed (g : RateLimitGuard) (tr : List Hit) (client : ClientKey) (left : Int) : Prop :=
  ∃ h ∈ tr, h.client = client ∧ h.bucket = OVERFLOW_KEY ∧ left ≤ h.now ∧ h.now < left + g.ttlMs

/-- Where a client stands before the end of a period: not yet charged to the
overflow bucket; charged to it only; charged to it after its own counter was
swept away; or back on a counter of its own, opened inside the period. -/
inductive Phase (g : RateLimitGuard) (client : ClientKey) (left : Int) (tr : List Hit) (s : State) :
    Prop
  | steady (hnever : ¬ Overflowed g tr client left)
      (hown : own g tr client left = 0 ∨ (s.counters.hits.get client).isSome = true ∨
        left + g.ttlMs ≤ s.counters.nextSweepAt)
  | waiting (hclock : left ≤ s.clock) (habsent : s.counters.hits.get client = none)
      (hown : own g tr client left = 0)
  | evicted (hclock : left ≤ s.clock) (habsent : s.counters.hits.get client = none)
      (hfull : g.maxEntries - 1 ≤ s.counters.hits.size)
      (hswept : left + g.ttlMs ≤ s.counters.nextSweepAt) (hown : own g tr client left ≤ g.limit)
  | returned (w : Window) (hclock : left ≤ s.clock) (hget : s.counters.hits.get client = some w)
      (hopen : left + g.ttlMs ≤ w.resetAt) (hown : own g tr client left ≤ min w.count g.limit)

theorem own_snoc (tr : List Hit) (h : Hit) :
    own g (tr ++ [h]) client left =
      if h.bucket = client then
        own g tr client left +
          if left ≤ h.now ∧ h.now < left + g.ttlMs ∧
            (Window.hit g.ttlMs h.now (Window.tally g.ttlMs (charged tr client))).count ≤ g.limit
          then 1 else 0
      else own g tr client left := by
  unfold own
  rw [charged_snoc]
  split
  · rfl
  · rfl

theorem length_admittedOf_snoc (tr : List Hit) (h : Hit) :
    (admittedOf g (tr ++ [h]) client left).length =
      (admittedOf g tr client left).length +
        if (h.client = client ∧ left ≤ h.now ∧ h.now < left + g.ttlMs) ∧ h.admitted = true
        then 1 else 0 := by
  unfold admittedOf
  rw [List.filter_append, List.length_append]
  congr 1
  by_cases hin : (h.client = client ∧ left ≤ h.now ∧ h.now < left + g.ttlMs) ∧ h.admitted = true
  · rw [if_pos hin, List.filter_cons_of_pos (by simpa using hin)]
    rfl
  · rw [if_neg hin, List.filter_cons_of_neg (by simpa using hin)]
    rfl

theorem overflowed_snoc (tr : List Hit) (h : Hit) :
    Overflowed g (tr ++ [h]) client left ↔
      Overflowed g tr client left ∨
        h.client = client ∧ h.bucket = OVERFLOW_KEY ∧ left ≤ h.now ∧ h.now < left + g.ttlMs := by
  simp [Overflowed, or_and_right, exists_or]

section Phases

variable {start : Int} {tr : List Hit} {s s' : State} {h : Hit}

theorem Step.admittedIn_charged (hstep : Step g s h s')
    (run : Run (Step g) (State.initial start) tr s) (bucket : String) :
    Window.admittedIn g.ttlMs g.limit left (charged (tr ++ [h]) bucket) =
      Window.admittedIn g.ttlMs g.limit left (charged tr bucket) +
        if h.bucket = bucket ∧ left ≤ h.now ∧ h.now < left + g.ttlMs ∧ h.admitted = true
        then 1 else 0 := by
  have hadmitted := hstep.admitted_iff (tallied_of_run run)
  rw [charged_snoc]
  by_cases hb : h.bucket = bucket
  · subst hb
    rw [if_pos rfl, Window.admittedIn]
    simp only [hadmitted, true_and]
  · rw [if_neg hb, if_neg fun hin => hb hin.1, Nat.add_zero]

theorem Step.own_eq (hstep : Step g s h s') (run : Run (Step g) (State.initial start) tr s) :
    own g (tr ++ [h]) client left = own g tr client left +
      if h.bucket = client ∧ left ≤ h.now ∧ h.now < left + g.ttlMs ∧ h.admitted = true
      then 1 else 0 :=
  hstep.admittedIn_charged run client

theorem Step.shared_eq (hstep : Step g s h s') (run : Run (Step g) (State.initial start) tr s) :
    shared g (tr ++ [h]) left = shared g tr left +
      if h.bucket = OVERFLOW_KEY ∧ left ≤ h.now ∧ h.now < left + g.ttlMs ∧ h.admitted = true
      then 1 else 0 :=
  hstep.admittedIn_charged run OVERFLOW_KEY

theorem own_of_before (run : Run (Step g) (State.initial start) tr s) {now : Int}
    (hclock : s.clock ≤ now) (hnow : now < left) : own g tr client left = 0 := by
  apply Window.admittedIn_of_before
  intro t ht
  exact lt_of_le_of_lt ((charged_le_clock run client t ht).trans hclock) hnow

/-- A client whose counter is gone inside the period had no window opened in it. -/
theorem own_of_absent (run : Run (Step g) (State.initial start) tr s) (hstep : Step g s h s')
    (hend : h.now < left + g.ttlMs)
    (habsent : (g.sweep h.now s.counters).hits.get client = none) :
    own g tr client left ≤ g.limit := by
  have hheld := held_sweep (g := g) ((tallied_of_run run client).later hstep.1)
  have hbefore : ∀ t ∈ charged tr client, t < left + g.ttlMs := by
    intro t ht
    exact lt_of_le_of_lt ((charged_le_clock run client t ht).trans hstep.1) hend
  have hcounted := Window.counted_admittedIn g.limit_pos (charged_sorted run client) hbefore
  rw [habsent] at hheld
  unfold own
  cases htally : Window.tally g.ttlMs (charged tr client) with
  | none =>
      rw [htally] at hcounted
      exact le_of_eq_of_le hcounted (Nat.zero_le _)
  | some w =>
      rw [htally] at hheld hcounted
      rcases hheld with heq | ⟨-, hover⟩
      · cases heq
      · have hw := hover w rfl
        rw [Window.Counted, if_pos (by omega)] at hcounted
        omega

/-- A request of the client that goes to the overflow bucket. -/
theorem Step.phase_of_overflow (run : Run (Step g) (State.initial start) tr s)
    (hstep : Step g s h s') (hend : h.now < left + g.ttlMs) (hfrom : left ≤ h.now)
    (hclient : h.client = client) (hbucket : h.bucket = OVERFLOW_KEY)
    (hown : own g tr client left = 0 ∨ (s.counters.hits.get client).isSome = true ∨
      left + g.ttlMs ≤ s.counters.nextSweepAt) : Phase g client left (tr ++ [h]) s' := by
  obtain ⟨hof, entry, -, -, hhits, hnext⟩ := hstep.spec
  obtain ⟨habsent, hfull⟩ := bucketOf_eq_overflow_iff.mp (hof.symm.trans hbucket)
  rw [hclient] at habsent
  have hne : h.bucket ≠ client := fun heq => client.2 (heq.symm.trans hbucket)
  have habsent' : s'.counters.hits.get client = none := by
    rw [hhits, InsertionMap.get_set_ne _ _ (Ne.symm hne), habsent]
  have hsame : own g (tr ++ [h]) client left = own g tr client left := by
    rw [own_snoc, if_neg hne]
  have hclock : left ≤ s'.clock := hstep.2.1 ▸ hfrom
  rcases Nat.eq_zero_or_pos (own g tr client left) with hzero | hpos
  · exact .waiting hclock habsent' (hsame.trans hzero)
  · refine .evicted hclock habsent' ?_ ?_ ?_
    · rw [hhits]
      exact hfull.trans (InsertionMap.size_le_size_set _ _ _)
    · rw [hnext]
      cases hget : s.counters.hits.get client with
      | some w =>
          rw [nextSweepAt_of_dropped hget habsent]
          omega
      | none =>
          have hswept : left + g.ttlMs ≤ s.counters.nextSweepAt := by
            rcases hown with hzero | hsome | hswept
            · omega
            · rw [hget] at hsome
              cases hsome
            · exact hswept
          rw [sweep_of_early (lt_of_lt_of_le hend hswept)]
          exact hswept
    · rw [hsame]
      exact own_of_absent run hstep hend habsent

/-- A request that does not take the client to the overflow bucket. -/
theorem Step.phase_of_steady (run : Run (Step g) (State.initial start) tr s)
    (hstep : Step g s h s') (hend : h.now < left + g.ttlMs)
    (hnever : ¬ Overflowed g (tr ++ [h]) client left)
    (hown : own g tr client left = 0 ∨ (s.counters.hits.get client).isSome = true ∨
      left + g.ttlMs ≤ s.counters.nextSweepAt) : Phase g client left (tr ++ [h]) s' := by
  obtain ⟨-, entry, -, -, hhits, hnext⟩ := hstep.spec
  refine .steady hnever ?_
  by_cases hb : h.bucket = client
  · refine Or.inr (Or.inl ?_)
    rw [hhits, hb, InsertionMap.get_set_self]
    rfl
  · rw [own_snoc, if_neg hb, hnext, hhits, InsertionMap.get_set_ne _ _ (Ne.symm hb)]
    rcases hown with hzero | hsome | hswept
    · exact Or.inl hzero
    · obtain ⟨w, hw⟩ := Option.isSome_iff_exists.mp hsome
      cases hget : (g.sweep h.now s.counters).hits.get client with
      | some w' => exact Or.inr (Or.inl rfl)
      | none =>
          by_cases hfrom : left ≤ h.now
          · refine Or.inr (Or.inr ?_)
            rw [nextSweepAt_of_dropped hw hget]
            omega
          · exact Or.inl (own_of_before run hstep.1 (not_le.mp hfrom))
    · refine Or.inr (Or.inr ?_)
      rw [sweep_of_early (lt_of_lt_of_le hend hswept)]
      exact hswept

theorem Step.phase (run : Run (Step g) (State.initial start) tr s) (hstep : Step g s h s')
    (hend : h.now < left + g.ttlMs) (hphase : Phase g client left tr s) :
    Phase g client left (tr ++ [h]) s' := by
  obtain ⟨hof, entry, hentry, -, hhits, hnext⟩ := hstep.spec
  have hlater : left ≤ s.clock → left ≤ s'.clock := fun hclock =>
    hstep.2.1 ▸ hclock.trans hstep.1
  cases hphase with
  | steady hnever hown =>
      by_cases hmove : h.client = client ∧ h.bucket = OVERFLOW_KEY ∧ left ≤ h.now
      · exact hstep.phase_of_overflow run hend hmove.2.2 hmove.1 hmove.2.1 hown
      · refine hstep.phase_of_steady run hend ?_ hown
        rw [overflowed_snoc]
        rintro (hbefore | ⟨hclient, hbucket, hfrom, -⟩)
        · exact hnever hbefore
        · exact hmove ⟨hclient, hbucket, hfrom⟩
  | waiting hclock habsent hown =>
      have habsent' : (g.sweep h.now s.counters).hits.get client = none :=
        get_sweep_of_absent habsent
      by_cases hb : h.bucket = client
      · -- the client's first request on a counter of its own opens its window
        rw [hb, habsent'] at hentry
        refine .returned entry (hlater hclock) ?_ ?_ ?_
        · rw [hhits, hb, InsertionMap.get_set_self]
        · rw [hentry]
          have := hclock.trans hstep.1
          simp only [Window.hit]
          omega
        · rw [own_snoc, if_pos hb, hown, hentry]
          show _ ≤ min 1 g.limit
          rw [min_eq_left g.limit_pos]
          split <;> omega
      · refine .waiting (hlater hclock) ?_ ?_
        · rw [hhits, InsertionMap.get_set_ne _ _ (Ne.symm hb), habsent']
        · rw [own_snoc, if_neg hb, hown]
  | evicted hclock habsent hfull hswept hown =>
      rw [sweep_of_early (lt_of_lt_of_le hend hswept)] at hof hhits hnext
      have hb : h.bucket ≠ client := by
        intro hb
        have hclient := hstep.client_eq hb
        have hover : g.bucketOf h.client s.counters = OVERFLOW_KEY :=
          bucketOf_eq_overflow_iff.mpr ⟨hclient ▸ habsent, hfull⟩
        exact client.2 (hb.symm.trans (hof.trans hover))
      refine .evicted (hlater hclock) ?_ ?_ (hnext ▸ hswept) ?_
      · rw [hhits, InsertionMap.get_set_ne _ _ (Ne.symm hb), habsent]
      · rw [hhits]
        exact hfull.trans (InsertionMap.size_le_size_set _ _ _)
      · rw [own_snoc, if_neg hb]
        exact hown
  | returned w hclock hget hopen hown =>
      obtain ⟨hget', -⟩ := hstep.get_of_open hget (lt_of_lt_of_le hend hopen)
      by_cases hb : h.bucket = client
      · rw [if_pos hb] at hget'
        refine .returned _ (hlater hclock) hget' hopen ?_
        have htally := (hget ▸ tallied_of_run run client).tally_eq
        simp only [own_snoc, if_pos hb, htally, Window.hit_of_open (lt_of_lt_of_le hend hopen)]
        split <;> omega
      · rw [if_neg hb] at hget'
        refine .returned w (hlater hclock) hget' hopen ?_
        rw [own_snoc, if_neg hb]
        exact hown

theorem phase_of_run (run : Run (Step g) (State.initial start) tr s) (client : ClientKey)
    (hend : s.clock < left + g.ttlMs) : Phase g client left tr s := by
  refine run.snoc_induction
    (motive := fun tr s => s.clock < left + g.ttlMs → Phase g client left tr s) ?_ ?_ hend
  · intro _
    exact .steady (by simp [Overflowed]) (Or.inl rfl)
  · intro tr h s s' hrun ih hstep hend
    rw [hstep.2.1] at hend
    exact hstep.phase hrun hend (ih (lt_of_le_of_lt hstep.1 hend))

/-- A client charged to the overflow bucket in a period has at most one window
of its own in it. -/
theorem own_le_of_overflowed (run : Run (Step g) (State.initial start) tr s)
    (hover : Overflowed g tr client left) : own g tr client left ≤ g.limit := by
  refine run.snoc_induction (motive := fun tr _ =>
    Overflowed g tr client left → own g tr client left ≤ g.limit) ?_ ?_ hover
  · rintro ⟨h, hmem, -⟩
    cases hmem
  · intro tr h s s' hrun ih hstep hover
    by_cases hend : h.now < left + g.ttlMs
    · have hphase := hstep.phase hrun hend (phase_of_run hrun client
        (lt_of_le_of_lt hstep.1 hend))
      cases hphase with
      | steady hnever => exact absurd hover hnever
      | waiting _ _ hown => exact hown ▸ Nat.zero_le _
      | evicted _ _ _ _ hown => exact hown
      | returned w _ _ _ hown => exact hown.trans (min_le_right _ _)
    · -- after the period nothing is counted
      rw [own_snoc, if_neg (c := _ ∧ _) fun hin => hend hin.2.1, Nat.add_zero, ite_self]
      apply ih
      rw [overflowed_snoc] at hover
      exact hover.resolve_right fun hin => hend hin.2.2.2

theorem own_lt (run : Run (Step g) (State.initial start) tr s) (client : ClientKey) (left : Int) :
    own g tr client left + 1 ≤ 2 * g.limit :=
  Window.admittedIn_le g.limit_pos (charged_sorted run client)

theorem shared_lt (run : Run (Step g) (State.initial start) tr s) (left : Int) :
    shared g tr left + 1 ≤ 2 * g.limit :=
  Window.admittedIn_le g.limit_pos (charged_sorted run OVERFLOW_KEY)

/-- An admitted request of a client is one of its own bucket or of the shared
one. -/
theorem admittedOf_le (run : Run (Step g) (State.initial start) tr s) (client : ClientKey)
    (left : Int) :
    (admittedOf g tr client left).length ≤ own g tr client left + shared g tr left ∧
      (¬ Overflowed g tr client left →
        (admittedOf g tr client left).length ≤ own g tr client left) := by
  refine run.snoc_induction (motive := fun tr _ =>
    (admittedOf g tr client left).length ≤ own g tr client left + shared g tr left ∧
      (¬ Overflowed g tr client left →
        (admittedOf g tr client left).length ≤ own g tr client left)) ?_ ?_
  · exact ⟨Nat.zero_le _, fun _ => Nat.zero_le _⟩
  · intro tr h s s' hrun ⟨hboth, hown⟩ hstep
    have hstays : ¬ Overflowed g (tr ++ [h]) client left → ¬ Overflowed g tr client left :=
      fun hnever hover => hnever (overflowed_snoc tr h |>.mpr (Or.inl hover))
    rw [length_admittedOf_snoc, hstep.own_eq hrun, hstep.shared_eq hrun]
    by_cases hin : (h.client = client ∧ left ≤ h.now ∧ h.now < left + g.ttlMs) ∧ h.admitted = true
    · obtain ⟨⟨hclient, hfrom, hend⟩, hadmitted⟩ := hin
      rw [if_pos ⟨⟨hclient, hfrom, hend⟩, hadmitted⟩]
      rcases hstep.bucket_cases with hb | hb
      · rw [if_pos (c := h.bucket = OVERFLOW_KEY ∧ _) ⟨hb, hfrom, hend, hadmitted⟩]
        refine ⟨by omega, fun hnever => absurd ?_ hnever⟩
        exact (overflowed_snoc tr h).mpr (Or.inr ⟨hclient, hb, hfrom, hend⟩)
      · rw [hclient] at hb
        rw [if_pos (c := h.bucket = client ∧ _) ⟨hb, hfrom, hend, hadmitted⟩]
        refine ⟨by omega, fun hnever => ?_⟩
        have := hown (hstays hnever)
        omega
    · rw [if_neg hin]
      refine ⟨by omega, fun hnever => ?_⟩
      have := hown (hstays hnever)
      omega

end Phases

/-- Fewer than three times the limit of a client's requests are admitted in any
period. -/
theorem admitted_in_period (g : RateLimitGuard) (start left : Int) (client : ClientKey)
    (tr : List Hit) (s : State) (run : Run (Step g) (State.initial start) tr s) :
    (admittedOf g tr client left).length ≤ 3 * g.limit - 1 := by
  obtain ⟨hboth, hown⟩ := admittedOf_le run client left
  have hshared := shared_lt run left
  by_cases hover : Overflowed g tr client left
  · have hle := own_le_of_overflowed run hover
    omega
  · have hle := hown hover
    have hlt := own_lt run client left
    omega

theorem four_places : 0 < 4 := by decide

/-- Room for three clients of their own, two requests each. -/
def roomy : RateLimitGuard := { strict with maxEntries := 4, maxEntries_pos := four_places }

/-- Three clients keep the map full of open windows. The requests of another are
charged to the overflow bucket until the windows of two of them have ended. -/
def migration : List (ClientKey × Int) :=
  [(host '9', 10), (host '1', 60), (host '2', 61), (host '1', 115), (host '7', 120),
    (host '3', 150), (host '1', 165), (host '2', 166), (host '7', 216), (host '7', 225),
    (host '3', 249), (host '3', 250), (host '3', 250), (host '3', 316), (host '3', 316)]

/-- Five of its requests are admitted in one period, where twice the limit is
four. -/
theorem admitted_above_twice_limit :
    ¬ ∀ (g : RateLimitGuard) (start left : Int) (client : ClientKey) (tr : List Hit) (s : State),
      Run (Step g) (State.initial start) tr s →
        (admittedOf g tr client left).length ≤ 2 * g.limit := by
  intro hbound
  have hrun := run_serveAll roomy (State.initial 0) migration (by decide)
  have hfive := hbound roomy 0 249 (host '3') _ _ hrun
  revert hfive
  decide

/-- The bound is met by that run. -/
theorem admitted_in_period_migration :
    (admittedOf roomy (roomy.serveAll (State.initial 0) migration).1
      (host '3') 249).length ≤ 5 :=
  admitted_in_period roomy 0 249 (host '3') _ _ (run_serveAll roomy _ _ (by decide))

end EncryptionGateway.Common.RateLimitGuard
