import EncryptionGateway.Common.RateLimit

/-!
# Windows and memory of the rate limiter

Each stored counter is the tally of the requests charged to its bucket, and a
counter is forgotten only after its window. The map holds at most its cap, one
place of it for the overflow bucket.
-/

namespace EncryptionGateway.Common.RateLimitGuard

open JavaScript Foundation

variable {g : RateLimitGuard}

theorem get_sweep {now : Int} {s : Counters} {key : String} {w : Window}
    (h : (g.sweep now s).hits.get key = some w) : s.hits.get key = some w := by
  unfold sweep at h
  split at h
  · exact h
  · exact (InsertionMap.get_keep_eq_some.mp h).1

/-- A sweep drops expired windows only. -/
theorem get_sweep_of_open {now : Int} {s : Counters} {key : String} {w : Window}
    (h : s.hits.get key = some w) (hopen : now < w.resetAt) :
    (g.sweep now s).hits.get key = some w := by
  unfold sweep
  split
  · exact h
  · exact InsertionMap.get_keep_eq_some.mpr ⟨h, decide_eq_true hopen⟩

/-- The map after a sweep is the old one without some keys. -/
theorem sweep_eq_keep (now : Int) (s : Counters) :
    (g.sweep now s).hits = s.hits ∨
      (g.sweep now s).hits = s.hits.keep fun _ w => decide (now < w.resetAt) := by
  unfold sweep
  split
  · exact Or.inl rfl
  · exact Or.inr rfl

/-- What a request does: it is charged to the bucket chosen after the sweep,
and answered by the count of that bucket's window. -/
theorem Step.spec {s s' : State} {h : Hit} (hstep : Step g s h s') :
    h.bucket = g.bucketOf h.client (g.sweep h.now s.counters) ∧
      ∃ entry, entry = Window.hit g.ttlMs h.now ((g.sweep h.now s.counters).hits.get h.bucket) ∧
        h.decision = g.decision entry h.now ∧
        s'.counters.hits = (g.sweep h.now s.counters).hits.set h.bucket entry ∧
        s'.counters.nextSweepAt = (g.sweep h.now s.counters).nextSweepAt := by
  obtain ⟨-, -, hbucket, hcall⟩ := hstep
  rw [State.bucketAt] at hbucket
  rw [canActivate_limited, ← hbucket] at hcall
  obtain ⟨hdecision, hcounters⟩ := Prod.mk.inj hcall
  exact ⟨hbucket, _, rfl, hdecision.symm, by rw [← hcounters]; rfl, by rw [← hcounters]; rfl⟩

/-- The request finds no window of its bucket, or one that is over. -/
def Opens (s : State) (h : Hit) : Prop :=
  ∀ w, s.counters.hits.get h.bucket = some w → w.resetAt ≤ h.now

/-- Every bucket is in the window its requests add up to, or was forgotten
after that window. -/
def Tallied (g : RateLimitGuard) (tr : List Hit) (s : State) : Prop :=
  ∀ bucket, Window.Held s.clock (s.counters.hits.get bucket)
    (Window.tally g.ttlMs (charged tr bucket))

theorem held_sweep {now : Int} {s : Counters} {bucket : String} {tallied : Option Window}
    (h : Window.Held now (s.hits.get bucket) tallied) :
    Window.Held now ((g.sweep now s).hits.get bucket) tallied := by
  cases hswept : (g.sweep now s).hits.get bucket with
  | some w =>
      rw [get_sweep hswept] at h
      exact h
  | none =>
      refine Or.inr ⟨rfl, fun w hw => ?_⟩
      rcases h with heq | ⟨-, hover⟩
      · by_contra hopen
        have hkept : (g.sweep now s).hits.get bucket = some w :=
          get_sweep_of_open (heq.trans hw) (not_le.mp hopen)
        rw [hswept] at hkept
        cases hkept
      · exact hover w hw

theorem Step.tallied {tr : List Hit} {s s' : State} {h : Hit} (hstep : Step g s h s')
    (htallied : Tallied g tr s) : Tallied g (tr ++ [h]) s' := by
  obtain ⟨-, entry, hentry, -, hhits, -⟩ := hstep.spec
  intro bucket
  have hheld := held_sweep (g := g) ((htallied bucket).later hstep.1)
  rw [hstep.2.1, charged_snoc, hhits]
  by_cases hb : h.bucket = bucket
  · subst hb
    rw [if_pos rfl, InsertionMap.get_set_self, Window.tally_cons, hentry, hheld.hit_eq]
    exact Or.inl rfl
  · rw [if_neg hb, InsertionMap.get_set_ne _ _ (Ne.symm hb)]
    exact hheld

/-- A request is admitted by the tally of its bucket. -/
theorem Step.admitted_iff {tr : List Hit} {s s' : State} {h : Hit} (hstep : Step g s h s')
    (htallied : Tallied g tr s) :
    h.admitted = true ↔
      (Window.hit g.ttlMs h.now (Window.tally g.ttlMs (charged tr h.bucket))).count ≤ g.limit := by
  obtain ⟨-, entry, hentry, hdecision, -⟩ := hstep.spec
  have hheld := held_sweep (g := g) ((htallied h.bucket).later hstep.1)
  rw [Hit.admitted, hdecision, admitted_decision, hentry, hheld.hit_eq]

/-- A request that opens a window is the first of it. -/
theorem Step.get_of_opens {s s' : State} {h : Hit} (hstep : Step g s h s') (hopens : Opens s h) :
    s'.counters.hits.get h.bucket = some ⟨1, h.now + g.ttlMs⟩ := by
  obtain ⟨-, entry, hentry, -, hhits, -⟩ := hstep.spec
  rw [hhits, InsertionMap.get_set_self, hentry, Window.hit_of_over]
  intro w hw
  exact hopens w (get_sweep hw)

/-- A window goes through sweeps and the requests of other buckets unchanged. -/
theorem Step.get_of_open {s s' : State} {h : Hit} {bucket : String} {w : Window}
    (hstep : Step g s h s') (hget : s.counters.hits.get bucket = some w)
    (hopen : h.now < w.resetAt) :
    s'.counters.hits.get bucket =
        some (if h.bucket = bucket then ⟨w.count + 1, w.resetAt⟩ else w) ∧
      (h.bucket = bucket → (h.admitted = true ↔ w.count + 1 ≤ g.limit)) := by
  obtain ⟨-, entry, hentry, hdecision, hhits, -⟩ := hstep.spec
  have hkept := get_sweep_of_open (g := g) hget hopen
  by_cases hb : h.bucket = bucket
  · subst hb
    rw [hkept, Window.hit_of_open hopen] at hentry
    rw [hhits, InsertionMap.get_set_self, if_pos rfl, hentry, Hit.admitted, hdecision,
      admitted_decision, hentry]
    exact ⟨rfl, fun _ => Iff.rfl⟩
  · rw [hhits, InsertionMap.get_set_ne _ _ (Ne.symm hb), hkept, if_neg hb]
    exact ⟨rfl, fun heq => absurd heq hb⟩

/-- The first `limit` of `n` requests. -/
def firsts (limit n : ℕ) : List Bool :=
  List.replicate (min limit n) true ++ List.replicate (n - limit) false

theorem firsts_succ (limit n : ℕ) :
    firsts limit (n + 1) = firsts limit n ++ [decide (n + 1 ≤ limit)] := by
  unfold firsts
  by_cases h : n + 1 ≤ limit
  · rw [min_eq_right h, min_eq_right (by omega), Nat.sub_eq_zero_of_le h,
      Nat.sub_eq_zero_of_le (by omega), List.replicate_succ', decide_eq_true h]
    simp
  · rw [min_eq_left (by omega), min_eq_left (by omega), Nat.sub_add_comm (by omega),
      List.replicate_succ', decide_eq_false h, List.append_assoc]

/-- The requests charged to a bucket. -/
def charges (tr : List Hit) (bucket : String) : List Hit :=
  tr.filter fun h => decide (h.bucket = bucket)

theorem charges_snoc (tr : List Hit) (h : Hit) (bucket : String) :
    charges (tr ++ [h]) bucket =
      charges tr bucket ++ if h.bucket = bucket then [h] else [] := by
  unfold charges
  by_cases hb : h.bucket = bucket <;> simp [hb]

/-- The places taken by clients. -/
def individuals (s : Counters) : ℕ := (s.hits.erase OVERFLOW_KEY).size

theorem individuals_sweep_le (now : Int) (s : Counters) :
    individuals (g.sweep now s) ≤ individuals s := by
  unfold individuals
  rcases sweep_eq_keep (g := g) now s with heq | heq
  · rw [heq]
  · rw [heq, InsertionMap.erase_keep_comm]
    exact InsertionMap.size_keep_le _ _

theorem Step.individuals_le {s s' : State} {h : Hit} (hstep : Step g s h s')
    (hle : individuals s.counters ≤ g.maxEntries - 1) :
    individuals s'.counters ≤ g.maxEntries - 1 := by
  obtain ⟨hbucket, entry, -, -, hhits, -⟩ := hstep.spec
  have hswept := (individuals_sweep_le (g := g) h.now s.counters).trans hle
  generalize g.sweep h.now s.counters = swept at hbucket hhits hswept
  rw [individuals, hhits]
  unfold bucketOf at hbucket
  split at hbucket
  · rw [hbucket, InsertionMap.size_erase_set_self]
    exact hswept
  · next hroom =>
      by_cases hmem : h.bucket ∈ swept.hits.keys
      · rw [InsertionMap.size_erase_set_of_present _ hmem]
        exact hswept
      · have habsent : swept.hits.has h.client = false := by
          rw [← hbucket, InsertionMap.has, InsertionMap.get_eq_none.mpr hmem]
          rfl
        have hsize := InsertionMap.size_erase_le (swept.hits.set h.bucket entry) OVERFLOW_KEY
        rw [InsertionMap.size_set_of_absent _ hmem] at hsize
        have hsmall : ¬ g.maxEntries - 1 ≤ swept.hits.size := fun hfull => hroom ⟨habsent, hfull⟩
        omega

section Runs

variable {start : Int} {tr : List Hit} {s : State}

theorem tallied_of_run (run : Run (Step g) (State.initial start) tr s) : Tallied g tr s := by
  refine run.snoc_induction ?_ ?_
  · intro bucket
    exact Or.inl rfl
  · intro tr h s s' _ ih hstep
    exact hstep.tallied ih

theorem individuals_of_run (run : Run (Step g) (State.initial start) tr s) :
    individuals s.counters ≤ g.maxEntries - 1 := by
  refine run.invariant (I := fun s => individuals s.counters ≤ g.maxEntries - 1) ?_ ?_
  · exact Nat.zero_le _
  · intro s h s' hle hstep
    exact hstep.individuals_le hle

theorem size_of_run (run : Run (Step g) (State.initial start) tr s) :
    s.counters.hits.size ≤ g.maxEntries := by
  have hle := individuals_of_run run
  have hone := s.counters.hits.size_le_size_erase OVERFLOW_KEY
  have hpos := g.maxEntries_pos
  unfold individuals at hle
  omega

theorem now_le_clock {s₀ : State} (run : Run (Step g) s₀ tr s) :
    s₀.clock ≤ s.clock ∧ ∀ h ∈ tr, s₀.clock ≤ h.now ∧ h.now ≤ s.clock := by
  induction run with
  | nil s => exact ⟨le_rfl, by simp⟩
  | cons head tail ih =>
      obtain ⟨hle, hclock, -⟩ := head
      rw [hclock] at ih
      refine ⟨hle.trans ih.1, ?_⟩
      intro h hmem
      rcases List.mem_cons.mp hmem with rfl | hmem
      · exact ⟨hle, ih.1⟩
      · exact ⟨hle.trans (ih.2 h hmem).1, (ih.2 h hmem).2⟩

/-- No request was charged later than the clock. -/
theorem charged_le_clock {s₀ : State} (run : Run (Step g) s₀ tr s) (bucket : String) :
    ∀ t ∈ charged tr bucket, t ≤ s.clock := by
  intro t ht
  simp only [charged, List.mem_reverse, List.mem_map, List.mem_filter] at ht
  obtain ⟨h, ⟨hmem, -⟩, rfl⟩ := ht
  exact ((now_le_clock run).2 h hmem).2

theorem charged_sorted {s₀ : State} (run : Run (Step g) s₀ tr s) (bucket : String) :
    (charged tr bucket).Pairwise (· ≥ ·) := by
  refine run.snoc_induction (motive := fun tr _ => (charged tr bucket).Pairwise (· ≥ ·)) ?_ ?_
  · exact List.Pairwise.nil
  · intro tr h s s' hrun ih hstep
    rw [charged_snoc]
    split
    · refine List.pairwise_cons.mpr ⟨?_, ih⟩
      intro t ht
      exact (charged_le_clock hrun bucket t ht).trans hstep.1
    · exact ih

/-- Until its end, a window counts what is charged to its bucket and admits the
first of it up to the limit. -/
theorem window_of_opens {s₀ s₁ : State} {h : Hit} {mid : List Hit} (hstep : Step g s₀ h s₁)
    (hopens : Opens s₀ h) (run : Run (Step g) s₁ mid s) (hopen : s.clock < h.now + g.ttlMs) :
    s.counters.hits.get h.bucket =
        some ⟨(charges (h :: mid) h.bucket).length, h.now + g.ttlMs⟩ ∧
      (charges (h :: mid) h.bucket).map Hit.admitted =
        firsts g.limit (charges (h :: mid) h.bucket).length := by
  refine run.snoc_induction
    (motive := fun mid s => s.clock < h.now + g.ttlMs →
      s.counters.hits.get h.bucket =
          some ⟨(charges (h :: mid) h.bucket).length, h.now + g.ttlMs⟩ ∧
        (charges (h :: mid) h.bucket).map Hit.admitted =
          firsts g.limit (charges (h :: mid) h.bucket).length) ?_ ?_ hopen
  · intro _
    have hself : charges [h] h.bucket = [h] := by simp [charges]
    have hpos := g.limit_pos
    obtain ⟨-, entry, hentry, hdecision, -⟩ := hstep.spec
    rw [Window.hit_of_over fun w hw => hopens w (get_sweep hw)] at hentry
    have hadmitted : h.admitted = true := by
      rw [Hit.admitted, hdecision, admitted_decision, hentry]
      exact hpos
    rw [hself, List.length_singleton, List.map_singleton, hadmitted]
    refine ⟨hstep.get_of_opens hopens, ?_⟩
    rw [firsts, min_eq_right hpos, Nat.sub_eq_zero_of_le hpos]
    rfl
  · intro mid h' s s' _ ih hstep' hopen'
    rw [hstep'.2.1] at hopen'
    obtain ⟨hget, hflags⟩ := ih (lt_of_le_of_lt hstep'.1 hopen')
    obtain ⟨hget', hadmitted⟩ := hstep'.get_of_open hget hopen'
    rw [← List.cons_append, charges_snoc]
    by_cases hb : h'.bucket = h.bucket
    · have hflag : h'.admitted =
          decide ((charges (h :: mid) h.bucket).length + 1 ≤ g.limit) := by
        rw [Bool.eq_iff_iff, hadmitted hb, decide_eq_true_iff]
      rw [if_pos hb] at hget' ⊢
      rw [List.length_append, List.length_singleton, List.map_append, List.map_singleton, hflags,
        firsts_succ, hflag]
      exact ⟨hget', rfl⟩
    · rw [if_neg hb] at hget' ⊢
      rw [List.append_nil]
      exact ⟨hget', hflags⟩

end Runs

/-- In every run the map stays within its cap and one place of it is left to the
overflow bucket; and from the request that opens a window until its end, the
requests charged to the bucket are admitted up to the limit and refused after
it, whatever is swept in between. -/
theorem memory_and_admission (g : RateLimitGuard) (start : Int) (pre : List Hit) (s₀ : State)
    (run : Run (Step g) (State.initial start) pre s₀) :
    s₀.counters.hits.size ≤ g.maxEntries ∧ individuals s₀.counters ≤ g.maxEntries - 1 ∧
      ∀ (h : Hit) (s₁ : State) (mid : List Hit) (s : State), Step g s₀ h s₁ → Opens s₀ h →
        Run (Step g) s₁ mid s → s.clock < h.now + g.ttlMs →
          s.counters.hits.get h.bucket =
              some ⟨(charges (h :: mid) h.bucket).length, h.now + g.ttlMs⟩ ∧
            (charges (h :: mid) h.bucket).map Hit.admitted =
              List.replicate (min g.limit (charges (h :: mid) h.bucket).length) true ++
                List.replicate ((charges (h :: mid) h.bucket).length - g.limit) false := by
  refine ⟨size_of_run run, individuals_of_run run, ?_⟩
  intro h s₁ mid s hstep hopens hrun hopen
  exact window_of_opens hstep hopens hrun hopen

/-- Two requests in a hundred milliseconds, for up to two clients. -/
def strict : RateLimitGuard := ⟨100, 2, 3, by decide, by decide, by decide⟩

/-- A client asks three times between the requests of another. -/
def burst : List (ClientKey × Int) :=
  [(host '2', 1), (host '1', 2), (host '1', 50)]

/-- Its third request is refused. -/
theorem memory_and_admission_burst :
    let first := strict.serve (State.initial 0) (host '1', 0)
    let rest := strict.serveAll first.2 burst
    rest.2.counters.hits.get "10.0.0.1" = some ⟨3, 100⟩ ∧
      (charges (first.1 :: rest.1) "10.0.0.1").map Hit.admitted = [true, true, false] := by
  intro first rest
  have hstep : Step strict (State.initial 0) first.1 first.2 := step_serve strict (le_refl 0)
  have hopens : Opens (State.initial 0) first.1 := by
    intro w hw
    cases hw
  have hrest : Run (Step strict) first.2 rest.1 rest.2 := run_serveAll strict _ _ (by decide)
  exact (memory_and_admission strict 0 [] (State.initial 0) (.nil _)).2.2 first.1 first.2 rest.1
    rest.2 hstep hopens hrest (by decide)

end EncryptionGateway.Common.RateLimitGuard
