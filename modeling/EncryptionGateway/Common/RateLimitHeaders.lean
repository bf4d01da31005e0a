import EncryptionGateway.Common.RateLimitBound

/-!
# What the rate limit headers promise

A response names the requests that remain in the window and the seconds to its
end. While nothing is charged to the overflow bucket, later answers keep both
promises, whatever other clients do and whenever the map is swept.
-/

namespace EncryptionGateway.Common.RateLimitGuard

open JavaScript Foundation

variable {g : RateLimitGuard}

section Headers

/-- The value of a header, if it was set. -/
def Decision.header (d : Decision) (name : String) : Option Int := d.headers.lookup name

theorem header_remaining (g : RateLimitGuard) (entry : Window) (now : Int) :
    (g.decision entry now).header "X-RateLimit-Remaining" =
      some (max 0 ((g.limit : Int) - entry.count)) := by
  unfold decision
  split <;> rfl

theorem header_reset (g : RateLimitGuard) (entry : Window) (now : Int) :
    (g.decision entry now).header "X-RateLimit-Reset" = some (resetSeconds entry now) := by
  unfold decision
  split <;> rfl

/-- The last header comes with the refusal and repeats the seconds. -/
theorem decision_of_exceeded {entry : Window} (h : g.limit < entry.count) (now : Int) :
    (g.decision entry now).header "Retry-After" = some (resetSeconds entry now) ∧
      (g.decision entry now).outcome =
        .error ⟨429, none, "ThrottlerException: Too Many Requests"⟩ := by
  rw [decision, if_pos h]
  exact ⟨rfl, rfl⟩

/-- The least number of whole seconds after which the window is over. -/
theorem resetSeconds_isLeast (entry : Window) (now : Int) :
    IsLeast {seconds : Int | entry.resetAt ≤ now + 1000 * seconds} (resetSeconds entry now) := by
  have hreaches : ∀ seconds : Int,
      resetSeconds entry now ≤ seconds ↔ entry.resetAt ≤ now + 1000 * seconds := by
    intro seconds
    rw [resetSeconds, Int.ceil_le, div_le_iff₀ (by norm_num)]
    constructor
    · intro h
      have hint : entry.resetAt - now ≤ seconds * 1000 := by exact_mod_cast h
      omega
    · intro h
      have hint : entry.resetAt - now ≤ seconds * 1000 := by omega
      exact_mod_cast hint
  constructor
  · exact (hreaches _).mp le_rfl
  · intro seconds hseconds
    exact (hreaches seconds).mpr hseconds

end Headers

section Steps

variable {s s' : State} {h : Hit}

/-- A request is answered by the window it leaves in its bucket, which is open. -/
theorem Step.answered (hstep : Step g s h s') :
    ∃ entry, s'.counters.hits.get h.bucket = some entry ∧ h.decision = g.decision entry h.now ∧
      h.now < entry.resetAt := by
  obtain ⟨-, entry, hentry, hdecision, hhits, -⟩ := hstep.spec
  refine ⟨entry, by rw [hhits, InsertionMap.get_set_self], hdecision, ?_⟩
  have hpos := g.ttlMs_pos
  rw [hentry]
  unfold Window.hit
  split
  · simp only
    omega
  · split
    · simp only
      omega
    · next hopen => exact not_le.mp hopen

/-- A request that is not admitted is answered with 429. -/
theorem Step.refused (hstep : Step g s h s') (hrefused : h.admitted = false) :
    ∃ e, h.decision.outcome = .error e ∧ e.status = 429 := by
  obtain ⟨entry, -, hdecision, -⟩ := hstep.answered
  have hcount : ¬ entry.count ≤ g.limit := by
    rw [← admitted_decision g entry h.now, ← hdecision]
    exact Bool.eq_false_iff.mp hrefused
  rw [hdecision, (decision_of_exceeded (not_le.mp hcount) h.now).2]
  exact ⟨_, rfl, rfl⟩

/-- The first request of a window is admitted. -/
theorem Step.admitted_of_opens (hstep : Step g s h s') (hopens : Opens s h) :
    h.admitted = true := by
  obtain ⟨entry, hget, hdecision, -⟩ := hstep.answered
  rw [hstep.get_of_opens hopens] at hget
  cases hget
  rw [Hit.admitted, hdecision, admitted_decision]
  exact g.limit_pos

/-- Requests of other buckets leave a window as it is or drop it. -/
theorem Step.get_of_other (hstep : Step g s h s') {bucket : String} (hb : h.bucket ≠ bucket)
    {w : Window} (hget : s'.counters.hits.get bucket = some w) :
    s.counters.hits.get bucket = some w := by
  obtain ⟨-, entry, -, -, hhits, -⟩ := hstep.spec
  rw [hhits, InsertionMap.get_set_ne _ _ (Ne.symm hb)] at hget
  exact get_sweep hget

/-- Without the overflow bucket the bucket is the client's. -/
theorem Step.bucket_eq (hstep : Step g s h s') (hown : h.bucket ≠ OVERFLOW_KEY) :
    h.bucket = h.client :=
  hstep.bucket_cases.resolve_left hown

end Steps

section Runs

variable {s s' : State} {tr : List Hit}

/-- The requests of a client before the end of its window. -/
def following (tr : List Hit) (client : ClientKey) (resetAt : Int) : List Hit :=
  tr.filter fun h => decide (h.client = client ∧ h.now < resetAt)

theorem following_cons (h : Hit) (tr : List Hit) (client : ClientKey) (resetAt : Int) :
    following (h :: tr) client resetAt =
      if h.client = client ∧ h.now < resetAt then h :: following tr client resetAt
      else following tr client resetAt := by
  simp only [following, List.filter_cons, decide_eq_true_eq]

theorem firsts_zero (limit : ℕ) : firsts limit 0 = [] := by simp [firsts]

theorem firsts_cons (limit n : ℕ) :
    firsts limit (n + 1) = decide (0 < limit) :: firsts (limit - 1) n := by
  cases limit with
  | zero => simp [firsts, List.replicate_succ]
  | succ limit => simp [firsts, List.replicate_succ, Nat.succ_min_succ]

/-- A window admits what its limit leaves, in the order of the requests. -/
theorem following_admitted (run : Run (Step g) s tr s')
    (hown : ∀ h ∈ tr, h.bucket ≠ OVERFLOW_KEY) {client : ClientKey} {w : Window}
    (hget : s.counters.hits.get client = some w) :
    (following tr client w.resetAt).map Hit.admitted =
      firsts (g.limit - w.count) (following tr client w.resetAt).length := by
  induction run generalizing w with
  | nil s => exact (firsts_zero _).symm
  | @cons s t s' h tr head tail ih =>
      rw [List.forall_mem_cons] at hown
      by_cases hopen : h.now < w.resetAt
      · obtain ⟨hnext, hadmitted⟩ := head.get_of_open hget hopen
        have ih := ih hown.2 hnext
        by_cases hclient : h.client = client
        · have hbucket : h.bucket = client := hclient ▸ head.bucket_eq hown.1
          have hflag : h.admitted = decide (0 < g.limit - w.count) := by
            rw [Bool.eq_iff_iff, hadmitted hbucket, decide_eq_true_iff]
            omega
          rw [if_pos hbucket, Nat.sub_add_eq] at ih
          rw [following_cons, if_pos ⟨hclient, hopen⟩, List.map_cons, List.length_cons,
            firsts_cons, hflag]
          exact congrArg _ ih
        · have hbucket : h.bucket ≠ client := fun hb => hclient (head.client_eq hb)
          rw [if_neg hbucket] at ih
          rw [following_cons, if_neg fun hin => hclient hin.1]
          exact ih
      · -- the clock has passed the end of the window
        have hlate : following (h :: tr) client w.resetAt = [] := by
          refine List.filter_eq_nil_iff.mpr fun h' hmem => ?_
          have hnow : h.now ≤ h'.now := by
            rcases List.mem_cons.mp hmem with rfl | hmem
            · exact le_rfl
            · exact head.2.1 ▸ ((now_le_clock tail).2 h' hmem).1
          rw [decide_eq_true_iff]
          rintro ⟨-, hlt⟩
          exact hopen (lt_of_le_of_lt hnow hlt)
        rw [hlate]
        exact (firsts_zero _).symm

/-- While a client makes no request its window stays as it is or is dropped. -/
theorem get_of_silent (run : Run (Step g) s tr s') {client : ClientKey}
    (hsilent : ∀ h ∈ tr, h.client ≠ client) {w : Window}
    (hget : s'.counters.hits.get client = some w) : s.counters.hits.get client = some w := by
  induction run with
  | nil s => exact hget
  | cons head tail ih =>
      rw [List.forall_mem_cons] at hsilent
      exact head.get_of_other (fun hb => hsilent.1 (head.client_eq hb)) (ih hsilent.2 hget)

/-- The next request of a client is admitted once its window is over. -/
theorem admitted_after_window {mid : List Hit} {h : Hit} {t : State} {client : ClientKey}
    {w : Window} (hget : s.counters.hits.get client = some w) (run : Run (Step g) s mid t)
    (hsilent : ∀ x ∈ mid, x.client ≠ client) (hstep : Step g t h s') (hclient : h.client = client)
    (hown : h.bucket ≠ OVERFLOW_KEY) (hover : w.resetAt ≤ h.now) : h.admitted = true := by
  apply hstep.admitted_of_opens
  intro w' hw'
  rw [hstep.bucket_eq hown, hclient] at hw'
  have hsame := (get_of_silent run hsilent hw').symm.trans hget
  cases hsame
  exact hover

end Runs

/-- The header of a response counts the requests of the client that are still
admitted in its window, and `Retry-After` is the first whole second at which
the next one is. -/
theorem headers_tell_truth (g : RateLimitGuard) (s₀ s₁ s : State) (h : Hit) (post : List Hit)
    (hstep : Step g s₀ h s₁) (run : Run (Step g) s₁ post s)
    (hown : ∀ x ∈ h :: post, x.bucket ≠ OVERFLOW_KEY) :
    ∃ (w : Window) (remaining : ℕ) (reset : Int),
      s₁.counters.hits.get h.client = some w ∧ h.now < w.resetAt ∧
      h.decision.header "X-RateLimit-Remaining" = some (remaining : Int) ∧
      h.decision.header "X-RateLimit-Reset" = some reset ∧
      IsLeast {seconds : Int | w.resetAt ≤ h.now + 1000 * seconds} reset ∧
      (following post h.client w.resetAt).map Hit.admitted =
        firsts remaining (following post h.client w.resetAt).length ∧
      (∀ x ∈ post, x.admitted = false → ∃ e, x.decision.outcome = .error e ∧ e.status = 429) ∧
      (h.admitted = false → h.decision.header "Retry-After" = some reset ∧
        ∀ mid next rest, post = mid ++ next :: rest → (∀ x ∈ mid, x.client ≠ h.client) →
          next.client = h.client → h.now + 1000 * reset ≤ next.now → next.admitted = true) := by
  obtain ⟨w, hget, hdecision, hopen⟩ := hstep.answered
  rw [hstep.bucket_eq (hown h List.mem_cons_self)] at hget
  have hlater : ∀ x ∈ post, x.bucket ≠ OVERFLOW_KEY := fun x hx =>
    hown x (List.mem_cons_of_mem h hx)
  have hleast := resetSeconds_isLeast w h.now
  have hremaining : max 0 ((g.limit : Int) - w.count) = ((g.limit - w.count : ℕ) : Int) := by omega
  refine ⟨w, g.limit - w.count, resetSeconds w h.now, hget, hopen, ?_, ?_, hleast,
    following_admitted run hlater hget, ?_, ?_⟩
  · rw [hdecision, header_remaining, hremaining]
  · rw [hdecision, header_reset]
  · intro x hx
    obtain ⟨before, after, rfl⟩ := List.append_of_mem hx
    obtain ⟨t, t', -, hx, -⟩ := run.at_label
    exact hx.refused
  · intro hrefused
    have hcount : g.limit < w.count := by
      rw [← not_le, ← admitted_decision g w h.now, ← hdecision]
      exact Bool.eq_false_iff.mp hrefused
    refine ⟨by rw [hdecision, (decision_of_exceeded hcount h.now).1], ?_⟩
    rintro mid next rest rfl hsilent hclient hnow
    obtain ⟨t, t', hmid, hnext, -⟩ := run.at_label
    exact admitted_after_window hget hmid hsilent hnext hclient (hlater next (by simp))
      (hleast.1.trans hnow)

/-- A client with one request left is admitted once more in its window, and
again in the next one. -/
def patient : List (ClientKey × Int) :=
  [(host '2', 1), (host '1', 2), (host '1', 50), (host '1', 1050)]

theorem headers_tell_truth_patient :
    let first := strict.serve (State.initial 0) (host '1', 0)
    let rest := strict.serveAll first.2 patient
    first.1.decision.header "X-RateLimit-Remaining" = some 1 ∧
      (following rest.1 (host '1') 100).map Hit.admitted = firsts 1 2 := by
  intro first rest
  have hstep : Step strict (State.initial 0) first.1 first.2 := step_serve strict (le_refl 0)
  have hrest : Run (Step strict) first.2 rest.1 rest.2 := run_serveAll strict _ _ (by decide)
  have hbuckets : ∀ b ∈ (first.1 :: rest.1).map Hit.bucket, b ≠ OVERFLOW_KEY := by decide
  have hown : ∀ x ∈ first.1 :: rest.1, x.bucket ≠ OVERFLOW_KEY := fun x hx =>
    hbuckets x.bucket (List.mem_map_of_mem hx)
  obtain ⟨w, remaining, reset, hget, -, hremaining, -, -, hadmitted, -⟩ :=
    headers_tell_truth strict (State.initial 0) first.2 rest.2 first.1 rest.1 hstep hrest hown
  have hheader : first.1.decision.header "X-RateLimit-Remaining" = some 1 := by decide
  have hwindow : first.2.counters.hits.get "10.0.0.1" = some ⟨1, 100⟩ := by decide
  obtain rfl : w = ⟨1, 100⟩ := Option.some.inj (hget.symm.trans hwindow)
  obtain rfl : remaining = 1 := by
    have hsame := Option.some.inj (hremaining.symm.trans hheader)
    exact_mod_cast hsame
  exact ⟨hheader, hadmitted⟩

end EncryptionGateway.Common.RateLimitGuard
