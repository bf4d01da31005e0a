import EncryptionGateway.Common.ReplayWindow

/-!
# The window specification of the nonce cache

The reference keeps every acceptance in a log and refuses a nonce that was
accepted less than the skew ago. The bounded cache gives the same verdicts in
every run in which no acceptance comes less than the skew after those of as
many other nonces as the cache holds.
-/

namespace EncryptionGateway.Common.ReplayProtection

open JavaScript Foundation

variable {N : Type} [JsNumber N]

/-- Accepted nonces with the times of their acceptance. -/
abbrev Log := List (String × Int)

/-- What a call adds to the log. -/
def Call.logged (c : Call N) : Log :=
  if c.accepted then (nonceOf c.payload).toList.map fun nonce => (nonce, c.now) else []

def acceptances (tr : List (Call N)) : Log := tr.flatMap Call.logged

/-- The reference accepts a well-formed nonce with a timestamp in the window
that it did not accept less than the skew ago. -/
def Accepts (p : ReplayProtection) (t : Timestamps N) (log : Log) (payload : DecryptedPayload N)
    (now : Int) : Prop :=
  ∃ nonce, nonceOf payload = some nonce ∧ matchesNoncePattern nonce = true ∧
    InWindow p t payload now ∧ ∀ time, (nonce, time) ∈ log → time + p.maxSkewMs ≤ now

/-- A call that is decided by the log, and added to it if accepted. -/
def LogStep (p : ReplayProtection) (t : Timestamps N) (log : Log) (c : Call N) (log' : Log) :
    Prop :=
  (c.accepted = true ↔ p.Accepts t log c.payload c.now) ∧ log' = log ++ c.logged

/-- The other nonces accepted less than the skew before. -/
def recentOthers (p : ReplayProtection) (log : Log) (nonce : String) (now : Int) : Finset String :=
  ((log.filter fun e => decide (e.1 ≠ nonce ∧ now < e.2 + p.maxSkewMs)).map Prod.fst).toFinset

/-- At each acceptance fewer other nonces are recent than the cache holds. -/
def Uncrowded (p : ReplayProtection) (tr : List (Call N)) : Prop :=
  ∀ (k : ℕ) (c : Call N) (nonce : String), tr[k]? = some c → c.uses nonce = true →
    (p.recentOthers (acceptances (tr.take k)) nonce c.now).card < p.maxEntries

variable {p : ReplayProtection} {t : Timestamps N}

section Log

omit [JsNumber N]

theorem acceptances_snoc (tr : List (Call N)) (c : Call N) :
    acceptances (tr ++ [c]) = acceptances tr ++ c.logged := by
  simp [acceptances]

theorem mem_logged {c : Call N} {nonce : String} {time : Int} :
    (nonce, time) ∈ c.logged ↔ c.uses nonce = true ∧ c.now = time := by
  rw [uses_iff, Call.logged]
  cases c.accepted with
  | true => simp [eq_comm]
  | false => simp

theorem mem_acceptances {tr : List (Call N)} {nonce : String} {time : Int} :
    (nonce, time) ∈ acceptances tr ↔
      ∃ (k : ℕ) (c : Call N), tr[k]? = some c ∧ c.uses nonce = true ∧ c.now = time := by
  simp only [acceptances, List.mem_flatMap, mem_logged]
  constructor
  · rintro ⟨c, hmem, hc⟩
    obtain ⟨k, hk⟩ := List.mem_iff_getElem?.mp hmem
    exact ⟨k, c, hk, hc⟩
  · rintro ⟨k, c, hk, hc⟩
    exact ⟨c, List.mem_of_getElem? hk, hc⟩

theorem mem_recentOthers {log : Log} {nonce other : String} {now : Int} :
    other ∈ p.recentOthers log nonce now ↔
      ∃ time, (other, time) ∈ log ∧ other ≠ nonce ∧ now < time + p.maxSkewMs := by
  simp [recentOthers]

theorem Uncrowded.init {tr : List (Call N)} {c : Call N} (h : p.Uncrowded (tr ++ [c])) :
    p.Uncrowded tr := by
  intro k d nonce hat huses
  have hlt := lt_length_of_at hat
  have hd := h k d nonce (at_append hat [c]) huses
  rwa [List.take_append_of_le_length hlt.le] at hd

theorem Uncrowded.last {tr : List (Call N)} {c : Call N} (h : p.Uncrowded (tr ++ [c]))
    {nonce : String} (huses : c.uses nonce = true) :
    (p.recentOthers (acceptances tr) nonce c.now).card < p.maxEntries := by
  have hc := h tr.length c nonce at_last huses
  rwa [List.take_left' rfl] at hc

/-- A run whose nonces all fit into the cache is uncrowded. -/
theorem uncrowded_of_fits {tr : List (Call N)} (h : (presented tr).card ≤ p.maxEntries) :
    p.Uncrowded tr := by
  intro k c nonce hat huses
  have hmem : nonce ∈ presented tr :=
    List.mem_toFinset.mpr (List.mem_filterMap.mpr
      ⟨c, List.mem_of_getElem? hat, (uses_iff.mp huses).2⟩)
  refine lt_of_lt_of_le (Finset.card_lt_card ?_) h
  refine Finset.ssubset_of_subset_of_ssubset ?_ (Finset.erase_ssubset hmem)
  intro other hother
  obtain ⟨time, hlogged, hne, -⟩ := mem_recentOthers.mp hother
  obtain ⟨j, d, hd, hduses, -⟩ := mem_acceptances.mp hlogged
  refine Finset.mem_erase.mpr ⟨hne, List.mem_toFinset.mpr (List.mem_filterMap.mpr ⟨d, ?_, ?_⟩)⟩
  · exact List.mem_of_mem_take (List.mem_of_getElem? hd)
  · exact (uses_iff.mp hduses).2

end Log

theorem size_sweep_le (now : Int) (seen : Seen) : (p.sweep now seen).size ≤ seen.size := by
  unfold ReplayProtection.sweep
  split
  · exact le_rfl
  · exact InsertionMap.size_keep_le _ _

/-- A sweep leaves less than half of the capacity, or unexpired nonces only. -/
theorem sweep_cases (now : Int) (seen : Seen) :
    2 * (p.sweep now seen).size < p.maxEntries ∨
      ∀ nonce expiresAt, (p.sweep now seen).get nonce = some expiresAt → now < expiresAt := by
  unfold ReplayProtection.sweep
  split
  · next hsmall => exact Or.inl hsmall
  · refine Or.inr fun nonce expiresAt hget => ?_
    simpa using (InsertionMap.get_keep_eq_some.mp hget).2

theorem remember_of_room {now : Int} {nonce : String} {seen : Seen} (h : seen.size < p.maxEntries) :
    p.remember now nonce seen = seen.set nonce (now + p.maxSkewMs) := by
  apply if_neg
  have hsize := InsertionMap.size_set_le seen nonce (now + p.maxSkewMs)
  omega

/-- Remembering keeps the cache within its cap. -/
theorem size_remember_le {now : Int} {nonce : String} {seen : Seen} (h : seen.size ≤ p.maxEntries) :
    (p.remember now nonce seen).size ≤ p.maxEntries := by
  have hset := InsertionMap.size_set_le seen nonce (now + p.maxSkewMs)
  unfold remember
  dsimp only
  split
  · next hfull =>
      cases hold : (seen.set nonce (now + p.maxSkewMs)).oldest with
      | none =>
          rw [InsertionMap.size_of_oldest_none hold]
          exact Nat.zero_le _
      | some oldest =>
          have hsize := InsertionMap.size_erase_of_present (InsertionMap.oldest_mem_keys hold)
          simp only
          omega
  · omega

theorem Step.size_le {s s' : State} {c : Call N} (h : Step p t s c s')
    (hle : s.seen.size ≤ p.maxEntries) : s'.seen.size ≤ p.maxEntries := by
  have hswept := (size_sweep_le (p := p) c.now s.seen).trans hle
  by_cases hrequired : p.required = true
  · rcases h.cases hrequired with ⟨nonce, -, -, ⟨-, -, hseen⟩ | ⟨-, -, hseen⟩⟩ | ⟨-, -, hseen⟩
    · rw [hseen]
      exact size_remember_le hswept
    · rw [hseen]
      exact hswept
    · rw [hseen]
      exact hle
  · obtain ⟨-, -, hcall⟩ := h
    rw [assertFresh, if_pos (by simpa using hrequired), Prod.mk.injEq] at hcall
    rw [← hcall.2]
    exact hle

omit [JsNumber N] in
/-- Where few other nonces are recent, nothing is evicted: what a full cache
holds after the sweep was accepted less than the skew ago. -/
theorem Tracks.evictsNone_of_uncrowded {tr : List (Call N)} {s : State} {c : Call N}
    (htracks : Tracks p tr s) (hclock : s.clock ≤ c.now) (hfresh : ∀ nonce, c.uses nonce = true →
      ¬ c.now < ((p.sweep c.now s.seen).get nonce).getD 0)
    (hfew : ∀ nonce, c.uses nonce = true →
      (p.recentOthers (acceptances tr) nonce c.now).card < p.maxEntries) :
    p.EvictsNone s c := by
  intro nonce hnonce haccepted
  have huses : c.uses nonce = true := uses_iff.mpr ⟨haccepted, hnonce⟩
  apply remember_of_room
  rcases sweep_cases (p := p) c.now s.seen with hsmall | hlive
  · omega
  · have hsub : (p.sweep c.now s.seen).keys.toFinset ⊆
        p.recentOthers (acceptances tr) nonce c.now := by
      intro other hmem
      obtain ⟨expiresAt, hget⟩ := InsertionMap.mem_keys.mp (List.mem_toFinset.mp hmem)
      have hget := InsertionMap.get_eq_some.mpr hget
      have hlater := hlive other expiresAt hget
      have hremembers := ((htracks.remembers other).later hclock).sweep
      rw [hget] at hremembers
      cases hlast : lastAccepted tr other with
      | none =>
          rw [hlast] at hremembers
          cases hremembers
      | some time =>
          rw [hlast] at hremembers
          obtain ⟨k, d, hd, hduses, hdnow⟩ := exists_of_lastAccepted hlast
          rcases hremembers with heq | ⟨hnone, -⟩
          · refine mem_recentOthers.mpr
              ⟨time, mem_acceptances.mpr ⟨k, d, hd, hduses, hdnow⟩, ?_, ?_⟩
            · rintro rfl
              apply hfresh other huses
              rw [hget]
              exact hlater
            · rw [← Option.some.inj heq]
              exact hlater
          · cases hnone
    have hcard := Finset.card_le_card hsub
    rw [List.toFinset_card_of_nodup (InsertionMap.nodup_keys _), InsertionMap.length_keys] at hcard
    exact lt_of_le_of_lt hcard (hfew nonce huses)

section Runs

variable {start : ℕ} {tr : List (Call N)} {s : State}

theorem size_of_run (run : Run (Step p t) (State.initial start) tr s) :
    s.seen.size ≤ p.maxEntries := by
  refine run.invariant (I := fun s => s.seen.size ≤ p.maxEntries) (Nat.zero_le _) ?_
  intro s c s' hle hstep
  exact hstep.size_le hle

/-- A nonce is unspent exactly when the log holds no recent acceptance of it. -/
theorem unspent_iff (run : Run (Step p t) (State.initial start) tr s) {nonce : String} {now : Int} :
    p.Unspent (lastAccepted tr nonce) now ↔
      ∀ time, (nonce, time) ∈ acceptances tr → time + p.maxSkewMs ≤ now := by
  constructor
  · intro hunspent time hmem
    obtain ⟨k, c, hk, huses, rfl⟩ := mem_acceptances.mp hmem
    obtain ⟨last, hlast, hle⟩ := le_lastAccepted run hk huses
    have := hunspent last hlast
    omega
  · intro hlog time hlast
    obtain ⟨k, c, hk, huses, hnow⟩ := exists_of_lastAccepted hlast
    exact hlog time (mem_acceptances.mpr ⟨k, c, hk, huses, hnow⟩)

theorem Step.evictsNone {s' : State} {c : Call N} (h : Step p t s c s')
    (hrequired : p.required = true) (htracks : Tracks p tr s)
    (huncrowded : p.Uncrowded (tr ++ [c])) : p.EvictsNone s c := by
  refine htracks.evictsNone_of_uncrowded h.1 ?_ fun nonce huses => huncrowded.last huses
  intro nonce huses
  obtain ⟨haccepted, hnonce⟩ := uses_iff.mp huses
  rcases h.cases hrequired with
    ⟨nonce', hnonce', -, ⟨-, hpass, -⟩ | ⟨hreplayed, -, -⟩⟩ | ⟨-, hrefused, -⟩
  · obtain rfl := Option.some.inj (hnonce.symm.trans hnonce')
    exact hpass
  · rw [accepted_of_replayed hreplayed] at haccepted
    cases haccepted
  · rw [hrefused] at haccepted
    cases haccepted

/-- The cache decides as the log does. -/
theorem Step.log_step {s' : State} {c : Call N} (run : Run (Step p t) (State.initial start) tr s)
    (h : Step p t s c s') (hrequired : p.required = true) (htracks : Tracks p tr s)
    (hroom : p.EvictsNone s c) : LogStep p t (acceptances tr) c (acceptances (tr ++ [c])) := by
  refine ⟨?_, acceptances_snoc tr c⟩
  have hnow : 0 ≤ c.now := (Int.natCast_nonneg start).trans ((clock_mono run).trans h.1)
  rcases h.spec hrequired htracks hroom with
    ⟨nonce, haccepted, hnonce, ⟨⟨nonce', hnonce', hpattern⟩, hwindow⟩, hunspent, -⟩ |
    ⟨hrefused, hspent, -⟩
  · obtain rfl := Option.some.inj (hnonce.symm.trans hnonce')
    exact ⟨fun _ => ⟨nonce, hnonce, hpattern, hwindow, (unspent_iff run).mp hunspent⟩,
      fun _ => haccepted⟩
  · rw [hrefused]
    refine ⟨fun h => (by cases h), ?_⟩
    rintro ⟨nonce, hnonce, hpattern, hwindow, hlog⟩
    exact absurd ((unspent_iff run).mpr hlog)
      (hspent nonce hnow hnonce ⟨⟨nonce, hnonce, hpattern⟩, hwindow⟩)

theorem log_of_run (run : Run (Step p t) (State.initial start) tr s) (hrequired : p.required = true)
    (huncrowded : p.Uncrowded tr) :
    Tracks p tr s ∧ Run (LogStep p t) [] tr (acceptances tr) := by
  refine run.snoc_induction (motive := fun tr s => p.Uncrowded tr →
    Tracks p tr s ∧ Run (LogStep p t) [] tr (acceptances tr)) ?_ ?_ huncrowded
  · intro _
    exact ⟨⟨fun nonce hn => by simp [State.initial, InsertionMap.keys] at hn, fun nonce => rfl⟩,
      .nil []⟩
  · intro tr c s s' hrun ih hstep huncrowded
    obtain ⟨htracks, hlog⟩ := ih huncrowded.init
    have hroom := hstep.evictsNone hrequired htracks huncrowded
    exact ⟨hstep.tracks hrequired htracks hroom,
      hlog.snoc (hstep.log_step hrun hrequired htracks hroom)⟩

/-- Two acceptances of one nonce are at least the skew apart. -/
theorem apart_of_run {pre mid post : List (Call N)} {c c' : Call N}
    (run : Run (Step p t) (State.initial start) (pre ++ c :: (mid ++ c' :: post)) s)
    (hrequired : p.required = true) (huncrowded : p.Uncrowded (pre ++ c :: (mid ++ c' :: post)))
    (haccepted : c.accepted = true) (haccepted' : c'.accepted = true)
    (hsame : nonceOf c.payload = nonceOf c'.payload) : c.now + p.maxSkewMs ≤ c'.now := by
  have hlog := (log_of_run run hrequired huncrowded).2
  obtain ⟨log, log₁, -, hstep, hrest⟩ := hlog.at_label
  obtain ⟨log₂, log₃, hmid, hstep', -⟩ := hrest.at_label
  obtain ⟨nonce, hnonce, -⟩ := hstep.1.mp haccepted
  obtain ⟨nonce', hnonce', -, -, hapart⟩ := hstep'.1.mp haccepted'
  obtain rfl : nonce = nonce' := Option.some.inj (hnonce.symm.trans (hsame.trans hnonce'))
  apply hapart
  have hmem : (nonce, c.now) ∈ log₁ := by
    rw [hstep.2]
    exact List.mem_append_right _ (mem_logged.mpr ⟨uses_iff.mpr ⟨haccepted, hnonce⟩, rfl⟩)
  exact hmid.invariant (I := fun log => (nonce, c.now) ∈ log) hmem fun hin hlater => by
    rw [hlater.2]
    exact List.mem_append_left _ hin

end Runs

/-- The cache never exceeds its cap, and where at each acceptance fewer other
nonces are recent than it holds, every run is a run of the reference. -/
theorem cache_meets_window_specification (p : ReplayProtection) (t : Timestamps N) (start : ℕ)
    (tr : List (Call N)) (s : State) (run : Run (Step p t) (State.initial start) tr s) :
    s.seen.size ≤ p.maxEntries ∧
      (p.required = true → p.Uncrowded tr → Run (LogStep p t) [] tr (acceptances tr)) :=
  ⟨size_of_run run, fun hrequired huncrowded => (log_of_run run hrequired huncrowded).2⟩

section Samples

/-- A payload stamped with its own arrival. -/
def arriving (nonce : String) (now : ℤ) : DecryptedPayload ℤ where
  AccessPoint := "https://api.example/pay"
  Method := some "POST"
  Header := none
  Body := none
  Parameter := none
  Nonce := some (.str nonce)
  Timestamp := some (.num now)

/-- The calls of payloads that arrive on time, decided by the cache alone. -/
def claimAll (p : ReplayProtection) (s : State) : List (String × ℤ) → List (Call ℤ) × State
  | [] => ([], s)
  | (nonce, now) :: later =>
      let (verdict, seen) := p.claim now nonce s.seen
      let (calls, s) := p.claimAll ⟨now, seen⟩ later
      (⟨now, arriving nonce now, verdict⟩ :: calls, s)

theorem admissible_arriving (p : ReplayProtection) {nonce : String} {now : ℤ}
    (hpattern : matchesNoncePattern nonce = true) (hmillis : (10 : ℤ) ^ 12 ≤ now) :
    Admissible p integerTimestamps (arriving nonce now) now := by
  have hle : (SECONDS_THRESHOLD : ℚ) ≤ now := by
    rw [SECONDS_THRESHOLD]
    exact_mod_cast hmillis
  refine ⟨⟨nonce, rfl, hpattern⟩, now, ?_, by simp⟩
  show (JsNumber.finiteValue now).map _ = _
  simp only [JsNumber.finiteValue, Option.map_some, not_lt.mpr hle, if_false]

theorem step_arriving (p : ReplayProtection) (hrequired : p.required = true) {s : State}
    {nonce : String} {now : ℤ} (hclock : s.clock ≤ now)
    (hpattern : matchesNoncePattern nonce = true) (hmillis : (10 : ℤ) ^ 12 ≤ now) :
    Step p integerTimestamps s ⟨now, arriving nonce now, (p.claim now nonce s.seen).1⟩
      ⟨now, (p.claim now nonce s.seen).2⟩ := by
  refine ⟨hclock, rfl, ?_⟩
  rcases assertFresh_cases p integerTimestamps (arriving nonce now) now s.seen hrequired with
    ⟨nonce', hnonce', -, -, hclaim⟩ | ⟨hoff, -⟩
  · obtain rfl : nonce = nonce' := Option.some.inj hnonce'
    exact hclaim
  · exact absurd (admissible_arriving p hpattern hmillis).2 (hoff nonce rfl hpattern)

/-- Arrivals in the order of their times make a run. -/
theorem run_claimAll (p : ReplayProtection) (hrequired : p.required = true) (s : State)
    (arrivals : List (String × ℤ)) (hsorted : (s.clock :: arrivals.map Prod.snd).IsChain (· ≤ ·))
    (hformed :
      (arrivals.all fun a => matchesNoncePattern a.1 && decide ((10 : ℤ) ^ 12 ≤ a.2)) = true) :
    Run (Step p integerTimestamps) s (p.claimAll s arrivals).1 (p.claimAll s arrivals).2 := by
  induction arrivals generalizing s with
  | nil => exact .nil s
  | cons a later ih =>
      rw [List.map_cons, List.isChain_cons_cons] at hsorted
      rw [List.all_cons, Bool.and_eq_true, Bool.and_eq_true, decide_eq_true_iff] at hformed
      exact .cons (step_arriving p hrequired hsorted.1 hformed.1.1 hformed.1.2)
        (ih _ hsorted.2 hformed.2)

/-- A nonce presented twice within the skew, and again when it has expired. -/
def reuse : List (String × ℤ) :=
  [("0123456789abcdef", 1700000000000), ("0123456789abcdef", 1700000001000),
    ("0123456789abcdef", 1700000060000)]

theorem cache_meets_window_specification_reuse :
    Run (LogStep documented integerTimestamps) []
      (documented.claimAll (State.initial 1700000000000) reuse).1
      (acceptances (documented.claimAll (State.initial 1700000000000) reuse).1) := by
  refine (cache_meets_window_specification documented integerTimestamps 1700000000000 _ _
    (run_claimAll documented rfl _ _ (by decide) (by decide))).2 rfl ?_
  exact uncrowded_of_fits (show _ ≤ 10000 by decide)

end Samples

end EncryptionGateway.Common.ReplayProtection
