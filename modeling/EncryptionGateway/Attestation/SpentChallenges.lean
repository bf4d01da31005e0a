import EncryptionGateway.Attestation.Enrolment

/-!
# Every success spends a challenge of its own

Over any store whose `getDelete` is atomic, in every interleaving: a success
rests on a challenge issued for the purpose of its request, consumed in time by
the same task and presented by no other event since it was issued; and no
operation on challenges touches an enrolment, or the other way round.
-/

namespace EncryptionGateway.Attestation.Endpoints

open JavaScript Foundation

variable {N Key σ : Type} [JsNumber N] {env : Env N Key σ}

/-- No challenge identifier is drawn twice. -/
def FreshIds (tr : List (Event N Key)) : Prop :=
  ∀ {challengeId nonce purpose now j nonce' purpose' now' j'},
    IssuedAt tr challengeId nonce purpose now j →
    IssuedAt tr challengeId nonce' purpose' now' j' → j = j'

/-- The event at position `k` is a success. -/
def SucceedsAt (tr : List (Event N Key)) (k : ℕ) (e : Event N Key) : Prop :=
  tr[k]? = some e ∧ ∃ reply, e.action = .answer reply ∧ successful reply = true

/-- The success at position `k` spends the challenge. Its task consumed it at
position `c`, for the purpose it was issued for at position `j` and at most
`CHALLENGE_TTL_MS` later. If a device is authenticated, its key was then loaded
by the same task at position `l`, the signature over the nonce of the challenge
checks under that key, and the key is one enrolled for that device. -/
def Spends (env : Env N Key σ) (tr : List (Event N Key)) (k : ℕ) (e : Event N Key)
    (challengeId : String) : Prop :=
  ∃ j c nonce purpose issued consumed, j < c ∧ c < k ∧
    presents e.request = some (challengeId, purpose) ∧
    IssuedAt tr challengeId nonce purpose issued j ∧
    tr[c]? = some ⟨e.task, e.request, consumed, .consume challengeId purpose (some nonce)⟩ ∧
    issued ≤ consumed ∧ consumed ≤ issued + CHALLENGE_TTL_MS ∧
    ∀ body, authenticates e.request = some body → ∃ l p loaded device enrolled,
      c < l ∧ l < k ∧ tr[l]? = some ⟨e.task, e.request, loaded, .load body.deviceId (some device)⟩ ∧
      env.verifySignature device.publicKey nonce (Base64.decode body.signature) = true ∧
      p < l ∧ EnrolledAt tr body.deviceId enrolled p ∧ enrolled.publicKey = device.publicKey

/-- What is held under the keys of one component was written by it, and what
the other removes or looks up leaves it there. -/
def KeysApart (env : Env N Key σ) (tr : List (Event N Key)) (s : State N Key σ) : Prop :=
  (∀ challengeId text x, env.kv.holds s.store (ChallengeStore.key challengeId) text x →
    ∃ j nonce purpose now, IssuedAt tr challengeId nonce purpose now j ∧
      text = ChallengeStore.record env.platform nonce purpose) ∧
  (∀ deviceId text x, env.kv.holds s.store (DeviceRegistry.key deviceId) text x →
    ∃ p device, EnrolledAt tr deviceId device p ∧
      text = DeviceRegistry.record env.platform device) ∧
  ∀ e s', Step env s e s' →
    (∀ challengeId, e.Presents challengeId → ∀ deviceId text x,
      env.kv.holds s.store (DeviceRegistry.key deviceId) text x →
      env.kv.holds s'.store (DeviceRegistry.key deviceId) text x) ∧
    ∀ deviceId, ((∃ device, e.action = .load deviceId device) ∨ e.action = .delete deviceId) →
      ∀ challengeId text x, env.kv.holds s.store (ChallengeStore.key challengeId) text x →
        env.kv.holds s'.store (ChallengeStore.key challengeId) text x

section Runs

variable {clock : Int} {store : σ} {tr : List (Event N Key)} {s : State N Key σ}

/-- The clock is past every event. -/
theorem now_le_clock (run : Run (Step env) (State.initial clock store) tr s) {k : ℕ}
    {e : Event N Key} (h : tr[k]? = some e) : e.now ≤ s.clock := by
  refine run.snoc_induction (motive := fun tr s => ∀ k e, tr[k]? = some e → e.now ≤ s.clock)
    ?_ ?_ _ _ h
  · intro k e h
    simp at h
  · intro tr l t u _ ih hstep k e h
    obtain ⟨_, _, -, -, -, hle, hclock⟩ := hstep.turnOf
    rw [hclock]
    rcases at_snoc_iff.mp h with h | ⟨-, rfl⟩
    · exact (ih k e h).trans hle
    · exact le_rfl

theorem TurnOf.consume_inv {now : Int} {request : Request} {s s' : σ} {stage stage' : Stage N Key}
    {action : Action N Key} {challengeId purpose : String} {nonce : Option Bytes}
    (h : TurnOf env now request s stage action stage' s')
    (ha : action = .consume challengeId purpose nonce) :
    (ChallengeStore.consume env.platform env.kv.toKvStore now challengeId (some purpose) s).1 =
      nonce ∧
    s' = (ChallengeStore.consume env.platform env.kv.toKvStore now challengeId
      (some purpose) s).2 := by
  cases h with
  | consume _ =>
      cases ha
      exact ⟨rfl, rfl⟩
  | _ => cases ha

theorem TurnOf.load_inv {now : Int} {request : Request} {s s' : σ} {stage stage' : Stage N Key}
    {action : Action N Key} {deviceId : String} {device : Option (EnrolledDevice N Key)}
    (h : TurnOf env now request s stage action stage' s') (ha : action = .load deviceId device) :
    (DeviceRegistry.get env.platform env.kv.toKvStore now deviceId s).1 = device ∧
    s' = (DeviceRegistry.get env.platform env.kv.toKvStore now deviceId s).2 := by
  cases h with
  | load _ =>
      cases ha
      exact ⟨rfl, rfl⟩
  | _ => cases ha

theorem TurnOf.delete_inv {now : Int} {request : Request} {s s' : σ} {stage stage' : Stage N Key}
    {action : Action N Key} {deviceId : String}
    (h : TurnOf env now request s stage action stage' s') (ha : action = .delete deviceId) :
    s' = (DeviceRegistry.delete env.kv.toKvStore now deviceId s).2 := by
  cases h with
  | delete _ =>
      cases ha
      rfl
  | _ => cases ha

/-- A consumption that yields a nonce has an earlier issue of the challenge,
for its purpose and in time, and no presentation between the two. -/
theorem issued_of_consumed (hblank : Blank env store)
    (run : Run (Step env) (State.initial clock store) tr s) {c : ℕ} {e : Event N Key}
    {challengeId purpose : String} {nonce : Bytes} (hat : tr[c]? = some e)
    (ha : e.action = .consume challengeId purpose (some nonce)) :
    ∃ j issued, j < c ∧ IssuedAt tr challengeId nonce purpose issued j ∧ issued ≤ e.now ∧
      e.now ≤ issued + CHALLENGE_TTL_MS ∧
      ∀ i l, j < i → i < c → tr[i]? = some l → ¬ l.Presents challengeId := by
  obtain ⟨pre, post, rfl, rfl⟩ := split_at hat
  obtain ⟨t, t', hpre, hstep, -⟩ := Run.at_label run
  obtain ⟨stage, stage', -, hturn, -, hle, -⟩ := hstep.turnOf
  obtain ⟨hnonce, -⟩ := hturn.consume_inv ha
  obtain ⟨j, issued, ⟨task, request, hissued⟩, hlate, hlast⟩ :=
    consumed_record (texts_of_run hblank hpre).1 hnonce
  refine ⟨j, issued, lt_length_of_at hissued, ⟨task, request, at_append hissued _⟩,
    (now_le_clock hpre hissued).trans hle, hlate, ?_⟩
  intro i l hj hi hl
  rw [List.getElem?_append_left hi] at hl
  exact hlast i l hj hl

/-- A lookup that finds a device has an earlier enrolment of its key. -/
theorem enrolled_of_loaded (hblank : Blank env store)
    (run : Run (Step env) (State.initial clock store) tr s) {l : ℕ} {e : Event N Key}
    {deviceId : String} {device : EnrolledDevice N Key} (hat : tr[l]? = some e)
    (ha : e.action = .load deviceId (some device)) :
    ∃ p enrolled, p < l ∧ EnrolledAt tr deviceId enrolled p ∧
      enrolled.publicKey = device.publicKey := by
  obtain ⟨pre, post, rfl, rfl⟩ := split_at hat
  obtain ⟨t, t', hpre, hstep, -⟩ := Run.at_label run
  obtain ⟨stage, stage', -, hturn, -⟩ := hstep.turnOf
  obtain ⟨hdevice, -⟩ := hturn.load_inv ha
  obtain ⟨p, enrolled, ⟨task, request, now, hp⟩, hkey⟩ :=
    loaded_record (texts_of_run hblank hpre).2 hdevice
  exact ⟨p, enrolled, lt_length_of_at hp, ⟨task, request, now, at_append hp _⟩, hkey⟩

/-- Once a challenge was issued and presented, it yields nothing. -/
theorem consumed_once (hblank : Blank env store)
    (run : Run (Step env) (State.initial clock store) tr s) (hfresh : FreshIds tr)
    {challengeId purpose : String} {j c c' : ℕ} {nonce : Bytes} {now : Int} {e e' : Event N Key}
    (hissued : IssuedAt tr challengeId nonce purpose now j) (hj : j < c) (hc : c < c')
    (hat : tr[c]? = some e) (hp : e.Presents challengeId) (hat' : tr[c']? = some e')
    {purpose' : String} {result : Option Bytes}
    (ha : e'.action = .consume challengeId purpose' result) : result = none := by
  cases result with
  | none => rfl
  | some nonce' =>
      obtain ⟨j', issued', -, hissued', -, -, hlast⟩ := issued_of_consumed hblank run hat' ha
      obtain rfl := hfresh hissued hissued'
      exact absurd hp (hlast c e hj hc hat)

theorem spends_of_succeeds (hblank : Blank env store)
    (run : Run (Step env) (State.initial clock store) tr s) {k : ℕ} {e : Event N Key}
    (h : SucceedsAt tr k e) : ∃ challengeId, Spends env tr k e challengeId := by
  obtain ⟨hat, reply, ha, hsuccess⟩ := h
  obtain ⟨pre, post, rfl, rfl⟩ := split_at hat
  obtain ⟨t, t', hpre, hstep, -⟩ := Run.at_label run
  obtain ⟨stage, stage', hactive, hturn, -⟩ := hstep.turnOf
  obtain ⟨-, -, hjustified, -⟩ := hturn.answer_inv ha
  have hexplained : Explained env pre e.task e.request stage := by
    rcases hactive with hactive | ⟨-, rfl⟩
    · exact explained_of_run hpre hactive
    · trivial
  rcases hjustified hsuccess with ⟨body, securityLevel, hr, -, rfl⟩ |
    ⟨body, nonce, device, hauth, rfl, hsig⟩
  · obtain ⟨c, p, _, nonce, hcp, -, hconsumed, _, _, _, hp⟩ := hexplained
    obtain ⟨consumed, challengeId, purpose, hpresents, hc⟩ := hconsumed
    obtain ⟨j, issued, hj, ⟨task, request, hissued⟩, hle, hlate, -⟩ :=
      issued_of_consumed hblank hpre hc rfl
    refine ⟨challengeId, j, c, nonce, purpose, issued, consumed, hj, lt_length_of_at hc, hpresents,
      ⟨task, request, at_append hissued _⟩, at_append hc _, hle, hlate, ?_⟩
    intro body' hauth
    rw [hr] at hauth
    cases hauth
  · obtain ⟨c, l, hcl, hconsumed, loaded, body', hauth', hl⟩ := hexplained
    obtain rfl : body = body' := Option.some.inj (hauth.symm.trans hauth')
    obtain ⟨consumed, challengeId, purpose, hpresents, hc⟩ := hconsumed
    obtain ⟨j, issued, hj, ⟨task, request, hissued⟩, hle, hlate, -⟩ :=
      issued_of_consumed hblank hpre hc rfl
    obtain ⟨p, enrolled, hpl, ⟨task', request', now', hp⟩, hkey⟩ :=
      enrolled_of_loaded hblank hpre hl rfl
    refine ⟨challengeId, j, c, nonce, purpose, issued, consumed, hj, lt_length_of_at hc, hpresents,
      ⟨task, request, at_append hissued _⟩, at_append hc _, hle, hlate, ?_⟩
    intro body'' hauth''
    obtain rfl : body = body'' := Option.some.inj (hauth.symm.trans hauth'')
    exact ⟨l, p, loaded, device, enrolled, hcl, lt_length_of_at hl, at_append hl _, hsig, hpl,
      ⟨task', request', now', at_append hp _⟩, hkey⟩

/-- Two successes never spend one challenge. -/
theorem spends_injective (hblank : Blank env store)
    (run : Run (Step env) (State.initial clock store) tr s) (hfresh : FreshIds tr) {k k' : ℕ}
    {e e' : Event N Key} {challengeId : String} (h : SucceedsAt tr k e) (h' : SucceedsAt tr k' e')
    (hspends : Spends env tr k e challengeId) (hspends' : Spends env tr k' e' challengeId) :
    k = k' := by
  obtain ⟨hat, reply, ha, -⟩ := h
  obtain ⟨hat', reply', ha', -⟩ := h'
  obtain ⟨j, c, nonce, purpose, issued, consumed, hj, -, -, hissued, hc, -⟩ := hspends
  obtain ⟨j', c', nonce', purpose', issued', consumed', hj', -, -, hissued', hc', -⟩ := hspends'
  obtain rfl := hfresh hissued hissued'
  rcases Nat.lt_trichotomy c c' with hlt | rfl | hlt
  · have := consumed_once hblank run hfresh hissued hj hlt hc ⟨_, _, rfl⟩ hc' rfl
    cases this
  · rw [hc] at hc'
    exact answer_unique run hat ha hat' ha' (Event.mk.inj (Option.some.inj hc')).1
  · have := consumed_once hblank run hfresh hissued hj' hlt hc' ⟨_, _, rfl⟩ hc rfl
    cases this

theorem keysApart_of_run (hblank : Blank env store)
    (run : Run (Step env) (State.initial clock store) tr s) : KeysApart env tr s := by
  obtain ⟨hchallenges, hdevices⟩ := texts_of_run hblank run
  refine ⟨?_, ?_, ?_⟩
  · intro challengeId text x hx
    obtain ⟨j, nonce, purpose, now, hissued, ht, -⟩ := hchallenges challengeId text x hx
    exact ⟨j, nonce, purpose, now, hissued, ht⟩
  · intro deviceId text x hx
    obtain ⟨p, device, henrolled, -, ht⟩ := hdevices deviceId text x hx
    exact ⟨p, device, henrolled, ht⟩
  · intro e s' hstep
    obtain ⟨stage, stage', -, hturn, -⟩ := hstep.turnOf
    constructor
    · rintro challengeId ⟨purpose, nonce, ha⟩ deviceId text x hx
      obtain ⟨-, hs'⟩ := hturn.consume_inv ha
      rw [hs']
      exact env.kv.holds_getDelete.mpr ⟨(challengeKey_ne_deviceKey _ _).symm, hx⟩
    · rintro deviceId (⟨device, ha⟩ | ha) challengeId text x hx
      · obtain ⟨-, hs'⟩ := hturn.load_inv ha
        rw [hs']
        exact env.kv.get_keeps (challengeKey_ne_deviceKey _ _) hx
      · rw [hturn.delete_inv ha]
        exact env.kv.holds_delete.mpr ⟨challengeKey_ne_deviceKey _ _, hx⟩

end Runs

/-- In every run with fresh identifiers, the successes map injectively to the
challenges they spend; a challenge once presented after its issue yields
nothing again; and challenges and enrolments never touch each other. -/
theorem success_spends_own_challenge (env : Env N Key σ) (clock : Int) (store : σ)
    (tr : List (Event N Key)) (s : State N Key σ) (hblank : Blank env store)
    (run : Run (Step env) (State.initial clock store) tr s) (hfresh : FreshIds tr) :
    (∃ spent : ℕ → String, (∀ k e, SucceedsAt tr k e → Spends env tr k e (spent k)) ∧
      Set.InjOn spent {k | ∃ e, SucceedsAt tr k e}) ∧
    (∀ challengeId nonce purpose now j c c' e e', IssuedAt tr challengeId nonce purpose now j →
      j < c → c < c' → tr[c]? = some e → e.Presents challengeId → tr[c']? = some e' →
      ∀ purpose' result, e'.action = .consume challengeId purpose' result → result = none) ∧
    KeysApart env tr s := by
  refine ⟨?_, ?_, keysApart_of_run hblank run⟩
  · have hspent : ∀ k, ∃ challengeId, ∀ e, SucceedsAt tr k e → Spends env tr k e challengeId := by
      intro k
      by_cases h : ∃ e, SucceedsAt tr k e
      · obtain ⟨e, he⟩ := h
        obtain ⟨challengeId, hspends⟩ := spends_of_succeeds hblank run he
        refine ⟨challengeId, fun e' he' => ?_⟩
        obtain rfl := Option.some.inj (he.1.symm.trans he'.1)
        exact hspends
      · exact ⟨"", fun e he => absurd ⟨e, he⟩ h⟩
    choose spent hspent using hspent
    refine ⟨spent, fun k e => hspent k e, ?_⟩
    rintro k ⟨e, he⟩ k' ⟨e', he'⟩ heq
    exact spends_injective hblank run hfresh he he' (hspent k e he) (heq ▸ hspent k' e' he')
  · intro challengeId nonce purpose now j c c' e e' hissued hj hc hat hp hat' purpose' result ha
    exact consumed_once hblank run hfresh hissued hj hc hat hp hat' ha

/-- The enrolment and the login that follows it spend two challenges. -/
theorem success_spends_own_challenge_first :
    ∃ (s : State ℤ Bytes (MemoryKvStore DEFAULT_MAX_ENTRIES)) (enrolling verifying : String),
      Run (Step (Services.sample.inMemory DEFAULT_MAX_ENTRIES)) (State.initial 0 .empty)
        returningPhone s ∧
      Spends (Services.sample.inMemory DEFAULT_MAX_ENTRIES) returningPhone 3
        ⟨1, .enroll (sampleBody 0 [1]), 0, .answer (.enrolled 1)⟩ enrolling ∧
      Spends (Services.sample.inMemory DEFAULT_MAX_ENTRIES) returningPhone 8
        ⟨3, .verify (returning.body "phone"), 1000, .answer .verified⟩ verifying ∧
      enrolling ≠ verifying ∧
      KeysApart (Services.sample.inMemory DEFAULT_MAX_ENTRIES) returningPhone s := by
  obtain ⟨s, hrun⟩ := returningPhone_run DEFAULT_MAX_ENTRIES (by decide)
  have hblank : Blank (Services.sample.inMemory DEFAULT_MAX_ENTRIES) .empty := by
    intro k text x h
    cases h
  have hissued : ∀ {challengeId nonce purpose now j},
      IssuedAt returningPhone challengeId nonce purpose now j →
      ∃ i, challengeId = uuid i ∧ [0, 4, 9][i]? = some j := by
    rintro challengeId nonce purpose now j ⟨task, request, hat⟩
    have hj : j < 14 := lt_length_of_at hat
    interval_cases j <;>
      simp [returningPhone, firstBinding, enrolment, Login.events, refusal, returning] at hat
    · exact ⟨0, hat.2.2.2.1.symm, rfl⟩
    · exact ⟨1, hat.2.2.2.1.symm, rfl⟩
    · exact ⟨2, hat.2.2.2.1.symm, rfl⟩
  have hfresh : FreshIds returningPhone := by
    intro challengeId nonce purpose now j nonce' purpose' now' j' h h'
    obtain ⟨i, rfl, hj⟩ := hissued h
    obtain ⟨i', hid, hj'⟩ := hissued h'
    rw [uuid_injective hid, hj'] at hj
    exact (Option.some.inj hj).symm
  obtain ⟨⟨spent, hspends, hinjective⟩, -, hapart⟩ := success_spends_own_challenge
    (Services.sample.inMemory DEFAULT_MAX_ENTRIES) 0 .empty returningPhone s hblank hrun hfresh
  have henrolled : SucceedsAt returningPhone 3
      ⟨1, .enroll (sampleBody 0 [1]), 0, .answer (.enrolled 1)⟩ := ⟨rfl, .enrolled 1, rfl, rfl⟩
  have hverified : SucceedsAt returningPhone 8
      ⟨3, .verify (returning.body "phone"), 1000, .answer .verified⟩ := ⟨rfl, .verified, rfl, rfl⟩
  refine ⟨s, spent 3, spent 8, hrun, hspends 3 _ henrolled, hspends 8 _ hverified, ?_, hapart⟩
  intro heq
  have h := hinjective ⟨_, henrolled⟩ ⟨_, hverified⟩ heq
  cases h

end EncryptionGateway.Attestation.Endpoints
