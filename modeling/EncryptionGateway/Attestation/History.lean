import EncryptionGateway.Attestation.Endpoints

/-!
# Histories of the endpoints

What the events so far say about the tasks and the store: which consumption,
lookup or enrolment a task is waiting on, and where the texts held under the
two kinds of keys come from. Each fact is proved once for a turn and extended
to runs by induction on the last step.
-/

namespace EncryptionGateway.Attestation.Endpoints

open JavaScript Foundation

variable {N Key σ : Type} [JsNumber N] {env : Env N Key σ}

/-- A step is the turn of one task. -/
theorem Step.turnOf {s s' : State N Key σ} {e : Event N Key} (h : Step env s e s') :
    ∃ stage stage',
      (s.tasks e.task = some (e.request, stage) ∨ s.tasks e.task = none ∧ stage = .arrived) ∧
      TurnOf env e.now e.request s.store stage e.action stage' s'.store ∧
      s'.tasks = Function.update s.tasks e.task (some (e.request, stage')) ∧
      s.clock ≤ e.now ∧ s'.clock = e.now := by
  cases h with
  | @turn _ _ stage stage' _ _ _ _ active clock resumes =>
      exact ⟨stage, stage', active, resume_turn resumes, rfl, clock, rfl⟩

/-- The turn of a task that has just taken one, at the same time. -/
theorem next_step {clock : Int} {store store' : σ} {tasks : ℕ → Option (Request × Stage N Key)}
    {task : ℕ} {request : Request} {stage stage' : Stage N Key} {action : Action N Key}
    (h : resume env clock ("", []) request stage store = some (action, stage', store')) :
    Step env ⟨clock, store, Function.update tasks task (some (request, stage))⟩
      ⟨task, request, clock, action⟩
      ⟨clock, store', Function.update tasks task (some (request, stage'))⟩ := by
  have hactive : Function.update tasks task (some (request, stage)) task = some (request, stage) :=
    Function.update_self _ _ _
  have hstep : Step env ⟨clock, store, Function.update tasks task (some (request, stage))⟩
      ⟨task, request, clock, action⟩
      ⟨clock, store', Function.update (Function.update tasks task (some (request, stage))) task
        (some (request, stage'))⟩ :=
    Step.turn ("", []) (Or.inl hactive) le_rfl h
  rwa [Function.update_idem] at hstep

/-- An answered task takes no turn. -/
theorem TurnOf.unanswered {now : Int} {request : Request} {s s' : σ} {stage stage' : Stage N Key}
    {action : Action N Key} (h : TurnOf env now request s stage action stage' s') :
    stage ≠ .answered := by
  cases h with
  | answer hstage _ _ => exact hstage
  | _ => simp

/-- What an answer of a success rests on. -/
theorem TurnOf.answer_inv {now : Int} {request : Request} {s s' : σ} {stage stage' : Stage N Key}
    {action : Action N Key} {reply : Reply}
    (h : TurnOf env now request s stage action stage' s') (ha : action = .answer reply) :
    stage' = .answered ∧ s' = s ∧
      (successful reply = true →
        (∃ body securityLevel, request = .enroll body ∧ reply = .enrolled securityLevel ∧
          stage = .stored securityLevel true) ∨
        ∃ body nonce device, authenticates request = some body ∧
          stage = .loaded (some nonce) (some device) ∧
          env.verifySignature device.publicKey nonce (Base64.decode body.signature) = true) ∧
      ∀ body securityLevel, request = .enroll body →
        stage = .stored securityLevel false → reply = .failed .DEVICE_ALREADY_ENROLLED := by
  cases h with
  | answer _ hs hr =>
      cases ha
      exact ⟨rfl, rfl, hs, hr⟩
  | _ => cases ha

section Tasks

/-- Position `c` is this task consuming the challenge its request presents. -/
def ConsumedAt (tr : List (Event N Key)) (task : ℕ) (request : Request) (nonce : Option Bytes)
    (c : ℕ) : Prop :=
  ∃ now challengeId purpose, presents request = some (challengeId, purpose) ∧
    tr[c]? = some ⟨task, request, now, .consume challengeId purpose nonce⟩

/-- Position `l` is this task loading the device its request authenticates. -/
def LoadedAt (tr : List (Event N Key)) (task : ℕ) (request : Request)
    (device : Option (EnrolledDevice N Key)) (l : ℕ) : Prop :=
  ∃ now body, authenticates request = some body ∧
    tr[l]? = some ⟨task, request, now, .load body.deviceId device⟩

/-- Position `p` is this task trying to store the device of a verified chain. -/
def StoredAt (env : Env N Key σ) (tr : List (Event N Key)) (task : ℕ) (body : EnrollDeviceDto)
    (nonce : Bytes) (securityLevel : ℤ) (enrolled : Bool) (p : ℕ) : Prop :=
  ∃ now publicKey, env.verify now (body.certificateChain.map Base64.decode) nonce =
      .ok (publicKey, securityLevel) ∧
    tr[p]? = some ⟨task, .enroll body, now,
      .enrol body.deviceId ⟨publicKey, JsNumber.ofInt securityLevel, some now⟩ enrolled⟩

/-- The events behind what a task remembers. -/
def Explained (env : Env N Key σ) (tr : List (Event N Key)) (task : ℕ) (request : Request) :
    Stage N Key → Prop
  | .consumed nonce => ∃ c, ConsumedAt tr task request nonce c
  | .loaded nonce device =>
      ∃ c l, c < l ∧ ConsumedAt tr task request nonce c ∧ LoadedAt tr task request device l
  | .stored securityLevel enrolled =>
      ∃ c p body nonce, c < p ∧ request = .enroll body ∧
        ConsumedAt tr task request (some nonce) c ∧
        StoredAt env tr task body nonce securityLevel enrolled p
  | _ => True

omit [JsNumber N] in
theorem ConsumedAt.append {tr : List (Event N Key)} {task : ℕ} {request : Request}
    {nonce : Option Bytes} {c : ℕ} (h : ConsumedAt tr task request nonce c)
    (more : List (Event N Key)) : ConsumedAt (tr ++ more) task request nonce c := by
  obtain ⟨now, challengeId, purpose, hp, hat⟩ := h
  exact ⟨now, challengeId, purpose, hp, at_append hat more⟩

omit [JsNumber N] in
theorem LoadedAt.append {tr : List (Event N Key)} {task : ℕ} {request : Request}
    {device : Option (EnrolledDevice N Key)} {l : ℕ} (h : LoadedAt tr task request device l)
    (more : List (Event N Key)) : LoadedAt (tr ++ more) task request device l := by
  obtain ⟨now, body, hb, hat⟩ := h
  exact ⟨now, body, hb, at_append hat more⟩

theorem StoredAt.append {tr : List (Event N Key)} {task : ℕ} {body : EnrollDeviceDto}
    {nonce : Bytes} {securityLevel : ℤ} {enrolled : Bool} {p : ℕ}
    (h : StoredAt env tr task body nonce securityLevel enrolled p) (more : List (Event N Key)) :
    StoredAt env (tr ++ more) task body nonce securityLevel enrolled p := by
  obtain ⟨now, publicKey, hv, hat⟩ := h
  exact ⟨now, publicKey, hv, at_append hat more⟩

omit [JsNumber N] in
theorem ConsumedAt.lt_length {tr : List (Event N Key)} {task : ℕ} {request : Request}
    {nonce : Option Bytes} {c : ℕ} (h : ConsumedAt tr task request nonce c) : c < tr.length := by
  obtain ⟨_, _, _, _, hat⟩ := h
  exact lt_length_of_at hat

theorem Explained.append {tr : List (Event N Key)} {task : ℕ} {request : Request}
    {stage : Stage N Key} (h : Explained env tr task request stage) (more : List (Event N Key)) :
    Explained env (tr ++ more) task request stage := by
  cases stage with
  | consumed nonce =>
      obtain ⟨c, hc⟩ := h
      exact ⟨c, hc.append more⟩
  | loaded nonce device =>
      obtain ⟨c, l, hlt, hc, hl⟩ := h
      exact ⟨c, l, hlt, hc.append more, hl.append more⟩
  | stored securityLevel enrolled =>
      obtain ⟨c, p, body, nonce, hlt, hr, hc, hp⟩ := h
      exact ⟨c, p, body, nonce, hlt, hr, hc.append more, hp.append more⟩
  | _ => trivial

/-- A turn from an explained stage leads to an explained stage. -/
theorem TurnOf.explained {tr : List (Event N Key)} {task : ℕ} {request : Request} {now : Int}
    {s s' : σ} {stage stage' : Stage N Key} {action : Action N Key}
    (h : TurnOf env now request s stage action stage' s')
    (he : Explained env tr task request stage) :
    Explained env (tr ++ [⟨task, request, now, action⟩]) task request stage' := by
  cases h with
  | consume hp => exact ⟨tr.length, now, _, _, hp, at_last⟩
  | load hb =>
      obtain ⟨c, hc⟩ := he
      exact ⟨c, tr.length, hc.lt_length, hc.append _, now, _, hb, at_last⟩
  | enrol hr hverify hdevice =>
      obtain ⟨c, hc⟩ := he
      subst hr hdevice
      exact ⟨c, tr.length, _, _, hc.lt_length, rfl, hc.append _, now, _, hverify, at_last⟩
  | issue _ _ hr => trivial
  | delete hr => trivial
  | answer _ _ _ => trivial

/-- In every run the memory of every task is explained by its events. -/
theorem explained_of_run {clock : Int} {store : σ} {tr : List (Event N Key)} {s : State N Key σ}
    (run : Run (Step env) (State.initial clock store) tr s) {task : ℕ} {request : Request}
    {stage : Stage N Key} (h : s.tasks task = some (request, stage)) :
    Explained env tr task request stage := by
  refine run.snoc_induction (motive := fun tr s => ∀ task request stage,
    s.tasks task = some (request, stage) → Explained env tr task request stage) ?_ ?_ _ _ _ h
  · intro task request stage h
    cases h
  · intro tr e t u _ ih hstep task request stage h
    obtain ⟨stage₀, stage', hactive, hturn, htasks, -⟩ := hstep.turnOf
    rw [htasks] at h
    by_cases ht : task = e.task
    · subst ht
      rw [Function.update_self, Option.some.injEq, Prod.mk.injEq] at h
      obtain ⟨rfl, rfl⟩ := h
      apply hturn.explained
      rcases hactive with hactive | ⟨-, rfl⟩
      · exact ih _ _ _ hactive
      · trivial
    · rw [Function.update_of_ne ht] at h
      exact (ih task request stage h).append _

/-- What the turns of a task preserve holds of its stage ever after an event
that established it. -/
theorem stage_after {P : Stage N Key → Prop}
    (keep : ∀ {now request s s' stage stage' action},
      TurnOf env now request s stage action stage' s' → P stage → P stage')
    {clock : Int} {store : σ} {tr : List (Event N Key)} {s : State N Key σ}
    (run : Run (Step env) (State.initial clock store) tr s) {k : ℕ} {e : Event N Key}
    (hat : tr[k]? = some e)
    (establish : ∀ {s s' stage stage'},
      TurnOf env e.now e.request s stage e.action stage' s' → P stage') :
    ∃ stage, s.tasks e.task = some (e.request, stage) ∧ P stage := by
  refine run.snoc_induction (motive := fun tr s => ∀ k, tr[k]? = some e →
    ∃ stage, s.tasks e.task = some (e.request, stage) ∧ P stage) ?_ ?_ _ hat
  · intro k hat
    simp at hat
  · intro tr l t u _ ih hstep k hat
    obtain ⟨stage, stage', hactive, hturn, htasks, -⟩ := hstep.turnOf
    rw [htasks]
    rcases at_snoc_iff.mp hat with hat | ⟨-, rfl⟩
    · obtain ⟨stage₀, hold, hP⟩ := ih k hat
      by_cases hne : e.task = l.task
      · rw [hne] at hold ⊢
        rcases hactive with hactive | ⟨hactive, -⟩
        · rw [hactive, Option.some.injEq, Prod.mk.injEq] at hold
          obtain ⟨hrequest, rfl⟩ := hold
          exact ⟨stage', by rw [Function.update_self, hrequest], keep hturn hP⟩
        · rw [hactive] at hold
          cases hold
      · exact ⟨stage₀, by rw [Function.update_of_ne hne, hold], hP⟩
    · exact ⟨stage', Function.update_self _ _ _, establish hturn⟩

/-- A task that has answered remembers nothing else. -/
theorem answered_of_answer {clock : Int} {store : σ} {tr : List (Event N Key)}
    {s : State N Key σ} (run : Run (Step env) (State.initial clock store) tr s) {k : ℕ}
    {e : Event N Key} {reply : Reply} (hat : tr[k]? = some e) (ha : e.action = .answer reply) :
    s.tasks e.task = some (e.request, .answered) := by
  obtain ⟨stage, hs, rfl⟩ := stage_after (P := fun stage => stage = .answered)
    (fun hturn hP => absurd hP hturn.unanswered) run hat fun hturn => (hturn.answer_inv ha).1
  exact hs

/-- After its attempt to enrol, a task remembers the outcome until it answers. -/
theorem stored_of_enrol {clock : Int} {store : σ} {tr : List (Event N Key)}
    {s : State N Key σ} (run : Run (Step env) (State.initial clock store) tr s) {k : ℕ}
    {e : Event N Key} {deviceId : String} {device : EnrolledDevice N Key} {enrolled : Bool}
    (hat : tr[k]? = some e) (ha : e.action = .enrol deviceId device enrolled) :
    ∃ stage, s.tasks e.task = some (e.request, stage) ∧
      (stage = .answered ∨ ∃ securityLevel, stage = .stored securityLevel enrolled) := by
  refine stage_after (P := fun stage => stage = .answered ∨
    ∃ securityLevel, stage = .stored securityLevel enrolled) ?_ run hat ?_
  · intro _ _ _ _ _ _ _ hturn hP
    rcases hP with rfl | ⟨securityLevel, rfl⟩
    · exact absurd rfl hturn.unanswered
    · cases hturn with
      | answer _ _ _ => exact Or.inl rfl
  · intro _ _ _ _ hturn
    rw [ha] at hturn
    generalize hact : Action.enrol deviceId device enrolled = action at hturn
    cases hturn with
    | enrol _ _ _ =>
        cases hact
        exact Or.inr ⟨_, rfl⟩
    | _ => cases hact

/-- A task answers once. -/
theorem answer_unique {clock : Int} {store : σ} {tr : List (Event N Key)} {s : State N Key σ}
    (run : Run (Step env) (State.initial clock store) tr s) {k k' : ℕ} {e e' : Event N Key}
    {reply reply' : Reply} (hat : tr[k]? = some e) (ha : e.action = .answer reply)
    (hat' : tr[k']? = some e') (ha' : e'.action = .answer reply') (htask : e.task = e'.task) :
    k = k' := by
  have key : ∀ {k k' : ℕ} {e e' : Event N Key} {reply reply' : Reply}, tr[k]? = some e →
      e.action = .answer reply → tr[k']? = some e' → e'.action = .answer reply' →
      e.task = e'.task → ¬ k < k' := by
    intro k k' e e' reply reply' hat ha hat' ha' htask hlt
    obtain ⟨pre, post, rfl, rfl⟩ := split_at hat'
    obtain ⟨t, t', hpre, hstep, -⟩ := Run.at_label run
    rw [List.getElem?_append_left hlt] at hat
    have hanswered := answered_of_answer hpre hat ha
    obtain ⟨stage, stage', hactive, hturn, -⟩ := hstep.turnOf
    rw [htask] at hanswered
    rcases hactive with hactive | ⟨hactive, -⟩
    · rw [hactive, Option.some.injEq, Prod.mk.injEq] at hanswered
      exact hturn.unanswered hanswered.2
    · rw [hactive] at hanswered
      cases hanswered
  exact Nat.le_antisymm (Nat.le_of_not_lt (key hat' ha' hat ha htask.symm))
    (Nat.le_of_not_lt (key hat ha hat' ha' htask))

/-- A successful answer to an enrolment request comes after the same task has
stored the device of a verified chain. -/
theorem stored_of_enrolled {clock : Int} {store : σ} {tr : List (Event N Key)}
    {s : State N Key σ} (run : Run (Step env) (State.initial clock store) tr s) {k : ℕ}
    {e : Event N Key} {body : EnrollDeviceDto} {reply : Reply} (hat : tr[k]? = some e)
    (hr : e.request = .enroll body) (ha : e.action = .answer reply)
    (hs : successful reply = true) :
    ∃ p nonce securityLevel, p < k ∧ reply = .enrolled securityLevel ∧
      StoredAt env tr e.task body nonce securityLevel true p := by
  obtain ⟨pre, post, rfl, rfl⟩ := split_at hat
  obtain ⟨t, t', hpre, hstep, -⟩ := Run.at_label run
  obtain ⟨stage, stage', hactive, hturn, -⟩ := hstep.turnOf
  obtain ⟨-, -, hjustified, -⟩ := hturn.answer_inv ha
  rcases hjustified hs with ⟨_, securityLevel, -, rfl, rfl⟩ | ⟨_, _, _, hauth, -⟩
  · rcases hactive with hactive | ⟨-, hstage⟩
    · obtain ⟨_, p, body', nonce, -, hr', -, hp⟩ := explained_of_run hpre hactive
      rw [hr, Request.enroll.injEq] at hr'
      subst hr'
      obtain ⟨_, _, _, hat'⟩ := id hp
      exact ⟨p, nonce, securityLevel, lt_length_of_at hat', rfl, hp.append _⟩
    · cases hstage
  · rw [hr] at hauth
    cases hauth

/-- A task whose attempt to enrol found the id taken answers so. -/
theorem refused_of_taken {clock : Int} {store : σ} {tr : List (Event N Key)}
    {s : State N Key σ} (run : Run (Step env) (State.initial clock store) tr s) {p k : ℕ}
    {e e' : Event N Key} {body : EnrollDeviceDto} {reply : Reply} {deviceId : String}
    {device : EnrolledDevice N Key} (hpk : p < k) (hp : tr[p]? = some e')
    (ha' : e'.action = .enrol deviceId device false) (hat : tr[k]? = some e)
    (hr : e.request = .enroll body) (ha : e.action = .answer reply) (htask : e'.task = e.task) :
    reply = .failed .DEVICE_ALREADY_ENROLLED := by
  obtain ⟨pre, post, rfl, rfl⟩ := split_at hat
  obtain ⟨t, t', hpre, hstep, -⟩ := Run.at_label run
  obtain ⟨stage, stage', hactive, hturn, -⟩ := hstep.turnOf
  obtain ⟨-, -, -, hrefused⟩ := hturn.answer_inv ha
  rw [List.getElem?_append_left hpk] at hp
  obtain ⟨stage₀, hremembers, hstage⟩ := stored_of_enrol hpre hp ha'
  rw [htask] at hremembers
  rcases hactive with hactive | ⟨hactive, -⟩
  · rw [hactive, Option.some.injEq, Prod.mk.injEq] at hremembers
    obtain ⟨-, rfl⟩ := hremembers
    rcases hstage with rfl | ⟨securityLevel, rfl⟩
    · exact absurd rfl hturn.unanswered
    · exact hrefused body securityLevel hr rfl
  · rw [hactive] at hremembers
    cases hremembers

end Tasks

section Texts

/-- What a turn can make the store hold, and what it cannot leave in it. -/
theorem TurnOf.holds {now : Int} {request : Request} {s s' : σ} {stage stage' : Stage N Key}
    {action : Action N Key} (h : TurnOf env now request s stage action stage' s') {k text : String}
    {x : Option Int} (hx : env.kv.holds s' k text x) :
    (∃ challengeId nonce purpose, action = .issue challengeId nonce purpose ∧
        k = ChallengeStore.key challengeId ∧
        text = ChallengeStore.record env.platform nonce purpose ∧
        x = some (now + CHALLENGE_TTL_MS)) ∨
      (∃ deviceId device, action = .enrol deviceId device true ∧
        (JsNumber.finiteValue device.securityLevel).isSome ∧ k = DeviceRegistry.key deviceId ∧
        text = DeviceRegistry.record env.platform device ∧ x = none) ∨
      (env.kv.holds s k text x ∧
        (∀ challengeId purpose nonce, action = .consume challengeId purpose nonce →
          k ≠ ChallengeStore.key challengeId) ∧
        ∀ deviceId, action = .delete deviceId → k ≠ DeviceRegistry.key deviceId) := by
  cases h with
  | issue challengeId nonce _ =>
      rcases env.kv.holds_set hx with ⟨hk, ht, he⟩ | ⟨-, hold⟩
      · exact Or.inl ⟨challengeId, nonce, _, rfl, hk, ht, he⟩
      · exact Or.inr (Or.inr ⟨hold, by simp, by simp⟩)
  | @consume challengeId purpose _ =>
      obtain ⟨hk, hold⟩ := env.kv.holds_getDelete.mp hx
      refine Or.inr (Or.inr ⟨hold, ?_, by simp⟩)
      rintro _ _ _ ⟨⟩
      exact hk
  | load _ => exact Or.inr (Or.inr ⟨env.kv.holds_get hx, by simp, by simp⟩)
  | @enrol body _ _ securityLevel device _ _ hdevice =>
      rcases env.kv.holds_setIfAbsent hx with ⟨hstored, hk, ht, he⟩ | hold
      · refine Or.inr (Or.inl ⟨body.deviceId, device, ?_, ?_, hk, ht, he⟩)
        · rw [DeviceRegistry.enrol, hstored]
        · rw [hdevice, JsNumber.finiteValue_ofInt]
          rfl
      · exact Or.inr (Or.inr ⟨hold, by simp, by simp⟩)
  | @delete deviceId _ =>
      obtain ⟨hk, hold⟩ := env.kv.holds_delete.mp hx
      refine Or.inr (Or.inr ⟨hold, by simp, ?_⟩)
      rintro _ ⟨⟩
      exact hk
  | answer _ _ _ => exact Or.inr (Or.inr ⟨hx, by simp, by simp⟩)

/-- Position `j` issues the challenge. -/
def IssuedAt (tr : List (Event N Key)) (challengeId : String) (nonce : Bytes) (purpose : String)
    (now : Int) (j : ℕ) : Prop :=
  ∃ task request, tr[j]? = some ⟨task, request, now, .issue challengeId nonce purpose⟩

/-- Position `p` stores the enrolment. -/
def EnrolledAt (tr : List (Event N Key)) (deviceId : String) (device : EnrolledDevice N Key)
    (p : ℕ) : Prop :=
  ∃ task request now, tr[p]? = some ⟨task, request, now, .enrol deviceId device true⟩

/-- The event presents the challenge. -/
def Event.Presents (e : Event N Key) (challengeId : String) : Prop :=
  ∃ purpose nonce, e.action = .consume challengeId purpose nonce

/-- Every text held under a challenge key is the record of an issued challenge
that was not presented since. -/
def ChallengeTexts (env : Env N Key σ) (tr : List (Event N Key)) (s : σ) : Prop :=
  ∀ challengeId text x, env.kv.holds s (ChallengeStore.key challengeId) text x →
    ∃ j nonce purpose now, IssuedAt tr challengeId nonce purpose now j ∧
      text = ChallengeStore.record env.platform nonce purpose ∧
      x = some (now + CHALLENGE_TTL_MS) ∧
      ∀ c e, j < c → tr[c]? = some e → ¬ e.Presents challengeId

/-- Every text held under a device key is the record of an enrolment. -/
def DeviceTexts (env : Env N Key σ) (tr : List (Event N Key)) (s : σ) : Prop :=
  ∀ deviceId text x, env.kv.holds s (DeviceRegistry.key deviceId) text x →
    ∃ p device, EnrolledAt tr deviceId device p ∧
      (JsNumber.finiteValue device.securityLevel).isSome ∧
      text = DeviceRegistry.record env.platform device

theorem ChallengeTexts.step {tr : List (Event N Key)} {s s' : State N Key σ} {e : Event N Key}
    (h : ChallengeTexts env tr s.store) (hstep : Step env s e s') :
    ChallengeTexts env (tr ++ [e]) s'.store := by
  obtain ⟨stage, stage', -, hturn, -⟩ := hstep.turnOf
  intro challengeId text x hx
  rcases hturn.holds hx with ⟨_, nonce, purpose, ha, hk, rfl, rfl⟩ | ⟨_, _, -, -, hk, -⟩ |
    ⟨hold, hconsume, -⟩
  · obtain rfl := ChallengeStore.key_injective hk
    refine ⟨tr.length, nonce, purpose, e.now, ⟨e.task, e.request, ?_⟩, rfl, rfl, ?_⟩
    · rw [at_last, ← ha]
    · intro c e' hc hat
      have hlt := lt_length_of_at hat
      rw [List.length_append, List.length_singleton] at hlt
      omega
  · exact absurd hk (challengeKey_ne_deviceKey _ _)
  · obtain ⟨j, nonce, purpose, now, ⟨task, request, hat⟩, ht, he, hfresh⟩ :=
      h challengeId text x hold
    refine ⟨j, nonce, purpose, now, ⟨task, request, at_append hat _⟩, ht, he, ?_⟩
    intro c e' hc hat'
    rcases at_snoc_iff.mp hat' with hat' | ⟨-, rfl⟩
    · exact hfresh c e' hc hat'
    · rintro ⟨purpose', nonce', ha⟩
      exact hconsume _ _ _ ha rfl

theorem DeviceTexts.step {tr : List (Event N Key)} {s s' : State N Key σ} {e : Event N Key}
    (h : DeviceTexts env tr s.store) (hstep : Step env s e s') :
    DeviceTexts env (tr ++ [e]) s'.store := by
  obtain ⟨stage, stage', -, hturn, -⟩ := hstep.turnOf
  intro deviceId text x hx
  rcases hturn.holds hx with ⟨_, _, _, -, hk, -⟩ | ⟨_, device, ha, hfinite, hk, rfl, rfl⟩ |
    ⟨hold, -⟩
  · exact absurd hk.symm (challengeKey_ne_deviceKey _ _)
  · obtain rfl := DeviceRegistry.key_injective hk
    exact ⟨tr.length, device, ⟨e.task, e.request, e.now, by rw [at_last, ← ha]⟩, hfinite, rfl⟩
  · obtain ⟨p, device, ⟨task, request, now, hat⟩, hfinite, ht⟩ := h deviceId text x hold
    exact ⟨p, device, ⟨task, request, now, at_append hat _⟩, hfinite, ht⟩

/-- The store holds nothing under any key. -/
def Blank (env : Env N Key σ) (store : σ) : Prop := ∀ k text x, ¬ env.kv.holds store k text x

theorem texts_of_run {clock : Int} {store : σ} {tr : List (Event N Key)} {s : State N Key σ}
    (hblank : Blank env store) (run : Run (Step env) (State.initial clock store) tr s) :
    ChallengeTexts env tr s.store ∧ DeviceTexts env tr s.store := by
  refine run.snoc_induction (motive := fun tr s => ChallengeTexts env tr s.store ∧
    DeviceTexts env tr s.store) ?_ ?_
  · exact ⟨fun _ _ _ h => absurd h (hblank _ _ _), fun _ _ _ h => absurd h (hblank _ _ _)⟩
  · rintro tr e t u - ⟨hc, hd⟩ hstep
    exact ⟨hc.step hstep, hd.step hstep⟩

/-- A consumption that yields a nonce found the record of an issued challenge,
in time and not presented since. -/
theorem consumed_record {tr : List (Event N Key)} {s : σ} (h : ChallengeTexts env tr s) {now : Int}
    {challengeId purpose : String} {nonce : Bytes}
    (hc : (ChallengeStore.consume env.platform env.kv.toKvStore now challengeId
      (some purpose) s).1 = some nonce) :
    ∃ j issued, IssuedAt tr challengeId nonce purpose issued j ∧
      now ≤ issued + CHALLENGE_TTL_MS ∧
      ∀ c e, j < c → tr[c]? = some e → ¬ e.Presents challengeId := by
  have hr : ChallengeStore.redeem env.platform
      (env.kv.getDelete now (ChallengeStore.key challengeId) s).1 purpose = some nonce := hc
  obtain ⟨text, htext⟩ := ChallengeStore.redeem_eq_some hr
  obtain ⟨x, hx, hfresh⟩ := env.kv.getDelete_returns htext
  obtain ⟨j, nonce', purpose', issued, hissued, rfl, rfl, hlast⟩ := h challengeId text x hx
  rw [htext, ChallengeStore.redeem_record] at hr
  split at hr
  · next hp =>
      obtain rfl := Option.some.inj hr
      subst hp
      exact ⟨j, issued, hissued, by simpa [expired] using hfresh, hlast⟩
  · cases hr

/-- A lookup that finds a device found the key of an enrolment. -/
theorem loaded_record {tr : List (Event N Key)} {s : σ} (h : DeviceTexts env tr s) {now : Int}
    {deviceId : String} {device : EnrolledDevice N Key}
    (hl : (DeviceRegistry.get env.platform env.kv.toKvStore now deviceId s).1 = some device) :
    ∃ p enrolled, EnrolledAt tr deviceId enrolled p ∧ enrolled.publicKey = device.publicKey := by
  have hr : DeviceRegistry.restore env.platform
      (env.kv.get now (DeviceRegistry.key deviceId) s).1 = some device := hl
  obtain ⟨text, htext⟩ := DeviceRegistry.restore_eq_some hr
  obtain ⟨x, hx, -⟩ := env.kv.get_returns htext
  obtain ⟨p, enrolled, hat, hfinite, rfl⟩ := h deviceId text x hx
  rw [htext, DeviceRegistry.restore_record _ _ hfinite] at hr
  obtain rfl := Option.some.inj hr
  exact ⟨p, enrolled, hat, rfl⟩

end Texts

end EncryptionGateway.Attestation.Endpoints
