import EncryptionGateway.Attestation.InstanceSafety
import EncryptionGateway.Attestation.RedisServer
import EncryptionGateway.Attestation.TrustPath

/-!
# Endpoints over a store, and over its commands

A turn of the endpoints over the map is one command of their program at the
server, answered at once. So every run of the endpoints is a run of instances in
which nothing is lost.

## Implementation notes

A turn does the local work and then the access. In the program the local work
follows the reply, so the reply of a command is received when the next turn
starts.
-/

namespace EncryptionGateway.Attestation.Deployed

open JavaScript Foundation UpstashKvStore

variable {N Key : Type} [JsNumber N]

section Turns

variable {services : Services N Key} {fresh : String × Bytes} {request : Request}

/-- What is left of the program of a request, by the stage of its task and the
time at which it goes on. -/
inductive AtStage (services : Services N Key) (fresh : String × Bytes) :
    Request → Stage N Key → (Int → Program N) → Prop
  | arrived (request : Request) :
      AtStage services fresh request .arrived fun _ => program services fresh request
  | issued (purpose : Option String) :
      AtStage services fresh (.challenge purpose) (.issued fresh.1 fresh.2) fun _ =>
        answer (.challenge fresh.1 (Base64.encode fresh.2))
  | enrolConsumed (body : EnrollDeviceDto) (nonce : Option Bytes) :
      AtStage services fresh (.enroll body) (.consumed nonce) fun now =>
        enrolConsumed services body now nonce
  | verifyConsumed (body : VerifyDeviceDto) (nonce : Option Bytes) :
      AtStage services fresh (.verify body) (.consumed nonce) fun _ =>
        device services body.deviceId (verifyLoaded services body nonce)
  | checkConsumed {r : GuardedRequest} {body : VerifyDeviceDto} (h : r.credentials = some body)
      (nonce : Option Bytes) :
      AtStage services fresh (.guarded r) (.consumed nonce) fun _ =>
        checkConsumed services body nonce
  | verifyLoaded (body : VerifyDeviceDto) (nonce : Option Bytes)
      (device : Option (EnrolledDevice N Key)) :
      AtStage services fresh (.verify body) (.loaded nonce device) fun _ =>
        verifyLoaded services body nonce device
  | checkLoaded {r : GuardedRequest} {body : VerifyDeviceDto} (h : r.credentials = some body)
      (nonce : Bytes) (device : Option (EnrolledDevice N Key)) :
      AtStage services fresh (.guarded r) (.loaded (some nonce) device) fun _ =>
        checkLoaded services body nonce device
  | stored (body : EnrollDeviceDto) (securityLevel : ℤ) (enrolled : Bool) :
      AtStage services fresh (.enroll body) (.stored securityLevel enrolled) fun _ =>
        enrolStored securityLevel enrolled
  | deleted (deviceId : String) (existed : Bool) :
      AtStage services fresh (.delete deviceId) (.deleted existed) fun _ =>
        answer (.deleted existed)

/-- The turn is what the program does next: its answer, or a command whose reply
leads to the next stage. -/
inductive Matches (services : Services N Key) (fresh : String × Bytes) (request : Request)
    (now : Int) (s : RedisMap) : Program N → Action N Key → Stage N Key → RedisMap → Prop
  | answer (reply : Reply) :
      Matches services fresh request now s (answer reply) (.answer reply) .answered s
  | command {action : Action N Key} {stage : Stage N Key} {rest : Int → Program N}
      {resume : Int → Except String (HttpReply N) → Program N} (c : Command)
      (hstage : AtStage services fresh request stage rest)
      (hresume : ∀ now', resume now' (.ok (RedisMap.reply (RedisMap.perform now c s).1)) =
        rest now')
      (hquiet : ∀ reply, action ≠ .answer reply) (hgoes : stage ≠ .answered) :
      Matches services fresh request now s (.call c resume) action stage
        (RedisMap.perform (N := N) now c s).2

variable {now : Int} {s : RedisMap}

/-- A command at the server whose result leads to the next stage. -/
theorem matches_await {V : Type} {c : Command} {decode : Option (Json N) → V}
    {next : Int → V → Program N} {action : Action N Key} {stage : Stage N Key}
    {rest : Int → Program N} (hstage : AtStage services fresh request stage rest)
    (hnext : ∀ now', next now' (decode (RedisMap.perform now c s).1) = rest now')
    (hquiet : ∀ reply, action ≠ .answer reply) (hgoes : stage ≠ .answered) :
    Matches services fresh request now s (await c decode next) action stage
      (RedisMap.perform (N := N) now c s).2 := by
  refine .command c hstage (fun now' => ?_) hquiet hgoes
  rw [← hnext now']
  have hcommand := RedisMap.command_reply (N := N) now c s
  simp only [Except.bind, bind, hcommand]

theorem matches_consume {challengeId : String} (purpose : Option String)
    {next : Int → Option Bytes → Program N} {action : Action N Key} {stage : Stage N Key}
    {s' : RedisMap}
    (hnext : ∀ nonce, AtStage services fresh request (.consumed nonce) fun now => next now nonce)
    (h : Endpoints.consume services.shared now challengeId purpose s = (action, stage, s')) :
    Matches services fresh request now s (consume services challengeId (purpose.getD "enroll") next)
      action stage s' := by
  simp only [Endpoints.consume, Prod.mk.injEq] at h
  obtain ⟨rfl, rfl, rfl⟩ := h
  exact matches_await (hnext _) (fun now' => by
    simp only [RedisMap.perform, found_replyValue]
    rfl) (by simp) (by simp)

theorem matches_load {deviceId : String} {nonce : Option Bytes}
    {next : Option (EnrolledDevice N Key) → Program N} {action : Action N Key} {stage : Stage N Key}
    {s' : RedisMap}
    (hnext : ∀ device, AtStage services fresh request (.loaded nonce device) fun _ => next device)
    (h : Endpoints.load services.shared now deviceId nonce s = (action, stage, s')) :
    Matches services fresh request now s (device services deviceId next) action stage s' := by
  simp only [Endpoints.load, Prod.mk.injEq] at h
  obtain ⟨rfl, rfl, rfl⟩ := h
  exact matches_await (c := .GET (DeviceRegistry.key deviceId)) (hnext _) (fun now' => by
    simp only [RedisMap.perform, found_replyValue]
    rfl) (by simp) (by simp)

theorem perform_setIfAbsent (now : Int) (key value : String) (s : RedisMap) :
    (stored (RedisMap.perform (N := N) now (setIfAbsent key value none) s).1,
      (RedisMap.perform (N := N) now (setIfAbsent key value none) s).2) =
        RedisMap.kv.setIfAbsent now key value none s := by
  by_cases h : (s.read now key).isSome
  · simp [setIfAbsent, RedisMap.perform, RedisMap.kv, h, stored]
  · simp [setIfAbsent, RedisMap.perform, RedisMap.kv, h, stored]

theorem perform_delete (now : Int) (key : String) (s : RedisMap) :
    (existed (RedisMap.perform (N := N) now (.DEL key) s).1,
      (RedisMap.perform (N := N) now (.DEL key) s).2) = RedisMap.kv.delete now key s := by
  by_cases h : (s.read now key).isSome
  · simp [RedisMap.perform, RedisMap.kv, h, existed, JsNumber.finiteValue_ofInt]
  · simp [RedisMap.perform, RedisMap.kv, h, existed, JsNumber.finiteValue_ofInt]

theorem matches_enrolConsumed {body : EnrollDeviceDto} {nonce : Bytes} {action : Action N Key}
    {stage : Stage N Key} {s' : RedisMap}
    (h : Endpoints.enrolVerified services.shared now body nonce s = (action, stage, s')) :
    Matches services fresh (.enroll body) now s (enrolConsumed services body now (some nonce))
      action stage s' := by
  simp only [Endpoints.enrolVerified, Services.shared] at h
  simp only [enrolConsumed]
  rcases hverify : services.verify now (body.certificateChain.map Base64.decode) nonce with
    e | ⟨publicKey, securityLevel⟩
  · simp only [hverify] at h ⊢
    cases h
    exact .answer _
  · simp only [hverify] at h ⊢
    simp only [DeviceRegistry.enrol, RedisMap.atomic, ← perform_setIfAbsent (N := N),
      Prod.mk.injEq] at h
    obtain ⟨rfl, rfl, rfl⟩ := h
    exact matches_await (.stored body securityLevel _) (fun _ => rfl) (by simp) (by simp)

/-- The first turn of a request. -/
theorem matches_arrived {fresh' : String × Bytes} {action : Action N Key} {stage : Stage N Key}
    {s' : RedisMap}
    (hissue : ∀ challengeId nonce purpose, action = .issue challengeId nonce purpose →
      fresh = (challengeId, nonce))
    (h : Endpoints.resume services.shared now fresh' request .arrived s =
      some (action, stage, s')) :
    Matches services fresh request now s (program services fresh request) action stage s' := by
  cases request with
  | challenge purpose =>
      simp only [Endpoints.resume, Endpoints.challenge, Option.some.injEq, Prod.mk.injEq] at h
      obtain ⟨rfl, rfl, rfl⟩ := h
      obtain rfl := hissue _ _ _ rfl
      exact matches_await (.issued purpose) (fun _ => rfl) (by simp) (by simp)
  | enroll body =>
      simp only [Endpoints.resume, Endpoints.enroll] at h
      simp only [program, enroll]
      split at h
      · next hconfigured =>
          rw [if_pos (show services.configured = true from hconfigured)]
          exact matches_consume (some "enroll") (.enrolConsumed body) (Option.some.inj h)
      · next hconfigured =>
          rw [if_neg (show ¬services.configured = true from hconfigured)]
          cases h
          exact .answer _
  | verify body =>
      simp only [Endpoints.resume, Endpoints.verify] at h
      simp only [program, verify]
      split at h
      · next hconfigured =>
          rw [if_pos (show services.configured = true from hconfigured)]
          exact matches_consume (some "verify") (.verifyConsumed body) (Option.some.inj h)
      · next hconfigured =>
          rw [if_neg (show ¬services.configured = true from hconfigured)]
          cases h
          exact .answer _
  | guarded r =>
      simp only [Endpoints.resume, Endpoints.guarded] at h
      simp only [program, guarded]
      split at h
      · next hcredentials _ =>
          simp only [hcredentials]
          cases h
          exact .answer _
      · next body hcredentials _ =>
          simp only [hcredentials]
          exact matches_consume r.purpose (.checkConsumed hcredentials) (Option.some.inj h)
      all_goals contradiction
  | delete deviceId =>
      simp only [Endpoints.resume, Endpoints.delete, DeviceRegistry.delete, Services.shared,
        RedisMap.atomic, ← perform_delete (N := N), Option.some.injEq, Prod.mk.injEq] at h
      obtain ⟨rfl, rfl, rfl⟩ := h
      exact matches_await (.deleted deviceId _) (fun _ => rfl) (by simp) (by simp)

theorem verifyLoaded_eq (services : Services N Key) (body : VerifyDeviceDto) (nonce : Option Bytes)
    (device : Option (EnrolledDevice N Key)) :
    verifyLoaded services body nonce device =
      answer (Endpoints.judge services.shared body nonce device) := by
  match nonce, device with
  | none, _ => rfl
  | some _, none => rfl
  | some nonce, some device =>
      by_cases h : services.verifySignature device.publicKey nonce
          (Base64.decode body.signature) = true
      · simp [verifyLoaded, Endpoints.judge, Services.shared, h]
      · simp [verifyLoaded, Endpoints.judge, Services.shared, h, fail]

theorem checkLoaded_eq (services : Services N Key) (body : VerifyDeviceDto) (nonce : Bytes)
    (device : Option (EnrolledDevice N Key)) :
    checkLoaded services body nonce device =
      letPass services (Endpoints.checkSignature services.shared body nonce device) := by
  cases device with
  | none => rfl
  | some device =>
      by_cases h : services.verifySignature device.publicKey nonce
          (Base64.decode body.signature) = true
      · simp [checkLoaded, Endpoints.checkSignature, Services.shared, h]
      · simp [checkLoaded, Endpoints.checkSignature, Services.shared, h]

/-- Every turn of a task is what its program does next. -/
theorem matches_resume {fresh' : String × Bytes} {action : Action N Key}
    {stage stage' : Stage N Key}
    {rest : Int → Program N} {s' : RedisMap} (hat : AtStage services fresh request stage rest)
    (hissue : ∀ challengeId nonce purpose, action = .issue challengeId nonce purpose →
      fresh = (challengeId, nonce))
    (h : Endpoints.resume services.shared now fresh' request stage s = some (action, stage', s')) :
    Matches services fresh request now s (rest now) action stage' s' := by
  cases hat with
  | arrived => exact matches_arrived hissue h
  | issued purpose =>
      cases h
      exact .answer _
  | enrolConsumed body nonce =>
      cases nonce with
      | none =>
          cases h
          exact .answer _
      | some nonce => exact matches_enrolConsumed (Option.some.inj h)
  | verifyConsumed body nonce => exact matches_load (.verifyLoaded body nonce) (Option.some.inj h)
  | checkConsumed hcredentials nonce =>
      simp only [Endpoints.resume, Endpoints.guarded, hcredentials] at h
      cases nonce with
      | none =>
          cases h
          exact .answer _
      | some nonce =>
          exact matches_load (.checkLoaded hcredentials nonce) (Option.some.inj h)
  | verifyLoaded body nonce device =>
      cases h
      rw [verifyLoaded_eq]
      exact .answer _
  | checkLoaded hcredentials nonce device =>
      simp only [Endpoints.resume, Endpoints.guarded, hcredentials] at h
      cases h
      rw [checkLoaded_eq]
      exact .answer _
  | stored body securityLevel enrolled =>
      cases enrolled with
      | false =>
          cases h
          exact .answer _
      | true =>
          cases h
          exact .answer _
  | deleted deviceId existed =>
      cases h
      exact .answer _

end Turns

section Runs

variable {services : Services N Key} {fresh : ℕ → String × Bytes}

/-- The task waits for a reply that leads to the stage, and the command is
carried out already. -/
def Waits (services : Services N Key) (fresh : ℕ → String × Bytes) (s : State N RedisMap) (t : ℕ)
    (request : Request) (stage : Stage N Key) : Prop :=
  ∃ log n c resume response rest,
    s.tasks t = some ⟨program services (fresh t) request, log, some n, .call c resume⟩ ∧
      s.calls[n]? = some ⟨t, c, some response⟩ ∧ AtStage services (fresh t) request stage rest ∧
      ∀ now, resume now (.ok response) = rest now

/-- The task has answered. -/
def Answered (services : Services N Key) (fresh : ℕ → String × Bytes) (s : State N RedisMap) (t : ℕ)
    (request : Request) (reply : Reply) : Prop :=
  ∃ log, s.tasks t = some ⟨program services (fresh t) request, log, none, answer reply⟩

/-- What a turn of task `t` leaves behind. -/
structure Turned (services : Services N Key) (fresh : ℕ → String × Bytes) (s s' : State N RedisMap)
    (t : ℕ) (request : Request) (now : Int) (action : Action N Key) (stage : Stage N Key)
    (store : RedisMap) : Prop where
  clock : s'.clock ≤ now
  object : s'.object = store
  others : ∀ i ≠ t, s'.tasks i = s.tasks i
  calls : ∀ (n : ℕ) call, s.calls[n]? = some call → s'.calls[n]? = some call
  stage : stage = .answered ∧
    (∃ reply, action = .answer reply ∧ Answered services fresh s' t request reply) ∨
    (∀ reply, action ≠ .answer reply) ∧ Waits services fresh s' t request stage

theorem turned_of_matches {s : State N RedisMap} {t : ℕ} {request : Request} {now : Int}
    {log : List (ℕ × Command × Except String (HttpReply N))} {rest : Program N}
    {action : Action N Key} {stage : Stage N Key} {store : RedisMap}
    (htask : s.tasks t = some ⟨program services (fresh t) request, log, none, rest⟩)
    (hclock : s.clock ≤ now)
    (h : Matches services (fresh t) request now s.object rest action stage store) :
    ∃ tr s', Run (Step RedisMap.server services fresh) s tr s' ∧
      Turned services fresh s s' t request now action stage store := by
  cases h with
  | answer reply =>
      exact ⟨[], s, .nil s, hclock, rfl, fun _ _ => rfl, fun _ _ h => h,
        Or.inl ⟨rfl, reply, rfl, log, htask⟩⟩
  | @command _ _ rest' resume c hstage hresume hquiet hgoes =>
      obtain ⟨tr, hrun⟩ : ∃ tr, Run (Step RedisMap.server services fresh) s tr _ :=
        Remote.run_served htask hclock
      have hexec : serve (RedisMap.server (N := N)) now c s.object =
          (RedisMap.reply (RedisMap.perform now c s.object).1,
            (RedisMap.perform (N := N) now c s.object).2) := by
        simp [serve, RedisMap.server, Command.ofWords_words]
      rw [hexec] at hrun
      refine ⟨tr, _, hrun, le_rfl, rfl, fun i hi => Function.update_of_ne hi _ _,
        fun n call hcall => at_append hcall _,
        Or.inr ⟨hquiet, log, s.calls.length, c, resume, _, rest', Function.update_self _ _ _,
          at_last, hstage, hresume⟩⟩

/-- The instances have answered what the tasks of the process have answered,
and wait where these are. -/
structure Mirrors (services : Services N Key) (fresh : ℕ → String × Bytes)
    (tr : List (Endpoints.Event N Key)) (s : Endpoints.State N Key RedisMap)
    (s' : State N RedisMap) : Prop where
  clock : s'.clock ≤ s.clock
  object : s'.object = s.store
  free : ∀ t, s.tasks t = none → s'.tasks t = none
  waiting : ∀ t request stage, s.tasks t = some (request, stage) → stage ≠ .answered →
    Waits services fresh s' t request stage
  answered : ∀ e ∈ tr, ∀ reply, e.action = .answer reply →
    Answered services fresh s' e.task e.request reply

/-- A task waits on while others are served. -/
theorem Waits.kept {s s' : State N RedisMap} {t : ℕ} {request : Request} {stage : Stage N Key}
    (h : Waits services fresh s t request stage) (htask : s'.tasks t = s.tasks t)
    (hcalls : ∀ (n : ℕ) call, s.calls[n]? = some call → s'.calls[n]? = some call) :
    Waits services fresh s' t request stage := by
  obtain ⟨log, n, c, resume, response, rest, hold, hcall, hrest⟩ := h
  exact ⟨log, n, c, resume, response, rest, htask.trans hold, hcalls n _ hcall, hrest⟩

/-- The program is where the next turn of its task starts. -/
theorem Mirrors.resumed {tr : List (Endpoints.Event N Key)} {s : Endpoints.State N Key RedisMap}
    {s' : State N RedisMap} (h : Mirrors services fresh tr s s') {t : ℕ} {request : Request}
    {stage : Stage N Key} (hstage : stage ≠ .answered)
    (hactive : s.tasks t = some (request, stage) ∨ s.tasks t = none ∧ stage = .arrived)
    (now : Int) :
    ∃ tr' log rest, Run (Step RedisMap.server services fresh) s' tr' { s' with
        tasks := Function.update s'.tasks t
          (some ⟨program services (fresh t) request, log, none, rest now⟩) } ∧
      AtStage services (fresh t) request stage rest := by
  rcases hactive with hactive | ⟨hfree, rfl⟩
  · obtain ⟨log, n, c, resume, response, rest, htask, hcall, hat, hresume⟩ :=
      h.waiting t request stage hactive hstage
    have hreceive : Step RedisMap.server services fresh s' none _ := .receive htask hcall now
    rw [hresume] at hreceive
    exact ⟨_, _, rest, .cons hreceive (.nil _), hat⟩
  · exact ⟨_, [], fun _ => program services (fresh t) request,
      .cons (.start (h.free t hfree) ⟨request, rfl⟩) (.nil _), .arrived request⟩

theorem Mirrors.step {tr : List (Endpoints.Event N Key)} {s t : Endpoints.State N Key RedisMap}
    {s' : State N RedisMap} {e : Endpoints.Event N Key} (h : Mirrors services fresh tr s s')
    (hissue : ∀ challengeId nonce purpose, e.action = .issue challengeId nonce purpose →
      fresh e.task = (challengeId, nonce))
    (hended : ∀ e' ∈ tr, ∀ reply, e'.action = .answer reply →
      s.tasks e'.task = some (e'.request, .answered))
    (hstep : Endpoints.Step services.shared s e t) :
    ∃ tr' t', Run (Step RedisMap.server services fresh) s' tr' t' ∧
      Mirrors services fresh (tr ++ [e]) t t' := by
  cases hstep with
  | @turn task request stage stage' now action store fresh' hactive hclock hresumes =>
      have hstage : stage ≠ .answered := (Endpoints.resume_turn hresumes).unanswered
      obtain ⟨tr₁, log, rest, hrun₁, hat⟩ := h.resumed hstage hactive now
      have hmatches := matches_resume hat hissue hresumes
      rw [← h.object] at hmatches
      have htask : (Function.update s'.tasks task
          (some ⟨program services (fresh task) request, log, none, rest now⟩)) task =
            some ⟨program services (fresh task) request, log, none, rest now⟩ :=
        Function.update_self _ _ _
      obtain ⟨tr₂, t', hrun₂, hturned⟩ := turned_of_matches (s := { s' with
        tasks := Function.update s'.tasks task
          (some ⟨program services (fresh task) request, log, none, rest now⟩) }) htask
            (h.clock.trans hclock) hmatches
      have hothers : ∀ i ≠ task, t'.tasks i = s'.tasks i := fun i hi =>
        (hturned.others i hi).trans (Function.update_of_ne hi _ _)
      refine ⟨_, t', hrun₁.append hrun₂, hturned.clock, hturned.object, ?_, ?_, ?_⟩
      · intro i hi
        by_cases ht : i = task
        · subst ht
          simp at hi
        · simp only [Function.update_of_ne ht] at hi
          exact (hothers i ht).trans (h.free i hi)
      · intro i request' stage₁ hi hgoes
        by_cases ht : i = task
        · subst ht
          simp only [Function.update_self, Option.some.injEq, Prod.mk.injEq] at hi
          obtain ⟨rfl, rfl⟩ := hi
          rcases hturned.stage with ⟨hanswered, -⟩ | ⟨-, hwaits⟩
          · exact absurd hanswered hgoes
          · exact hwaits
        · simp only [Function.update_of_ne ht] at hi
          exact (h.waiting i request' stage₁ hi hgoes).kept (hothers i ht) hturned.calls
      · intro e' he' reply hreply
        rcases List.mem_append.mp he' with he' | he'
        · have ht : e'.task ≠ task := by
            intro ht
            have hdone := hended e' he' reply hreply
            rw [ht] at hdone
            rcases hactive with hactive | ⟨hactive, -⟩
            · rw [hactive] at hdone
              cases hdone
              exact hstage rfl
            · rw [hactive] at hdone
              cases hdone
          obtain ⟨log, htask⟩ := h.answered e' he' reply hreply
          exact ⟨log, (hothers e'.task ht).trans htask⟩
        · obtain rfl := List.mem_singleton.mp he'
          rcases hturned.stage with ⟨-, reply', hreply', hanswered⟩ | ⟨hquiet, -⟩
          · obtain rfl : reply' = reply := Action.answer.inj (hreply'.symm.trans hreply)
            exact hanswered
          · exact absurd hreply (hquiet reply)

section Samples

/-- A first enrolment over the map. -/
theorem admission_shared (services : Services N Key) (clock : Int) (body : EnrollDeviceDto)
    {nonce : Bytes} {publicKey : Key} {securityLevel : ℤ} (hconfigured : services.configured = true)
    (hverify : services.verify clock (body.certificateChain.map Base64.decode) nonce =
      .ok (publicKey, securityLevel)) :
    ∃ s, Run (Endpoints.Step services.shared) (Endpoints.State.initial clock RedisMap.blank)
        (Endpoints.admission body clock nonce publicKey securityLevel) s ∧
      s.clock = clock ∧ s.store (DeviceRegistry.key body.deviceId) =
        some ⟨DeviceRegistry.record services.platform
          ⟨publicKey, JsNumber.ofInt securityLevel, some clock⟩, none⟩ ∧
      s.tasks 0 = some (.challenge none, .issued body.challengeId nonce) ∧
      s.tasks 1 = some (.enroll body, .answered) ∧ ∀ t, 2 ≤ t → s.tasks t = none := by
  let issued : RedisMap := Function.update RedisMap.blank (ChallengeStore.key body.challengeId)
    (some ⟨ChallengeStore.record services.platform nonce "enroll", some (clock + CHALLENGE_TTL_MS)⟩)
  let taken : RedisMap := Function.update issued (ChallengeStore.key body.challengeId) none
  have hread : issued.read clock (ChallengeStore.key body.challengeId) =
      some (ChallengeStore.record services.platform nonce "enroll") := by
    simp [issued, RedisMap.read, expired, CHALLENGE_TTL_MS]
  have hfree : taken.read clock (DeviceRegistry.key body.deviceId) = none := by
    have hne := (challengeKey_ne_deviceKey body.challengeId body.deviceId).symm
    simp [taken, issued, RedisMap.read, RedisMap.blank, Function.update_of_ne hne]
  have hconsumed : Endpoints.resume services.shared clock ("", []) (.enroll body) .arrived issued =
      some (.consume body.challengeId "enroll" (some nonce), .consumed (some nonce), taken) := by
    simp only [Endpoints.resume, Endpoints.enroll, Services.shared, hconfigured, if_true,
      Endpoints.consume, ChallengeStore.consume, RedisMap.atomic, RedisMap.kv, hread,
      Option.getD_some, ChallengeStore.redeem_record]
    rfl
  have hstored : Endpoints.resume services.shared clock ("", []) (.enroll body)
      (.consumed (some nonce)) taken =
      some (.enrol body.deviceId ⟨publicKey, JsNumber.ofInt securityLevel, some clock⟩ true,
        .stored securityLevel true, Function.update taken (DeviceRegistry.key body.deviceId)
          (some ⟨DeviceRegistry.record services.platform
            ⟨publicKey, JsNumber.ofInt securityLevel, some clock⟩, none⟩)) := by
    simp only [Endpoints.resume, Endpoints.enroll, Endpoints.enrolVerified, Services.shared,
      hverify, DeviceRegistry.enrol, RedisMap.atomic, RedisMap.kv, hfree, Option.isSome_none,
      expiry, Option.map_none]
    rfl
  refine ⟨_, .cons (.turn (body.challengeId, nonce) (Or.inr ⟨rfl, rfl⟩) le_rfl rfl)
    (.cons (.turn ("", []) (Or.inr ⟨rfl, rfl⟩) le_rfl hconsumed)
      (.cons (Endpoints.next_step hstored) (.cons (Endpoints.next_step rfl) (.nil _)))), rfl,
    Function.update_self _ _ _, rfl, rfl, ?_⟩
  intro t ht
  have h₁ : t ≠ 1 := by omega
  have h₀ : t ≠ 0 := by omega
  simp only [Function.update_of_ne h₁, Function.update_of_ne h₀]
  rfl

/-- A login over the map, of a device that it holds. -/
theorem login_shared (services : Services N Key) {s : Endpoints.State N Key RedisMap} {task : ℕ}
    {deviceId : String} {device : EnrolledDevice N Key} (login : Endpoints.Login)
    (hconfigured : services.configured = true) (hfree : ∀ i, task ≤ i → s.tasks i = none)
    (hholds : s.store (DeviceRegistry.key deviceId) =
      some ⟨DeviceRegistry.record services.platform device, none⟩)
    (hfinite : (JsNumber.finiteValue device.securityLevel).isSome)
    (hsigned : services.verifySignature device.publicKey login.nonce
      (Base64.decode login.signature) = true) :
    ∃ s', Run (Endpoints.Step services.shared) s
        (login.events task deviceId (Endpoints.restored services device)
          (s.clock + login.wait)) s' ∧
      s'.tasks = Function.update (Function.update s.tasks task
        (some (.challenge (some "verify"), .answered)))
        (task + 1) (some (.verify (login.body deviceId), .answered)) := by
  let now := s.clock + login.wait
  let opened : RedisMap := Function.update s.store (ChallengeStore.key login.challengeId)
    (some ⟨ChallengeStore.record services.platform login.nonce "verify",
      some (now + CHALLENGE_TTL_MS)⟩)
  let taken : RedisMap := Function.update opened (ChallengeStore.key login.challengeId) none
  have hread : opened.read now (ChallengeStore.key login.challengeId) =
      some (ChallengeStore.record services.platform login.nonce "verify") := by
    simp [opened, RedisMap.read, expired, CHALLENGE_TTL_MS]
  have hconsume : ChallengeStore.consume services.platform RedisMap.kv now login.challengeId
      (some "verify") opened = (some login.nonce, taken) := by
    simp only [ChallengeStore.consume, RedisMap.kv, hread, Option.getD_some,
      ChallengeStore.redeem_record]
    rfl
  have hkept : taken.read now (DeviceRegistry.key deviceId) =
      some (DeviceRegistry.record services.platform device) := by
    have hne := (challengeKey_ne_deviceKey login.challengeId deviceId).symm
    simp only [RedisMap.read, taken, opened, Function.update_of_ne hne, hholds]
    rfl
  have hload : DeviceRegistry.get services.platform RedisMap.kv now deviceId taken =
      (some (Endpoints.restored services device), taken) := by
    simp only [DeviceRegistry.get, RedisMap.kv, hkept,
      DeviceRegistry.restore_record services.platform device hfinite, Endpoints.restored]
  exact ⟨_, Endpoints.login_steps services.shared login hconfigured hfree hconsume hload
    hsigned, rfl⟩

/-- The values that the tasks of the samples draw. -/
def sampleFresh (t : ℕ) : String × Bytes := (Endpoints.uuid t, [7])

theorem sampleFresh_admission (body : EnrollDeviceDto) (now : Int) (publicKey : Key)
    (securityLevel : ℤ) (hid : body.challengeId = Endpoints.uuid 0) :
    ∀ e ∈ (Endpoints.admission body now [7] publicKey securityLevel : List (Endpoints.Event N Key)),
      ∀ challengeId nonce purpose, e.action = .issue challengeId nonce purpose →
        sampleFresh e.task = (challengeId, nonce) := by
  intro e he challengeId nonce purpose ha
  simp only [Endpoints.admission, Endpoints.enrolment, List.mem_cons, List.not_mem_nil,
    or_false] at he
  rcases he with rfl | rfl | rfl | rfl
  · cases ha
    simp [sampleFresh, hid]
  · cases ha
  · cases ha
  · cases ha

omit [JsNumber N] in
theorem sampleFresh_login (login : Endpoints.Login) (task : ℕ) (deviceId : String)
    (device : EnrolledDevice N Key) (now : Int)
    (hdrawn : sampleFresh task = (login.challengeId, login.nonce)) :
    ∀ e ∈ (login.events task deviceId device now : List (Endpoints.Event N Key)),
      ∀ challengeId nonce purpose, e.action = .issue challengeId nonce purpose →
        sampleFresh e.task = (challengeId, nonce) := by
  intro e he challengeId nonce purpose ha
  simp only [Endpoints.Login.events, List.mem_cons, List.not_mem_nil, or_false] at he
  rcases he with rfl | rfl | rfl | rfl | rfl
  · cases ha
    exact hdrawn
  · cases ha
  · cases ha
  · cases ha
  · cases ha

end Samples

/-- Every run of the process is followed by the instances. -/
theorem mirrors_of_run (services : Services N Key) (fresh : ℕ → String × Bytes) (clock : Int)
    (store : RedisMap) (tr : List (Endpoints.Event N Key)) (s : Endpoints.State N Key RedisMap)
    (hissue : ∀ e ∈ tr, ∀ challengeId nonce purpose, e.action = .issue challengeId nonce purpose →
      fresh e.task = (challengeId, nonce))
    (run : Run (Endpoints.Step services.shared) (Endpoints.State.initial clock store) tr s) :
    ∃ tr' s', Run (Step RedisMap.server services fresh) (Remote.State.initial clock store) tr' s' ∧
      Mirrors services fresh tr s s' := by
  refine run.snoc_induction (motive := fun tr s => (∀ e ∈ tr, ∀ challengeId nonce purpose,
    e.action = .issue challengeId nonce purpose → fresh e.task = (challengeId, nonce)) →
    ∃ tr' s', Run (Step RedisMap.server services fresh) (Remote.State.initial clock store) tr' s' ∧
      Mirrors services fresh tr s s') ?_ ?_ hissue
  · intro _
    refine ⟨[], _, .nil _, le_rfl, rfl, fun _ _ => rfl, ?_, by simp⟩
    intro t request stage h
    cases h
  · intro tr e s t hrun ih hstep hissue
    rw [List.forall_mem_append, List.forall_mem_singleton] at hissue
    obtain ⟨tr', s', hrun', hmirrors⟩ := ih hissue.1
    obtain ⟨tr'', t', hrun'', hmirrors'⟩ := hmirrors.step hissue.2 (fun e' he' reply hreply => by
      obtain ⟨k, hk⟩ := List.mem_iff_getElem?.mp he'
      exact Endpoints.answered_of_answer hrun hk hreply) hstep
    exact ⟨_, t', hrun'.append hrun'', hmirrors'⟩

/-- Every run of the endpoints of one process over the map is a run of instances
over the server that carries out the commands: with the same map at the end, and
with every answer given by the program of its request. -/
theorem process_is_a_schedule (services : Services N Key) (fresh : ℕ → String × Bytes) (clock : Int)
    (store : RedisMap) (tr : List (Endpoints.Event N Key)) (s : Endpoints.State N Key RedisMap)
    (hissue : ∀ e ∈ tr, ∀ challengeId nonce purpose, e.action = .issue challengeId nonce purpose →
      fresh e.task = (challengeId, nonce))
    (run : Run (Endpoints.Step services.shared) (Endpoints.State.initial clock store) tr s) :
    ∃ tr' s', Run (Step RedisMap.server services fresh) (Remote.State.initial clock store) tr' s' ∧
      s'.object = s.store ∧ ∀ e ∈ tr, ∀ reply, e.action = .answer reply →
        ∃ task, s'.tasks e.task = some task ∧
          task.program = program services (fresh e.task) e.request ∧
            task.rest = .done (.ok reply) := by
  obtain ⟨tr', s', hrun, hmirrors⟩ := mirrors_of_run services fresh clock store tr s hissue run
  refine ⟨tr', s', hrun, hmirrors.object, fun e he reply ha => ?_⟩
  obtain ⟨log, htask⟩ := hmirrors.answered e he reply ha
  exact ⟨_, htask, rfl, rfl⟩

/-- The enrolment of `phone` at an instance. -/
theorem process_is_a_schedule_phone : ∃ tr' s' task,
    Run (Step RedisMap.server Endpoints.attestedServices sampleFresh)
      (Remote.State.initial 50 RedisMap.blank) tr' s' ∧
    s'.tasks 1 = some task ∧ task.rest = .done (.ok (.enrolled 1)) := by
  obtain ⟨s, hrun, -⟩ := admission_shared Endpoints.attestedServices 50 Endpoints.phone rfl
    Endpoints.verify_phone
  obtain ⟨tr', s', hrun', -, hanswers⟩ :=
    process_is_a_schedule Endpoints.attestedServices sampleFresh 50 RedisMap.blank _ s
      (sampleFresh_admission _ _ _ _ rfl) hrun
  obtain ⟨task, htask, -, hrest⟩ := hanswers ⟨1, .enroll Endpoints.phone, 50, .answer (.enrolled 1)⟩
    (by simp [Endpoints.admission, Endpoints.enrolment]) _ rfl
  exact ⟨tr', s', task, hrun', htask, hrest⟩

end Runs

end EncryptionGateway.Attestation.Deployed
