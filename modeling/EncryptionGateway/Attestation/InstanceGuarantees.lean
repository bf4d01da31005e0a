import EncryptionGateway.Attestation.SharedStore

/-!
# What the instances guarantee together

A success on any instance spends a challenge that no other success spends; and
all the successes of a device that is not deleted are under the one key of its
one enrolment.

## Implementation notes

A success is read off the final state, in which the task has answered. Which
challenge it took and which key it read is read off the commands that Redis
carried out.
-/

namespace EncryptionGateway.Attestation.Deployed

open JavaScript Foundation UpstashKvStore

variable {N Key σ : Type} [JsNumber N] {u : Upstash N σ} {services : Services N Key}
  {fresh : ℕ → String × Bytes}

/-- The task served the request with the reply, which is a success. -/
def Succeeds (services : Services N Key) (fresh : ℕ → String × Bytes) (s : State N σ) (t : ℕ)
    (request : Request) (reply : Reply) : Prop :=
  Endpoints.successful reply = true ∧
    ∃ task, s.tasks t = some task ∧ task.program = program services (fresh t) request ∧
      task.rest = .done (.ok reply)

/-- The task takes the challenge with command `j`. It was issued for the purpose
before, is in its lifetime by the clock of Redis, and was not taken in between. -/
def Spends (services : Services N Key) (tr : List (Execution N)) (t j : ℕ)
    (challengeId purpose : String) (nonce : Bytes) : Prop :=
  ∃ (i : ℕ) (issue take : Execution N), i < j ∧ tr[i]? = some issue ∧
    Issues services issue challengeId nonce purpose ∧ tr[j]? = some take ∧ take.task = t ∧
    Takes take challengeId ∧ issue.now ≤ take.now ∧ take.now ≤ issue.now + CHALLENGE_TTL_MS ∧
    ∀ (k : ℕ) (e : Execution N), i < k → k < j → tr[k]? = some e → ¬ Takes e challengeId

/-- The task read the device. -/
def Loads (services : Services N Key) (tr : List (Execution N)) (t : ℕ) (deviceId : String)
    (device : EnrolledDevice N Key) : Prop :=
  ∃ load ∈ tr, load.task = t ∧ load.command = .GET (DeviceRegistry.key deviceId) ∧
    ∃ result, command load.result = .ok result ∧
      DeviceRegistry.restore services.platform (found result) = some device

/-- The request spends its challenge, and its signature of the nonce checks
under the key. -/
def SignedWith (services : Services N Key) (tr : List (Execution N)) (t : ℕ) (request : Request)
    (body : VerifyDeviceDto) (publicKey : Key) : Prop :=
  ∃ j purpose nonce, Endpoints.presents request = some (body.challengeId, purpose) ∧
    Spends services tr t j body.challengeId purpose nonce ∧
    services.verifySignature publicKey nonce (Base64.decode body.signature) = true

/-- The enrolment spends its challenge, its chain verifies for the nonce of that
challenge, and Redis accepts the record of the verified key for the device. -/
def EnrolledUnder (services : Services N Key) (tr : List (Execution N)) (t : ℕ)
    (body : EnrollDeviceDto) (publicKey : Key) : Prop :=
  ∃ now nonce securityLevel, services.verify now (body.certificateChain.map Base64.decode) nonce =
      .ok (publicKey, securityLevel) ∧
    (∃ j, Spends services tr t j body.challengeId "enroll" nonce) ∧
    ∃ store ∈ tr, store.task = t ∧
      store.command = setIfAbsent (DeviceRegistry.key body.deviceId)
        (DeviceRegistry.record services.platform
          ⟨publicKey, JsNumber.ofInt securityLevel, some now⟩) none ∧
      ∃ result, command store.result = .ok result ∧ UpstashKvStore.stored result = true

section Runs

variable {clock : Int} {store : σ} {tr : List (Option (Execution N))} {s : State N σ}

theorem Succeeds.path (sound : Remote.Sound (Starts services fresh) (Remote.executions tr) s)
    {t : ℕ} {request : Request} {reply : Reply} (h : Succeeds services fresh s t request reply) :
    ∃ task, s.tasks t = some task ∧
      Proc.Path (program services (fresh t) request) (task.log.map Prod.snd)
        (.done (.ok reply)) := by
  obtain ⟨-, task, htask, hprogram, hrest⟩ := h
  have hpath := (sound.accounted t task htask).path
  rw [hprogram, hrest] at hpath
  exact ⟨task, htask, hpath⟩

theorem sent_of_sound (sound : Remote.Sound (Starts services fresh) (Remote.executions tr) s)
    {e : Execution N} (he : e ∈ Remote.executions tr) : Sent services fresh e := by
  obtain ⟨task, -, ⟨request, hprogram⟩, honly⟩ := sound.owner he
  exact ⟨request, honly _ (hprogram ▸ only_program services (fresh e.task) request)⟩

/-- A redeemed challenge is spent. -/
theorem spends_of_redeems (hblank : ∀ key, u.map store key = none)
    (run : Run (Step u services fresh) (Remote.State.initial clock store) tr s) {t : ℕ}
    {task : Remote.Task Command (HttpReply N) (Except String Reply)} (htask : s.tasks t = some task)
    {request : Request} {challengeId purpose : String} {nonce : Bytes}
    (h : Redeems services request (task.log.map Prod.snd) challengeId purpose nonce) :
    ∃ j, Spends services (Remote.executions tr) t j challengeId purpose nonce := by
  have sound := Remote.sound_of_run run
  obtain ⟨-, response, result, hmem, hresult, hredeem⟩ := h
  obtain ⟨take, htake, ht, hcommand, hresponse⟩ := sound.execution htask hmem
  obtain ⟨j, hj⟩ := List.mem_iff_getElem?.mp htake
  rw [← hresponse] at hresult
  obtain ⟨i, issue, hi, hissue, hissues, hle, hlive, huntaken⟩ :=
    issued_of_redeemed hblank (fun e he => sent_of_sound sound he) (Remote.executions_run run) hj
      hcommand hresult hredeem
  exact ⟨j, i, issue, take, hi, hissue, hissues, hj, ht, ⟨hcommand, result, hresult⟩, hle, hlive,
    huntaken⟩

theorem loads_of_reads (run : Run (Step u services fresh) (Remote.State.initial clock store) tr s)
    {t : ℕ} {task : Remote.Task Command (HttpReply N) (Except String Reply)}
    (htask : s.tasks t = some task) {deviceId : String} {device : EnrolledDevice N Key}
    (h : Reads services (task.log.map Prod.snd) deviceId device) :
    Loads services (Remote.executions tr) t deviceId device := by
  obtain ⟨response, result, hmem, hresult, hrestore⟩ := h
  obtain ⟨load, hload, ht, hcommand, rfl⟩ := (Remote.sound_of_run run).execution htask hmem
  exact ⟨load, hload, ht, hcommand, result, hresult, hrestore⟩

/-- A success spends a challenge. -/
theorem Succeeds.spends (hblank : ∀ key, u.map store key = none)
    (run : Run (Step u services fresh) (Remote.State.initial clock store) tr s) {t : ℕ}
    {request : Request} {reply : Reply} (h : Succeeds services fresh s t request reply) :
    ∃ j challengeId purpose nonce, Endpoints.presents request = some (challengeId, purpose) ∧
      Spends services (Remote.executions tr) t j challengeId purpose nonce := by
  obtain ⟨task, htask, hpath⟩ := h.path (Remote.sound_of_run run)
  obtain ⟨challengeId, purpose, nonce, hredeems⟩ := success_redeems hpath h.1
  obtain ⟨j, hspends⟩ := spends_of_redeems hblank run htask hredeems
  exact ⟨j, challengeId, purpose, nonce, hredeems.1, hspends⟩

/-- A success that authenticates a device has loaded the key that its signature
checks under. -/
theorem Succeeds.signed (hblank : ∀ key, u.map store key = none)
    (run : Run (Step u services fresh) (Remote.State.initial clock store) tr s) {t : ℕ}
    {request : Request} {reply : Reply} (h : Succeeds services fresh s t request reply)
    {body : VerifyDeviceDto} (hauth : Endpoints.authenticates request = some body) :
    ∃ device, Loads services (Remote.executions tr) t body.deviceId device ∧
      SignedWith services (Remote.executions tr) t request body device.publicKey := by
  obtain ⟨task, htask, hpath⟩ := h.path (Remote.sound_of_run run)
  obtain ⟨purpose, nonce, device, hredeems, hreads, hsigned⟩ :=
    success_authenticated hpath h.1 hauth
  obtain ⟨j, hspends⟩ := spends_of_redeems hblank run htask hredeems
  exact ⟨device, loads_of_reads run htask hreads, j, purpose, nonce, hredeems.1, hspends, hsigned⟩

/-- An enrolment that succeeds has stored the key of a chain that verified. -/
theorem Succeeds.stored (hblank : ∀ key, u.map store key = none)
    (run : Run (Step u services fresh) (Remote.State.initial clock store) tr s)
    {t : ℕ} {body : EnrollDeviceDto} {reply : Reply}
    (h : Succeeds services fresh s t (.enroll body) reply) :
    ∃ publicKey, EnrolledUnder services (Remote.executions tr) t body publicKey := by
  have sound := Remote.sound_of_run run
  obtain ⟨task, htask, hpath⟩ := h.path sound
  obtain ⟨now, nonce, publicKey, securityLevel, -, hredeems, hverify, response, result, hmem,
    hresult, hstored⟩ := success_enroll hpath h.1
  obtain ⟨e, he, ht, hcommand, rfl⟩ := sound.execution htask hmem
  exact ⟨publicKey, now, nonce, securityLevel, hverify, spends_of_redeems hblank run htask hredeems,
    e, he, ht, hcommand, result, hresult, hstored⟩

/-- A challenge is issued by one command at most. -/
theorem issued_once (hfresh : Function.Injective fun t => (fresh t).1)
    (sound : Remote.Sound (Starts services fresh) (Remote.executions tr) s) {i i' : ℕ}
    {issue issue' : Execution N} (hi : (Remote.executions tr)[i]? = some issue)
    (hi' : (Remote.executions tr)[i']? = some issue') {challengeId purpose purpose' : String}
    {nonce nonce' : Bytes} (h : Issues services issue challengeId nonce purpose)
    (h' : Issues services issue' challengeId nonce' purpose') : i = i' := by
  have hmem := List.mem_of_getElem? hi
  have hmem' := List.mem_of_getElem? hi'
  have hid := ((sent_of_sound sound hmem).issues h).1
  have hid' := ((sent_of_sound sound hmem').issues h').1
  have htask : issue'.task = issue.task := hfresh (hid'.symm.trans hid)
  -- its task asked for one challenge and nothing else
  obtain ⟨task, hat, ⟨request, hprogram⟩, honly⟩ := sound.owner hmem
  have hsends := honly _ (hprogram ▸ only_program services (fresh issue.task) request)
  rw [show issue.command = _ from h] at hsends
  have hpurpose : ∃ purpose, request = .challenge purpose := by
    generalize hc : UpstashKvStore.set (ChallengeStore.key challengeId)
      (ChallengeStore.record services.platform nonce purpose) (some CHALLENGE_TTL_MS) = c at hsends
    cases hsends with
    | issue purpose => exact ⟨purpose, rfl⟩
    | enrol _ =>
        simp only [UpstashKvStore.set, setIfAbsent, Command.SET.injEq] at hc
        exact absurd hc.1 (challengeKey_ne_deviceKey _ _)
    | _ => cases hc
  obtain ⟨asked, rfl⟩ := hpurpose
  have hsame := sound.once hat hprogram (fun now outcome => by
    split
    · exact ⟨_, rfl⟩
    · exact ⟨_, rfl⟩) hmem hmem' rfl htask
  subst hsame
  exact (List.getElem?_inj (lt_length_of_at hi) sound.distinct.of_map).mp (hi.trans hi'.symm)

/-- A challenge that was taken was issued anew before it is taken again. -/
theorem Spends.later {e : List (Execution N)} {t t' j j' : ℕ}
    {challengeId purpose purpose' : String} {nonce nonce' : Bytes}
    (h : Spends services e t j challengeId purpose nonce)
    (h' : Spends services e t' j' challengeId purpose' nonce') (hlt : j < j') :
    ∃ (i i' : ℕ) (issue issue' : Execution N), i < i' ∧ e[i]? = some issue ∧
      Issues services issue challengeId nonce purpose ∧ e[i']? = some issue' ∧
      Issues services issue' challengeId nonce' purpose' := by
  obtain ⟨i, issue, take, hi, hissue, hissues, htake, -, htakes, -⟩ := h
  obtain ⟨i', issue', take', hi', hissue', hissues', -, -, -, -, -, huntaken⟩ := h'
  refine ⟨i, i', issue, issue', ?_, hissue, hissues, hissue', hissues'⟩
  by_contra hle
  exact huntaken j take (by omega) hlt htake htakes

theorem spent_once (hfresh : Function.Injective fun t => (fresh t).1)
    (sound : Remote.Sound (Starts services fresh) (Remote.executions tr) s) {t t' j j' : ℕ}
    {challengeId purpose purpose' : String} {nonce nonce' : Bytes}
    (h : Spends services (Remote.executions tr) t j challengeId purpose nonce)
    (h' : Spends services (Remote.executions tr) t' j' challengeId purpose' nonce') : t = t' := by
  rcases Nat.lt_trichotomy j j' with hlt | rfl | hgt
  · obtain ⟨i, i', issue, issue', hne, hissue, hissues, hissue', hissues'⟩ := h.later h' hlt
    exact absurd (issued_once hfresh sound hissue hissue' hissues hissues') (Nat.ne_of_lt hne)
  · obtain ⟨_, _, take, -, -, -, htake, ht, -⟩ := h
    obtain ⟨_, _, take', -, -, -, htake', ht', -⟩ := h'
    rw [htake] at htake'
    cases htake'
    exact ht.symm.trans ht'
  · obtain ⟨i, i', issue, issue', hne, hissue, hissues, hissue', hissues'⟩ := h'.later h hgt
    exact absurd (issued_once hfresh sound hissue hissue' hissues hissues') (Nat.ne_of_lt hne)

/-- A deletion is carried out for a request to delete only. -/
theorem deletes_of_command {request : Request} {fresh : String × Bytes} {deviceId : String}
    (h : Sends services fresh request (.DEL (DeviceRegistry.key deviceId))) :
    ∃ deviceId, request = .delete deviceId := by
  generalize hc : Command.DEL (DeviceRegistry.key deviceId) = c at h
  cases h with
  | delete deviceId => exact ⟨deviceId, rfl⟩
  | _ => cases hc

/-- A run of instances that follows a process which is asked for no deletion
deletes nothing. -/
theorem not_deleted {events : List (Endpoints.Event N Key)} {e : Endpoints.State N Key RedisMap}
    {tr : List (Option (Execution N))} {s : State N RedisMap}
    (run : Run (Step RedisMap.server services fresh)
      (Remote.State.initial clock RedisMap.blank) tr s)
    (hmirrors : Mirrors services fresh events e s)
    (hrequests : ∀ t, e.tasks t = none ∨ ∃ request stage, e.tasks t = some (request, stage) ∧
      (∀ deviceId, request ≠ .delete deviceId) ∧
      (stage = .answered → ∃ l ∈ events, l.task = t ∧ l.request = request ∧
        ∃ reply, l.action = .answer reply)) :
    ∀ l ∈ Remote.executions tr, ∀ deviceId, l.command ≠ .DEL (DeviceRegistry.key deviceId) := by
  intro l hl deviceId hdelete
  obtain ⟨task, htask, -, honly⟩ := (Remote.sound_of_run run).owner hl
  rcases hrequests l.task with hfree | ⟨request, stage, hat, hkept, hanswered⟩
  · rw [hmirrors.free l.task hfree] at htask
    cases htask
  · have hprogram : task.program = program services (fresh l.task) request := by
      by_cases hstage : stage = .answered
      · obtain ⟨event, hevent, ht, rfl, reply, hreply⟩ := hanswered hstage
        obtain ⟨log, hdone⟩ := hmirrors.answered event hevent reply hreply
        rw [ht, htask] at hdone
        cases hdone
        rfl
      · obtain ⟨log, n, c, resume, response, rest, hwaits, -⟩ := hmirrors.waiting _ _ _ hat hstage
        rw [htask] at hwaits
        cases hwaits
        rfl
    obtain ⟨deviceId', rfl⟩ := deletes_of_command
      (hdelete ▸ honly _ (hprogram ▸ only_program services (fresh l.task) request))
    exact hkept deviceId' rfl

/-- A second later the device `phone` is given the next challenge. -/
def phoneReturn : Endpoints.Login := ⟨1000, Endpoints.uuid 2, [7], Base64.encode [2, 7]⟩

/-- A sample run: the device `phone` enrols and logs in, and nothing is deleted. -/
theorem phone_returns : ∃ tr s, Run (Step RedisMap.server Endpoints.attestedServices sampleFresh)
      (Remote.State.initial 50 RedisMap.blank) tr s ∧
    Succeeds Endpoints.attestedServices sampleFresh s 1 (.enroll Endpoints.phone) (.enrolled 1) ∧
    Succeeds Endpoints.attestedServices sampleFresh s 3 (.verify (phoneReturn.body "phone"))
      .verified ∧
    ∀ e ∈ Remote.executions tr, ∀ deviceId, e.command ≠ .DEL (DeviceRegistry.key deviceId) := by
  obtain ⟨t, hadmission, hclock, hholds, hissued, henrolled, hfree⟩ :=
    admission_shared Endpoints.attestedServices 50 Endpoints.phone rfl Endpoints.verify_phone
  have hsigned : Endpoints.attestedServices.verifySignature 2 phoneReturn.nonce
      (Base64.decode phoneReturn.signature) = true := by
    simp only [phoneReturn, Base64.decode_encode]
    rfl
  obtain ⟨e, hlogin, htasks⟩ := login_shared Endpoints.attestedServices phoneReturn rfl hfree hholds
    rfl hsigned
  have hfresh : ∀ l ∈ (Endpoints.admission Endpoints.phone 50 [7] 2 1 ++
      phoneReturn.events 2 "phone" (Endpoints.restored Endpoints.attestedServices ⟨2, 1, some 50⟩)
        (t.clock + phoneReturn.wait) : List (Endpoints.Event ℤ UInt8)), ∀ challengeId nonce purpose,
      l.action = .issue challengeId nonce purpose → sampleFresh l.task = (challengeId, nonce) := by
    rw [List.forall_mem_append]
    exact ⟨sampleFresh_admission _ _ _ _ rfl, sampleFresh_login phoneReturn _ _ _ _ rfl⟩
  obtain ⟨tr, s, hrun, hmirrors⟩ := mirrors_of_run Endpoints.attestedServices sampleFresh 50
    RedisMap.blank _ e hfresh (hadmission.append hlogin)
  obtain ⟨log, hbound⟩ := hmirrors.answered ⟨1, .enroll Endpoints.phone, 50, .answer (.enrolled 1)⟩
    (by simp [Endpoints.admission, Endpoints.enrolment]) _ rfl
  obtain ⟨log', hverified⟩ := hmirrors.answered
    ⟨3, .verify (phoneReturn.body "phone"), t.clock + phoneReturn.wait, .answer .verified⟩
    (by simp [Endpoints.Login.events]) _ rfl
  refine ⟨tr, s, hrun, ⟨rfl, _, hbound, rfl, rfl⟩, ⟨rfl, _, hverified, rfl, rfl⟩,
    not_deleted hrun hmirrors ?_⟩
  intro i
  rw [htasks]
  rcases i with _ | _ | _ | _ | i
  · exact Or.inr ⟨.challenge none, _, hissued, by simp, by simp⟩
  · exact Or.inr ⟨.enroll Endpoints.phone, _, henrolled, by simp, fun _ =>
      ⟨⟨1, .enroll Endpoints.phone, 50, .answer (.enrolled 1)⟩,
        by simp [Endpoints.admission, Endpoints.enrolment], rfl, rfl, _, rfl⟩⟩
  · exact Or.inr ⟨.challenge (some "verify"), _, rfl, by simp, fun _ =>
      ⟨⟨2, .challenge (some "verify"), t.clock + phoneReturn.wait,
        .answer (.challenge phoneReturn.challengeId (Base64.encode phoneReturn.nonce))⟩,
        by simp [Endpoints.Login.events], rfl, rfl, _, rfl⟩⟩
  · exact Or.inr ⟨.verify (phoneReturn.body "phone"), _, rfl, by simp, fun _ =>
      ⟨⟨3, .verify (phoneReturn.body "phone"), t.clock + phoneReturn.wait, .answer .verified⟩,
        by simp [Endpoints.Login.events], rfl, rfl, _, rfl⟩⟩
  · left
    simp [hfree]

/-- Whichever instances serve the requests, and whatever is lost between them and
Redis: a success spends a challenge issued for its purpose within its lifetime,
an authentication is signed with a key loaded for the device, and no two
successes present one challenge. -/
theorem successes_spend_apart (u : Upstash N σ) (services : Services N Key)
    (fresh : ℕ → String × Bytes) (clock : Int) (store : σ) (tr : List (Option (Execution N)))
    (s : State N σ) (hblank : ∀ key, u.map store key = none)
    (hfresh : Function.Injective fun t => (fresh t).1)
    (run : Run (Step u services fresh) (Remote.State.initial clock store) tr s) :
    (∀ t request reply, Succeeds services fresh s t request reply →
      (∃ j challengeId purpose nonce, Endpoints.presents request = some (challengeId, purpose) ∧
        Spends services (Remote.executions tr) t j challengeId purpose nonce) ∧
      ∀ body, Endpoints.authenticates request = some body →
        ∃ device, Loads services (Remote.executions tr) t body.deviceId device ∧
          SignedWith services (Remote.executions tr) t request body device.publicKey) ∧
    ∀ t request reply t' request' reply' challengeId purpose purpose',
      Succeeds services fresh s t request reply → Succeeds services fresh s t' request' reply' →
      Endpoints.presents request = some (challengeId, purpose) →
      Endpoints.presents request' = some (challengeId, purpose') → t = t' := by
  refine ⟨fun t request reply h =>
    ⟨h.spends hblank run, fun body hauth => h.signed hblank run hauth⟩, ?_⟩
  intro t request reply t' request' reply' challengeId purpose purpose' h h' hpresents hpresents'
  obtain ⟨j, challengeId₁, purpose₁, nonce, hpresents₁, hspends⟩ := h.spends hblank run
  obtain ⟨j', challengeId₂, purpose₂, nonce', hpresents₂, hspends'⟩ := h'.spends hblank run
  rw [hpresents] at hpresents₁
  rw [hpresents'] at hpresents₂
  cases hpresents₁
  cases hpresents₂
  exact spent_once hfresh (Remote.sound_of_run run) hspends hspends'

/-- The enrolment and the login of `phone` spend two challenges. -/
theorem successes_spend_apart_phone : ∃ tr s, Run (Step RedisMap.server Endpoints.attestedServices
      sampleFresh) (Remote.State.initial 50 RedisMap.blank) tr s ∧
    (∃ j challengeId purpose nonce,
      Endpoints.presents (.enroll Endpoints.phone) = some (challengeId, purpose) ∧
      Spends Endpoints.attestedServices (Remote.executions tr) 1 j challengeId purpose nonce) ∧
    (∃ device, Loads Endpoints.attestedServices (Remote.executions tr) 3 "phone" device ∧
      SignedWith Endpoints.attestedServices (Remote.executions tr) 3
        (.verify (phoneReturn.body "phone")) (phoneReturn.body "phone") device.publicKey) ∧
    Endpoints.phone.challengeId ≠ phoneReturn.challengeId := by
  obtain ⟨tr, s, hrun, henrols, hverifies, -⟩ := phone_returns
  obtain ⟨hspends, hapart⟩ := successes_spend_apart RedisMap.server Endpoints.attestedServices
    sampleFresh 50 RedisMap.blank tr s (fun _ => rfl) Endpoints.uuid_injective hrun
  refine ⟨tr, s, hrun, (hspends 1 _ _ henrols).1, (hspends 3 _ _ hverifies).2 _ rfl, ?_⟩
  intro heq
  have h := hapart 1 _ _ 3 _ _ phoneReturn.challengeId "enroll" "verify" henrols hverifies
    (congrArg (fun id => some (id, "enroll")) heq) rfl
  cases h

/-- While no deletion of it is carried out, a device has one key: every
authentication is signed with it, and the one enrolment that succeeds has stored
it, for a chain that attests it and a challenge of its own. -/
theorem one_key_per_device (u : Upstash N σ) (services : Services N Key)
    (fresh : ℕ → String × Bytes) (clock : Int) (store : σ) (tr : List (Option (Execution N)))
    (s : State N σ) (deviceId : String) (hblank : ∀ key, u.map store key = none)
    (hkept : ∀ e ∈ Remote.executions tr, e.command ≠ .DEL (DeviceRegistry.key deviceId))
    (run : Run (Step u services fresh) (Remote.State.initial clock store) tr s) :
    (∃ publicKey : Option Key,
      (∀ t request reply body, Succeeds services fresh s t request reply →
        Endpoints.authenticates request = some body → body.deviceId = deviceId →
        ∃ key ∈ publicKey, SignedWith services (Remote.executions tr) t request body key) ∧
      ∀ t body reply, Succeeds services fresh s t (.enroll body) reply → body.deviceId = deviceId →
        ∃ key ∈ publicKey, EnrolledUnder services (Remote.executions tr) t body key) ∧
    ∀ t body reply t' body' reply', Succeeds services fresh s t (.enroll body) reply →
      Succeeds services fresh s t' (.enroll body') reply' → body.deviceId = deviceId →
      body'.deviceId = deviceId → t = t' := by
  have sound := Remote.sound_of_run run
  have hsent : ∀ e ∈ Remote.executions tr, Sent services fresh e := fun _ => sent_of_sound sound
  have hrun := Remote.executions_run run
  have hbound := bound_of_run hblank hsent hkept hrun
  refine ⟨⟨(DeviceRegistry.restore services.platform
    ((u.map s.object (DeviceRegistry.key deviceId)).map Entry.value)).map EnrolledDevice.publicKey,
    ?_, ?_⟩, ?_⟩
  · rintro t request reply body h hauth rfl
    obtain ⟨device, ⟨load, hload, -, hcommand, result, hresult, hrestore⟩, hsigned⟩ :=
      h.signed hblank run hauth
    obtain ⟨text, htext⟩ := DeviceRegistry.restore_eq_some hrestore
    have hcell := hbound.seen load hload text ⟨result, hresult, Or.inl ⟨hcommand, htext⟩⟩
    rw [htext] at hrestore
    exact ⟨device.publicKey, by simp [hcell, hrestore], hsigned⟩
  · rintro t body reply h rfl
    obtain ⟨publicKey, hunder⟩ := h.stored hblank run
    have ⟨now, nonce, securityLevel, _, _, e, he, _, hcommand, result, hresult, hstored⟩ := hunder
    have hcell := hbound.seen e he _ ⟨result, hresult, Or.inr ⟨hcommand, hstored⟩⟩
    have hfinite : (JsNumber.finiteValue (JsNumber.ofInt securityLevel : N)).isSome := by
      rw [JsNumber.finiteValue_ofInt]
      rfl
    refine ⟨publicKey, ?_, hunder⟩
    rw [hcell, Option.map_some, DeviceRegistry.restore_record _ _ hfinite]
    rfl
  · rintro t body reply t' body' reply' h h' rfl hdevice
    obtain ⟨_, _, _, _, -, -, e, he, rfl, hcommand, result, hresult, hstored⟩ := h.stored hblank run
    obtain ⟨_, _, _, _, -, -, e', he', rfl, hcommand', result', hresult', hstored'⟩ :=
      h'.stored hblank run
    rw [hdevice] at hcommand'
    obtain ⟨j, hj⟩ := List.mem_iff_getElem?.mp he
    obtain ⟨j', hj'⟩ := List.mem_iff_getElem?.mp he'
    rcases Nat.lt_trichotomy j j' with hlt | rfl | hgt
    · have hrefused := accepted_once hblank hsent hkept hrun hj' hj hlt
        ⟨result, hresult, Or.inr ⟨hcommand, hstored⟩⟩ hcommand' hresult'
      rw [hrefused] at hstored'
      cases hstored'
    · rw [hj] at hj'
      cases hj'
      rfl
    · have hrefused := accepted_once hblank hsent hkept hrun hj hj' hgt
        ⟨result', hresult', Or.inr ⟨hcommand', hstored'⟩⟩ hcommand hresult
      rw [hrefused] at hstored
      cases hstored

/-- The login of `phone` is signed with the key that its enrolment stored. -/
theorem one_key_per_device_phone : ∃ tr s key, Run (Step RedisMap.server Endpoints.attestedServices
      sampleFresh) (Remote.State.initial 50 RedisMap.blank) tr s ∧
    EnrolledUnder Endpoints.attestedServices (Remote.executions tr) 1 Endpoints.phone key ∧
    SignedWith Endpoints.attestedServices (Remote.executions tr) 3
      (.verify (phoneReturn.body "phone")) (phoneReturn.body "phone") key := by
  obtain ⟨tr, s, hrun, henrols, hverifies, hkept⟩ := phone_returns
  obtain ⟨⟨publicKey, hsigned, hstored⟩, -⟩ := one_key_per_device RedisMap.server
    Endpoints.attestedServices sampleFresh 50 RedisMap.blank tr s "phone" (fun _ => rfl)
    (fun e he => hkept e he "phone") hrun
  obtain ⟨key, hkey, hunder⟩ := hstored 1 _ _ henrols rfl
  obtain ⟨key', hkey', hunder'⟩ := hsigned 3 _ _ _ hverifies rfl rfl
  obtain rfl := Option.mem_unique hkey hkey'
  exact ⟨tr, s, key, hrun, hunder, hunder'⟩

end Runs

end EncryptionGateway.Attestation.Deployed
