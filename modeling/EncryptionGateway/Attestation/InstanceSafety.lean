import EncryptionGateway.Attestation.SharedInstances

/-!
# Safety across instances

However many instances share the store and whichever requests, replies and
instances are lost: a challenge serves one success, within its lifetime and for
its purpose; and while no deletion is carried out, one key speaks for a device.
-/

namespace EncryptionGateway.Attestation.Deployed

open JavaScript Foundation UpstashKvStore

variable {N Key σ : Type} [JsNumber N] {u : Upstash N σ} {services : Services N Key}
  {fresh : ℕ → String × Bytes}

section Store

variable {s s' : Int × σ} {e : Execution N}

omit [JsNumber N] in
theorem found_replyValue (value : Option String) :
    found (RedisMap.replyValue (N := N) value) = value := by
  cases value <;> rfl

/-- What is under a key after a command was written by it or was there before. -/
theorem perform_cell {now : Int} {c : Command} {m : RedisMap} {key : String} {entry : Entry}
    (h : (RedisMap.perform (N := N) now c m).2 key = some entry) :
    (∃ value PX NX, c = .SET key value PX NX ∧ entry = ⟨value, expiry now PX⟩) ∨
      (m key = some entry ∧ c ≠ .GETDEL key ∧ c ≠ .DEL key) := by
  cases c with
  | GET _ => exact Or.inr ⟨h, nofun, nofun⟩
  | SET key' value PX NX =>
      simp only [RedisMap.perform] at h
      split at h
      · exact Or.inr ⟨h, nofun, nofun⟩
      · by_cases hkey : key = key'
        · subst hkey
          simp only [Function.update_self, Option.some.injEq] at h
          exact Or.inl ⟨value, PX, NX, rfl, h.symm⟩
        · simp only [Function.update_of_ne hkey] at h
          exact Or.inr ⟨h, nofun, nofun⟩
  | GETDEL key' =>
      by_cases hkey : key = key'
      · subst hkey
        simp [RedisMap.perform] at h
      · simp only [RedisMap.perform, Function.update_of_ne hkey] at h
        exact Or.inr ⟨h, fun heq => hkey (Command.GETDEL.inj heq).symm, nofun⟩
  | DEL key' =>
      by_cases hkey : key = key'
      · subst hkey
        simp [RedisMap.perform] at h
      · simp only [RedisMap.perform, Function.update_of_ne hkey] at h
        exact Or.inr ⟨h, nofun, fun heq => hkey (Command.DEL.inj heq).symm⟩

/-- A value without expiry stays under its key until a command removes or
replaces it. -/
theorem perform_keeps {now : Int} {c : Command} {m : RedisMap} {key value : String}
    (h : m key = some ⟨value, none⟩) (hset : ∀ value' PX, c ≠ .SET key value' PX false)
    (hgetdel : c ≠ .GETDEL key) (hdel : c ≠ .DEL key) :
    (RedisMap.perform (N := N) now c m).2 key = some ⟨value, none⟩ := by
  have hread : m.read now key = some value := by simp [RedisMap.read, h, expired]
  cases c with
  | GET _ => exact h
  | SET key' value' PX NX =>
      simp only [RedisMap.perform]
      split
      · exact h
      · next hfree =>
          by_cases hkey : key = key'
          · subst hkey
            cases NX with
            | false => exact absurd rfl (hset value' PX)
            | true => exact absurd ⟨rfl, by rw [hread]; rfl⟩ hfree
          · simp only [Function.update_of_ne hkey]
            exact h
  | GETDEL key' =>
      have hkey : key ≠ key' := fun heq => hgetdel (by rw [heq])
      simp only [RedisMap.perform, Function.update_of_ne hkey]
      exact h
  | DEL key' =>
      have hkey : key ≠ key' := fun heq => hdel (by rw [heq])
      simp only [RedisMap.perform, Function.update_of_ne hkey]
      exact h

theorem Executes.map_cases (h : Executes u s e s') :
    u.map s'.2 = (RedisMap.perform (N := N) e.now e.command (u.map s.2)).2 ∨
      (u.map s'.2 = u.map s.2 ∧ ∀ result, command e.result ≠ .ok result) := by
  have hexec := u.executes e.now e.command s.2
  rwa [show u.exec e.now e.command.words s.2 = (e.result, s'.2) from h.2.2] at hexec

theorem Executes.result_eq (h : Executes u s e s') {result : Option (Json N)}
    (hresult : command e.result = .ok result) :
    result = (RedisMap.perform e.now e.command (u.map s.2)).1 := by
  have hexec : u.exec e.now e.command.words s.2 = (e.result, s'.2) := h.2.2
  exact u.answers (by rw [hexec]; exact hresult)

/-- What one execution can put under a key, and what it cannot leave there. -/
theorem Executes.cell (h : Executes u s e s') {key : String} {entry : Entry}
    (hcell : u.map s'.2 key = some entry) :
    (∃ value PX NX, e.command = .SET key value PX NX ∧ entry = ⟨value, expiry e.now PX⟩) ∨
      (u.map s.2 key = some entry ∧ ∀ result, command e.result = .ok result →
        e.command ≠ .GETDEL key ∧ e.command ≠ .DEL key) := by
  rcases h.map_cases with hmap | ⟨hmap, hfailed⟩
  · rw [hmap] at hcell
    exact (perform_cell hcell).imp_right fun ⟨hold, hkept⟩ => ⟨hold, fun _ _ => hkept⟩
  · rw [hmap] at hcell
    exact Or.inr ⟨hcell, fun result hok => absurd hok (hfailed result)⟩

end Store

/-- The command of the execution is one that a request of its task sends. -/
def Sent (services : Services N Key) (fresh : ℕ → String × Bytes) (e : Execution N) : Prop :=
  ∃ request, Sends services (fresh e.task) request e.command

/-- The execution writes the challenge. -/
def Issues (services : Services N Key) (e : Execution N) (challengeId : String) (nonce : Bytes)
    (purpose : String) : Prop :=
  e.command = set (ChallengeStore.key challengeId)
    (ChallengeStore.record services.platform nonce purpose) (some CHALLENGE_TTL_MS)

/-- The execution takes the challenge out of the store, and says so. -/
def Takes (e : Execution N) (challengeId : String) : Prop :=
  e.command = .GETDEL (ChallengeStore.key challengeId) ∧ ∃ result, command e.result = .ok result

/-- Every challenge in the store was issued and not taken since. -/
def ChallengeTexts (services : Services N Key) (tr : List (Execution N)) (m : RedisMap) : Prop :=
  ∀ challengeId entry, m (ChallengeStore.key challengeId) = some entry →
    ∃ i e nonce purpose, tr[i]? = some e ∧ Issues services e challengeId nonce purpose ∧
      entry = ⟨ChallengeStore.record services.platform nonce purpose,
        some (e.now + CHALLENGE_TTL_MS)⟩ ∧
      ∀ (j : ℕ) (e' : Execution N), i < j → tr[j]? = some e' → ¬ Takes e' challengeId

section Challenges

variable {s s' : Int × σ} {tr : List (Execution N)} {e : Execution N} {clock : Int} {store : σ}

/-- What is written under the key of a challenge is that challenge. -/
theorem Sent.issues (h : Sent services fresh e) {challengeId value : String} {PX : Option Int}
    {NX : Bool} (hcommand : e.command = .SET (ChallengeStore.key challengeId) value PX NX) :
    challengeId = (fresh e.task).1 ∧ ∃ purpose,
      Issues services e challengeId (fresh e.task).2 purpose ∧
      value = ChallengeStore.record services.platform (fresh e.task).2 purpose ∧
      PX = some CHALLENGE_TTL_MS := by
  obtain ⟨request, hsends⟩ := h
  simp only [Issues]
  generalize e.command = c at hcommand hsends
  cases hsends with
  | issue purpose =>
      simp only [UpstashKvStore.set, Command.SET.injEq] at hcommand
      obtain ⟨hkey, rfl, rfl, -⟩ := hcommand
      obtain rfl := ChallengeStore.key_injective hkey
      exact ⟨rfl, _, rfl, rfl, rfl⟩
  | enrol _ =>
      simp only [setIfAbsent, Command.SET.injEq] at hcommand
      exact absurd hcommand.1.symm (challengeKey_ne_deviceKey _ _)
  | _ => cases hcommand

theorem ChallengeTexts.step (h : ChallengeTexts services tr (u.map s.2))
    (hsent : Sent services fresh e) (hstep : Executes u s e s') :
    ChallengeTexts services (tr ++ [e]) (u.map s'.2) := by
  intro challengeId entry hcell
  rcases hstep.cell hcell with ⟨value, PX, NX, hcommand, rfl⟩ | ⟨hold, hkept⟩
  · obtain ⟨-, purpose, hissues, rfl, rfl⟩ := hsent.issues hcommand
    refine ⟨tr.length, e, _, purpose, at_last, hissues, rfl, ?_⟩
    intro j e' hj hat
    have hlt := lt_length_of_at hat
    rw [List.length_append, List.length_singleton] at hlt
    omega
  · obtain ⟨i, e₀, nonce, purpose, hat, hissues, hentry, htaken⟩ := h challengeId entry hold
    refine ⟨i, e₀, nonce, purpose, at_append hat _, hissues, hentry, ?_⟩
    intro j e' hj hat'
    rcases at_snoc_iff.mp hat' with hat' | ⟨-, rfl⟩
    · exact htaken j e' hj hat'
    · rintro ⟨hgetdel, result, hresult⟩
      exact (hkept result hresult).1 hgetdel

theorem challengeTexts_of_run (hblank : ∀ key, u.map store key = none)
    (hsent : ∀ e ∈ tr, Sent services fresh e)
    (run : Run (Executes u) (clock, store) tr s) :
    ChallengeTexts services tr (u.map s.2) := by
  refine run.snoc_induction (motive := fun tr s => (∀ e ∈ tr, Sent services fresh e) →
    ChallengeTexts services tr (u.map s.2)) ?_ ?_ hsent
  · intro _ challengeId entry hcell
    rw [hblank] at hcell
    cases hcell
  · intro tr e s s' _ ih hstep hsent
    rw [List.forall_mem_append, List.forall_mem_singleton] at hsent
    exact (ih hsent.1).step hsent.2 hstep

/-- A challenge that was redeemed had been issued for the purpose, was in time
and not taken in between. -/
theorem issued_of_redeemed (hblank : ∀ key, u.map store key = none)
    (hsent : ∀ e ∈ tr, Sent services fresh e)
    (run : Run (Executes u) (clock, store) tr s) {j : ℕ} (hat : tr[j]? = some e)
    {challengeId purpose : String} {nonce : Bytes} {result : Option (Json N)}
    (hcommand : e.command = .GETDEL (ChallengeStore.key challengeId))
    (hresult : command e.result = .ok result)
    (hredeemed : ChallengeStore.redeem services.platform (found result) purpose = some nonce) :
    ∃ i issue, i < j ∧ tr[i]? = some issue ∧ Issues services issue challengeId nonce purpose ∧
      issue.now ≤ e.now ∧ e.now ≤ issue.now + CHALLENGE_TTL_MS ∧
      ∀ (i' : ℕ) (e' : Execution N), i < i' → i' < j → tr[i']? = some e' →
        ¬ Takes e' challengeId := by
  obtain ⟨pre, post, rfl, rfl⟩ := split_at hat
  obtain ⟨t, t', hpre, hstep, -⟩ := run.at_label
  have htexts := challengeTexts_of_run hblank
    (fun e he => hsent e (List.mem_append_left _ he)) hpre
  have hread : found result = (u.map t.2).read e.now (ChallengeStore.key challengeId) := by
    rw [hstep.result_eq hresult, hcommand]
    exact found_replyValue _
  obtain ⟨text, htext⟩ := ChallengeStore.redeem_eq_some hredeemed
  rw [htext] at hread hredeemed
  obtain ⟨entry, hcell, hlive⟩ := Option.bind_eq_some_iff.mp hread.symm
  obtain ⟨i, issue, nonce', purpose', hissue, hissues, rfl, htaken⟩ :=
    htexts challengeId entry hcell
  split at hlive
  · cases hlive
  · next hfresh =>
      obtain rfl := Option.some.inj hlive
      rw [ChallengeStore.redeem_record] at hredeemed
      split at hredeemed
      · next hpurpose =>
          obtain rfl := Option.some.inj hredeemed
          subst hpurpose
          refine ⟨i, issue, lt_length_of_at hissue, at_append hissue _, hissues, ?_, ?_, ?_⟩
          · exact (Remote.ExecStep.now_le hpre (List.mem_of_getElem? hissue)).trans hstep.1
          · simpa [expired] using hfresh
          · intro i' e' hi hi' hat'
            rw [List.getElem?_append_left hi'] at hat'
            exact htaken i' e' hi hat'
      · cases hredeemed

end Challenges

section Bindings

variable {s s' : Int × σ} {tr : List (Execution N)} {e : Execution N} {clock : Int} {store : σ}
  {deviceId : String}

/-- The execution found the text under the key of the device, or put it there. -/
def Observes (e : Execution N) (deviceId text : String) : Prop :=
  ∃ result, command e.result = .ok result ∧
    (e.command = .GET (DeviceRegistry.key deviceId) ∧ found result = some text ∨
      e.command = setIfAbsent (DeviceRegistry.key deviceId) text none ∧ stored result = true)

/-- What is under the key of the device has no expiry and is all that was seen there. -/
structure Bound (tr : List (Execution N)) (deviceId : String) (m : RedisMap) : Prop where
  lasting : ∀ entry, m (DeviceRegistry.key deviceId) = some entry → entry.expiresAt = none
  seen : ∀ e ∈ tr, ∀ text, Observes e deviceId text →
    m (DeviceRegistry.key deviceId) = some ⟨text, none⟩

/-- What is written under the key of a device is written if the key is free, and
without expiry. -/
theorem Sent.enrols (h : Sent services fresh e) {value : String} {PX : Option Int} {NX : Bool}
    (hcommand : e.command = .SET (DeviceRegistry.key deviceId) value PX NX) :
    PX = none ∧ NX = true := by
  obtain ⟨request, hsends⟩ := h
  generalize e.command = c at hcommand hsends
  cases hsends with
  | issue purpose =>
      simp only [UpstashKvStore.set, Command.SET.injEq] at hcommand
      exact absurd hcommand.1 (challengeKey_ne_deviceKey _ _)
  | enrol _ =>
      simp only [setIfAbsent, Command.SET.injEq] at hcommand
      exact ⟨hcommand.2.2.1.symm, hcommand.2.2.2.symm⟩
  | _ => cases hcommand

theorem Sent.not_taken (h : Sent services fresh e) :
    e.command ≠ .GETDEL (DeviceRegistry.key deviceId) := by
  obtain ⟨request, hsends⟩ := h
  intro hcommand
  generalize e.command = c at hcommand hsends
  cases hsends with
  | consume _ => exact challengeKey_ne_deviceKey _ _ (Command.GETDEL.inj hcommand)
  | _ => cases hcommand

/-- Without a deletion, what is under the key of a device stays there. -/
theorem kept_of_step (hsent : Sent services fresh e) (hstep : Executes u s e s')
    (hdelete : e.command ≠ .DEL (DeviceRegistry.key deviceId)) {text : String}
    (h : u.map s.2 (DeviceRegistry.key deviceId) = some ⟨text, none⟩) :
    u.map s'.2 (DeviceRegistry.key deviceId) = some ⟨text, none⟩ := by
  rcases hstep.map_cases with hmap | ⟨hmap, -⟩
  · rw [hmap]
    refine perform_keeps h ?_ hsent.not_taken hdelete
    intro value PX hcommand
    cases (hsent.enrols hcommand).2
  · rw [hmap]
    exact h

/-- An execution that sees a text leaves it under the key. -/
theorem seen_of_step (hlasting : ∀ entry, u.map s.2 (DeviceRegistry.key deviceId) = some entry →
      entry.expiresAt = none)
    (hstep : Executes u s e s') {text : String} (h : Observes e deviceId text) :
    u.map s'.2 (DeviceRegistry.key deviceId) = some ⟨text, none⟩ := by
  obtain ⟨result, hresult, hcases⟩ := h
  have heq := hstep.result_eq hresult
  have hmap : u.map s'.2 = (RedisMap.perform (N := N) e.now e.command (u.map s.2)).2 := by
    rcases hstep.map_cases with hmap | ⟨-, hfailed⟩
    · exact hmap
    · exact absurd hresult (hfailed result)
  rcases hcases with ⟨hcommand, hfound⟩ | ⟨hcommand, hstored⟩
  · rw [hcommand] at heq hmap
    rw [heq, RedisMap.perform, found_replyValue] at hfound
    obtain ⟨entry, hcell, hlive⟩ := Option.bind_eq_some_iff.mp hfound
    have hnone := hlasting entry hcell
    obtain ⟨value, expiresAt⟩ := entry
    obtain rfl : expiresAt = none := hnone
    obtain rfl : value = text := Option.some.inj hlive
    rw [hmap]
    exact hcell
  · rw [hcommand] at heq hmap
    rw [heq] at hstored
    rw [hmap]
    simp only [setIfAbsent, Option.map_none, RedisMap.perform] at hstored ⊢
    split at hstored
    · cases hstored
    · next hfree =>
        rw [if_neg hfree]
        exact Function.update_self _ _ _

theorem Bound.step (h : Bound tr deviceId (u.map s.2)) (hsent : Sent services fresh e)
    (hdelete : e.command ≠ .DEL (DeviceRegistry.key deviceId))
    (hstep : Executes u s e s') : Bound (tr ++ [e]) deviceId (u.map s'.2) := by
  constructor
  · intro entry hcell
    rcases hstep.cell hcell with ⟨value, PX, NX, hcommand, rfl⟩ | ⟨hold, -⟩
    · rw [(hsent.enrols hcommand).1]
      rfl
    · exact h.lasting entry hold
  · intro e' he' text hobserves
    rcases List.mem_append.mp he' with he' | he'
    · exact kept_of_step hsent hstep hdelete (h.seen e' he' text hobserves)
    · rw [List.mem_singleton.mp he'] at hobserves
      exact seen_of_step h.lasting hstep hobserves

theorem bound_of_run (hblank : ∀ key, u.map store key = none)
    (hsent : ∀ e ∈ tr, Sent services fresh e)
    (hkept : ∀ e ∈ tr, e.command ≠ .DEL (DeviceRegistry.key deviceId))
    (run : Run (Executes u) (clock, store) tr s) : Bound tr deviceId (u.map s.2) := by
  refine run.snoc_induction (motive := fun tr s => (∀ e ∈ tr, Sent services fresh e) →
    (∀ e ∈ tr, e.command ≠ .DEL (DeviceRegistry.key deviceId)) → Bound tr deviceId (u.map s.2))
    ?_ ?_ hsent hkept
  · intro _ _
    refine ⟨fun entry hcell => ?_, by simp⟩
    rw [hblank] at hcell
    cases hcell
  · intro tr e s s' _ ih hstep hsent hkept
    rw [List.forall_mem_append, List.forall_mem_singleton] at hsent hkept
    exact (ih hsent.1 hkept.1).step hsent.2 hkept.2 hstep

/-- Without a deletion, one enrolment of a device is accepted. -/
theorem accepted_once (hblank : ∀ key, u.map store key = none)
    (hsent : ∀ e ∈ tr, Sent services fresh e)
    (hkept : ∀ e ∈ tr, e.command ≠ .DEL (DeviceRegistry.key deviceId))
    (run : Run (Executes u) (clock, store) tr s) {j : ℕ} (hat : tr[j]? = some e) {i : ℕ}
    {e₀ : Execution N} (hat₀ : tr[i]? = some e₀) (hi : i < j) {text text₀ : String}
    (h₀ : Observes e₀ deviceId text₀)
    (hcommand : e.command = setIfAbsent (DeviceRegistry.key deviceId) text none)
    {result : Option (Json N)} (hresult : command e.result = .ok result) :
    stored result = false := by
  obtain ⟨pre, post, rfl, rfl⟩ := split_at hat
  obtain ⟨t, t', hpre, hstep, -⟩ := run.at_label
  have hbound := bound_of_run hblank (fun e he => hsent e (List.mem_append_left _ he))
    (fun e he => hkept e (List.mem_append_left _ he)) hpre
  rw [List.getElem?_append_left hi] at hat₀
  have hcell := hbound.seen e₀ (List.mem_of_getElem? hat₀) text₀ h₀
  have hread : (u.map t.2).read e.now (DeviceRegistry.key deviceId) = some text₀ := by
    simp [RedisMap.read, hcell, expired]
  rw [hstep.result_eq hresult, hcommand]
  simp [setIfAbsent, RedisMap.perform, hread, stored]

end Bindings

end EncryptionGateway.Attestation.Deployed
