import EncryptionGateway.Attestation.Enrolment

/-!
# Rebinding of enrolled devices

Enrolments and challenges share one bounded map that evicts its oldest entry.
As long as no write pushes the enrolment of a device out and nobody deletes it,
the device stays bound to its key. Enough challenges of anybody push it out.
-/

namespace EncryptionGateway.Attestation.Endpoints

open JavaScript Foundation

variable {N Key : Type} [JsNumber N] {maxEntries : ℕ} {services : Services N Key}

/-- The store key a turn writes. -/
def written : Action N Key → Option String
  | .issue challengeId _ _ => some (ChallengeStore.key challengeId)
  | .enrol deviceId _ true => some (DeviceRegistry.key deviceId)
  | _ => none

/-- The turn neither deletes the enrolment of `deviceId` nor, from the store
`s`, pushes it out. -/
def Spares (deviceId : String) (s : MemoryKvStore maxEntries) (e : Event N Key) : Prop :=
  e.action ≠ .delete deviceId ∧
    ∀ key, written e.action = some key → ¬ s.Displaces e.now key (DeviceRegistry.key deviceId)

/-- A step that spares the enrolment. -/
def SparingStep (services : Services N Key) (deviceId : String)
    (s : State N Key (MemoryKvStore maxEntries)) (e : Event N Key)
    (s' : State N Key (MemoryKvStore maxEntries)) : Prop :=
  Spares deviceId s.store e ∧ Step (services.inMemory maxEntries) s e s'

/-- The enrolment of `deviceId` is stored. -/
def Holds (services : Services N Key) (deviceId : String) (device : EnrolledDevice N Key)
    (s : MemoryKvStore maxEntries) : Prop :=
  s.entries.get (DeviceRegistry.key deviceId) =
    some ⟨DeviceRegistry.record services.platform device, none⟩

/-- A write that does not push the enrolment out leaves it stored. -/
theorem Holds.write {deviceId key value : String} {device : EnrolledDevice N Key} {now : Int}
    {ttlMs : Option Int} {s : MemoryKvStore maxEntries} (h : Holds services deviceId device s)
    (hkey : DeviceRegistry.key deviceId ≠ key)
    (hspared : ¬ s.Displaces now key (DeviceRegistry.key deviceId)) :
    Holds services deviceId device (MemoryKvStore.write now key value ttlMs s) :=
  (MemoryKvStore.get_write_iff hkey h rfl).mpr hspared

theorem Holds.lookup {deviceId key : String} {device : EnrolledDevice N Key} {now : Int}
    {s : MemoryKvStore maxEntries} (h : Holds services deviceId device s) :
    Holds services deviceId device (MemoryKvStore.lookup now key s).2 :=
  MemoryKvStore.get_lookup.mpr ⟨h, fun _ => rfl⟩

theorem Holds.remove {deviceId key : String} {device : EnrolledDevice N Key}
    {s : MemoryKvStore maxEntries} (h : Holds services deviceId device s)
    (hkey : DeviceRegistry.key deviceId ≠ key) :
    Holds services deviceId device (s.remove key) := by
  rw [Holds, MemoryKvStore.entries_remove, InsertionMap.get_erase_ne _ hkey]
  exact h

/-- While the enrolment is stored its id is taken. -/
theorem Holds.enrol {deviceId : String} {device : EnrolledDevice N Key}
    {s : MemoryKvStore maxEntries} (h : Holds services deviceId device s) (now : Int)
    (device' : EnrolledDevice N Key) :
    DeviceRegistry.enrol services.platform (MemoryKvStore.port maxEntries) now deviceId device' s =
      (false, s) := by
  have hfound : MemoryKvStore.lookup now (DeviceRegistry.key deviceId) s =
      (some (DeviceRegistry.record services.platform device), s) :=
    MemoryKvStore.lookup_of_fresh h rfl
  rw [DeviceRegistry.enrol, MemoryKvStore.port]
  simp only [MemoryKvStore.setIfAbsent, hfound]
  rfl

/-- While the enrolment is stored, looking the device up gives its key. -/
theorem Holds.get {deviceId : String} {device : EnrolledDevice N Key} {now : Int}
    {s : MemoryKvStore maxEntries} (h : Holds services deviceId device s)
    (hfinite : (JsNumber.finiteValue device.securityLevel).isSome) :
    ∃ found, (DeviceRegistry.get services.platform (MemoryKvStore.port maxEntries) now
        deviceId s).1 = some found ∧ found.publicKey = device.publicKey := by
  have hfound : MemoryKvStore.lookup now (DeviceRegistry.key deviceId) s =
      (some (DeviceRegistry.record services.platform device), s) :=
    MemoryKvStore.lookup_of_fresh h rfl
  refine ⟨⟨device.publicKey, device.securityLevel,
    services.platform.parseDate (DeviceRegistry.encode services.platform device).enrolledAt⟩,
    ?_, rfl⟩
  rw [DeviceRegistry.get, MemoryKvStore.port]
  simp only [MemoryKvStore.get, hfound]
  exact DeviceRegistry.restore_record services.platform device hfinite

/-- Storing the enrolment of another device is a write like any other. -/
theorem Holds.enrol_ne {deviceId deviceId' : String} {device device' : EnrolledDevice N Key}
    {now : Int} {s : MemoryKvStore maxEntries} (h : Holds services deviceId device s)
    (hne : deviceId' ≠ deviceId)
    (hspared : (DeviceRegistry.enrol services.platform (MemoryKvStore.port maxEntries) now deviceId'
      device' s).1 = true → ¬ s.Displaces now (DeviceRegistry.key deviceId')
        (DeviceRegistry.key deviceId)) :
    Holds services deviceId device (DeviceRegistry.enrol services.platform
      (MemoryKvStore.port maxEntries) now deviceId' device' s).2 := by
  have hkey : DeviceRegistry.key deviceId ≠ DeviceRegistry.key deviceId' :=
    fun heq => hne (DeviceRegistry.key_injective heq).symm
  rw [DeviceRegistry.enrol, MemoryKvStore.port] at hspared ⊢
  cases hl : (MemoryKvStore.lookup now (DeviceRegistry.key deviceId') s).1 with
  | some found =>
      simp only [MemoryKvStore.setIfAbsent_of_found hl]
      exact h.lookup
  | none =>
      simp only [MemoryKvStore.setIfAbsent_of_absent hl] at hspared ⊢
      exact h.lookup.write hkey (MemoryKvStore.displaces_lookup.not.mpr (hspared trivial))

/-- A turn that spares a stored enrolment leaves it stored and stores no other
one for the same device. -/
theorem TurnOf.spared {now : Int} {request : Request} {s s' : MemoryKvStore maxEntries}
    {stage stage' : Stage N Key} {action : Action N Key} {deviceId : String}
    {device : EnrolledDevice N Key} {task : ℕ}
    (hturn : TurnOf (services.inMemory maxEntries) now request s stage action stage' s')
    (hspares : Spares deviceId s ⟨task, request, now, action⟩)
    (h : Holds services deviceId device s) :
    Holds services deviceId device s' ∧ ∀ device', action ≠ .enrol deviceId device' true := by
  obtain ⟨hdelete, hwrite⟩ := hspares
  cases hturn with
  | issue challengeId nonce _ =>
      exact ⟨h.write (challengeKey_ne_deviceKey _ _).symm (hwrite _ rfl), by simp⟩
  | consume _ => exact ⟨h.lookup.remove (challengeKey_ne_deviceKey _ _).symm, by simp⟩
  | load _ => exact ⟨h.lookup, by simp⟩
  | @enrol body _ _ _ device' _ _ _ =>
      by_cases hid : body.deviceId = deviceId
      · have henrol := h.enrol now device'
        rw [← hid] at henrol h ⊢
        simp only [Services.inMemory, MemoryKvStore.atomic] at henrol ⊢
        rw [henrol]
        exact ⟨h, by simp⟩
      · refine ⟨h.enrol_ne hid fun hstored => hwrite _ ?_, by simp [hid]⟩
        simp only [Services.inMemory, MemoryKvStore.atomic, hstored, written]
  | @delete deviceId' _ =>
      have hkey : DeviceRegistry.key deviceId ≠ DeviceRegistry.key deviceId' :=
        fun heq => hdelete (by rw [DeviceRegistry.key_injective heq])
      exact ⟨h.remove hkey, by simp⟩
  | answer _ _ _ => exact ⟨h, by simp⟩

/-- A turn that stores an enrolment leaves it stored. -/
theorem TurnOf.stores {now : Int} {request : Request} {s s' : MemoryKvStore maxEntries}
    {stage stage' : Stage N Key} {action : Action N Key} {deviceId : String}
    {device : EnrolledDevice N Key}
    (hturn : TurnOf (services.inMemory maxEntries) now request s stage action stage' s')
    (ha : action = .enrol deviceId device true) :
    Holds services deviceId device s' ∧ (JsNumber.finiteValue device.securityLevel).isSome := by
  cases hturn with
  | @enrol body _ _ securityLevel device' _ _ hdevice =>
      obtain ⟨rfl, rfl, hstored⟩ := Action.enrol.inj ha
      have hfinite : (JsNumber.finiteValue device'.securityLevel).isSome := by
        rw [hdevice, JsNumber.finiteValue_ofInt]
        rfl
      refine ⟨?_, hfinite⟩
      have habsent := MemoryKvStore.setIfAbsent_fst.mp hstored
      simp only [Services.inMemory, MemoryKvStore.atomic, DeviceRegistry.enrol, MemoryKvStore.port]
      rw [MemoryKvStore.setIfAbsent_of_absent habsent]
      exact MemoryKvStore.get_write_self _ _ _ _ _
  | _ => cases ha

/-- At most one enrolment of the device, and it is still stored. -/
def OneEnrolment (services : Services N Key) (deviceId : String) (tr : List (Event N Key))
    (s : MemoryKvStore maxEntries) : Prop :=
  ∀ {p device}, EnrolledAt tr deviceId device p →
    Holds services deviceId device s ∧ (JsNumber.finiteValue device.securityLevel).isSome ∧
      ∀ {p' device'}, EnrolledAt tr deviceId device' p' → p' = p

theorem oneEnrolment_of_run {clock : Int} {deviceId : String} {tr : List (Event N Key)}
    {store : MemoryKvStore maxEntries} {s : State N Key (MemoryKvStore maxEntries)}
    (run : Run (SparingStep services deviceId) (State.initial clock store) tr s) :
    OneEnrolment services deviceId tr s.store := by
  refine run.snoc_induction (motive := fun tr s => OneEnrolment services deviceId tr s.store) ?_ ?_
  · rintro p device ⟨task, request, now, hat⟩
    simp at hat
  · rintro tr e t u - ih ⟨hspares, hstep⟩ p device ⟨task, request, now, hat⟩
    obtain ⟨stage, stage', -, hturn, -⟩ := hstep.turnOf
    by_cases hold : ∃ p₀ device₀, EnrolledAt tr deviceId device₀ p₀
    · -- The id is taken, so the new event cannot be another enrolment of it.
      obtain ⟨p₀, device₀, h₀⟩ := hold
      obtain ⟨hholds, hfinite, hone⟩ := ih h₀
      obtain ⟨hstill, hno⟩ := hturn.spared hspares hholds
      have old : ∀ {p device}, EnrolledAt (tr ++ [e]) deviceId device p →
          EnrolledAt tr deviceId device p := by
        rintro p device ⟨task, request, now, hat⟩
        rcases at_snoc_iff.mp hat with hat | ⟨-, rfl⟩
        · exact ⟨task, request, now, hat⟩
        · exact absurd rfl (hno device)
      have h := old ⟨task, request, now, hat⟩
      obtain rfl := hone h
      obtain ⟨_, _, _, hp⟩ := h
      obtain ⟨_, _, _, hp₀⟩ := h₀
      rw [hp, Option.some.injEq, Event.mk.injEq, Action.enrol.injEq] at hp₀
      obtain ⟨-, -, -, -, rfl, -⟩ := hp₀
      exact ⟨hstill, hfinite, fun h' => hone (old h')⟩
    · have new : ∀ {p device}, EnrolledAt (tr ++ [e]) deviceId device p →
          p = tr.length ∧ e.action = .enrol deviceId device true := by
        rintro p device ⟨task, request, now, hat⟩
        rcases at_snoc_iff.mp hat with hat | ⟨hp, rfl⟩
        · exact absurd ⟨p, device, task, request, now, hat⟩ hold
        · exact ⟨hp, rfl⟩
      obtain ⟨rfl, ha⟩ := new ⟨task, request, now, hat⟩
      obtain ⟨hholds, hfinite⟩ := hturn.stores ha
      exact ⟨hholds, hfinite, fun h' => (new h').1⟩

/-- From position `k` on the device stays bound to the key: lookups give it, no
enrolment of the device is stored, and a request to enrol it either fails
before it reaches the registry or is refused with `DEVICE_ALREADY_ENROLLED`. -/
structure KeepsBinding (services : Services N Key) (tr : List (Event N Key))
    (s : MemoryKvStore maxEntries) (deviceId : String) (publicKey : Key) (k : ℕ) : Prop where
  bound : ∀ now, ∃ found, (DeviceRegistry.get services.platform (MemoryKvStore.port maxEntries) now
    deviceId s).1 = some found ∧ found.publicKey = publicKey
  taken : ∀ k' e device enrolled, k < k' → tr[k']? = some e →
    e.action = .enrol deviceId device enrolled → enrolled = false
  refused : ∀ k' e body reply, k < k' → tr[k']? = some e → e.request = .enroll body →
    body.deviceId = deviceId → e.action = .answer reply → successful reply = false ∧
      ∀ p now device enrolled,
        tr[p]? = some ⟨e.task, e.request, now, .enrol deviceId device enrolled⟩ → p < k' →
        reply = .failed .DEVICE_ALREADY_ENROLLED

/-- In every run of the endpoints over the in-process store whose steps all
spare the enrolment of the device, an answered enrolment binds the device to
the verified key for the rest of the run. -/
theorem enrolled_device_stays_bound (services : Services N Key) (clock : Int) (deviceId : String)
    (tr : List (Event N Key)) (s : State N Key (MemoryKvStore maxEntries))
    (run : Run (SparingStep services deviceId) (State.initial clock .empty) tr s)
    (k task : ℕ) (body : EnrollDeviceDto) (now : Int) (securityLevel : ℤ)
    (hid : body.deviceId = deviceId)
    (hat : tr[k]? = some ⟨task, .enroll body, now, .answer (.enrolled securityLevel)⟩) :
    ∃ publicKey verified nonce,
      services.verify verified (body.certificateChain.map Base64.decode) nonce =
        .ok (publicKey, securityLevel) ∧
      KeepsBinding services tr s.store deviceId publicKey k := by
  have steps : Run (Step (services.inMemory maxEntries)) (State.initial clock .empty) tr s :=
    run.mono fun h => h.2
  obtain ⟨p, nonce, level, hpk, hlevel, verified, publicKey, hverify, hp⟩ :=
    stored_of_enrolled steps hat rfl rfl rfl
  rw [Reply.enrolled.injEq] at hlevel
  subst hlevel hid
  obtain ⟨hholds, hfinite, honly⟩ := oneEnrolment_of_run run ⟨_, _, _, hp⟩
  refine ⟨publicKey, verified, nonce, hverify, fun now => hholds.get hfinite, ?_, ?_⟩
  · intro k' e device enrolled hk hat' ha
    rw [Bool.eq_false_iff]
    rintro rfl
    have hk' := honly ⟨e.task, e.request, e.now, by rw [hat', ← ha]⟩
    omega
  · intro k' e body' reply hk hat' hr hid' ha
    -- Another task than the answered one cannot have stored the device.
    have other : ∀ {p' : ℕ} {verified' : Int} {device' : EnrolledDevice N Key}
        {request' : Request}, tr[p']? ≠
          some ⟨e.task, request', verified', .enrol body.deviceId device' true⟩ := by
      intro p' verified' device' request' hp'
      obtain rfl := honly ⟨_, _, _, hp'⟩
      rw [hp, Option.some.injEq, Event.mk.injEq] at hp'
      have hkk' := answer_unique steps hat rfl hat' ha hp'.1
      omega
    constructor
    · rw [Bool.eq_false_iff]
      intro hs
      obtain ⟨p', _, _, -, -, _, _, -, hp'⟩ := stored_of_enrolled steps hat' hr ha hs
      rw [hid'] at hp'
      exact other hp'
    · intro p' verified' device enrolled hp' hpk'
      cases enrolled with
      | true => exact absurd hp' other
      | false => exact refused_of_taken steps hpk' hp' rfl hat' hr ha rfl

/-- A turn adds one entry at most. -/
theorem TurnOf.size_le {now : Int} {request : Request} {s s' : MemoryKvStore maxEntries}
    {stage stage' : Stage N Key} {action : Action N Key}
    (hturn : TurnOf (services.inMemory maxEntries) now request s stage action stage' s') :
    s'.entries.size ≤ s.entries.size + 1 := by
  cases hturn with
  | issue _ _ _ => exact MemoryKvStore.size_write_le _ _ _ _ _
  | @consume challengeId _ _ =>
      have hlookup := MemoryKvStore.size_lookup_le now (ChallengeStore.key challengeId) s
      exact (InsertionMap.size_erase_le _ _).trans (hlookup.trans (Nat.le_succ _))
  | load _ => exact (MemoryKvStore.size_lookup_le _ _ _).trans (Nat.le_succ _)
  | enrol _ _ _ => exact MemoryKvStore.size_setIfAbsent_le _ _ _ _ _
  | delete _ => exact (InsertionMap.size_erase_le _ _).trans (Nat.le_succ _)
  | answer _ _ _ => exact Nat.le_succ _

/-- A run with no more events than the capacity spares the enrolment. -/
theorem sparing_of_short {clock : Int} {deviceId : String} {tr : List (Event N Key)}
    {s : State N Key (MemoryKvStore maxEntries)}
    (run : Run (Step (services.inMemory maxEntries)) (State.initial clock .empty) tr s)
    (hshort : tr.length ≤ maxEntries) (hkept : ∀ e ∈ tr, e.action ≠ .delete deviceId) :
    Run (SparingStep services deviceId) (State.initial clock .empty) tr s := by
  have hrun : tr.length ≤ maxEntries → (∀ e ∈ tr, e.action ≠ .delete deviceId) →
      Run (SparingStep services deviceId) (State.initial clock .empty) tr s ∧
        s.store.entries.size ≤ tr.length := by
    refine run.snoc_induction (motive := fun tr s => tr.length ≤ maxEntries →
      (∀ e ∈ tr, e.action ≠ .delete deviceId) →
      Run (SparingStep services deviceId) (State.initial clock .empty) tr s ∧
        s.store.entries.size ≤ tr.length) ?_ ?_
    · intro _ _
      exact ⟨Run.nil _, le_rfl⟩
    · intro tr e t u _ ih hstep hshort hkept
      rw [List.length_append, List.length_singleton] at hshort
      obtain ⟨hrun, hsize⟩ := ih (by omega) fun e' he' => hkept e' (List.mem_append_left _ he')
      obtain ⟨stage, stage', -, hturn, -⟩ := hstep.turnOf
      have hroom : t.store.entries.size < maxEntries := by omega
      have hspares : Spares deviceId t.store e :=
        ⟨hkept e (by simp), fun _ _ => MemoryKvStore.not_displaces_of_room hroom⟩
      refine ⟨hrun.snoc ⟨hspares, hstep⟩, ?_⟩
      rw [List.length_append, List.length_singleton]
      exact hturn.size_le.trans (Nat.succ_le_succ hsize)
  exact (hrun hshort hkept).1

section Eviction

/-- Requests for challenges, `n` of them, by tasks numbered from `base` on. -/
def challenges (base : ℕ) (now : Int) (ids : ℕ → String) (nonce : Bytes) (n : ℕ) :
    List (Event N Key) :=
  (List.range n).map fun i => ⟨base + i, .challenge none, now, .issue (ids i) nonce "enroll"⟩

/-- The entries these challenges leave in the store. -/
def challengeEntries (services : Services N Key) (now : Int) (ids : ℕ → String) (nonce : Bytes)
    (n : ℕ) : List (String × Entry) :=
  (List.range n).map fun i => (ChallengeStore.key (ids i),
    ⟨ChallengeStore.record services.platform nonce "enroll", some (now + CHALLENGE_TTL_MS)⟩)

/-- Challenges with new identifiers line up behind the entries of a store that
has room for them. -/
theorem challenges_run (services : Services N Key) {s : State N Key (MemoryKvStore maxEntries)}
    {base : ℕ} {ids : ℕ → String} (hids : Function.Injective ids)
    (hnew : ∀ i, ChallengeStore.key (ids i) ∉ s.store.entries.keys)
    (hfree : ∀ task, base ≤ task → s.tasks task = none) (nonce : Bytes) {n : ℕ}
    (hroom : s.store.entries.size + n ≤ maxEntries) :
    ∃ s' : State N Key (MemoryKvStore maxEntries),
      Run (Step (services.inMemory maxEntries)) s (challenges base s.clock ids nonce n) s' ∧
      s'.clock = s.clock ∧ (∀ task, base + n ≤ task → s'.tasks task = none) ∧
      s'.store.entries.entries =
        s.store.entries.entries ++ challengeEntries services s.clock ids nonce n := by
  induction n with
  | zero => exact ⟨s, Run.nil s, rfl, hfree, by simp [challengeEntries]⟩
  | succ n ih =>
      obtain ⟨t, hrun, hclock, htasks, hentries⟩ := ih (by omega)
      have hkey : ChallengeStore.key (ids n) ∉ t.store.entries.keys := by
        rw [InsertionMap.keys, hentries, List.map_append, List.mem_append]
        rintro (h | h)
        · exact hnew n h
        · simp only [challengeEntries, List.map_map, List.mem_map, List.mem_range,
            Function.comp_apply] at h
          obtain ⟨i, hi, heq⟩ := h
          have := hids (ChallengeStore.key_injective heq)
          omega
      have hsize : t.store.entries.size < maxEntries := by
        rw [InsertionMap.size, hentries, List.length_append, challengeEntries, List.length_map,
          List.length_range, ← InsertionMap.size]
        omega
      have hstep := issue_step services (htasks (base + n) le_rfl) (ids n) nonce
      refine ⟨⟨t.clock, afterIssue services t.clock (ids n) nonce t.store,
        Function.update t.tasks (base + n) (some (.challenge none, .issued (ids n) nonce))⟩,
        ?_, hclock, ?_, ?_⟩
      · rw [challenges, List.range_succ, List.map_append]
        rw [hclock] at hstep ⊢
        exact hrun.snoc hstep
      · intro task htask
        have hne : task ≠ base + n := by omega
        exact (Function.update_of_ne hne _ _).trans (htasks task (by omega))
      · rw [entries_afterIssue_of_room hkey hsize, hentries, challengeEntries, challengeEntries,
          List.range_succ, List.map_append, List.append_assoc, hclock]
        rfl

/-- As many challenges as the store has room for push its only entry out. -/
theorem eviction_run (services : Services N Key) {s : State N Key (MemoryKvStore maxEntries)}
    {base : ℕ} {ids : ℕ → String} {key : String} {entry : Entry} (hids : Function.Injective ids)
    (hnew : ∀ i, ChallengeStore.key (ids i) ≠ key)
    (hentries : s.store.entries.entries = [(key, entry)])
    (hentry : expired entry.expiresAt s.clock = false)
    (hfree : ∀ task, base ≤ task → s.tasks task = none) (nonce : Bytes) {n : ℕ}
    (hn : n + 1 = maxEntries) :
    ∃ s' : State N Key (MemoryKvStore maxEntries),
      Run (Step (services.inMemory maxEntries)) s (challenges base s.clock ids nonce (n + 1)) s' ∧
      s'.clock = s.clock ∧ (∀ task, base + (n + 1) ≤ task → s'.tasks task = none) ∧
      s'.store.entries.entries = challengeEntries services s.clock ids nonce (n + 1) := by
  have hsize : s.store.entries.size = 1 := by rw [InsertionMap.size, hentries]; rfl
  have hnew' : ∀ i, ChallengeStore.key (ids i) ∉ s.store.entries.keys := by
    intro i
    rw [InsertionMap.keys, hentries]
    simpa using hnew i
  obtain ⟨t, hrun, hclock, htasks, hfilled⟩ :=
    challenges_run services hids hnew' hfree nonce (n := n) (by omega)
  rw [hentries] at hfilled
  have hkey : ChallengeStore.key (ids n) ∉ t.store.entries.keys := by
    rw [InsertionMap.keys, hfilled]
    intro h
    simp only [challengeEntries, List.singleton_append, List.map_cons, List.map_map, List.mem_cons,
      List.mem_map, List.mem_range, Function.comp_apply] at h
    rcases h with h | ⟨i, hi, heq⟩
    · exact hnew n h
    · have := hids (ChallengeStore.key_injective heq)
      omega
  have hfull : t.store.entries.size = maxEntries := by
    rw [InsertionMap.size, hfilled]
    simpa [challengeEntries] using hn
  have hfresh : ∀ e ∈ t.store.entries.entries, expired e.2.expiresAt t.clock = false := by
    rw [hfilled, hclock]
    intro e he
    rcases List.mem_cons.mp he with rfl | he
    · exact hentry
    · obtain ⟨i, -, rfl⟩ := List.mem_map.mp he
      simp [expired, CHALLENGE_TTL_MS]
  have hstep := issue_step services (htasks (base + n) le_rfl) (ids n) nonce
  refine ⟨⟨t.clock, afterIssue services t.clock (ids n) nonce t.store,
    Function.update t.tasks (base + n) (some (.challenge none, .issued (ids n) nonce))⟩,
    ?_, hclock, ?_, ?_⟩
  · rw [challenges, List.range_succ, List.map_append]
    rw [hclock] at hstep ⊢
    exact hrun.snoc hstep
  · intro task htask
    have hne : task ≠ base + n := by omega
    exact (Function.update_of_ne hne _ _).trans (htasks task (by omega))
  · have hwrite : (afterIssue services t.clock (ids n) nonce t.store).entries.entries =
        t.store.entries.entries.drop 1 ++ [(ChallengeStore.key (ids n),
          ⟨ChallengeStore.record services.platform nonce "enroll",
            some (t.clock + CHALLENGE_TTL_MS)⟩)] :=
      MemoryKvStore.entries_write_of_full hkey hfull hfresh
    rw [hwrite, hfilled, hclock, challengeEntries, challengeEntries, List.range_succ,
      List.map_append]
    rfl

/-- The first enrolment keeps its binding while `phone` logs in and somebody else
wants to enrol `phone` with another key. -/
theorem enrolled_device_stays_bound_first :
    ∃ s : State ℤ Bytes (MemoryKvStore DEFAULT_MAX_ENTRIES),
      Run (SparingStep Services.sample "phone") (State.initial 0 .empty) returningPhone s ∧
      KeepsBinding Services.sample returningPhone s.store "phone" [1] 3 := by
  obtain ⟨s, hrun⟩ := returningPhone_run DEFAULT_MAX_ENTRIES (by decide)
  have hkept : ∀ e ∈ returningPhone, e.action ≠ .delete "phone" := by
    simp [returningPhone, firstBinding, enrolment, Login.events, refusal]
  have hsparing := sparing_of_short hrun (by decide) hkept
  obtain ⟨publicKey, verified, nonce, hverify, hkeeps⟩ :=
    enrolled_device_stays_bound Services.sample 0 "phone" returningPhone s hsparing 3 1
      (sampleBody 0 [1]) 0 1 rfl rfl
  have hkey : publicKey = [1] := by
    simp only [sampleBody, List.map_cons, List.map_nil, Base64.decode_encode] at hverify
    cases hverify
    rfl
  exact ⟨s, hsparing, hkey ▸ hkeeps⟩

/-- With the default capacity: `phone` is enrolled with key 1, ten thousand
challenges are requested, the enrolment is gone, and the last of these
challenges enrols `phone` with key 2. -/
theorem enrolled_device_rebound :
    ∃ evicted rebound : State ℤ Bytes (MemoryKvStore DEFAULT_MAX_ENTRIES),
      Run (Step (Services.sample.inMemory DEFAULT_MAX_ENTRIES)) (State.initial 0 .empty)
        (firstBinding ++ challenges 2 0 (fun i => uuid (i + 1)) [42] 10000) evicted ∧
      (DeviceRegistry.get Services.sample.platform (MemoryKvStore.port DEFAULT_MAX_ENTRIES) 0
        "phone" evicted.store).1 = none ∧
      Run (Step (Services.sample.inMemory DEFAULT_MAX_ENTRIES)) evicted
        (enrolment 20000 (sampleBody 10000 [2]) 0 [42] (sampleDevice [2]) 1) rebound ∧
      ∀ publicKey, ¬ KeepsBinding Services.sample
        ((firstBinding ++ challenges 2 0 (fun i => uuid (i + 1)) [42] 10000) ++
          enrolment 20000 (sampleBody 10000 [2]) 0 [42] (sampleDevice [2]) 1)
        rebound.store "phone" publicKey 3 := by
  obtain ⟨bound, hbound, hclock, htasks, hentries⟩ :=
    firstBinding_run DEFAULT_MAX_ENTRIES (by decide)
  have hids : Function.Injective fun i => uuid (i + 1) :=
    fun i j h => Nat.add_right_cancel (uuid_injective h)
  obtain ⟨evicted, hevicted, hclock', htasks', hentries'⟩ := eviction_run Services.sample hids
    (fun _ => challengeKey_ne_deviceKey _ _) hentries rfl htasks [42] (n := 9999) rfl
  rw [hclock] at hclock' hevicted hentries'
  have hgone : evicted.store.entries.get (DeviceRegistry.key "phone") = none := by
    rw [InsertionMap.get_eq_none, InsertionMap.keys, hentries', challengeEntries, List.map_map]
    intro h
    obtain ⟨i, -, heq⟩ := List.mem_map.mp h
    exact challengeKey_ne_deviceKey _ _ heq
  have hchallenge : evicted.store.entries.get (ChallengeStore.key (uuid 10000)) =
      some ⟨ChallengeStore.record Services.sample.platform [42] "enroll",
        some (0 + CHALLENGE_TTL_MS)⟩ := by
    rw [InsertionMap.get_eq_some, hentries', challengeEntries]
    exact List.mem_map.mpr ⟨9999, List.mem_range.mpr (by decide), rfl⟩
  have hx : expired (some (0 + CHALLENGE_TTL_MS)) evicted.clock = false := by
    rw [hclock']
    decide
  have hverify : Services.sample.verify evicted.clock
      ((sampleBody 10000 [2]).certificateChain.map Base64.decode) [42] = .ok ([2], 1) := by
    simp only [sampleBody, List.map_cons, List.map_nil, Base64.decode_encode]
    rfl
  have hrebound := enrolment_run Services.sample 20000 (sampleBody 10000 [2]) rfl
    (htasks' 20000 (by decide)) hchallenge hx hgone hverify
  rw [hclock'] at hrebound
  refine ⟨evicted, _, hbound.append hevicted, ?_, hrebound, ?_⟩
  · have hmiss : MemoryKvStore.lookup 0 (DeviceRegistry.key "phone") evicted.store =
        (none, evicted.store) := MemoryKvStore.lookup_of_absent hgone
    simp only [DeviceRegistry.get, MemoryKvStore.port, MemoryKvStore.get, hmiss]
    rfl
  · intro publicKey hkeeps
    have hlength : (firstBinding ++ challenges 2 0 (fun i => uuid (i + 1)) [42] 10000).length =
        10004 := by
      simp [firstBinding, enrolment, challenges]
    have hstored := hkeeps.taken 10005
      ⟨20000, .enroll (sampleBody 10000 [2]), 0, .enrol "phone" (sampleDevice [2]) true⟩
      (sampleDevice [2]) true (by decide)
      (by rw [List.getElem?_append_right (by rw [hlength]; decide), hlength]; rfl) rfl
    cases hstored

end Eviction

end EncryptionGateway.Attestation.Endpoints
