import Mathlib
import EncryptionGateway.Attestation.UpstashKvStore

/-!
# A Redis server

The commands read back from their words and carried out on a map: the server
that the instances rely on. Its map is also a store with an atomic `getDelete`
for the endpoints of one process.
-/

namespace EncryptionGateway.Attestation

open JavaScript Foundation

variable {N : Type} [JsNumber N]

namespace Command

/-- What a server makes of the words. -/
def ofWords : List String → Option Command
  | ["GET", key] => some (.GET key)
  | ["SET", key, value] => some (.SET key value none false)
  | ["SET", key, value, "NX"] => some (.SET key value none true)
  | ["SET", key, value, "PX", ttlMs] => ttlMs.toInt?.map fun ttlMs =>
      .SET key value (some ttlMs) false
  | ["SET", key, value, "PX", ttlMs, "NX"] =>
      ttlMs.toInt?.map fun ttlMs => .SET key value (some ttlMs) true
  | ["GETDEL", key] => some (.GETDEL key)
  | ["DEL", key] => some (.DEL key)
  | _ => none

theorem ofWords_words (c : Command) : ofWords c.words = some c := by
  cases c with
  | SET key value PX NX =>
      cases PX with
      | none => cases NX <;> rfl
      | some ttlMs => cases NX <;> simp [words, ofWords]
  | _ => rfl

end Command

namespace RedisMap

/-- A map that holds nothing. -/
def blank : RedisMap := fun _ => none

/-- The body of a reply without an error. -/
def reply (result : Option (Json N)) : HttpReply N :=
  ⟨200, some (.obj [("result", result.getD .null)])⟩

theorem perform_isSome (now : Int) (c : Command) (m : RedisMap) :
    ∃ result : Json N, (perform now c m).1 = some result := by
  have hvalue : ∀ value : Option String, ∃ result : Json N, replyValue value = some result := by
    rintro (_ | value)
    · exact ⟨.null, rfl⟩
    · exact ⟨.str value, rfl⟩
  cases c with
  | GET _ => exact hvalue _
  | GETDEL _ => exact hvalue _
  | DEL _ => exact ⟨_, rfl⟩
  | SET key value PX NX =>
      simp only [perform]
      split
      · exact ⟨_, rfl⟩
      · exact ⟨_, rfl⟩

theorem command_reply (now : Int) (c : Command) (m : RedisMap) :
    UpstashKvStore.command (reply (perform (N := N) now c m).1) = .ok (perform now c m).1 := by
  obtain ⟨result, hresult⟩ := perform_isSome (N := N) now c m
  rw [hresult]
  rfl

/-- The server: words it cannot read are refused. -/
def server : Upstash N RedisMap where
  exec now words m :=
    match Command.ofWords words with
    | some c => (reply (perform now c m).1, (perform (N := N) now c m).2)
    | none => (⟨400, some (.obj [("error", .str "ERR unknown command")])⟩, m)
  map := id
  executes now c m := by
    rw [Command.ofWords_words]
    exact Or.inl rfl
  answers := by
    intro now c m result h
    rw [Command.ofWords_words] at h
    rw [command_reply] at h
    exact (Except.ok.inj h).symm

/-- The unexpired values, without the removal of what has expired. -/
def kv : KvStore RedisMap where
  get now key m := (m.read now key, m)
  set now key value ttlMs m := Function.update m key (some ⟨value, expiry now ttlMs⟩)
  setIfAbsent now key value ttlMs m :=
    if (m.read now key).isSome then (false, m)
    else (true, Function.update m key (some ⟨value, expiry now ttlMs⟩))
  getDelete now key m := (m.read now key, Function.update m key none)
  delete now key m := ((m.read now key).isSome, Function.update m key none)

theorem read_eq_some {now : Int} {key value : String} {m : RedisMap} :
    m.read now key = some value ↔ ∃ e, m key = some ⟨value, e⟩ ∧ expired e now = false := by
  unfold read
  constructor
  · intro h
    obtain ⟨⟨value', e⟩, hcell, hlive⟩ := Option.bind_eq_some_iff.mp h
    split at hlive
    · cases hlive
    · next hfresh =>
        cases hlive
        exact ⟨e, hcell, by simpa using hfresh⟩
  · rintro ⟨e, hcell, hfresh⟩
    simp [hcell, hfresh]

theorem removed_iff {m : RedisMap} {key key' : String} {entry : Entry} :
    Function.update m key none key' = some entry ↔ key' ≠ key ∧ m key' = some entry := by
  by_cases h : key' = key
  · simp [h]
  · simp [h]

def atomic : AtomicKvStore RedisMap where
  toKvStore := kv
  holds m key value e := m key = some ⟨value, e⟩
  get_returns := read_eq_some.mp
  holds_get := id
  get_keeps _ h := h
  holds_set := by
    intro m now key value ttl key' value' e h
    by_cases hkey : key' = key
    · subst hkey
      simp only [kv, Function.update_self, Option.some.injEq, Entry.mk.injEq] at h
      exact Or.inl ⟨rfl, h.1.symm, h.2.symm⟩
    · simp only [kv, Function.update_of_ne hkey] at h
      exact Or.inr ⟨hkey, h⟩
  holds_setIfAbsent := by
    intro m now key value ttl key' value' e h
    simp only [kv] at h ⊢
    split at h
    · exact Or.inr h
    · next hfree =>
        by_cases hkey : key' = key
        · subst hkey
          simp only [Function.update_self, Option.some.injEq, Entry.mk.injEq] at h
          rw [if_neg hfree]
          exact Or.inl ⟨rfl, rfl, h.1.symm, h.2.symm⟩
        · simp only [Function.update_of_ne hkey] at h
          exact Or.inr h
  getDelete_returns := read_eq_some.mp
  holds_getDelete := removed_iff
  holds_delete := removed_iff

end RedisMap

/-- The services of one process over the map. -/
def Services.shared {N Key : Type} [JsNumber N] (services : Services N Key) : Env N Key RedisMap :=
  { services with kv := RedisMap.atomic }

end EncryptionGateway.Attestation
