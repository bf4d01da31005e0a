import EncryptionGateway.Common.Config
import EncryptionGateway.Common.Payload
import EncryptionGateway.Foundation.InsertionMap
import EncryptionGateway.Foundation.Run

/-!
# Replay protection

`ReplayProtectionService.assertFresh` over its bounded cache of nonces, and its
runs. A nonce is remembered from the arrival of its request for the allowed
skew, while a timestamp is acceptable up to the skew after the client's clock
showed it.

## Implementation notes

The current time is an integer number of milliseconds. The product of a number
with 1000 is rounded as the platform does it, and `Date.parse` is the
platform's; both are parameters.
-/

namespace EncryptionGateway.Common

open JavaScript Foundation

variable {N : Type} [JsNumber N]

/-- The arithmetic and the dates of the platform; `none` is `NaN`. -/
structure Timestamps (N : Type) where
  thousandfold : N → ℚ
  dateParse : String → Option ℚ

def SECONDS_THRESHOLD : ℚ := 10 ^ 12

/-- Epoch seconds, epoch milliseconds or a date. -/
def parseTimestamp (t : Timestamps N) (value : Option (Json N)) : Option ℚ :=
  match value with
  | some (.num n) =>
      (JsNumber.finiteValue n).map fun q => if q < SECONDS_THRESHOLD then t.thousandfold n else q
  | some (.str s) =>
      if isDigits s then
        let numeric := Nat.ofDigitChars 10 s.toList 0
        if MAX_SAFE_INTEGER < numeric then none
        else some (if (numeric : ℚ) < SECONDS_THRESHOLD then numeric * 1000 else numeric)
      else t.dateParse s
  | _ => none

/-- `/^[\x21-\x7e]{16,128}$/`. -/
def matchesNoncePattern (nonce : String) : Bool :=
  16 ≤ nonce.toList.length && nonce.toList.length ≤ 128 &&
    nonce.toList.all fun c => 0x21 ≤ c.toNat && c.toNat ≤ 0x7e

structure ReplayProtection where
  required : Bool
  maxSkewMs : ℕ
  maxEntries : ℕ
  maxSkewMs_pos : 0 < maxSkewMs
  maxEntries_pos : 0 < maxEntries

namespace ReplayProtection

def reject (code message : String) : Except HttpException Unit := .error ⟨400, some code, message⟩

/-- Nonces with the time until which they are remembered. -/
abbrev Seen := InsertionMap String Int

/-- Expired nonces can be forgotten once half of the capacity is used. -/
def sweep (p : ReplayProtection) (now : Int) (seen : Seen) : Seen :=
  if 2 * seen.size < p.maxEntries then seen
  else seen.keep fun _ expiresAt => decide (now < expiresAt)

/-- Keep the cache bounded even when a burst of unique nonces arrives. -/
def remember (p : ReplayProtection) (now : Int) (nonce : String) (seen : Seen) : Seen :=
  let seen := seen.set nonce (now + p.maxSkewMs)
  if p.maxEntries < seen.size then
    match seen.oldest with
    | some oldest => seen.erase oldest
    | none => seen
  else seen

/-- The check of a nonce whose request is on time. -/
def claim (p : ReplayProtection) (now : Int) (nonce : String) (seen : Seen) :
    Except HttpException Unit × Seen :=
  let seen := p.sweep now seen
  if now < (seen.get nonce).getD 0 then
    (reject "REQUEST_REPLAYED" "Nonce has already been used", seen)
  else (.ok (), p.remember now nonce seen)

def assertFresh (p : ReplayProtection) (t : Timestamps N) (payload : DecryptedPayload N) (now : Int)
    (seen : Seen) : Except HttpException Unit × Seen :=
  if p.required = false then (.ok (), seen)
  else
    match payload.Nonce with
    | some (.str nonce) =>
        if matchesNoncePattern nonce = false then
          (reject "REQUEST_NONCE_INVALID" "Nonce must be 16-128 printable ASCII characters", seen)
        else
          match parseTimestamp t payload.Timestamp with
          | none =>
              (reject "REQUEST_TIMESTAMP_INVALID"
                "Timestamp must be an ISO-8601 string or epoch seconds/milliseconds", seen)
          | some timestamp =>
              if (p.maxSkewMs : ℚ) < |(now : ℚ) - timestamp| then
                (reject "REQUEST_EXPIRED" ("Timestamp is outside the allowed " ++
                  toString p.maxSkewMs ++ " ms window"), seen)
              else p.claim now nonce seen
    | _ => (reject "REQUEST_NONCE_INVALID" "Nonce must be 16-128 printable ASCII characters", seen)

/-- The nonce a payload carries. -/
def nonceOf (payload : DecryptedPayload N) : Option String :=
  match payload.Nonce with
  | some (.str nonce) => some nonce
  | _ => none

/-- The timestamp of the payload is acceptable at this time. -/
def InWindow (p : ReplayProtection) (t : Timestamps N) (payload : DecryptedPayload N)
    (now : Int) : Prop :=
  ∃ timestamp, parseTimestamp t payload.Timestamp = some timestamp ∧
    |(now : ℚ) - timestamp| ≤ p.maxSkewMs

/-- A call with a well-formed nonce and an acceptable timestamp is decided by
the cache; every other call is rejected and leaves the cache as it is. -/
theorem assertFresh_cases (p : ReplayProtection) (t : Timestamps N) (payload : DecryptedPayload N)
    (now : Int) (seen : Seen) (hrequired : p.required = true) :
    (∃ nonce, nonceOf payload = some nonce ∧ matchesNoncePattern nonce = true ∧
        InWindow p t payload now ∧
        p.assertFresh t payload now seen = p.claim now nonce seen) ∨
      ((∀ nonce, nonceOf payload = some nonce → matchesNoncePattern nonce = true →
          ¬ InWindow p t payload now) ∧
        ∃ e, p.assertFresh t payload now seen = (.error e, seen)) := by
  unfold assertFresh
  rw [hrequired, if_neg (by simp)]
  split
  · next nonce hnonce =>
      have hof : nonceOf payload = some nonce := by simp [nonceOf, hnonce]
      split
      · next hpattern =>
          refine Or.inr ⟨?_, _, rfl⟩
          intro nonce' hof' hpattern'
          rw [hof, Option.some.injEq] at hof'
          rw [← hof', hpattern] at hpattern'
          cases hpattern'
      · next hpattern =>
          have hpattern : matchesNoncePattern nonce = true := by simpa using hpattern
          split
          · next hnone =>
              refine Or.inr ⟨?_, _, rfl⟩
              rintro _ _ _ ⟨timestamp, hsome, -⟩
              rw [hnone] at hsome
              cases hsome
          · next timestamp hsome =>
              split
              · next hlate =>
                  refine Or.inr ⟨?_, _, rfl⟩
                  rintro _ _ _ ⟨timestamp', hsome', hle⟩
                  rw [hsome, Option.some.injEq] at hsome'
                  rw [← hsome'] at hle
                  exact absurd hlate (not_lt.mpr hle)
              · next hontime =>
                  exact Or.inl ⟨nonce, hof, hpattern, ⟨timestamp, hsome, not_lt.mp hontime⟩, rfl⟩
  · next hno =>
      refine Or.inr ⟨?_, _, rfl⟩
      intro nonce hof
      unfold nonceOf at hof
      split at hof
      · next nonce' hnonce => exact absurd hnonce (hno nonce')
      · cases hof

/-- A refusal is a 400, whatever the payload and the cache. -/
theorem throwsOnly_assertFresh (p : ReplayProtection) (t : Timestamps N)
    (payload : DecryptedPayload N) (now : Int) (seen : Seen) :
    ThrowsOnly IsBadRequest (p.assertFresh t payload now seen).1 := by
  have hreject : ∀ code message, ThrowsOnly IsBadRequest (reject code message) :=
    fun _ _ => throwsOnly_error rfl
  unfold assertFresh
  split
  · exact throwsOnly_ok
  · split
    · split
      · exact hreject _ _
      · split
        · exact hreject _ _
        · split
          · exact hreject _ _
          · unfold claim
            dsimp only
            split
            · exact hreject _ _
            · exact throwsOnly_ok
    · exact hreject _ _

end ReplayProtection

end EncryptionGateway.Common
