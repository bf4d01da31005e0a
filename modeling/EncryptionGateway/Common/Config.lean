import EncryptionGateway.Foundation.Outcome
import EncryptionGateway.JavaScript.Json
import EncryptionGateway.JavaScript.Text

/-!
# Configuration values

The readers of configuration variables. A value that is no admissible spelling
stops the startup with an error text.
-/

namespace EncryptionGateway.Common

open JavaScript Foundation

/-- The environment; `none` is an unset variable. -/
abbrev Config := String → Option String

def MAX_SAFE_INTEGER : ℕ := 2 ^ 53 - 1

/-- `/^\d+$/`. -/
def isDigits (s : String) : Bool := s.toList ≠ [] && s.toList.all Char.isDigit

section Readers

variable {N : Type} [JsNumber N] (json : JsonText N) (config : Config)

/-- Dashboards pass unset variables as `""`. -/
def given (name : String) : Option String :=
  match config name with
  | none => none
  | some raw => if trim raw = "" then none else some raw

def positiveInteger (name : String) (fallback : ℕ) : Except String ℕ :=
  match given config name with
  | none => .ok fallback
  | some raw =>
      let value := Nat.ofDigitChars 10 raw.toList 0
      if isDigits raw && value ≤ MAX_SAFE_INTEGER && 0 < value then .ok value
      else .error (name ++ " must be a positive safe integer (got " ++
        json.stringify (.str raw) ++ ")")

/-- Only the exact strings `true` and `false` are accepted. -/
def strictBoolean (name : String) (fallback : Bool) : Except String Bool :=
  match given config name with
  | none => .ok fallback
  | some raw =>
      if raw = "true" then .ok true
      else if raw = "false" then .ok false
      else .error (name ++ " must be true or false (got " ++ json.stringify (.str raw) ++ ")")

/-- Restricts a variable to a known set of values. -/
def enumValue (name : String) (allowed : List String) (fallback : String) : Except String String :=
  match given config name with
  | none => .ok fallback
  | some raw =>
      if allowed.contains raw then .ok raw
      else .error (name ++ " must be one of " ++ ", ".intercalate allowed ++ " (got " ++
        json.stringify (.str raw) ++ ")")

variable {json config}

theorem positiveInteger_pos {name : String} {fallback n : ℕ} (hfallback : 0 < fallback)
    (h : positiveInteger json config name fallback = .ok n) : 0 < n := by
  unfold positiveInteger at h
  cases hraw : given config name with
  | none =>
      simp only [hraw, Except.ok.injEq] at h
      exact h ▸ hfallback
  | some raw =>
      simp only [hraw] at h
      split at h
      · next hvalue =>
          simp only [Bool.and_eq_true, decide_eq_true_eq, Except.ok.injEq] at hvalue h
          exact h ▸ hvalue.2
      · cases h

/-- A flag that is off by default is on only where it is spelled out. -/
theorem strictBoolean_eq_true {name : String}
    (h : strictBoolean json config name false = .ok true) : config name = some "true" := by
  unfold strictBoolean given at h
  cases hraw : config name with
  | none => simp [hraw] at h
  | some raw =>
      by_cases hblank : trim raw = ""
      · simp [hraw, hblank] at h
      · by_cases htrue : raw = "true"
        · rw [htrue]
        · simp only [hraw, hblank, htrue, if_false] at h
          split at h <;> cases h

end Readers

/-! ## Controls -/

/-- A variable and the value it has when it is not given. -/
structure Control (α : Type) where
  name : String
  fallback : α

namespace Control

variable {N : Type} [JsNumber N] (json : JsonText N) (config : Config)

/-- The admissible spellings. -/
def Admits (config : Config) (name : String) (legal : String → Bool) : Prop :=
  ∀ raw, given config name = some raw → legal raw = true

instance (config : Config) (name : String) (legal : String → Bool) :
    Decidable (Admits config name legal) :=
  decidable_of_iff (∀ raw ∈ given config name, legal raw = true) Iff.rfl

def isFlag (raw : String) : Bool := raw = "true" || raw = "false"

def isPositive (raw : String) : Bool :=
  isDigits raw && Nat.ofDigitChars 10 raw.toList 0 ≤ MAX_SAFE_INTEGER &&
    0 < Nat.ofDigitChars 10 raw.toList 0

/-- What is spelled, or the fallback. -/
def flag (c : Control Bool) : Bool :=
  ((given config c.name).map fun raw => decide (raw = "true")).getD c.fallback

def number (c : Control ℕ) : ℕ :=
  ((given config c.name).map fun raw => Nat.ofDigitChars 10 raw.toList 0).getD c.fallback

/-- The text starts with the name. -/
def Names (name message : String) : Prop := name.toList <+: message.toList

theorem names_append (name rest : String) : Names name (name ++ rest) := by
  rw [Names, String.toList_append]
  exact List.prefix_append _ _

variable {json config}

/-- A reader returns what is spelled, or stops with an error that names the
variable. -/
theorem settles_strictBoolean (c : Control Bool) :
    Settles (Admits config c.name isFlag) (· = c.flag config) (Names c.name)
      (strictBoolean json config c.name c.fallback) := by
  unfold strictBoolean flag Admits
  cases given config c.name with
  | none => exact Or.inl ⟨by simp, _, rfl, rfl⟩
  | some raw =>
      by_cases htrue : raw = "true"
      · subst htrue
        exact Or.inl ⟨fun _ h => Option.some.inj h ▸ rfl, _, rfl, rfl⟩
      · by_cases hfalse : raw = "false"
        · subst hfalse
          exact Or.inl ⟨fun _ h => Option.some.inj h ▸ rfl, _, rfl, rfl⟩
        · refine Or.inr ⟨fun h => ?_, _, (if_neg htrue).trans (if_neg hfalse), ?_⟩
          · simpa [isFlag, htrue, hfalse] using h raw rfl
          · rw [String.append_assoc, String.append_assoc]
            exact names_append _ _

theorem settles_positiveInteger (c : Control ℕ) :
    Settles (Admits config c.name isPositive) (· = c.number config) (Names c.name)
      (positiveInteger json config c.name c.fallback) := by
  unfold positiveInteger number Admits
  cases given config c.name with
  | none => exact Or.inl ⟨by simp, _, rfl, rfl⟩
  | some raw =>
      cases hlegal : isPositive raw with
      | true => exact Or.inl ⟨fun _ h => Option.some.inj h ▸ hlegal, _, if_pos hlegal, rfl⟩
      | false =>
          refine Or.inr ⟨fun h => ?_, _, if_neg (Bool.eq_false_iff.mp hlegal), ?_⟩
          · rw [h raw rfl] at hlegal
            cases hlegal
          · rw [String.append_assoc, String.append_assoc]
            exact names_append _ _

theorem settles_enumValue {name fallback : String} {allowed : List String} :
    Settles (Admits config name allowed.contains) (· = (given config name).getD fallback)
      (Names name) (enumValue json config name allowed fallback) := by
  unfold enumValue Admits
  cases given config name with
  | none => exact Or.inl ⟨by simp, _, rfl, rfl⟩
  | some raw =>
      cases hlegal : allowed.contains raw with
      | true => exact Or.inl ⟨fun _ h => Option.some.inj h ▸ hlegal, _, if_pos hlegal, rfl⟩
      | false =>
          refine Or.inr ⟨fun h => ?_, _, if_neg (Bool.eq_false_iff.mp hlegal), ?_⟩
          · rw [h raw rfl] at hlegal
            cases hlegal
          · rw [String.append_assoc, String.append_assoc, String.append_assoc, String.append_assoc]
            exact names_append _ _

end Control

end EncryptionGateway.Common
