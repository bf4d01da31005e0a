import Mathlib.Tactic

/-!
# JSON values

The values `JSON.parse` produces, with the properties of an object in the
order in which `Object.entries` lists them.

## Implementation notes

The numbers are a parameter `N`. The gateway observes a number only through
`String(n)` and its finite value, and makes one only from an integer, which is
what `JsNumber` provides. In particular `0` and `-0` are one number.

The text form is a parameter too. `JSON.parse` undoes `JSON.stringify` on the
trees that are finite values of JavaScript: an object has no property twice,
and its array indices come first in ascending order.
-/

namespace EncryptionGateway.JavaScript

/-- What the gateway can observe of a JavaScript number. `finiteValue` is
`none` for the infinities. -/
class JsNumber (N : Type) where
  text : N → String
  finiteValue : N → Option ℚ
  ofInt : ℤ → N
  finiteValue_ofInt (n : ℤ) : finiteValue (ofInt n) = some (n : ℚ)

inductive Json (N : Type) where
  | null
  | bool (b : Bool)
  | num (n : N)
  | str (s : String)
  | arr (items : List (Json N))
  | obj (fields : List (String × Json N))

namespace Json

variable {N : Type}

/-- Reading a property by name; `none` is `undefined`. -/
def lookup (fields : List (String × Json N)) (k : String) : Option (Json N) :=
  (fields.find? fun f => decide (f.1 = k)).map Prod.snd

/-- `v.k` for an object; every other value lacks the properties the gateway
reads. -/
def get (v : Json N) (k : String) : Option (Json N) :=
  match v with
  | obj fields => lookup fields k
  | _ => none

/-- `k in fields`. -/
def hasKey (fields : List (String × Json N)) (k : String) : Bool :=
  fields.any fun f => decide (f.1 = k)

/-- `v != null`, on a property that may be missing. -/
def present : Option (Json N) → Option (Json N)
  | some null => none
  | v => v

/-- The boolean a condition makes of `v`. -/
def truthy [JsNumber N] : Json N → Bool
  | null => false
  | bool b => b
  | num n => JsNumber.finiteValue n ≠ some 0
  | str s => s ≠ ""
  | _ => true

mutual

/-- `String(v)`, where no object has a `toString` of its own. -/
def toText [JsNumber N] : Json N → String
  | null => "null"
  | bool true => "true"
  | bool false => "false"
  | num n => JsNumber.text n
  | str s => s
  | arr items => ",".intercalate (itemTexts items)
  | obj _ => "[object Object]"

/-- The pieces `Array.prototype.join` puts together; `null` contributes the
empty string. -/
def itemTexts [JsNumber N] : List (Json N) → List String
  | [] => []
  | null :: rest => "" :: itemTexts rest
  | v :: rest => toText v :: itemTexts rest

end

mutual

/-- The number of containers around the most deeply nested value. -/
def depth : Json N → Nat
  | arr items => itemsDepth items
  | obj fields => fieldsDepth fields
  | _ => 0

def itemsDepth : List (Json N) → Nat
  | [] => 0
  | v :: rest => max (depth v + 1) (itemsDepth rest)

def fieldsDepth : List (String × Json N) → Nat
  | [] => 0
  | (_, v) :: rest => max (depth v + 1) (fieldsDepth rest)

end

/-- The array index a property name spells, if it spells one. -/
def indexValue (k : String) : Option ℕ :=
  let digits := k.toList
  let n := digits.foldl (fun acc c => acc * 10 + (c.toNat - 48)) 0
  if digits ≠ [] ∧ digits.all Char.isDigit ∧ (digits.head? = some '0' → digits.length = 1) ∧
      n < 2 ^ 32 - 1
  then some n else none

/-- `a` may be listed before `b` among the properties of one object. -/
def listedBefore (a b : String) : Bool :=
  match indexValue a, indexValue b with
  | some m, some n => decide (m < n)
  | none, some _ => false
  | _, none => decide (a ≠ b)

mutual

/-- The tree is a JavaScript value without infinities: every object lists
distinct properties in property order. -/
def WellFormed [JsNumber N] : Json N → Prop
  | num n => (JsNumber.finiteValue n).isSome
  | arr items => ItemsWellFormed items
  | obj fields => (fields.map Prod.fst).Pairwise (fun a b => listedBefore a b = true) ∧
      FieldsWellFormed fields
  | _ => True

def ItemsWellFormed [JsNumber N] : List (Json N) → Prop
  | [] => True
  | v :: rest => WellFormed v ∧ ItemsWellFormed rest

def FieldsWellFormed [JsNumber N] : List (String × Json N) → Prop
  | [] => True
  | (_, v) :: rest => WellFormed v ∧ FieldsWellFormed rest

end

theorem hasKey_iff {fields : List (String × Json N)} {k : String} :
    hasKey fields k = true ↔ ∃ v, (k, v) ∈ fields := by
  simp [hasKey]

theorem lookup_cons (f : String × Json N) (rest : List (String × Json N)) (name : String) :
    lookup (f :: rest) name = if f.1 = name then some f.2 else lookup rest name := by
  by_cases h : f.1 = name
  · simp [lookup, h]
  · simp [lookup, h]

theorem lookup_isSome {fields : List (String × Json N)} {k : String} :
    (lookup fields k).isSome = hasKey fields k := by
  rw [Bool.eq_iff_iff, lookup, Option.isSome_map, List.find?_isSome, hasKey, List.any_eq_true]

theorem lookup_eq_none {fields : List (String × Json N)} {k : String} :
    lookup fields k = none ↔ hasKey fields k = false := by
  rw [← lookup_isSome, Option.isSome_eq_false_iff, Option.isNone_iff_eq_none]

theorem mem_of_lookup {fields : List (String × Json N)} {k : String} {v : Json N}
    (h : lookup fields k = some v) : (k, v) ∈ fields := by
  obtain ⟨f, hf, rfl⟩ := Option.map_eq_some_iff.mp h
  have hk : f.1 = k := by simpa using List.find?_some hf
  exact hk ▸ List.mem_of_find?_eq_some hf

end Json

/-- `JSON.parse`, with `none` for a syntax error, and `JSON.stringify`. -/
structure JsonText (N : Type) [JsNumber N] where
  parse : String → Option (Json N)
  stringify : Json N → String
  parse_stringify : ∀ v, v.WellFormed → parse (stringify v) = some v
  parse_empty : parse "" = none

theorem JsonText.stringify_ne_empty {N : Type} [JsNumber N] (text : JsonText N) {v : Json N}
    (h : v.WellFormed) : text.stringify v ≠ "" := by
  intro he
  have hp := text.parse_stringify v h
  rw [he, text.parse_empty] at hp
  cases hp

/-- An exception of the HTTP layer with the members of its response body that
depend on the failure. -/
structure HttpException where
  status : ℕ
  code : Option String
  message : String
deriving DecidableEq, Repr

/-- `new BadRequestException(message)`. -/
def badRequest (message : String) : HttpException := ⟨400, none, message⟩

end EncryptionGateway.JavaScript
