import Mathlib.Data.List.Basic

/-!
# Lists of fields

Fields in their order, whose names are compared by a key. A name can occur more
than once; setting it leaves one occurrence, at the end.
-/

namespace EncryptionGateway.Foundation

namespace FieldList

variable {κ κ' ν : Type*} [DecidableEq κ'] (key : κ → κ')

/-- The values of the fields with the name, in their order. -/
def values (fields : List (κ × ν)) (name : κ) : List ν :=
  (fields.filter fun f => key f.1 = key name).map Prod.snd

/-- One field with the name, after all others. -/
def set (fields : List (κ × ν)) (name : κ) (value : ν) : List (κ × ν) :=
  (fields.filter fun f => key f.1 ≠ key name) ++ [(name, value)]

variable {key} {fields fields' : List (κ × ν)} {name name' : κ}

end FieldList

end EncryptionGateway.Foundation
