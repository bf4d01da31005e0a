import EncryptionGateway.Foundation.Outcome
import EncryptionGateway.JavaScript.Json
import EncryptionGateway.JavaScript.Text

/-!
# The decrypted payload

`parsePayload` narrows a decrypted JSON value to the request a client wants the
gateway to make. Every check is followed by the condition under which it
passes.
-/

namespace EncryptionGateway.Common

open JavaScript Foundation

variable {N : Type}

/-- The request a client wants the gateway to make. Apart from `AccessPoint`
and `Method`, a field is the property as it was read, `none` being `undefined`. -/
structure DecryptedPayload (N : Type) where
  AccessPoint : String
  Method : Option String
  Header : Option (Json N)
  Body : Option (Json N)
  Parameter : Option (Json N)
  Nonce : Option (Json N)
  Timestamp : Option (Json N)

def fail (reason : String) : HttpException := badRequest ("Invalid payload: " ++ reason)

def isHeaderScalar : Json N → Bool
  | .str _ => true
  | .num _ => true
  | .bool _ => true
  | _ => false

section Headers

variable [JsNumber N]

def validateHeaderEntry (name : String) (item : Json N) (label : String) :
    Except HttpException Unit :=
  require (length name ≤ 256 && isHeaderScalar item && length item.toText ≤ 8192)
    (fail (label ++ " entries must have names up to 256 characters and scalar values " ++
      "up to 8192 characters"))

def validateHeaderMap (fields : List (String × Json N)) (label : String) :
    Except HttpException Unit := do
  require (fields.length ≤ 100) (fail (label ++ " must contain at most 100 entries"))
  fields.forM fun f => validateHeaderEntry f.1 f.2 label

/-- One element of a `Header` array: a `Key`/`Value` pair as soon as either
property is there, else a map. -/
def validateHeaderItem (entry : Json N) (label : String) : Except HttpException Unit :=
  match entry with
  | .obj fields =>
      if Json.hasKey fields "Key" || Json.hasKey fields "Value" then
        match Json.lookup fields "Key", Json.lookup fields "Value" with
        | some (.str key), some value => do
            require (isHeaderScalar value)
              (fail (label ++ " must have a string Key and scalar Value"))
            validateHeaderEntry key value label
        | _, _ => .error (fail (label ++ " must have a string Key and scalar Value"))
      else validateHeaderMap fields label
  | _ => .error (fail (label ++ " must be an object"))

/-- The checks on `p.Header`. -/
def validateHeader (header : Option (Json N)) : Except HttpException Unit :=
  match Json.present header with
  | none => .ok ()
  | some (.arr items) => do
      require (items.length ≤ 100) (fail "Header must contain at most 100 entries")
      items.zipIdx.forM fun e => validateHeaderItem e.1 ("Header[" ++ toString e.2 ++ "]")
  | some (.obj fields) => validateHeaderMap fields "Header"
  | some _ => .error (fail "Header must be an array or object")

/-- The limits on one header. -/
def HeaderFits (name : String) (item : Json N) : Prop :=
  length name ≤ 256 ∧ isHeaderScalar item = true ∧ length item.toText ≤ 8192

/-- A map of headers within the limits. -/
def MapFits (fields : List (String × Json N)) : Prop :=
  fields.length ≤ 100 ∧ ∀ f ∈ fields, HeaderFits f.1 f.2

/-- An element of a `Header` array within the limits. -/
def ItemFits (entry : Json N) : Prop :=
  ∃ fields, entry = .obj fields ∧
    if Json.hasKey fields "Key" || Json.hasKey fields "Value" then
      ∃ key value, Json.lookup fields "Key" = some (.str key) ∧
        Json.lookup fields "Value" = some value ∧ HeaderFits key value
    else MapFits fields

theorem validateHeaderEntry_eq_ok {name : String} {item : Json N} {label : String} {u : Unit} :
    validateHeaderEntry name item label = .ok u ↔ HeaderFits name item := by
  simp [validateHeaderEntry, HeaderFits, and_assoc]

theorem validateHeaderMap_eq_ok {fields : List (String × Json N)} {label : String} {u : Unit} :
    validateHeaderMap fields label = .ok u ↔ MapFits fields := by
  simp only [validateHeaderMap, bind_eq_ok, require_eq_ok, forM_eq_ok, validateHeaderEntry_eq_ok,
    decide_eq_true_eq, exists_const, MapFits]

theorem validateHeaderItem_eq_ok {entry : Json N} {label : String} {u : Unit} :
    validateHeaderItem entry label = .ok u ↔ ItemFits entry := by
  cases entry with
  | obj fields =>
      simp only [validateHeaderItem, ItemFits, Json.obj.injEq, exists_eq_left']
      split
      · constructor
        · intro h
          split at h
          · next key value hkey hvalue =>
              simp only [bind_eq_ok, require_eq_ok, validateHeaderEntry_eq_ok] at h
              obtain ⟨_, -, hfits⟩ := h
              exact ⟨key, value, hkey, hvalue, hfits⟩
          · cases h
        · rintro ⟨key, value, hkey, hvalue, hfits⟩
          simp only [hkey, hvalue, bind_eq_ok, require_eq_ok, validateHeaderEntry_eq_ok]
          exact ⟨(), hfits.2.1, hfits⟩
      · exact validateHeaderMap_eq_ok
  | _ => simp [validateHeaderItem, ItemFits]

theorem validateHeader_arr_eq_ok {items : List (Json N)} {u : Unit} :
    validateHeader (some (.arr items)) = .ok u ↔ items.length ≤ 100 ∧ ∀ e ∈ items, ItemFits e := by
  simp only [validateHeader, Json.present, bind_eq_ok, require_eq_ok, forM_eq_ok,
    validateHeaderItem_eq_ok, decide_eq_true_eq]
  constructor
  · rintro ⟨_, hlen, hall⟩
    refine ⟨hlen, fun e he => ?_⟩
    obtain ⟨i, hi⟩ := List.mem_iff_getElem?.mp he
    exact hall (e, i) (List.mem_zipIdx_iff_getElem?.mpr hi)
  · rintro ⟨hlen, hall⟩
    exact ⟨(), hlen, fun e he =>
      hall e.1 (List.mem_of_getElem? (List.mem_zipIdx_iff_getElem?.mp he))⟩

theorem validateHeader_obj_eq_ok {fields : List (String × Json N)} {u : Unit} :
    validateHeader (some (.obj fields)) = .ok u ↔ MapFits fields :=
  validateHeaderMap_eq_ok

end Headers

section Parameters

variable [JsNumber N]

/-- `Array.isArray(item) ? item : [item]`. -/
def parameterItems (item : Json N) : List (Json N) :=
  match item with
  | .arr items => items
  | v => [v]

/-- `null`, or a scalar of bounded length. -/
def isParameterItem (v : Json N) : Bool :=
  match v with
  | .null => true
  | v => isHeaderScalar v && length v.toText ≤ 8192

def validateParameters (fields : List (String × Json N)) : Except HttpException Unit := do
  require (fields.length ≤ 100) (fail "Parameter must contain at most 100 entries")
  fields.forM fun f =>
    require (length f.1 ≤ 256 && (parameterItems f.2).length ≤ 100 &&
        (parameterItems f.2).all isParameterItem)
      (fail "Parameter must contain scalar values or arrays of scalar values")

/-- The limits on query parameters. -/
def ParametersFit (fields : List (String × Json N)) : Prop :=
  fields.length ≤ 100 ∧ ∀ f ∈ fields, length f.1 ≤ 256 ∧ (parameterItems f.2).length ≤ 100 ∧
    ∀ v ∈ parameterItems f.2, isParameterItem v = true

theorem validateParameters_eq_ok {fields : List (String × Json N)} {u : Unit} :
    validateParameters fields = .ok u ↔ ParametersFit fields := by
  simp only [validateParameters, bind_eq_ok, require_eq_ok, forM_eq_ok, ParametersFit,
    decide_eq_true_eq, Bool.and_eq_true, List.all_eq_true, and_assoc, exists_const]

/-- The checks on `p.Parameter`. -/
def validateParameter (parameter : Option (Json N)) : Except HttpException Unit :=
  match Json.present parameter with
  | none => .ok ()
  | some (.str _) => .ok ()
  | some (.obj fields) => validateParameters fields
  | some _ => .error (fail "Parameter must be a JSON string or an object")

/-- The check `forward` repeats on the decoded parameters. -/
def validateParameterObject (value : Json N) : Except HttpException (List (String × Json N)) :=
  match value with
  | .obj fields => do
      validateParameters fields
      .ok fields
  | _ => .error (fail "Parameter must decode to an object")

theorem validateParameterObject_eq_ok {value : Json N} {fields : List (String × Json N)} :
    validateParameterObject value = .ok fields ↔ value = .obj fields ∧ ParametersFit fields := by
  cases value with
  | obj fields' =>
      simp only [validateParameterObject, bind_eq_ok, validateParameters_eq_ok, Json.obj.injEq]
      constructor
      · rintro ⟨_, hfit, heq⟩
        cases heq
        exact ⟨rfl, hfit⟩
      · rintro ⟨rfl, hfit⟩
        exact ⟨(), hfit, rfl⟩
  | _ => simp [validateParameterObject]

end Parameters

section Body

mutual

/-- Rejects a value with a container nested deeper than 32 levels; `depth` is
the level of the value itself. -/
def validateJsonDepth : Json N → ℕ → Except HttpException Unit
  | .arr items, depth =>
      if depth > 32 then .error (fail "Body nesting must not exceed 32 levels")
      else validateItemsDepth items (depth + 1)
  | .obj fields, depth =>
      if depth > 32 then .error (fail "Body nesting must not exceed 32 levels")
      else validateFieldsDepth fields (depth + 1)
  | _, depth => require (depth ≤ 32) (fail "Body nesting must not exceed 32 levels")

def validateItemsDepth : List (Json N) → ℕ → Except HttpException Unit
  | [], _ => .ok ()
  | v :: rest, depth => do
      validateJsonDepth v depth
      validateItemsDepth rest depth

def validateFieldsDepth : List (String × Json N) → ℕ → Except HttpException Unit
  | [], _ => .ok ()
  | (_, v) :: rest, depth => do
      validateJsonDepth v depth
      validateFieldsDepth rest depth

end

mutual

/-- The check passes when no container is nested deeper than 32 levels. -/
theorem validateJsonDepth_eq_ok : ∀ (v : Json N) (depth : ℕ) (u : Unit),
    validateJsonDepth v depth = .ok u ↔ depth + v.depth ≤ 32
  | .arr items, depth, u => by
      by_cases hd : depth ≤ 32
      · rw [validateJsonDepth, if_neg (Nat.not_lt.mpr hd), Json.depth]
        exact validateItemsDepth_eq_ok items depth u hd
      · rw [validateJsonDepth, if_pos (Nat.lt_of_not_le hd)]
        simp only [reduceCtorEq, false_iff]
        omega
  | .obj fields, depth, u => by
      by_cases hd : depth ≤ 32
      · rw [validateJsonDepth, if_neg (Nat.not_lt.mpr hd), Json.depth]
        exact validateFieldsDepth_eq_ok fields depth u hd
      · rw [validateJsonDepth, if_pos (Nat.lt_of_not_le hd)]
        simp only [reduceCtorEq, false_iff]
        omega
  | .null, depth, u => by simp [validateJsonDepth, Json.depth]
  | .bool _, depth, u => by simp [validateJsonDepth, Json.depth]
  | .num _, depth, u => by simp [validateJsonDepth, Json.depth]
  | .str _, depth, u => by simp [validateJsonDepth, Json.depth]

theorem validateItemsDepth_eq_ok : ∀ (items : List (Json N)) (depth : ℕ) (u : Unit), depth ≤ 32 →
    (validateItemsDepth items (depth + 1) = .ok u ↔ depth + Json.itemsDepth items ≤ 32)
  | [], depth, u, hd => by simpa [validateItemsDepth, Json.itemsDepth] using hd
  | v :: rest, depth, u, hd => by
      simp only [validateItemsDepth, Json.itemsDepth, bind_eq_ok, validateJsonDepth_eq_ok v,
        validateItemsDepth_eq_ok rest depth u hd, exists_const]
      omega

theorem validateFieldsDepth_eq_ok : ∀ (fields : List (String × Json N)) (depth : ℕ) (u : Unit),
    depth ≤ 32 →
    (validateFieldsDepth fields (depth + 1) = .ok u ↔ depth + Json.fieldsDepth fields ≤ 32)
  | [], depth, u, hd => by simpa [validateFieldsDepth, Json.fieldsDepth] using hd
  | (_, v) :: rest, depth, u, hd => by
      simp only [validateFieldsDepth, Json.fieldsDepth, bind_eq_ok, validateJsonDepth_eq_ok v,
        validateFieldsDepth_eq_ok rest depth u hd, exists_const]
      omega

end

variable [JsNumber N]

/-- A string that is JSON text stands for the value it spells. -/
def decodeBody (text : JsonText N) (body : Json N) : Json N :=
  match body with
  | .str s => (text.parse s).getD body
  | v => v

/-- Decode legacy JSON strings, then apply the same limits as JSON values. -/
def normalizeRequestBody (text : JsonText N) (body : Json N) : Except HttpException (Json N) := do
  let normalized := decodeBody text body
  validateJsonDepth normalized 0
  .ok normalized

theorem normalizeRequestBody_eq_ok {text : JsonText N} {body v : Json N} :
    normalizeRequestBody text body = .ok v ↔ v = decodeBody text body ∧ v.depth ≤ 32 := by
  simp only [normalizeRequestBody, bind_eq_ok, validateJsonDepth_eq_ok, Nat.zero_add,
    Except.ok.injEq]
  constructor
  · rintro ⟨_, hdepth, rfl⟩
    exact ⟨rfl, hdepth⟩
  · rintro ⟨rfl, hdepth⟩
    exact ⟨(), hdepth, rfl⟩

end Body

section ParsePayload

variable [JsNumber N]

/-- `p.AccessPoint`, a non-empty string. -/
def readAccessPoint (accessPoint : Option (Json N)) : Except HttpException String :=
  match accessPoint with
  | some (.str s) =>
      if s = "" then .error (fail "AccessPoint must be a non-empty string") else .ok s
  | _ => .error (fail "AccessPoint must be a non-empty string")

/-- A property that must be a string when it is there. -/
def readText (name : String) (v : Option (Json N)) : Except HttpException (Option String) :=
  match Json.present v with
  | none => .ok none
  | some (.str s) => .ok (some s)
  | some _ => .error (fail (name ++ " must be a string"))

def validateTimestamp (timestamp : Option (Json N)) : Except HttpException Unit :=
  match Json.present timestamp with
  | none => .ok ()
  | some (.str _) => .ok ()
  | some (.num _) => .ok ()
  | some _ => .error (fail "Timestamp must be a string or number")

/-- `p.Body` is checked here and decoded again when it is forwarded. -/
def validateBody (text : JsonText N) (body : Option (Json N)) : Except HttpException Unit :=
  match body with
  | none => .ok ()
  | some v => do
      let _ ← normalizeRequestBody text v
      .ok ()

/-- Validates the decrypted JSON and narrows it to `DecryptedPayload`. -/
def parsePayload (text : JsonText N) (value : Json N) : Except HttpException (DecryptedPayload N) :=
  match value with
  | .obj p => do
      let accessPoint ← readAccessPoint (Json.lookup p "AccessPoint")
      let method ← readText "Method" (Json.lookup p "Method")
      validateHeader (Json.lookup p "Header")
      validateParameter (Json.lookup p "Parameter")
      validateBody text (Json.lookup p "Body")
      let _ ← readText "Nonce" (Json.lookup p "Nonce")
      validateTimestamp (Json.lookup p "Timestamp")
      .ok {
        AccessPoint := accessPoint
        Method := method
        Header := Json.lookup p "Header"
        Body := Json.lookup p "Body"
        Parameter := Json.lookup p "Parameter"
        Nonce := Json.lookup p "Nonce"
        Timestamp := Json.lookup p "Timestamp" }
  | _ => .error (fail "must be a JSON object")

omit [JsNumber N] in
theorem readAccessPoint_eq_ok {v : Option (Json N)} {s : String} :
    readAccessPoint v = .ok s ↔ v = some (.str s) ∧ s ≠ "" := by
  unfold readAccessPoint
  split
  · next s' =>
      by_cases h : s' = ""
      · simp only [h, if_true, reduceCtorEq, Option.some.injEq, Json.str.injEq, false_iff]
        rintro ⟨rfl, hne⟩
        exact hne rfl
      · simp only [h, if_false, Except.ok.injEq, Option.some.injEq, Json.str.injEq]
        exact ⟨fun he => ⟨he, he ▸ h⟩, fun he => he.1⟩
  · next hno =>
      simp only [reduceCtorEq, false_iff]
      rintro ⟨rfl, -⟩
      exact hno s rfl

/-- What an accepted payload has passed. -/
theorem parsePayload_eq_ok {text : JsonText N} {value : Json N} {payload : DecryptedPayload N}
    (h : parsePayload text value = .ok payload) :
    ∃ p, value = .obj p ∧ Json.lookup p "AccessPoint" = some (.str payload.AccessPoint) ∧
      payload.AccessPoint ≠ "" ∧ readText "Method" (Json.lookup p "Method") = .ok payload.Method ∧
      payload.Header = Json.lookup p "Header" ∧ validateHeader payload.Header = .ok () ∧
      payload.Parameter = Json.lookup p "Parameter" ∧
      validateParameter payload.Parameter = .ok () ∧
      payload.Body = Json.lookup p "Body" ∧ validateBody text payload.Body = .ok () ∧
      payload.Nonce = Json.lookup p "Nonce" ∧ payload.Timestamp = Json.lookup p "Timestamp" := by
  cases value with
  | obj p =>
      simp only [parsePayload, bind_eq_ok, readAccessPoint_eq_ok, Except.ok.injEq] at h
      obtain ⟨accessPoint, ⟨haccess, hne⟩, method, hmethod, _, hheader, _, hparameter,
        _, hbody, -, -, -, -, rfl⟩ := h
      exact ⟨p, rfl, haccess, hne, hmethod, rfl, hheader, rfl, hparameter, rfl, hbody, rfl, rfl⟩
  | _ => simp [parsePayload] at h

/-! ## Refusals -/

/-- Every refusal of a payload is a 400. -/
def IsBadRequest (e : HttpException) : Prop := e.status = 400

theorem isBadRequest (message : String) : IsBadRequest (badRequest message) := rfl

theorem throwsOnly_check (c : Bool) (message : String) :
    ThrowsOnly IsBadRequest (require c (badRequest message)) :=
  throwsOnly_require (isBadRequest message)

omit [JsNumber N] in
theorem throwsOnly_readAccessPoint (v : Option (Json N)) :
    ThrowsOnly IsBadRequest (readAccessPoint v) := by
  unfold readAccessPoint
  split
  · split
    · exact throwsOnly_error rfl
    · exact throwsOnly_ok
  · exact throwsOnly_error rfl

omit [JsNumber N] in
theorem throwsOnly_readText (name : String) (v : Option (Json N)) :
    ThrowsOnly IsBadRequest (readText name v) := by
  unfold readText
  split
  · exact throwsOnly_ok
  · exact throwsOnly_ok
  · exact throwsOnly_error rfl

theorem throwsOnly_validateHeaderMap (fields : List (String × Json N)) (label : String) :
    ThrowsOnly IsBadRequest (validateHeaderMap fields label) :=
  (throwsOnly_check _ _).bind fun _ => throwsOnly_forM fun _ _ => throwsOnly_check _ _

theorem throwsOnly_validateHeaderItem (entry : Json N) (label : String) :
    ThrowsOnly IsBadRequest (validateHeaderItem entry label) := by
  unfold validateHeaderItem
  split
  · split
    · split
      · exact (throwsOnly_check _ _).bind fun _ => throwsOnly_check _ _
      · exact throwsOnly_error rfl
    · exact throwsOnly_validateHeaderMap _ _
  · exact throwsOnly_error rfl

theorem throwsOnly_validateHeader (header : Option (Json N)) :
    ThrowsOnly IsBadRequest (validateHeader header) := by
  unfold validateHeader
  split
  · exact throwsOnly_ok
  · exact (throwsOnly_check _ _).bind fun _ =>
      throwsOnly_forM fun _ _ => throwsOnly_validateHeaderItem _ _
  · exact throwsOnly_validateHeaderMap _ _
  · exact throwsOnly_error rfl

theorem throwsOnly_validateParameters (fields : List (String × Json N)) :
    ThrowsOnly IsBadRequest (validateParameters fields) :=
  (throwsOnly_check _ _).bind fun _ => throwsOnly_forM fun _ _ => throwsOnly_check _ _

theorem throwsOnly_validateParameter (parameter : Option (Json N)) :
    ThrowsOnly IsBadRequest (validateParameter parameter) := by
  unfold validateParameter
  split
  · exact throwsOnly_ok
  · exact throwsOnly_ok
  · exact throwsOnly_validateParameters _
  · exact throwsOnly_error rfl

theorem throwsOnly_validateParameterObject (value : Json N) :
    ThrowsOnly IsBadRequest (validateParameterObject value) := by
  unfold validateParameterObject
  split
  · exact (throwsOnly_validateParameters _).bind fun _ => throwsOnly_ok
  · exact throwsOnly_error rfl

omit [JsNumber N] in
mutual

theorem throwsOnly_validateJsonDepth : ∀ (v : Json N) (depth : ℕ),
    ThrowsOnly IsBadRequest (validateJsonDepth v depth)
  | .arr items, depth => by
      rw [validateJsonDepth]
      split
      · exact throwsOnly_error rfl
      · exact throwsOnly_validateItemsDepth items _
  | .obj fields, depth => by
      rw [validateJsonDepth]
      split
      · exact throwsOnly_error rfl
      · exact throwsOnly_validateFieldsDepth fields _
  | .null, _ => throwsOnly_check _ _
  | .bool _, _ => throwsOnly_check _ _
  | .num _, _ => throwsOnly_check _ _
  | .str _, _ => throwsOnly_check _ _

theorem throwsOnly_validateItemsDepth : ∀ (items : List (Json N)) (depth : ℕ),
    ThrowsOnly IsBadRequest (validateItemsDepth items depth)
  | [], _ => throwsOnly_ok
  | v :: rest, depth =>
      (throwsOnly_validateJsonDepth v depth).bind fun _ => throwsOnly_validateItemsDepth rest depth

theorem throwsOnly_validateFieldsDepth : ∀ (fields : List (String × Json N)) (depth : ℕ),
    ThrowsOnly IsBadRequest (validateFieldsDepth fields depth)
  | [], _ => throwsOnly_ok
  | (_, v) :: rest, depth =>
      (throwsOnly_validateJsonDepth v depth).bind fun _ => throwsOnly_validateFieldsDepth rest depth

end

theorem throwsOnly_normalizeRequestBody (text : JsonText N) (body : Json N) :
    ThrowsOnly IsBadRequest (normalizeRequestBody text body) :=
  (throwsOnly_validateJsonDepth _ 0).bind fun _ => throwsOnly_ok

theorem throwsOnly_parsePayload (text : JsonText N) (value : Json N) :
    ThrowsOnly IsBadRequest (parsePayload text value) := by
  unfold parsePayload
  split
  · refine (throwsOnly_readAccessPoint _).bind fun _ => (throwsOnly_readText _ _).bind fun _ =>
      (throwsOnly_validateHeader _).bind fun _ => (throwsOnly_validateParameter _).bind fun _ =>
      ThrowsOnly.bind ?_ fun _ => (throwsOnly_readText _ _).bind fun _ =>
      ThrowsOnly.bind ?_ fun _ => throwsOnly_ok
    · unfold validateBody
      split
      · exact throwsOnly_ok
      · exact (throwsOnly_normalizeRequestBody text _).bind fun _ => throwsOnly_ok
    · unfold validateTimestamp
      split
      · exact throwsOnly_ok
      · exact throwsOnly_ok
      · exact throwsOnly_ok
      · exact throwsOnly_error rfl
  · exact throwsOnly_error rfl

end ParsePayload

end EncryptionGateway.Common
