import EncryptionGateway.Proxy.Mediation

/-!
# Legacy string forms

A client may send `Parameter` as an object or as the JSON text of that object,
and `Body` as a value or as its JSON text. Both forms lead to the same upstream
request, or neither leads to one.

## Implementation notes

An object `Parameter` is checked by `parsePayload`, its text only when the
request is prepared. So the two forms of a `Parameter` beyond the limits may be
refused with different messages.
-/

namespace EncryptionGateway.Proxy

open JavaScript Foundation Common

variable {N : Type} [JsNumber N]

/-- A property that may have been replaced by its JSON text, if it satisfies `P`. -/
inductive Spelled (text : JsonText N) (P : Json N → Prop) :
    Option (Json N) → Option (Json N) → Prop
  | same (v : Option (Json N)) : Spelled text P v v
  | spelled {v : Json N} (hvalue : v.WellFormed) (h : P v) :
      Spelled text P (some v) (some (.str (text.stringify v)))

def IsObject (v : Json N) : Prop := ∃ fields, v = .obj fields

/-- A body that is neither `null` nor a string. -/
def IsBodyValue (v : Json N) : Prop := v ≠ .null ∧ ∀ s, v ≠ .str s

/-- `p'` is the payload `p` with the JSON text of its `Parameter` object or of
its `Body` in their place, or of both. -/
structure LegacyForm (text : JsonText N) (p p' : List (String × Json N)) : Prop where
  others : ∀ k, k ≠ "Parameter" → k ≠ "Body" → Json.lookup p' k = Json.lookup p k
  parameter : Spelled text IsObject (Json.lookup p "Parameter") (Json.lookup p' "Parameter")
  body : Spelled text IsBodyValue (Json.lookup p "Body") (Json.lookup p' "Body")

section Bodies

variable {text : JsonText N} {v v' : Option (Json N)}

theorem normalizeRequestBody_stringify {v : Json N} (hvalue : v.WellFormed) (h : IsBodyValue v) :
    normalizeRequestBody text (.str (text.stringify v)) = normalizeRequestBody text v := by
  have htext : decodeBody text (.str (text.stringify v)) = v := by
    rw [decodeBody, text.parse_stringify v hvalue, Option.getD_some]
  have hself : decodeBody text v = v := by
    unfold decodeBody
    split
    · next s => exact absurd rfl (h.2 s)
    · rfl
  rw [normalizeRequestBody, normalizeRequestBody, htext, hself]

theorem validateBody_spelled (h : Spelled text IsBodyValue v v') :
    validateBody text v' = validateBody text v := by
  cases h with
  | same => rfl
  | spelled hvalue h =>
      rw [validateBody, validateBody, normalizeRequestBody_stringify hvalue h]

theorem requestBody_some (method : String) {v : Json N} (hnull : v ≠ .null)
    (hempty : v ≠ .str "") :
    ProxyService.requestBody text method (some v) =
      if METHODS_WITHOUT_BODY.contains method then .ok none
      else (normalizeRequestBody text v).map some := by
  have hpresent : Json.present (some v) = some v := by
    unfold Json.present
    split
    · next h => exact absurd (Option.some.inj h) hnull
    · rfl
  rw [ProxyService.requestBody, hpresent]
  split
  · next h => cases h
  · next h => exact absurd (Option.some.inj h) hempty
  · next h =>
      cases h
      rfl

theorem requestBody_spelled (h : Spelled text IsBodyValue v v') (method : String) :
    ProxyService.requestBody text method v' = ProxyService.requestBody text method v := by
  cases h with
  | same => rfl
  | @spelled v hvalue h =>
      have hempty : Json.str (text.stringify v) ≠ (.str "" : Json N) := fun he =>
        text.stringify_ne_empty hvalue (Json.str.inj he)
      rw [requestBody_some method (fun he => by cases he) hempty,
        requestBody_some method h.1 (h.2 ""), normalizeRequestBody_stringify hvalue h]

end Bodies

section Parameters

variable {text : JsonText N} {fields : List (String × Json N)}

/-- The limits on an object, in either form. -/
theorem requestParams_spelled (hvalue : (Json.obj fields).WellFormed) :
    ProxyService.requestParams text (some (.str (text.stringify (.obj fields)))) =
      ((validateParameterObject (.obj fields)).mapError fun _ =>
        badRequest "Parameter must be valid JSON object data").map some := by
  unfold ProxyService.requestParams
  split
  · next h =>
      have hs := Json.str.inj (Option.some.inj h)
      exact absurd hs (text.stringify_ne_empty hvalue)
  · next h =>
      cases h
      rw [text.parse_stringify _ hvalue]
  · next h => cases h
  · next h => cases h
  · next hstr _ _ => exact absurd rfl (hstr _)

/-- An object within the limits passes every check in both forms. -/
theorem parameter_spelled_of_fit (hvalue : (Json.obj fields).WellFormed)
    (hfit : ParametersFit fields) :
    validateParameter (some (.str (text.stringify (.obj fields)) : Json N)) =
        validateParameter (some (.obj fields)) ∧
      ProxyService.requestParams text (some (.str (text.stringify (.obj fields)))) =
        ProxyService.requestParams text (some (.obj fields)) := by
  have hok : validateParameterObject (.obj fields) = .ok fields :=
    validateParameterObject_eq_ok.mpr ⟨rfl, hfit⟩
  constructor
  · exact (validateParameters_eq_ok.mpr hfit).symm
  · rw [requestParams_spelled hvalue, ProxyService.requestParams, hok]
    rfl

end Parameters

section Outcomes

variable {text : JsonText N} {p p' : List (String × Json N)}

/-- The payload with other values of the two properties. -/
def withForms (body parameter : Option (Json N)) (payload : DecryptedPayload N) :
    DecryptedPayload N :=
  { payload with Body := body, Parameter := parameter }

/-- Payloads that differ in the two properties alone, which pass the same
checks, are read alike. -/
theorem parsePayload_withForms
    (hothers : ∀ k, k ≠ "Parameter" → k ≠ "Body" → Json.lookup p' k = Json.lookup p k)
    (hparameter : validateParameter (Json.lookup p' "Parameter") =
      validateParameter (Json.lookup p "Parameter"))
    (hbody : validateBody text (Json.lookup p' "Body") = validateBody text (Json.lookup p "Body")) :
    parsePayload text (.obj p') =
      (parsePayload text (.obj p)).map
        (withForms (Json.lookup p' "Body") (Json.lookup p' "Parameter")) := by
  rw [parsePayload, parsePayload, hparameter, hbody, hothers "AccessPoint" (by decide) (by decide),
    hothers "Method" (by decide) (by decide), hothers "Header" (by decide) (by decide),
    hothers "Nonce" (by decide) (by decide), hothers "Timestamp" (by decide) (by decide)]
  simp only [map_bind]
  rfl

theorem prepare_withForms (service : ProxyService) (parseUrl : UrlParser)
    {payload : DecryptedPayload N} {body parameter : Option (Json N)}
    (hbody : ∀ method, ProxyService.requestBody text method body =
      ProxyService.requestBody text method payload.Body)
    (hparameter : ProxyService.requestParams text parameter =
      ProxyService.requestParams text payload.Parameter) :
    service.prepare text parseUrl (withForms body parameter payload) =
      service.prepare text parseUrl payload := by
  simp only [ProxyService.prepare, withForms, hbody, hparameter]

/-- Payloads whose two properties pass the same checks at both stages have the
same outcome. -/
theorem handle_eq_of_checks (service : ProxyService) (parseUrl : UrlParser)
    (upstream : UpstreamRequest N → Except String (UpstreamReply N)) (h : LegacyForm text p p')
    (hvalidate : validateParameter (Json.lookup p' "Parameter") =
      validateParameter (Json.lookup p "Parameter"))
    (hparams : ProxyService.requestParams text (Json.lookup p' "Parameter") =
      ProxyService.requestParams text (Json.lookup p "Parameter")) :
    service.handle text parseUrl upstream (.obj p') =
      service.handle text parseUrl upstream (.obj p) := by
  rw [ProxyService.handle, ProxyService.handle,
    parsePayload_withForms h.others hvalidate (validateBody_spelled h.body)]
  cases hparse : parsePayload text (.obj p) with
  | error e => rfl
  | ok payload =>
      obtain ⟨q, hq, -, -, -, -, -, hparameter, -, hbody, -⟩ := parsePayload_eq_ok hparse
      cases hq
      have hrequestBody : ∀ method,
          ProxyService.requestBody text method (Json.lookup p' "Body") =
            ProxyService.requestBody text method payload.Body := by
        intro method
        rw [hbody]
        exact requestBody_spelled h.body method
      rw [← hparameter] at hparams
      have hprepare := prepare_withForms service parseUrl hrequestBody hparams
      simp only [Except.map, ProxyService.forward, hprepare]

/-- A 400 without an upstream request. -/
def Refused (exchange : Exchange N) : Prop :=
  exchange.calls = [] ∧ ∃ e, exchange.result = .error e ∧ e.status = 400

/-- Handling is a refusal unless every check of both stages passes. -/
theorem refused_or_prepared (service : ProxyService) (parseUrl : UrlParser)
    (upstream : UpstreamRequest N → Except String (UpstreamReply N)) (value : Json N) :
    Refused (service.handle text parseUrl upstream value) ∨
      ∃ payload request, parsePayload text value = .ok payload ∧
        service.prepare text parseUrl payload = .ok request := by
  unfold ProxyService.handle
  cases hparse : parsePayload text value with
  | error e => exact Or.inl ⟨rfl, e, rfl, throwsOnly_parsePayload text value e hparse⟩
  | ok payload =>
      cases hprepare : service.prepare text parseUrl payload with
      | error e =>
          have hstatus := ProxyService.throwsOnly_prepare service parseUrl payload e hprepare
          simp only [ProxyService.forward, hprepare]
          exact Or.inl ⟨rfl, e, rfl, hstatus⟩
      | ok request => exact Or.inr ⟨payload, request, rfl, hprepare⟩

/-- An object beyond the limits is refused in both forms. -/
theorem refused_of_not_fit (service : ProxyService) (parseUrl : UrlParser)
    (upstream : UpstreamRequest N → Except String (UpstreamReply N))
    {fields : List (String × Json N)} (hvalue : (Json.obj fields).WellFormed)
    (hlimits : ¬ ParametersFit fields)
    (hform : Json.lookup p "Parameter" = some (.obj fields) ∨
      Json.lookup p "Parameter" = some (.str (text.stringify (.obj fields)))) :
    Refused (service.handle text parseUrl upstream (.obj p)) := by
  rcases refused_or_prepared service parseUrl upstream (.obj p) with
    hrefused | ⟨payload, request, hparse, hprepare⟩
  · exact hrefused
  · exfalso
    obtain ⟨q, hq, -, -, -, -, -, hparameter, hvalidate, -⟩ := parsePayload_eq_ok hparse
    cases hq
    rw [hparameter] at hvalidate
    rcases hform with hform | hform
    · rw [hform] at hvalidate
      exact hlimits (validateParameters_eq_ok.mp hvalidate)
    · simp only [ProxyService.prepare, bind_eq_ok] at hprepare
      obtain ⟨_, -, url, -, _, -, headers, -, data, -, params, hparams, -⟩ := hprepare
      rw [hparameter, hform, requestParams_spelled hvalue] at hparams
      obtain ⟨fields', hfields, -⟩ := map_eq_ok.mp hparams
      obtain ⟨hsame, hfit⟩ := validateParameterObject_eq_ok.mp (mapError_eq_ok.mp hfields)
      cases hsame
      exact hlimits hfit

/-- The two forms have one outcome, or both are refused. -/
theorem handle_eq_or_refused (service : ProxyService) (parseUrl : UrlParser)
    (upstream : UpstreamRequest N → Except String (UpstreamReply N)) (h : LegacyForm text p p') :
    service.handle text parseUrl upstream (.obj p') =
        service.handle text parseUrl upstream (.obj p) ∨
      Refused (service.handle text parseUrl upstream (.obj p)) ∧
        Refused (service.handle text parseUrl upstream (.obj p')) := by
  have hparameter := h.parameter
  generalize hold : Json.lookup p "Parameter" = old at hparameter
  generalize hnew : Json.lookup p' "Parameter" = new at hparameter
  cases hparameter with
  | same =>
      have hsame := hnew.trans hold.symm
      exact Or.inl (handle_eq_of_checks service parseUrl upstream h (by rw [hsame]) (by rw [hsame]))
  | spelled hvalue hobject =>
      obtain ⟨fields, rfl⟩ := hobject
      by_cases hfit : ParametersFit fields
      · obtain ⟨hvalidate, hparams⟩ := parameter_spelled_of_fit hvalue hfit
        rw [← hold, ← hnew] at hvalidate hparams
        exact Or.inl (handle_eq_of_checks service parseUrl upstream h hvalidate hparams)
      · exact Or.inr ⟨refused_of_not_fit service parseUrl upstream hvalue hfit (Or.inl hold),
          refused_of_not_fit service parseUrl upstream hvalue hfit (Or.inr hnew)⟩

/-- A payload and its legacy form lead to one upstream request and the same
answer, or both to a 400 without an upstream request. -/
theorem legacy_forms_equivalent (text : JsonText N) (service : ProxyService) (parseUrl : UrlParser)
    (upstream : UpstreamRequest N → Except String (UpstreamReply N)) (h : LegacyForm text p p') :
    (∃ request, (service.handle text parseUrl upstream (.obj p)).calls = [request] ∧
        service.handle text parseUrl upstream (.obj p') =
          service.handle text parseUrl upstream (.obj p)) ∨
      Refused (service.handle text parseUrl upstream (.obj p)) ∧
        Refused (service.handle text parseUrl upstream (.obj p')) := by
  rcases handle_eq_or_refused service parseUrl upstream h with hsame | hrefused
  · rcases refused_or_prepared service parseUrl upstream (.obj p) with
      hrefused | ⟨payload, request, hparse, hprepare⟩
    · exact Or.inr ⟨hrefused, hsame ▸ hrefused⟩
    · refine Or.inl ⟨request, ?_, hsame⟩
      simp only [ProxyService.handle, hparse, ProxyService.forward, hprepare]
  · exact Or.inr hrefused

end Outcomes

section Samples

/-- The properties of a payment whose body and query are values. -/
def paymentFields (body parameter : Json ℤ) : List (String × Json ℤ) :=
  [("AccessPoint", .str "https://api.example.com/pay/now"), ("Method", .str "post"),
    ("Body", body), ("Parameter", parameter)]

def paymentBody : Json ℤ := .obj [("amount", .num 5)]
def paymentQuery : Json ℤ := .obj [("dry", .bool true)]

theorem wellFormed_paymentBody : paymentBody.WellFormed :=
  ⟨List.pairwise_singleton _ _, rfl, trivial⟩

theorem wellFormed_paymentQuery : paymentQuery.WellFormed :=
  ⟨List.pairwise_singleton _ _, trivial, trivial⟩

theorem isBodyValue_paymentBody : IsBodyValue paymentBody := by
  constructor
  · intro h
    cases h
  · intro s h
    cases h

theorem legacyForm_payment : LegacyForm (JsonText.standard ℤ)
    (paymentFields paymentBody paymentQuery)
    (paymentFields (.str ((JsonText.standard ℤ).stringify paymentBody))
      (.str ((JsonText.standard ℤ).stringify paymentQuery))) where
  others k hparameter hbody := by
    simp only [paymentFields, Json.lookup_cons, if_neg (Ne.symm hparameter), if_neg (Ne.symm hbody)]
  parameter := .spelled wellFormed_paymentQuery ⟨_, rfl⟩
  body := .spelled wellFormed_paymentBody isBodyValue_paymentBody

theorem legacy_forms_equivalent_payment :
    ∃ request, (ProxyService.sampleService.handle (JsonText.standard ℤ) ProxyService.sampleParser
        (fun _ => .error "ECONNREFUSED") (.obj (paymentFields
          (.str ((JsonText.standard ℤ).stringify paymentBody))
          (.str ((JsonText.standard ℤ).stringify paymentQuery))))).calls = [request] := by
  rcases legacy_forms_equivalent (JsonText.standard ℤ) ProxyService.sampleService
    ProxyService.sampleParser (fun _ => .error "ECONNREFUSED") legacyForm_payment with
    ⟨request, hcalls, hsame⟩ | ⟨⟨hnone, -⟩, -⟩
  · refine ⟨request, ?_⟩
    rw [hsame]
    exact hcalls
  · have hcalled : (ProxyService.sampleService.handle (JsonText.standard ℤ)
        ProxyService.sampleParser (fun _ => .error "ECONNREFUSED")
        (.obj (paymentFields paymentBody paymentQuery))).calls.length = 1 := rfl
    rw [hnone] at hcalled
    cases hcalled

end Samples

end EncryptionGateway.Proxy
