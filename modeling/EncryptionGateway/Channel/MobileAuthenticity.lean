import EncryptionGateway.Channel.MobileDelivery

/-!
# Authenticity for all SDKs

Calls are made through any SDK on one open network. What a call returns was
sealed by the gateway for this call, whatever the attacker has put together out
of the messages of the other calls and however the SDK reads it.

## Implementation notes

The message of a call is the same through all SDKs, so a call is sent as before
and only the second half of `send` is added. That half leaves the state as it
is, and a run without these steps is one of the network with the Web SDK alone.
-/

namespace EncryptionGateway.Channel

open JavaScript Foundation Common Encryption Proxy Client

variable {N K : Type} [JsNumber N] [DecidableEq K]

inductive SdkEvent (N K : Type) [JsNumber N]
  | network (e : Event N K)
  | returned (i : ℕ) (outcome : Except MobileError (SendResult N))

/-- The attacker can answer with the body, as far as the client reads it. -/
def Readable (net : Network N K) (s : State N K) (client : MobileClient N (Buffer K))
    (body : String) : Prop :=
  ∀ envelope, net.text.parse body = some (.obj envelope) → ∀ k ∈ ["IV", "Payload"], ∀ b,
    client.boxField (Json.lookup envelope k) = .ok b → Derivable net.compromised s.wire b

inductive SdkStep (net : Network N K) (platform : MobilePlatform N (Buffer K)) :
    State N K → SdkEvent N K → State N K → Prop
  | network {s s' : State N K} {e : Event N K} (h : Step net s e s') :
      SdkStep net platform s (.network e) s'
  /-- The second half of `send` on a phone. -/
  | receive {s : State N K} {i : ℕ} {call : Call N K} (hcall : s.calls[i]? = some call)
      {client : MobileClient N (Buffer K)}
      (hclient : client ∈ mobileClients platform net.platform.crypto) {options : MobileOptions N}
      (hoptions : call.options = options.toSendOptions) (res : HttpResponse)
      (hres : Readable net s client res.body) {outcome : Except MobileError (SendResult N)}
      (h : client.response true net.platform.crypto net.text (.secret i) res = outcome) :
      SdkStep net platform s (.returned i outcome) s

/-- What the Web SDK alone would show. -/
def SdkEvent.network? : SdkEvent N K → Option (Event N K)
  | .network e => some e
  | .returned _ _ => none

variable {net : Network N K} {platform : MobilePlatform N (Buffer K)} {tr : List (SdkEvent N K)}
  {s : State N K}

/-- What the gateway has answered can be sent again. -/
theorem readable_answer {client : MobileClient N (Buffer K)}
    (hclient : client.Lawful net.platform.crypto) {upstream : UpstreamResponse N} {iv : Bytes}
    {aesKey : Buffer K} (h : replyBuffers net (.ok (answer net upstream iv aesKey)) ⊆ s.wire) :
    Readable net s client (net.text.write (EncryptionService.encryptResponse net.platform.crypto
      net.text (.data iv) (.obj (resultFields upstream)) aesKey).toJson) := by
  let response := EncryptionService.encryptResponse net.platform.crypto net.text (.data iv)
    (.obj (resultFields upstream)) aesKey
  have hparsed : net.text.parse (net.text.write (response.toJson : Json N)) =
      some response.toJson := by
    rw [net.text.parse_write response.wellFormed_toJson.isValue,
      Json.serialised_of_wellFormed _ response.wellFormed_toJson]
  rw [replyBuffers_answer] at h
  intro envelope hjson k hk b hb
  obtain rfl := Json.obj.inj (Option.some.inj (hparsed.symm.trans hjson))
  simp only [List.mem_cons, List.not_mem_nil, or_false] at hk
  apply Derivable.replay
  rcases hk with rfl | rfl
  · obtain rfl := Except.ok.inj ((hclient.boxField_toBase64 _).symm.trans hb)
    exact h List.mem_cons_self
  · obtain rfl := Except.ok.inj ((hclient.boxField_toBase64 _).symm.trans hb)
    exact h (List.mem_cons_of_mem _ List.mem_cons_self)

/-- The phones leave no trace on the network. -/
theorem network_of_run {s₀ : State N K} (run : Run (SdkStep net platform) s₀ tr s) :
    Run (Step net) s₀ (tr.filterMap SdkEvent.network?) s := by
  induction run with
  | nil s => exact .nil s
  | cons head _ ih =>
      cases head with
      | network h => exact .cons h ih
      | receive _ _ _ _ _ _ => exact ih

omit [DecidableEq K] in
theorem at_network {m : ℕ} {e : Event N K} (h : (tr.filterMap SdkEvent.network?)[m]? = some e) :
    ∃ k : ℕ, tr[k]? = some (SdkEvent.network e) := by
  obtain ⟨event, hevent, hview⟩ := List.mem_filterMap.mp (List.mem_of_getElem? h)
  cases event with
  | network _ =>
      cases hview
      exact List.mem_iff_getElem?.mp hevent
  | returned _ _ => cases hview

/-- A result that a phone returns is one the gateway has sealed under the key of
the call. -/
theorem Authentic.answered_of_phone {events : List (Event N K)} (h : Authentic net events s)
    {client : MobileClient N (Buffer K)} (hclient : client.Lawful net.platform.crypto) {i : ℕ}
    {res : HttpResponse} (hres : Readable net s client res.body) {r : SendResult N}
    (hresponse : client.response true net.platform.crypto net.text (.secret i) res = .ok r) :
    ∃ m handling upstream, Answered net events i m handling upstream ∧
      Agrees (delivered upstream) r := by
  obtain ⟨envelope, hbody, hopened⟩ := MobileClient.response_eq_ok hresponse
  obtain ⟨iv, sealed, plain, fields, -, hsealed, -, hopen, hparse, hresult⟩ :=
    MobileClient.openResponse_eq_ok.mp hopened
  have hbox : Derivable net.compromised s.wire (.sealed (.secret i) iv plain) := by
    have hderivable := hres envelope hbody "Payload" (by simp) sealed hsealed
    rwa [openGcm_eq_some.mp hopen] at hderivable
  rcases hbox.authentic (h.wire i) with
    ⟨call, -, rfl⟩ | ⟨m, handling, upstream, hanswered, hvalue, rfl⟩
  · -- the box of the request itself
    rw [net.text.parse_write (isValue_payload call.options), Option.some.injEq] at hparse
    obtain ⟨hstatus, -⟩ := MobileClient.result_eq_ok.mp hresult
    have hnone : call.options.payload.serialised.get "StatusCode" = none := by
      rw [Json.get_serialised, payload_get_statusCode]
      rfl
    rw [hparse, Json.get, hstatus] at hnone
    cases hnone
  · rw [net.text.parse_write (isValue_result hvalue), Option.some.injEq] at hparse
    have hholds : Holds fields upstream := by
      intro k _
      have hget := Json.get_serialised (Json.obj (resultFields upstream)) k
      rwa [hparse] at hget
    exact ⟨m, handling, upstream, hanswered, (shown_of_result hholds hresult).agrees hclient⟩

/-- Whatever a phone returns is the response of the upstream that the gateway
has sealed for this call, while it handled the payload of this call. -/
theorem phone_results_authentic (hplatform : platform.Lawful net.platform.crypto)
    (run : Run (SdkStep net platform) .initial tr s) (n i : ℕ) (r : SendResult N)
    (hn : tr[n]? = some (.returned i (.ok r))) :
    ∃ m < n, ∃ (handling : Handling N K) (exchange : Exchange N) (upstream : UpstreamResponse N)
        (iv : Bytes),
      tr[m]? = some (.network (.completed handling exchange
        (.ok (answer net upstream iv (.secret i))))) ∧
      handling.aesKey = .secret i ∧ SealedBy net s i handling.payload ∧
      exchange.result = .ok upstream ∧ Agrees (delivered upstream) r := by
  have hfinal := authentic_of_run (network_of_run run)
  obtain ⟨pre, post, rfl, rfl⟩ := split_at hn
  obtain ⟨t, t', hpre, hstep, -⟩ := run.at_label
  cases hstep with
  | receive hcall hclient hoptions res hres hresponse =>
      obtain ⟨k, handling, upstream, ⟨exchange, iv, hk, hresult, hkey⟩, hagrees⟩ :=
        (authentic_of_run (network_of_run hpre)).answered_of_phone
          (lawful_of_mem_mobileClients hplatform hclient) hres hresponse
      obtain ⟨m, hm⟩ := at_network hk
      rw [List.filterMap_append] at hfinal
      have hsealed := hfinal.completed k handling exchange _ (at_append hk _) i hkey
      exact ⟨m, lt_length_of_at hm, handling, exchange, upstream, iv, hkey ▸ at_append hm _, hkey,
        hsealed, hresult, hagrees⟩

/-- Calls are made to servers whose keys are safe. -/
theorem safe_of_run {events : List (Event N K)} (run : Run (Step net) .initial events s) :
    ∀ call ∈ s.calls, ¬ net.compromised call.client.serverKey := by
  apply run.invariant (I := fun s => ∀ call ∈ s.calls, ¬ net.compromised call.client.serverKey)
  · intro call hcall
    cases hcall
  · intro t l u hsafe hstep
    cases hstep with
    | send call hkey =>
        intro call' hcall'
        rcases List.mem_append.mp hcall' with hold | hnew
        · exact hsafe call' hold
        · exact List.mem_singleton.mp hnew ▸ hkey
    | receive _ _ _ _ => exact hsafe
    | accept _ _ _ _ => exact hsafe
    | refuse _ _ _ _ => exact hsafe
    | complete _ _ _ _ _ => exact hsafe

/-- The messages of a call stay closed: no key that the attacker comes to know
opens a box of the call, and no private key it holds unwraps the key of the call. -/
theorem messages_stay_closed (run : Run (SdkStep net platform) .initial tr s) (i : ℕ) :
    (∀ key, Derivable net.compromised s.wire key → ∀ iv iv' text,
      net.platform.crypto.openGcm key iv (.sealed (.secret i) iv' text) = none) ∧
    ∀ call, s.calls[i]? = some call → ∀ privateKey, net.compromised privateKey →
      net.platform.crypto.decryptOaep privateKey
        (net.platform.crypto.fromBase64 (call.request net i).EncryptedKey) = none := by
  have hnetwork := network_of_run run
  constructor
  · intro key hkey iv iv' text
    refine if_neg ?_
    rintro ⟨rfl, -⟩
    exact secret_of_run hnetwork i hkey
  · intro call hcall privateKey hcompromised
    have hsafe := safe_of_run hnetwork call (List.mem_of_getElem? hcall)
    have hwrapped : net.platform.crypto.fromBase64 (call.request net i).EncryptedKey =
        .wrapped call.client.serverKey (.data call.seed) (.secret i) :=
      net.codec.decode_encode _
    rw [hwrapped]
    refine if_neg ?_
    rintro rfl
    exact hsafe hcompromised

section Samples

def phoneReply : Except HttpException (GatewayReply ℤ) :=
  .ok (answer sampleNetwork sampleResponse (List.replicate 12 1) (.secret 0))

/-- A payment that is made on a phone. -/
theorem phone_run : ∃ s r, s.calls[0]? = some sampleCall ∧
    Run (SdkStep sampleNetwork SdkCall.samplePhone) .initial
    [.network (.sent sampleCall), .network (.accepted sampleHandling),
      .network (.completed sampleHandling sampleExchange phoneReply), .returned 0 (.ok r)] s := by
  let dto := sampleCall.request sampleNetwork 0
  let sent : State ℤ Bool := ⟨[sampleCall], [], .empty, requestBuffers sampleNetwork dto ++ []⟩
  let accepted : State ℤ Bool := { sent with pending := [sampleHandling] }
  let completed : State ℤ Bool :=
    { sent with wire := replyBuffers sampleNetwork phoneReply ++ sent.wire }
  have hsend : Step sampleNetwork .initial (.sent sampleCall) sent :=
    .send sampleCall (by simp [sampleNetwork, sampleCall])
  have haccept : Step sampleNetwork sent (.accepted sampleHandling) accepted :=
    .accept dto (sendable_of_subset (List.subset_append_left _ _)) 0 (accept_sampleCall .empty)
  have hcomplete : Step sampleNetwork accepted (.completed sampleHandling sampleExchange phoneReply)
      completed := by
    have hpending : accepted.pending = [] ++ sampleHandling :: [] := rfl
    exact .complete hpending sampleUpstream (List.replicate 12 1) rfl rfl
  have hclient : androidClient SdkCall.samplePhone ∈
      mobileClients SdkCall.samplePhone sampleNetwork.platform.crypto := List.mem_cons_self
  have hvalue : sampleResponse.data.IsValue := trivial
  have hiv : sampleNetwork.platform.crypto.length (.data (List.replicate 12 1)) =
      GCM_IV_BYTES := rfl
  have haes : sampleNetwork.platform.crypto.length (.secret 0) = AES_KEY_BYTES := rfl
  have hlaws : (androidClient SdkCall.samplePhone).Lawful sampleNetwork.platform.crypto :=
    lawful_androidClient SdkCall.lawful_samplePhone
  obtain ⟨r, hr, -⟩ := mobile_reads_sealed (lawful_symbolicCrypto _) hlaws sampleNetwork.text true
    hiv haes hvalue ⟨by decide, by decide⟩
  have hreceive : SdkStep sampleNetwork SdkCall.samplePhone completed (.returned 0 (.ok r))
      completed := by
    have hcall : completed.calls[0]? = some sampleCall := rfl
    have hoptions : sampleCall.options = SdkCall.phonePayment.toSendOptions := rfl
    have hwire : replyBuffers sampleNetwork (.ok (answer sampleNetwork sampleResponse
        (List.replicate 12 1) (.secret 0))) ⊆ completed.wire := List.subset_append_left _ _
    have hreadable := readable_answer hlaws hwire
    exact .receive hcall hclient hoptions ⟨200, _⟩ hreadable hr
  exact ⟨completed, r, rfl, .cons (.network hsend) (.cons (.network haccept)
    (.cons (.network hcomplete) (.cons hreceive (.nil completed))))⟩

theorem phone_results_authentic_payment : ∃ s r, ∃ m < 3, ∃ (handling : Handling ℤ Bool)
      (exchange : Exchange ℤ) (upstream : UpstreamResponse ℤ) (iv : Bytes),
    [SdkEvent.network (.sent sampleCall), .network (.accepted sampleHandling),
      .network (.completed sampleHandling sampleExchange phoneReply), .returned 0 (.ok r)][m]? =
        some (.network (.completed handling exchange
          (.ok (answer sampleNetwork upstream iv (.secret 0))))) ∧
    handling.aesKey = .secret 0 ∧ SealedBy sampleNetwork s 0 handling.payload ∧
    exchange.result = .ok upstream ∧ Agrees (delivered upstream) r := by
  obtain ⟨s, r, -, run⟩ := phone_run
  exact ⟨s, r, phone_results_authentic SdkCall.lawful_samplePhone run 3 0 r rfl⟩

/-- Nobody else opens the payment, not even with the key of another server. -/
theorem messages_stay_closed_payment : sampleNetwork.compromised false ∧
    sampleNetwork.platform.crypto.decryptOaep false (sampleNetwork.platform.crypto.fromBase64
      (sampleCall.request sampleNetwork 0).EncryptedKey) = none ∧
    ∃ s : State ℤ Bool, s.calls[0]? = some sampleCall ∧
      ∀ key, Derivable sampleNetwork.compromised s.wire key → ∀ iv iv' text,
        sampleNetwork.platform.crypto.openGcm key iv (.sealed (.secret 0) iv' text) = none := by
  obtain ⟨s, r, hcall, run⟩ := phone_run
  obtain ⟨hclosed, hwrapped⟩ := messages_stay_closed run 0
  exact ⟨rfl, hwrapped sampleCall hcall false rfl, s, hcall, hclosed⟩

end Samples

end EncryptionGateway.Channel
