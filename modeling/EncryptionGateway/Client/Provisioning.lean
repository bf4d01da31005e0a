import EncryptionGateway.Client.MobileClients
import EncryptionGateway.Encryption.Keygen

/-!
# From the key script to the clients

What `generate-keys.js` has printed is written into `RSA_PRIVATE_KEY` and built
into the apps. The server publishes what the script has printed for the newest
key, and it reads the requests of every app, whichever of its keys the app holds
and whether or not it names the key.

## Implementation notes

Every SDK takes the base64 out of the PEM text with an expression of its own;
the iOS SDK is given PKCS#1 and the Flutter SDK leaves the PEM text to a package.
-/

namespace EncryptionGateway.Client

open JavaScript Foundation Common Encryption Keygen

variable {N K : Type} [JsNumber N]

/-- What the platforms of the SDKs read keys with. -/
structure KeyImports (K : Type) where
  /-- `importKey('spki', …)` and `X509EncodedKeySpec`. -/
  importSpki : Bytes → Option K
  /-- `SecKeyCreateWithData`. -/
  importPkcs1 : Bytes → Option K
  rsaPublicKeyFromPem : String → Option K

/-- Inverse to the exports, for RSA keys. -/
structure KeyImports.Lawful (imports : KeyImports K) (node : NodeCrypto K) (sources : KeySources K)
    (exports : KeyExports K) : Prop where
  importSpki : ∀ k, sources.asymmetricKeyType k = "rsa" → imports.importSpki (node.spki k) = some k
  importPkcs1 : ∀ k, sources.asymmetricKeyType k = "rsa" →
    imports.importPkcs1 (exports.pkcs1 k) = some k
  rsaPublicKeyFromPem : ∀ k, sources.asymmetricKeyType k = "rsa" →
    imports.rsaPublicKeyFromPem (publicPem node k) = some k

section Constructors

variable (platform : MobilePlatform N Bytes) (node : NodeCrypto K) (imports : KeyImports K)

/-- Labels are any characters but dashes, white space is that of JavaScript. -/
def webServerKey (pem : String) : Option K :=
  (node.atob (String.ofList (Pem.strip (fun c => c ≠ '-') isSpace pem.toList))).bind
    imports.importSpki

/-- `\s` of a Java expression. -/
def isJavaSpace (c : Char) : Bool :=
  [' ', '\t', '\n', Char.ofNat 11, Char.ofNat 12, '\r'].contains c

/-- Labels are upper-case letters and blanks. -/
def androidServerKey (pem : String) : Option K :=
  (platform.javaBase64 (String.ofList (Pem.strip (fun c => ('A' ≤ c ∧ c ≤ 'Z') ∨ c = ' ')
    isJavaSpace pem.toList))).bind imports.importSpki

def iosServerKey (serverPublicKeyBase64 : String) : Option K :=
  (platform.swiftBase64 serverPublicKeyBase64).bind imports.importPkcs1

/-- The key that each SDK builds from the printout. -/
def serverKeys (printout : Printout) : List (Option K) :=
  [webServerKey node imports printout.pem, androidServerKey platform imports printout.pem,
    iosServerKey platform imports printout.pkcs1Base64, imports.rsaPublicKeyFromPem printout.pem]

end Constructors

section Import

variable {platform : MobilePlatform N Bytes} {node : NodeCrypto K} {sources : KeySources K}
  {exports : KeyExports K} {imports : KeyImports K}

theorem strip_publicPem {inner space : Char → Bool} (k : K)
    (hinner :
      (("BEGIN " ++ "PUBLIC KEY").toList ++ ("END " ++ "PUBLIC KEY").toList).all inner = true)
    (hdash : inner '-' = false) (hnewline : space '\n' = true)
    (hpad : space '=' = false) (hdigit : ∀ n : Fin 64, space (Base64.sextetChar n) = false) :
    String.ofList (Pem.strip inner space (publicPem node k).toList) =
      Base64.encode (node.spki k) := by
  have hchars : ∀ c ∈ Base64.encodeChars (node.spki k), space c = false := by
    intro c hc
    rcases Base64.mem_encodeChars hc with rfl | ⟨n, rfl⟩
    · exact hpad
    · exact hdigit n
  rw [publicPem, Pem.strip_file (node.spki k) (List.all_eq_true.mp hinner) hdash hnewline hchars]
  rfl

/-- Every SDK builds the key it was made for. -/
theorem serverKeys_printout (hatob : ∀ bytes, node.atob (Base64.encode bytes) = some bytes)
    (hplatform : platform.Lawful node.crypto) (himports : imports.Lawful node sources exports)
    {k : K} (hrsa : sources.asymmetricKeyType k = "rsa") {imported : Option K}
    (h : imported ∈ serverKeys platform node imports (printout node exports k)) :
    imported = some k := by
  simp only [serverKeys, List.mem_cons, List.not_mem_nil, or_false] at h
  rcases h with rfl | rfl | rfl | rfl
  · rw [webServerKey, printout, strip_publicPem k (by decide) (by decide) (by decide) (by decide)
      (by decide), hatob]
    exact himports.importSpki k hrsa
  · have hdecode : platform.javaBase64 (Base64.encode (node.spki k)) = some (node.spki k) :=
      (hplatform.toBase64 _).1
    rw [androidServerKey, printout, strip_publicPem k (by decide) (by decide)
      (by decide) (by decide) (by decide), hdecode]
    exact himports.importSpki k hrsa
  · have hdecode : platform.swiftBase64 (Base64.encode (exports.pkcs1 k)) =
        some (exports.pkcs1 k) :=
      (hplatform.toBase64 _).2.1
    rw [iosServerKey, printout, hdecode]
    exact himports.importPkcs1 k hrsa
  · exact himports.rsaPublicKeyFromPem k hrsa

/-- What is published is what was printed: for the newest key in every format,
and the ids of all keys. -/
structure Publishes (info : PublicKeyInfo) (newest : Printout) (printouts : List Printout) :
    Prop where
  keyId : info.keyId = newest.keyId
  pem : info.pem = newest.pem
  pkcs1Base64 : info.pkcs1Base64 = newest.pkcs1Base64
  sha256Fingerprint : info.sha256Fingerprint = newest.sha256
  acceptedKeyIds : info.acceptedKeyIds = printouts.map Printout.keyId

/-- What the server makes of the requests of an app with the printout. -/
def Serves (service : EncryptionService K) (node : NodeCrypto K) (text : JsonText N)
    (imported : Option K) (printout : Printout) : Prop :=
  ∃ serverKey, imported = some serverKey ∧ ∀ keyId ∈ [none, some printout.keyId],
    ∀ (required : Bool) (options : SendOptions N) (rawKey iv seed : Bytes),
      rawKey.length = AES_KEY_BYTES → iv.length = GCM_IV_BYTES →
        service.decrypt node.crypto text
            (GatewayClient.request ⟨serverKey, keyId, required⟩ node.crypto text rawKey iv seed
              options) =
          (parsePayload text options.payload.serialised).map fun payload => (payload, rawKey)

/-- A server that holds the key opens the requests of an app that was built with it. -/
theorem serves_of_mem (hnode : node.Lawful) (text : JsonText N) {keys : List K} {k : K}
    (hk : k ∈ keys) {imported : Option K} (himported : imported = some k) :
    Serves (node.onModuleInit keys) node text imported (printout node exports k) := by
  refine ⟨k, himported, fun keyId hkeyId required options rawKey iv seed hraw hiv => ?_⟩
  have hown : keyId ∈ [none, some "", some (node.keyIdOf (node.spki k))] := by
    rcases List.mem_pair.mp hkeyId with rfl | rfl
    · simp
    · simp [printout, NodeCrypto.keyIdOf]
  refine (NodeCrypto.decrypt_envelope hnode text (text.write options.payload) hraw hiv
    (NodeCrypto.mem_selected_own hk hown)).trans ?_
  rw [NodeCrypto.opened, text.parse_write (isValue_payload options)]
  change (parsePayload text options.payload.serialised >>= fun payload => .ok (payload, rawKey)) = _
  cases parsePayload text options.payload.serialised with
  | error _ => rfl
  | ok _ => rfl

/-- A server that has been given the printed keys publishes them, and every app
that was built with one of them is served. -/
theorem printed_keys_serve_apps (hlaw : sources.Lawful node) (hnode : node.Lawful)
    (hatob : ∀ bytes, node.atob (Base64.encode bytes) = some bytes)
    (hplatform : platform.Lawful node.crypto) (himports : imports.Lawful node sources exports)
    (text : JsonText N) {newest : Outcome} {older : List Outcome}
    (hran : ∀ outcome ∈ newest :: older, Ran node sources exports outcome) {config : Config}
    (hconfig : config "RSA_PRIVATE_KEY" = some (",".intercalate
      ((newest :: older).map fun outcome => outcome.printout.RSA_PRIVATE_KEY)))
    (autoGenerateKeys : Bool) :
    ∃ service, sources.onModuleInit node autoGenerateKeys config = .ok service ∧
      (∃ info, service.getPublicKeyInfo node sources exports = some info ∧
        Publishes info newest.printout ((newest :: older).map Outcome.printout)) ∧
      ∀ outcome ∈ newest :: older, ∀ imported ∈ serverKeys platform node imports outcome.printout,
        Serves service node text imported outcome.printout := by
  obtain ⟨keys, hkeys⟩ := exists_rsaKeys hran
  cases keys with
  | nil => cases hkeys
  | cons k rest =>
      have hvalues : (newest :: older).map (fun outcome => outcome.printout.RSA_PRIVATE_KEY) =
          (k :: rest).map fun k => (printout node exports k.key).RSA_PRIVATE_KEY := by
        have hmapped := congrArg (List.map Printout.RSA_PRIVATE_KEY) hkeys
        rwa [List.map_map, List.map_map] at hmapped
      rw [hvalues] at hconfig
      refine ⟨_, onModuleInit_printed hlaw (List.cons_ne_nil _ _) hconfig autoGenerateKeys,
        ⟨_, rfl, ?_⟩, ?_⟩
      · have hnewest : newest.printout = printout node exports k.key := (List.cons.inj hkeys).1
        rw [hnewest, hkeys]
        refine ⟨rfl, rfl, rfl, rfl, ?_⟩
        rw [EncryptionService.acceptedKeyIds, NodeCrypto.onModuleInit, List.map_map, List.map_map,
          List.map_map]
        rfl
      · intro outcome houtcome imported himported
        have hmem := List.mem_map_of_mem (f := Outcome.printout) houtcome
        rw [hkeys] at hmem
        obtain ⟨own, hown, heq⟩ := List.mem_map.mp hmem
        rw [← heq] at himported ⊢
        exact serves_of_mem hnode text (List.mem_map_of_mem hown)
          (serverKeys_printout hatob hplatform himports own.rsa himported)

end Import

section Samples

def readByte : Bytes → Option UInt8
  | [k] => some k
  | _ => none

def byteImports : KeyImports UInt8 where
  importSpki := readByte
  importPkcs1 := readByte
  rsaPublicKeyFromPem pem :=
    readByte (Base64.decode (String.ofList (Pem.strip (fun c => c ≠ '-') isSpace pem.toList)))

theorem lawful_byteImports :
    byteImports.Lawful NodeCrypto.labelled KeySources.lettered letteredExports where
  importSpki _ _ := rfl
  importPkcs1 _ _ := rfl
  rsaPublicKeyFromPem k _ := by
    have hstrip : String.ofList (Pem.strip (fun c => c ≠ '-') isSpace
        (publicPem NodeCrypto.labelled k).toList) = Base64.encode [k] :=
      strip_publicPem k (by decide) (by decide) (by decide) (by decide) (by decide)
    have hread := congrArg (fun s => readByte (Base64.decode s)) hstrip
    rw [Base64.decode_encode] at hread
    exact hread

/-- Decoders that are given what the encoder makes. -/
def bytePhone : MobilePlatform ℤ Bytes where
  javaBase64 s := some (Base64.decode s)
  swiftBase64 s := some (Base64.decode s)
  dartBase64 s := some (Base64.decode s)
  writtenAsInt _ := true
  toJavaString := (JsonText.standard ℤ).write
  toDartString := Json.toText

theorem lawful_bytePhone : bytePhone.Lawful NodeCrypto.labelled.crypto where
  toBase64 b :=
    have hdecode := congrArg some (Base64.decode_encode b)
    ⟨hdecode, hdecode, hdecode⟩
  writtenAsInt _ _ _ := rfl

/-- What the script makes without arguments in an empty directory. -/
def letteredOutcome (k : UInt8) : Outcome where
  files := [("/app/keys/private.pem", privatePem letteredExports k),
    ("/app/keys/public.pem", publicPem NodeCrypto.labelled k)]
  printout := printout NodeCrypto.labelled letteredExports k

theorem ran_lettered {k : UInt8} (hk : k ∈ [0, 1]) :
    Ran NodeCrypto.labelled KeySources.lettered letteredExports (letteredOutcome k) := by
  have hparsed : parseInt (opt [] "bits" "2048") = some 2048 := by decide
  refine ⟨fun _ => false, fun _ => k, [], ?_, fun bits hbits => ⟨reads_lettered hk, rfl, ?_⟩⟩
  · simp only [main, hparsed]
    rfl
  · rw [hparsed] at hbits
    have heq : (2048 : ℤ) = bits := Option.some.inj hbits
    exact congrArg some (by exact_mod_cast heq)

/-- Two keys during a rotation. -/
theorem printed_keys_serve_apps_rotation : ∃ config : Config,
    ∃ service, KeySources.lettered.onModuleInit NodeCrypto.labelled false config = .ok service ∧
      (∃ info, service.getPublicKeyInfo NodeCrypto.labelled KeySources.lettered letteredExports =
          some info ∧
        Publishes info (letteredOutcome 1).printout
          ([letteredOutcome 1, letteredOutcome 0].map Outcome.printout)) ∧
      ∀ outcome ∈ [letteredOutcome 1, letteredOutcome 0],
        ∀ imported ∈ serverKeys bytePhone NodeCrypto.labelled byteImports outcome.printout,
          Serves service NodeCrypto.labelled (JsonText.standard ℤ) imported outcome.printout := by
  have hran : ∀ outcome ∈ [letteredOutcome 1, letteredOutcome 0],
      Ran NodeCrypto.labelled KeySources.lettered letteredExports outcome := by
    intro outcome houtcome
    rcases List.mem_pair.mp houtcome with rfl | rfl
    · exact ran_lettered (by simp)
    · exact ran_lettered (by simp)
  let config : Config := fun _ => some (",".intercalate
    ([letteredOutcome 1, letteredOutcome 0].map fun outcome => outcome.printout.RSA_PRIVATE_KEY))
  have hatob : ∀ bytes, NodeCrypto.labelled.atob (Base64.encode bytes) = some bytes :=
    fun bytes => congrArg some (Base64.decode_encode bytes)
  have hconfig : config "RSA_PRIVATE_KEY" = some (",".intercalate
    ([letteredOutcome 1, letteredOutcome 0].map fun outcome => outcome.printout.RSA_PRIVATE_KEY)) :=
      rfl
  exact ⟨config, printed_keys_serve_apps KeySources.lawful_lettered NodeCrypto.labelled_lawful hatob
    lawful_bytePhone lawful_byteImports (JsonText.standard ℤ) hran hconfig false⟩

end Samples

end EncryptionGateway.Client
