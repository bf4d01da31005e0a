import EncryptionGateway.Attestation.AttestationService

/-!
# The attestation record closest to the root

The service evaluates the record of the first certificate and never looks for
one in the others. Among the certificates in circulation every accepted chain is
judged by the record closest to the root as long as no attested key signs
certificates, and no longer than that when an attested key that signs
certificates signs what its holder likes.
-/

namespace EncryptionGateway.Attestation.AttestationService

open JavaScript Foundation

variable {Cert Key : Type}

/-- No certificate after the first carries an attestation record. -/
def RecordClosestToRoot (x : X509 Cert Key) (chainDer : List Bytes) : Prop :=
  ∀ i der, chainDer[i + 1]? = some der → ¬ Carries x der

/-- Every chain of these certificates that is accepted is judged by the record
closest to the root. -/
def JudgedClosestToRoot (x : X509 Cert Key) (policy : AttestationPolicy) (now : Int)
    (certificates : Set Bytes) : Prop :=
  ∀ chainDer challenge key l, (∀ der ∈ chainDer, der ∈ certificates) →
    verify x policy now chainDer challenge = .ok (key, l) → RecordClosestToRoot x chainDer

/-- A certificate of that key carries a record and heads a chain of these
certificates up to a trusted root. -/
def Attested (x : X509 Cert Key) (policy : AttestationPolicy) (now : Int)
    (certificates : Set Bytes) (key : Key) : Prop :=
  ∃ der chainDer cert chain, (∀ d ∈ der :: chainDer, d ∈ certificates) ∧
    List.Forall₂ (fun der c => x.certificate der = .ok c) (der :: chainDer) (cert :: chain) ∧
    ChainValid x policy now (cert :: chain) ∧ Carries x der ∧ x.publicKey cert = .ok key

/-- One of these certificates was signed with the key. -/
def HasSigned (x : X509 Cert Key) (certificates : Set Bytes) (key : Key) : Prop :=
  ∃ der ∈ certificates, ∃ cert, x.certificate der = .ok cert ∧ x.verify cert key = .ok true

/-- No attested key has signed a certificate. -/
def AttestedKeysSignNothing (x : X509 Cert Key) (policy : AttestationPolicy) (now : Int)
    (certificates : Set Bytes) : Prop :=
  ∀ key, Attested x policy now certificates key → ¬ HasSigned x certificates key

/-- A certificate with a key and a record of its signer's choice, dated and
numbered so that it stands among the valid certificates. -/
structure Forged (x : X509 Cert Key) (policy : AttestationPolicy) (now : Int) (signer subject : Key)
    (description : KeyDescription) (der : Bytes) : Prop where
  parses : ∃ cert, x.certificate der = .ok cert ∧ x.verify cert signer = .ok true ∧
    x.publicKey cert = .ok subject ∧ outsideValidity x now cert = false ∧
    revoked x policy cert = false
  recorded : attestationRecord x der = .ok description

/-- An attested key can sign arbitrary bytes: the one that signs certificates
signs one with a record of its holder's choice. -/
def SignsAtWill (x : X509 Cert Key) (policy : AttestationPolicy) (now : Int)
    (certificates : Set Bytes) : Prop :=
  ∀ key, Attested x policy now certificates key → HasSigned x certificates key →
    ∃ der ∈ certificates, ∃ subject description,
      Forged x policy now key subject description der ∧ Admissible x policy description

/-- In a linked chain every certificate is signed with the key of the next. -/
theorem Linked.signedBy {x : X509 Cert Key} {chain : List Cert} (h : Linked x chain) {i : ℕ}
    {c d : Cert} (hc : chain[i]? = some c) (hd : chain[i + 1]? = some d) : SignedBy x c d := by
  induction chain generalizing i with
  | nil => simp at hc
  | cons a rest ih =>
      cases rest with
      | nil => simp at hd
      | cons b rest =>
          cases i with
          | zero =>
              obtain rfl := Option.some.inj hc
              obtain rfl := Option.some.inj hd
              exact h.1
          | succ i => exact ih h.2 hc hd

/-- The certificate at an index of the chain is the parsed one. -/
private theorem parsed_at {x : X509 Cert Key} {ders : List Bytes} {chain : List Cert}
    (h : List.Forall₂ (fun der c => x.certificate der = .ok c) ders chain) {i : ℕ} {der : Bytes}
    (hi : ders[i]? = some der) : ∃ c, chain[i]? = some c ∧ x.certificate der = .ok c := by
  induction h generalizing i with
  | nil => simp at hi
  | @cons der' c ders chain hc _ ih =>
      cases i with
      | zero =>
          obtain rfl := Option.some.inj hi
          exact ⟨c, rfl, hc⟩
      | succ i => exact ih hi

theorem Linked.drop {x : X509 Cert Key} {chain : List Cert} (h : Linked x chain) (i : ℕ) :
    Linked x (chain.drop i) := by
  induction chain generalizing i with
  | nil => simpa using h
  | cons c rest ih =>
      cases i with
      | zero => exact h
      | succ i =>
          apply ih
          cases rest with
          | nil => trivial
          | cons d rest => exact h.2

/-- What is left of a valid chain after its first certificates is a valid chain. -/
theorem ChainValid.drop {x : X509 Cert Key} {policy : AttestationPolicy} {now : Int}
    {chain : List Cert} (h : ChainValid x policy now chain) {i : ℕ} (hi : i < chain.length) :
    ChainValid x policy now (chain.drop i) where
  linked := h.linked.drop i
  trusted := by
    intro trusted htrusted
    rw [List.getLast?_drop, if_neg (Nat.not_le.mpr hi)]
    exact h.trusted trusted htrusted
  inValidity c hc := h.inValidity c (List.mem_of_mem_drop hc)
  unrevoked c hc := h.unrevoked c (List.mem_of_mem_drop hc)

/-- The key of a certificate of an accepted chain that carries a record is
attested, wherever in the chain the certificate stands. -/
theorem attested_of_carries {x : X509 Cert Key} {policy : AttestationPolicy} {now : Int}
    {certificates : Set Bytes} {chainDer : List Bytes} {chain : List Cert}
    (hmem : ∀ der ∈ chainDer, der ∈ certificates)
    (hchain : List.Forall₂ (fun der c => x.certificate der = .ok c) chainDer chain)
    (hvalid : ChainValid x policy now chain) {i : ℕ} {der : Bytes} {cert : Cert} {key : Key}
    (hder : chainDer[i]? = some der) (hcert : chain[i]? = some cert) (hcarries : Carries x der)
    (hkey : x.publicKey cert = .ok key) : Attested x policy now certificates key := by
  obtain ⟨hi, rfl⟩ := List.getElem?_eq_some_iff.mp hder
  obtain ⟨hi', rfl⟩ := List.getElem?_eq_some_iff.mp hcert
  refine ⟨chainDer[i], chainDer.drop (i + 1), chain[i], chain.drop (i + 1), ?_, ?_, ?_, hcarries,
    hkey⟩
  · rw [List.getElem_cons_drop]
    exact fun d hd => hmem d (List.mem_of_mem_drop hd)
  · simpa only [List.getElem_cons_drop] using List.forall₂_drop i hchain
  · simpa only [List.getElem_cons_drop] using hvalid.drop hi'

/-- While no attested key signs certificates, every accepted chain is judged by
the record closest to the root. -/
theorem judgedClosestToRoot {x : X509 Cert Key} {policy : AttestationPolicy} {now : Int}
    {certificates : Set Bytes} (h : AttestedKeysSignNothing x policy now certificates) :
    JudgedClosestToRoot x policy now certificates := by
  intro chainDer challenge key l hmem hverify i issuerDer hissuerDer hcarries
  obtain ⟨-, chain, _, _, _, hchain, -, -, hvalid, -⟩ := verify_eq_ok.mp hverify
  obtain ⟨issuer, hissuer, hparsed⟩ := parsed_at hchain hissuerDer
  have hi : i < chainDer.length :=
    Nat.lt_of_succ_lt (List.getElem?_eq_some_iff.mp hissuerDer).1
  have hder : chainDer[i]? = some chainDer[i] := List.getElem?_eq_getElem hi
  obtain ⟨cert, hcert, hparsed'⟩ := parsed_at hchain hder
  -- the certificate before it verifies under its key, which is attested
  obtain ⟨issuerKey, hkey, hsigned⟩ := hvalid.linked.signedBy hcert hissuer
  exact h issuerKey (attested_of_carries hmem hchain hvalid hissuerDer hissuer hcarries hkey)
    ⟨chainDer[i], hmem _ (List.getElem_mem hi), cert, hparsed', hsigned⟩

/-- A forged certificate in front of a valid chain of its signer is accepted, for
any challenge and any admissible record. -/
theorem verify_forged {x : X509 Cert Key} {policy : AttestationPolicy} {now : Int}
    {signerDer : Bytes} {chainDer : List Bytes} {signer : Cert} {chain : List Cert} {key : Key}
    (hchain : List.Forall₂ (fun der c => x.certificate der = .ok c) (signerDer :: chainDer)
      (signer :: chain))
    (hvalid : ChainValid x policy now (signer :: chain)) (hkey : x.publicKey signer = .ok key)
    {subject : Key} {description : KeyDescription} {der : Bytes}
    (hforged : Forged x policy now key subject description der)
    (hadmissible : Admissible x policy description) :
    verify x policy now (der :: signerDer :: chainDer) description.attestationChallenge =
      .ok (subject, level description) := by
  obtain ⟨cert, hcert, hsigned, hsubject, hdate, hserial⟩ := hforged.parses
  have hlen : 2 ≤ (der :: signerDer :: chainDer).length := by simp
  refine verify_eq_ok.mpr ⟨hlen, cert :: signer :: chain, der, cert, description,
    .cons hcert hchain, rfl, rfl, ?_, hforged.recorded, rfl, hadmissible, hsubject, rfl⟩
  exact {
    linked := ⟨⟨key, hkey, hsigned⟩, hvalid.linked⟩
    trusted := hvalid.trusted
    inValidity := List.forall_mem_cons.mpr ⟨hdate, hvalid.inValidity⟩
    unrevoked := List.forall_mem_cons.mpr ⟨hserial, hvalid.unrevoked⟩ }

/-- Among the certificates in circulation every accepted chain is judged by the
record closest to the root if no attested key has signed a certificate, and
only then if an attested key that signs certificates signs what its holder
likes. -/
theorem record_closest_to_root_iff (x : X509 Cert Key) (policy : AttestationPolicy) (now : Int)
    (certificates : Set Bytes) :
    (AttestedKeysSignNothing x policy now certificates →
      JudgedClosestToRoot x policy now certificates) ∧
    (SignsAtWill x policy now certificates →
      (JudgedClosestToRoot x policy now certificates ↔
        AttestedKeysSignNothing x policy now certificates)) := by
  refine ⟨judgedClosestToRoot, ?_⟩
  intro hatWill
  refine ⟨?_, judgedClosestToRoot⟩
  intro hclosest key hattested hsigned
  obtain ⟨der, hder, subject, description, hforged, hadmissible⟩ :=
    hatWill key hattested hsigned
  obtain ⟨signerDer, chainDer, signer, chain, hmem, hchain, hvalid, hcarries, hkey⟩ := hattested
  have haccepted := verify_forged hchain hvalid hkey hforged hadmissible
  exact hclosest _ _ _ _ (List.forall_mem_cons.mpr ⟨hder, hmem⟩) haccepted 0 signerDer rfl hcarries

section Example

def sampleDescription (challenge : Bytes) : KeyDescription where
  attestationSecurityLevel := 1
  keymasterSecurityLevel := 1
  attestationChallenge := challenge
  softwareEnforced := ⟨none, none⟩
  teeEnforced := ⟨some ⟨true, VERIFIED⟩, some []⟩

/-- A certificate of one byte for its key, one for its signer's and one for the
challenge in its record; a certificate of two bytes has no record. -/
def sampleX509 : X509 Bytes UInt8 where
  certificate := .ok
  publicKey cert := .ok (cert.getD 0 0)
  verify cert key := .ok (cert.getD 1 0 = key)
  exportSpki key := .ok [key]
  validFrom _ := some 0
  validTo _ := some 100
  serialNumber _ := "0A"
  issuer _ := ""
  subject _ := ""
  extensions der := .ok ((der.drop 2).map fun challenge => (ID_CE_KEY_DESCRIPTION, [challenge]))
  keyDescription value := .ok (sampleDescription value)
  applicationId _ := .ok ⟨[[]], [[0xab]]⟩
  utf8 _ := "app"

def samplePolicy : AttestationPolicy where
  configured := true
  trustedRootPublicKeys := some [[1]]
  packageName := "app"
  signingCertDigests := ["ab"]
  minSecurityLevel := 1
  requireVerifiedBoot := true
  revokedSerials := ["b"]

/-- The chain of key 2, attested under the root key 1. -/
def genuineCertificates : Set Bytes := {[2, 1, 7], [1, 1]}

theorem carries_leaf : Carries sampleX509 [2, 1, 7] :=
  ⟨[(ID_CE_KEY_DESCRIPTION, [7])], [7], rfl, List.mem_singleton_self _⟩

theorem not_carries_root : ¬ Carries sampleX509 [1, 1] := by
  rintro ⟨_, _, ⟨⟩, hmem⟩
  cases hmem

theorem genuine_signNothing :
    AttestedKeysSignNothing sampleX509 samplePolicy 50 genuineCertificates := by
  rintro key ⟨der, _, _, _, hmem, hchain, -, hcarries, hkey⟩ ⟨d, hd, _, ⟨⟩, hsigned⟩
  cases hchain with
  | cons hparsed _ =>
      cases hparsed
      obtain rfl | rfl := hmem der List.mem_cons_self
      · -- the attested key is 2, and both certificates verify under 1 only
        cases hkey
        obtain rfl | rfl := hd <;> cases hsigned
      · exact not_carries_root hcarries

/-- Every key signs a certificate for key 3 with a record of its own. -/
theorem signsAtWill_univ : SignsAtWill sampleX509 samplePolicy 50 Set.univ := by
  intro key _ _
  have hjudged : checkRecord sampleX509 samplePolicy [9] (sampleDescription [9]) = .ok 1 := rfl
  have hsigned : sampleX509.verify [3, key, 9] key = .ok true := by simp [sampleX509]
  have hserial : revoked sampleX509 samplePolicy [3, key, 9] = false :=
    show samplePolicy.revokedSerials.contains (serial sampleX509 []) = false from rfl
  refine ⟨[3, key, 9], Set.mem_univ _, 3, sampleDescription [9], ?_,
    (checkRecord_eq_ok.mp hjudged).2.1⟩
  exact ⟨⟨[3, key, 9], rfl, hsigned, rfl, rfl, hserial⟩, rfl⟩

theorem attested_univ : Attested sampleX509 samplePolicy 50 Set.univ 2 := by
  have h : verify sampleX509 samplePolicy 50 [[2, 1, 7], [1, 1]] [7] = .ok (2, 1) := rfl
  obtain ⟨-, chain, _, _, _, hchain, -, hhead, hvalid, -⟩ := verify_eq_ok.mp h
  cases hchain with
  | @cons _ cert _ chain hparsed hrest =>
      cases hparsed
      exact ⟨_, _, _, chain, fun d _ => Set.mem_univ d, .cons rfl hrest, hvalid, carries_leaf, rfl⟩

/-- Of a genuine chain alone every accepted chain is judged by the record
closest to the root; of all the certificates that keys can sign, not every one. -/
theorem record_closest_to_root_genuine :
    JudgedClosestToRoot sampleX509 samplePolicy 50 genuineCertificates ∧
      ¬ JudgedClosestToRoot sampleX509 samplePolicy 50 Set.univ := by
  refine ⟨(record_closest_to_root_iff sampleX509 samplePolicy 50 genuineCertificates).1
    genuine_signNothing, ?_⟩
  intro hclosest
  have hnothing := ((record_closest_to_root_iff sampleX509 samplePolicy 50 Set.univ).2
    signsAtWill_univ).mp hclosest
  exact hnothing 2 attested_univ ⟨[3, 2, 9], Set.mem_univ _, [3, 2, 9], rfl, rfl⟩

/-- The attested key 2 signs a certificate for key 3 with a record of its own,
and the longer chain is accepted for another challenge. -/
theorem record_not_closest_to_root :
    verify sampleX509 samplePolicy 50 [[3, 2, 9], [2, 1, 7], [1, 1]] [9] = .ok (3, 1) ∧
      ¬ RecordClosestToRoot sampleX509 [[3, 2, 9], [2, 1, 7], [1, 1]] := by
  refine ⟨rfl, ?_⟩
  intro hclosest
  exact hclosest 0 [2, 1, 7] rfl carries_leaf

end Example

end EncryptionGateway.Attestation.AttestationService
