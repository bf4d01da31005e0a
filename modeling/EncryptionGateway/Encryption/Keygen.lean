import EncryptionGateway.Encryption.WrittenKeys
import EncryptionGateway.JavaScript.Pem

/-!
# Making and publishing keys

`scripts/generate-keys.js` makes a key pair, saves it and prints what the server
and the clients are to be given. `GET /public-key` publishes the primary key of
the server in the same formats.

## Implementation notes

The random key pair is the value of `generateKeyPairSync` at the number of bits.
Texts that only address the operator are left out of the printout.
-/

namespace EncryptionGateway.Encryption

open JavaScript Foundation Common

/-- The DER exports of a key pair that are no `spki`. -/
structure KeyExports (K : Type) where
  /-- Of the private key. -/
  pkcs8 : K → Bytes
  /-- Of the public key. -/
  pkcs1 : K → Bytes

section Exports

variable {K : Type} (node : NodeCrypto K) (exports : KeyExports K)

def privatePem (k : K) : String := Pem.file "PRIVATE KEY" (exports.pkcs8 k)

def publicPem (k : K) : String := Pem.file "PUBLIC KEY" (node.spki k)

end Exports

/-- The server public key in every format client apps need. -/
structure PublicKeyInfo where
  keyId : String
  algorithm : String
  pem : String
  spkiBase64 : String
  pkcs1Base64 : String
  sha256Fingerprint : String
  acceptedKeyIds : List String
deriving DecidableEq, Repr

/-- `GET /public-key`, the members of `describeKey` and the accepted ids; `none`
without a key. -/
def EncryptionService.getPublicKeyInfo {K : Type} (service : EncryptionService K)
    (node : NodeCrypto K) (sources : KeySources K) (exports : KeyExports K) :
    Option PublicKeyInfo :=
  service.keys.head?.map fun primary =>
    { keyId := primary.keyId
      algorithm := "RSA-" ++
        ((sources.modulusLength primary.privateKey).map toString).getD "undefined"
      pem := publicPem node primary.privateKey
      spkiBase64 := Base64.encode (node.spki primary.privateKey)
      pkcs1Base64 := Base64.encode (exports.pkcs1 primary.privateKey)
      sha256Fingerprint := node.sha256 (node.spki primary.privateKey)
      acceptedKeyIds := service.acceptedKeyIds }

/-! ## The script -/

/-- `parseInt(s, 10)`, with `none` for `NaN`. -/
def parseInt (s : String) : Option ℤ :=
  let text := s.toList.dropWhile isSpace
  let negative := text.head? = some '-'
  let digits :=
    (if negative ∨ text.head? = some '+' then text.drop 1 else text).takeWhile Char.isDigit
  let value : ℤ := Nat.ofDigitChars 10 digits 0
  if digits = [] then none else some (if negative then -value else value)

namespace Keygen

/-- `args[args.indexOf('--name') + 1]`, unless it is missing or empty. -/
def opt (args : List String) (name fallback : String) : String :=
  match (args.dropWhile fun a => a ≠ "--" ++ name)[1]? with
  | some value => if value = "" then fallback else value
  | none => fallback

/-- What is printed for the server and for the clients. -/
structure Printout where
  RSA_PRIVATE_KEY : String
  keyId : String
  /-- The contents of `public.pem`. -/
  pem : String
  pkcs1Base64 : String
  sha256 : String
deriving DecidableEq, Repr

/-- The files that are written, and the printout. -/
structure Outcome where
  files : List (String × String)
  printout : Printout

def printout {K : Type} (node : NodeCrypto K) (exports : KeyExports K) (k : K) : Printout where
  RSA_PRIVATE_KEY := Base64.encode (node.utf8Encode (privatePem exports k))
  keyId := String.ofList ((node.sha256 (node.spki k)).toList.take 16)
  pem := publicPem node k
  pkcs1Base64 := Base64.encode (exports.pkcs1 k)
  sha256 := node.sha256 (node.spki k)

/-- The script; errors are the messages it exits with. -/
def main {K : Type} (node : NodeCrypto K) (sources : KeySources K) (exports : KeyExports K)
    (existsSync : String → Bool) (generateKeyPair : ℤ → K) (args : List String) :
    Except String Outcome := do
  let outDir := sources.resolve (opt args "out" "keys")
  let bits := parseInt (opt args "bits" "2048")
  let force := args.contains "--force"
  let modulusLength ← ofOption "--bits must be 2048, 3072 or 4096"
    (bits.filter fun bits => [2048, 3072, 4096].contains bits)
  let privatePath := sources.join outDir "private.pem"
  let publicPath := sources.join outDir "public.pem"
  require (force || !(existsSync privatePath || existsSync publicPath))
    ("Key files already exist in " ++ outDir ++ ". Use --force to overwrite.")
  let k := generateKeyPair modulusLength
  .ok ⟨[(privatePath, privatePem exports k), (publicPath, publicPem node k)],
    printout node exports k⟩

section Runs

variable {K : Type} {node : NodeCrypto K} {sources : KeySources K} {exports : KeyExports K}

/-- What the script asks for, what it prints, and what it overwrites. -/
theorem main_eq_ok {existsSync : String → Bool} {generateKeyPair : ℤ → K} {args : List String}
    {outcome : Outcome}
    (h : main node sources exports existsSync generateKeyPair args = .ok outcome) :
    ∃ bits ∈ [2048, 3072, 4096], parseInt (opt args "bits" "2048") = some bits ∧
      outcome.printout = printout node exports (generateKeyPair bits) ∧
      outcome.files.map Prod.snd =
        [privatePem exports (generateKeyPair bits), publicPem node (generateKeyPair bits)] ∧
      ((∃ file ∈ outcome.files, existsSync file.1 = true) → "--force" ∈ args) := by
  obtain ⟨bits, hbits, h⟩ := bind_eq_ok.mp h
  obtain ⟨_, hforce, h⟩ := bind_eq_ok.mp h
  obtain ⟨hparsed, hmem⟩ := Option.filter_eq_some_iff.mp (ofOption_eq_ok.mp hbits)
  rw [require_eq_ok, Bool.or_eq_true, List.contains_iff_mem] at hforce
  cases h
  refine ⟨bits, List.contains_iff_mem.mp hmem, hparsed, rfl, rfl, ?_⟩
  rintro ⟨file, hfile, hexists⟩
  refine hforce.resolve_right fun hnone => ?_
  rw [Bool.not_eq_true', Bool.or_eq_false_iff] at hnone
  rcases List.mem_pair.mp hfile with rfl | rfl
  · rw [hnone.1] at hexists
    cases hexists
  · rw [hnone.2] at hexists
    cases hexists

/-- An RSA key of a length the server accepts, whose PEM text is read as the key. -/
structure RsaKey (sources : KeySources K) (exports : KeyExports K) where
  key : K
  reads : sources.createPrivateKey (String.ofList (Pem.text "PRIVATE KEY" (exports.pkcs8 key))) =
    .ok key
  rsa : sources.asymmetricKeyType key = "rsa"
  bits : MIN_KEY_BITS ≤ (sources.modulusLength key).getD 0

theorem newline_ends : ∀ c ∈ ['\n'], c = '\n' ∨ c = '\r' := by simp

theorem blank_nil : ∀ c ∈ ([] : List Char), isSpace c = true := by simp

theorem RsaKey.reads_armour (k : RsaKey sources exports) :
    sources.createPrivateKey (String.ofList (Pem.armour "PRIVATE KEY".toList
      ('\n' :: Pem.lines (Base64.encodeChars (exports.pkcs8 k.key))))) = .ok k.key := by
  rw [← Pem.text_eq_armour]
  exact k.reads

def RsaKey.block (k : RsaKey sources exports) : PemBlock sources where
  key := k.key
  label := "PRIVATE KEY".toList
  contents := '\n' :: Pem.lines (Base64.encodeChars (exports.pkcs8 k.key))
  label_plain := PemBlock.plain_label
  contents_plain _ hc := Pem.plain_body _ hc
  reads := k.reads_armour
  rsa := k.rsa
  bits := k.bits

theorem RsaKey.text_block (k : RsaKey sources exports) :
    k.block.text = Pem.text "PRIVATE KEY" (exports.pkcs8 k.key) := (Pem.text_eq_armour _ _).symm

/-- The key as it is printed for `RSA_PRIVATE_KEY`. -/
def RsaKey.entry (k : RsaKey sources exports) : Entry sources where
  toPemBlock := k.block
  ending := ['\n']
  spelling := .base64
  before := []
  after := []
  ending_newlines := newline_ends
  before_blank := blank_nil
  after_blank := blank_nil

/-- The printed values, separated by commas, are what the server expects. -/
theorem value_entries (keys : List (RsaKey sources exports)) :
    Entry.value node (keys.map RsaKey.entry) =
      ",".intercalate (keys.map fun k => (printout node exports k.key).RSA_PRIVATE_KEY) := by
  have hwritten : ∀ k : RsaKey sources exports, k.entry.written node =
      ((printout node exports k.key).RSA_PRIVATE_KEY).toList := fun k => List.append_nil _
  rw [← String.toList_inj, String.toList_intercalate, Entry.value, String.toList_ofList,
    List.map_map, List.map_map]
  exact congrArg [','].intercalate (List.map_congr_left fun k _ => hwritten k)

/-- A run of the script that has succeeded. The generator makes an RSA key of
the length it is asked for, and the platform reads its PEM text. -/
def Ran (node : NodeCrypto K) (sources : KeySources K) (exports : KeyExports K)
    (outcome : Outcome) : Prop :=
  ∃ existsSync generateKeyPair args,
    main node sources exports existsSync generateKeyPair args = .ok outcome ∧
    ∀ bits : ℕ, parseInt (opt args "bits" "2048") = some (bits : ℤ) →
      sources.createPrivateKey
        (String.ofList (Pem.text "PRIVATE KEY" (exports.pkcs8 (generateKeyPair bits)))) =
          .ok (generateKeyPair bits) ∧
      sources.asymmetricKeyType (generateKeyPair bits) = "rsa" ∧
      sources.modulusLength (generateKeyPair bits) = some bits

theorem Ran.exists_rsaKey {outcome : Outcome} (h : Ran node sources exports outcome) :
    ∃ k : RsaKey sources exports, outcome.printout = printout node exports k.key := by
  obtain ⟨existsSync, generateKeyPair, args, hmain, hgenerated⟩ := h
  obtain ⟨bits, hbits, hparsed, hprintout, -⟩ := main_eq_ok hmain
  have hlarge : 2048 ≤ bits := by
    simp only [List.mem_cons, List.not_mem_nil, or_false] at hbits
    omega
  obtain ⟨n, rfl⟩ := Int.eq_ofNat_of_zero_le (by omega : 0 ≤ bits)
  obtain ⟨hreads, hrsa, hmodulus⟩ := hgenerated n hparsed
  refine ⟨⟨generateKeyPair n, hreads, hrsa, ?_⟩, hprintout⟩
  rw [hmodulus, Option.getD_some]
  exact_mod_cast hlarge

/-- The keys of several runs. -/
theorem exists_rsaKeys {outcomes : List Outcome} (h : ∀ o ∈ outcomes, Ran node sources exports o) :
    ∃ keys : List (RsaKey sources exports),
      outcomes.map Outcome.printout = keys.map fun k => printout node exports k.key := by
  induction outcomes with
  | nil => exact ⟨[], rfl⟩
  | cons o outcomes ih =>
      rw [List.forall_mem_cons] at h
      obtain ⟨k, hk⟩ := h.1.exists_rsaKey
      obtain ⟨keys, hkeys⟩ := ih h.2
      exact ⟨k :: keys, by rw [List.map_cons, List.map_cons, hk, hkeys]⟩

/-- A server that is given the printed values holds the keys, in this order. -/
theorem onModuleInit_printed (hlaw : sources.Lawful node) {keys : List (RsaKey sources exports)}
    (hne : keys ≠ []) {config : Config}
    (hconfig : config "RSA_PRIVATE_KEY" =
      some (",".intercalate (keys.map fun k => (printout node exports k.key).RSA_PRIVATE_KEY)))
    (autoGenerateKeys : Bool) :
    sources.onModuleInit node autoGenerateKeys config =
      .ok (node.onModuleInit (keys.map RsaKey.key)) := by
  have hbase64 : ∀ entry ∈ keys.map RsaKey.entry, entry.spelling = .base64 := by
    intro entry hentry
    obtain ⟨k, -, rfl⟩ := List.mem_map.mp hentry
    rfl
  rw [← value_entries] at hconfig
  rw [KeySources.onModuleInit_base64 hlaw (by simpa using hne) hbase64 hconfig, List.map_map]
  rfl

end Runs

section Samples

/-- A key is its own public DER; the private one makes the letter of the key. -/
def letteredExports : KeyExports UInt8 where
  pkcs8 k := [4 * k]
  pkcs1 k := [k]

theorem reads_lettered {k : UInt8} (hk : k ∈ [0, 1]) : KeySources.lettered.createPrivateKey
    (String.ofList (Pem.text "PRIVATE KEY" (letteredExports.pkcs8 k))) = .ok k := by
  rw [KeySources.createPrivateKey_lettered, Pem.text,
    Pem.lines_of_length_le (by simp [letteredExports, Base64.encodeChars])
      (by simp [letteredExports, Base64.encodeChars])]
  rcases List.mem_pair.mp hk with rfl | rfl
  · decide
  · decide

end Samples

end Keygen

end EncryptionGateway.Encryption
