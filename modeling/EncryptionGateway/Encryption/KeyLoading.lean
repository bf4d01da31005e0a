import EncryptionGateway.Common.Config
import EncryptionGateway.Encryption.KeyRotation
import EncryptionGateway.Foundation.Splitting

/-!
# Loading the private keys

`loadPrivateKeys` takes the server keys from `RSA_PRIVATE_KEY`, from the files
of `RSA_PRIVATE_KEY_PATH`, from the default file or from the generator, in this
order. A value of `RSA_PRIVATE_KEY` that contains PEM text anywhere is one PEM
text, commas included.

## Implementation notes

The parser of keys, the file system and the generator are those of the
platform. `autoGenerateKeys` is the flag the constructor has read.
-/

namespace EncryptionGateway.Encryption

open JavaScript Foundation Common

def MIN_KEY_BITS : ℕ := 2048

/-- What `loadPrivateKeys` calls, on key pairs `K`; errors are the messages. -/
structure KeySources (K : Type) where
  createPrivateKey : String → Except String K
  asymmetricKeyType : K → String
  modulusLength : K → Option ℕ
  /-- `path.resolve(process.cwd(), p)`. -/
  resolve : String → String
  join : String → String → String
  existsSync : String → Bool
  readFileSync : String → Except String String
  /-- The PEM text of a fresh RSA-2048 key, once it is saved in the directory. -/
  generate : String → Except String String

/-- A PEM text and where it was found. -/
structure SourcedPem where
  pem : String
  source : String
deriving DecidableEq, Repr

structure LoadedKey (K : Type) where
  key : K
  source : String

/-- `l.replace(/\\n/g, '\n')`. -/
def unescapeNewlines : List Char → List Char
  | '\\' :: 'n' :: rest => '\n' :: unescapeNewlines rest
  | c :: rest => c :: unescapeNewlines rest
  | [] => []

/-- `value.split(',').map((v) => v.trim()).filter(Boolean)`. -/
def listedValues (value : String) : List String :=
  ((split value ',').map trim).filter fun v => v ≠ ""

/-- A variable, trimmed; unset and blank ones are the same. -/
def trimmedValue (config : Config) (name : String) : Option String :=
  match (config name).map trim with
  | none => none
  | some value => if value = "" then none else some value

/-- The PEM texts in the value of `RSA_PRIVATE_KEY`. -/
def inlinePems {K : Type} (node : NodeCrypto K) (inline : String) : List SourcedPem :=
  if includes inline "-----BEGIN" then
    [⟨String.ofList (unescapeNewlines inline.toList), "RSA_PRIVATE_KEY"⟩]
  else
    (listedValues inline).mapIdx fun i v =>
      ⟨node.utf8Decode (Base64.decode v), "RSA_PRIVATE_KEY[" ++ toString i ++ "]"⟩

namespace KeySources

variable {K : Type} (node : NodeCrypto K) (sources : KeySources K) (autoGenerateKeys : Bool)
  (config : Config)

def readPath (p : String) : Except String SourcedPem :=
  let fullPath := sources.resolve p
  let source := "RSA_PRIVATE_KEY_PATH (" ++ fullPath ++ ")"
  match sources.readFileSync fullPath with
  | .ok pem => .ok ⟨pem, source⟩
  | .error message => .error ("Cannot read " ++ source ++ ": " ++ message)

/-- The default file, or a fresh key in its place. -/
def defaultPems : Except String (List SourcedPem) :=
  let defaultDir := sources.resolve "keys"
  let defaultPrivate := sources.join defaultDir "private.pem"
  if sources.existsSync defaultPrivate then do
    let pem ← sources.readFileSync defaultPrivate
    .ok [⟨pem, "keys/private.pem"⟩]
  else if autoGenerateKeys then do
    let privatePem ← sources.generate defaultDir
    .ok [⟨privatePem, "auto-generated (keys/private.pem)"⟩]
  else .ok []

def configuredPems : Except String (List SourcedPem) :=
  match trimmedValue config "RSA_PRIVATE_KEY" with
  | some inline => .ok (inlinePems node inline)
  | none =>
      match trimmedValue config "RSA_PRIVATE_KEY_PATH" with
      | some paths => (listedValues paths).mapM sources.readPath
      | none => sources.defaultPems autoGenerateKeys

def parseKey (found : SourcedPem) : Except String (LoadedKey K) := do
  let key ← (sources.createPrivateKey found.pem).mapError fun message =>
    found.source ++ " is not a valid PEM private key: " ++ message
  let bits := (sources.modulusLength key).getD 0
  require (sources.asymmetricKeyType key = "rsa" && MIN_KEY_BITS ≤ bits)
    (found.source ++ " must be an RSA key >= " ++ toString MIN_KEY_BITS ++ " bits")
  .ok ⟨key, found.source⟩

def loadPrivateKeys : Except String (List (LoadedKey K)) := do
  let pems ← sources.configuredPems node autoGenerateKeys config
  require (!pems.isEmpty)
    ("No server key configured. Set RSA_PRIVATE_KEY (base64 PEM) or " ++
      "RSA_PRIVATE_KEY_PATH. Generate one with `npm run keygen`. " ++
      "Automatic generation requires AUTO_GENERATE_KEYS=true in production.")
  pems.mapM sources.parseKey

/-- The service after the startup, or the error that stops it. -/
def onModuleInit : Except String (EncryptionService K) :=
  (sources.loadPrivateKeys node autoGenerateKeys config).map fun loaded =>
    node.onModuleInit (loaded.map LoadedKey.key)

end KeySources

/-- Every key id the service accepts, primary first. -/
def EncryptionService.acceptedKeyIds {K : Type} (service : EncryptionService K) : List String :=
  service.keys.map ServerKey.keyId

/-- The service holds these keys in this order, the first one is primary, and
it lists their ids. -/
structure Accepts {K : Type} (node : NodeCrypto K) (service : EncryptionService K)
    (keys : List K) : Prop where
  held : service.keys.map ServerKey.privateKey = keys
  primary : service.keys.head?.map ServerKey.privateKey = keys.head?
  acceptedKeyIds : service.acceptedKeyIds = keys.map fun k => node.keyIdOf (node.spki k)

theorem accepts_onModuleInit {K : Type} {node : NodeCrypto K} {loaded keys : List K} :
    Accepts node (node.onModuleInit loaded) keys ↔ loaded = keys := by
  have hheld : (node.onModuleInit loaded).keys.map ServerKey.privateKey = loaded := by
    rw [NodeCrypto.onModuleInit, List.map_map]
    exact List.map_id loaded
  constructor
  · exact fun h => hheld.symm.trans h.held
  · rintro rfl
    refine ⟨hheld, ?_, ?_⟩
    · rw [← List.head?_map, hheld]
    · rw [EncryptionService.acceptedKeyIds, NodeCrypto.onModuleInit, List.map_map]
      rfl

end EncryptionGateway.Encryption
