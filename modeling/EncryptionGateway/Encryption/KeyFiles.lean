import EncryptionGateway.Encryption.Keygen
import EncryptionGateway.Foundation.Run

/-!
# Key files over restarts

A server without configured keys reads `keys/private.pem`, or makes this file.
The key script writes key files as well. Once a server has started with the
default file, every later start without configured keys holds the same key,
whatever starts and runs of the script come in between, unless the script is
forced.

## Implementation notes

A disk maps paths to contents. The directory of the server does not change. A
generator that fails to save its files has saved none.
-/

namespace EncryptionGateway.Encryption

open JavaScript Foundation Common

abbrev Disk := String → Option String

namespace Disk

/-- The files are written one after the other. -/
def save (disk : Disk) (files : List (String × String)) : Disk :=
  files.foldl (fun d f => Function.update d f.1 (some f.2)) disk

theorem save_of_not_mem {files : List (String × String)} {path : String} :
    ∀ disk : Disk, (∀ f ∈ files, f.1 ≠ path) → disk.save files path = disk path := by
  induction files with
  | nil => exact fun _ _ => rfl
  | cons f files ih =>
      intro disk h
      rw [List.forall_mem_cons] at h
      have hsaved := ih (Function.update disk f.1 (some f.2)) h.2
      rw [save, List.foldl_cons]
      exact hsaved.trans (Function.update_of_ne (Ne.symm h.1) _ _)

end Disk

namespace KeySources

variable {K : Type}

def defaultPrivate (sources : KeySources K) : String :=
  sources.join (sources.resolve "keys") "private.pem"

/-- The platform on a disk, with the key the generator makes. -/
def onDisk (sources : KeySources K) (disk : Disk) (generated : Except String String) :
    KeySources K :=
  { sources with
    existsSync := fun path => (disk path).isSome
    readFileSync := fun path =>
      match disk path with
      | some content => .ok content
      | none => .error ("ENOENT: no such file or directory, open '" ++ path ++ "'")
    generate := fun _ => generated }

end KeySources

/-- No key is configured. -/
def UsesDefault (config : Config) : Prop :=
  trimmedValue config "RSA_PRIVATE_KEY" = none ∧ trimmedValue config "RSA_PRIVATE_KEY_PATH" = none

instance (config : Config) : Decidable (UsesDefault config) := inferInstanceAs (Decidable (_ ∧ _))

variable {K : Type} (node : NodeCrypto K) (sources : KeySources K) (exports : KeyExports K)

/-- A start of the server: what it holds, and what is on the disk afterwards.
The generator makes the key `k`, or fails. -/
def startup (k : K) (failure : Option String) (autoGenerateKeys : Bool) (config : Config)
    (disk : Disk) : Except String (EncryptionService K) × Disk :=
  let generated : Except String String :=
    match failure with
    | none => .ok (privatePem exports k)
    | some message => .error message
  let fresh := UsesDefault config ∧ disk sources.defaultPrivate = none ∧ autoGenerateKeys ∧
    failure = none
  ((sources.onDisk disk generated).onModuleInit node autoGenerateKeys config,
    if fresh then
      disk.save [(sources.defaultPrivate, privatePem exports k),
        (sources.join (sources.resolve "keys") "public.pem", publicPem node k)]
    else disk)

inductive KeyEvent (K : Type)
  | started (config : Config) (autoGenerateKeys : Bool)
      (outcome : Except String (EncryptionService K))
  | scripted (args : List String) (outcome : Except String Keygen.Outcome)

/-- A start of the server or a run of the script. -/
inductive KeyStep : Disk → KeyEvent K → Disk → Prop
  | start (disk : Disk) (config : Config) (autoGenerateKeys : Bool) (k : K)
      (failure : Option String) :
      KeyStep disk
        (.started config autoGenerateKeys
          (startup node sources exports k failure autoGenerateKeys config disk).1)
        (startup node sources exports k failure autoGenerateKeys config disk).2
  | refused (disk : Disk) (args : List String) (generateKeyPair : ℤ → K) {message : String}
      (h : Keygen.main node sources exports (fun path => (disk path).isSome) generateKeyPair args =
        .error message) : KeyStep disk (.scripted args (.error message)) disk
  | saved (disk : Disk) (args : List String) (generateKeyPair : ℤ → K) {outcome : Keygen.Outcome}
      (h : Keygen.main node sources exports (fun path => (disk path).isSome) generateKeyPair args =
        .ok outcome) : KeyStep disk (.scripted args (.ok outcome)) (disk.save outcome.files)

/-- The script did not run, or nothing was forced. -/
def Unforced : KeyEvent K → Prop
  | .scripted args (.ok _) => "--force" ∉ args
  | _ => True

section Starts

variable {node sources exports} {disk disk' : Disk} {config : Config} {autoGenerateKeys : Bool}

/-- The default file holds a key that the server accepts. -/
structure HoldsDefault (sources : KeySources K) (disk : Disk) (pem : String) (key : K) : Prop where
  file : disk sources.defaultPrivate = some pem
  reads : sources.createPrivateKey pem = .ok key
  strong : (sources.asymmetricKeyType key = "rsa" &&
    MIN_KEY_BITS ≤ (sources.modulusLength key).getD 0) = true

theorem parseKey_eq_ok {found : SourcedPem} {loaded : LoadedKey K} :
    sources.parseKey found = .ok loaded ↔ sources.createPrivateKey found.pem = .ok loaded.key ∧
      (sources.asymmetricKeyType loaded.key = "rsa" &&
        MIN_KEY_BITS ≤ (sources.modulusLength loaded.key).getD 0) = true ∧
      loaded.source = found.source := by
  rw [KeySources.parseKey, bind_eq_ok]
  constructor
  · rintro ⟨key, hkey, h⟩
    obtain ⟨_, hstrong, h⟩ := bind_eq_ok.mp h
    cases h
    exact ⟨mapError_eq_ok.mp hkey, require_eq_ok.mp hstrong, rfl⟩
  · rintro ⟨hkey, hstrong, hsource⟩
    refine ⟨loaded.key, mapError_eq_ok.mpr hkey, bind_eq_ok.mpr ⟨(), require_eq_ok.mpr hstrong, ?_⟩⟩
    cases loaded
    cases hsource
    rfl

/-- The default file comes before the generator. -/
theorem defaultPems_onDisk (sources : KeySources K) (disk : Disk) (generated : Except String String)
    (autoGenerateKeys : Bool) :
    (sources.onDisk disk generated).defaultPems autoGenerateKeys =
      match disk sources.defaultPrivate with
      | some pem => .ok [⟨pem, "keys/private.pem"⟩]
      | none =>
          if autoGenerateKeys then
            generated.map fun pem => [⟨pem, "auto-generated (keys/private.pem)"⟩]
          else .ok [] := by
  have hjoin : (sources.onDisk disk generated).join ((sources.onDisk disk generated).resolve "keys")
      "private.pem" = sources.defaultPrivate := rfl
  rw [KeySources.defaultPems, hjoin]
  cases hfile : disk sources.defaultPrivate with
  | some pem => simp only [KeySources.onDisk, hfile, Option.isSome_some, if_true, bind, Except.bind]
  | none =>
      simp only [KeySources.onDisk, hfile, Option.isSome_none, Bool.false_eq_true, if_false]
      cases generated <;> rfl

/-- A start without configured keys loads the one text it finds or makes. -/
theorem onModuleInit_default (hdefault : UsesDefault config) {generated : Except String String}
    {service : EncryptionService K} :
    (sources.onDisk disk generated).onModuleInit node autoGenerateKeys config = .ok service ↔
      ∃ found key, (sources.onDisk disk generated).defaultPems autoGenerateKeys = .ok [found] ∧
        sources.createPrivateKey found.pem = .ok key ∧
        (sources.asymmetricKeyType key = "rsa" &&
          MIN_KEY_BITS ≤ (sources.modulusLength key).getD 0) = true ∧
        service = node.onModuleInit [key] := by
  have hconfigured : (sources.onDisk disk generated).configuredPems node autoGenerateKeys config =
      (sources.onDisk disk generated).defaultPems autoGenerateKeys := by
    rw [KeySources.configuredPems, hdefault.1, hdefault.2]
  have hsingle : ∀ pems, (sources.onDisk disk generated).defaultPems autoGenerateKeys = .ok pems →
      pems = [] ∨ ∃ found, pems = [found] := by
    intro pems hpems
    rw [KeySources.defaultPems] at hpems
    split at hpems
    · obtain ⟨pem, -, h⟩ := bind_eq_ok.mp hpems
      cases h
      exact Or.inr ⟨_, rfl⟩
    · split at hpems
      · obtain ⟨pem, -, h⟩ := bind_eq_ok.mp hpems
        cases h
        exact Or.inr ⟨_, rfl⟩
      · cases hpems
        exact Or.inl rfl
  rw [KeySources.onModuleInit, map_eq_ok]
  simp only [KeySources.loadPrivateKeys, hconfigured, bind_eq_ok, require_eq_ok]
  constructor
  · rintro ⟨loaded, ⟨pems, hpems, _, hne, hloaded⟩, rfl⟩
    rcases hsingle pems hpems with rfl | ⟨found, rfl⟩
    · cases hne
    · cases mapM_eq_ok.mp hloaded with
      | cons hfound hrest =>
          cases hrest
          obtain ⟨hreads, hstrong, -⟩ := parseKey_eq_ok.mp hfound
          exact ⟨found, _, hpems, hreads, hstrong, rfl⟩
  · rintro ⟨found, key, hpems, hreads, hstrong, rfl⟩
    have hfound : (sources.onDisk disk generated).parseKey found = .ok ⟨key, found.source⟩ :=
      parseKey_eq_ok.mpr ⟨hreads, hstrong, rfl⟩
    exact ⟨_, ⟨_, hpems, (), rfl, mapM_eq_ok.mpr (.cons hfound .nil)⟩, rfl⟩

/-- A start with the default file holds its key, and leaves the disk as it is. -/
theorem startup_of_holds {pem : String} {key : K} (h : HoldsDefault sources disk pem key)
    (hdefault : UsesDefault config) (k : K) (failure : Option String) (autoGenerateKeys : Bool) :
    (startup node sources exports k failure autoGenerateKeys config disk).1 =
      .ok (node.onModuleInit [key]) := by
  refine (onModuleInit_default hdefault).mpr ⟨⟨pem, "keys/private.pem"⟩, key, ?_, h.reads, h.strong,
    rfl⟩
  rw [defaultPems_onDisk, h.file]

/-- A start that succeeds without configured keys leaves its key in the default
file. -/
theorem holds_of_startup (hjoin : ∀ directory, sources.join directory "private.pem" ≠
      sources.join directory "public.pem") (hdefault : UsesDefault config) {k : K}
    {failure : Option String} {service : EncryptionService K}
    (h : (startup node sources exports k failure autoGenerateKeys config disk).1 = .ok service) :
    ∃ pem key, HoldsDefault sources
        (startup node sources exports k failure autoGenerateKeys config disk).2 pem key ∧
      service = node.onModuleInit [key] := by
  obtain ⟨found, key, hpems, hreads, hstrong, rfl⟩ := (onModuleInit_default hdefault).mp h
  refine ⟨found.pem, key, ⟨?_, hreads, hstrong⟩, rfl⟩
  rw [defaultPems_onDisk] at hpems
  cases hfile : disk sources.defaultPrivate with
  | some pem =>
      rw [hfile] at hpems
      cases hpems
      simp only [startup, hfile, reduceCtorEq, false_and, and_false, if_false]
  | none =>
      rw [hfile] at hpems
      cases autoGenerateKeys with
      | false => cases hpems
      | true =>
          cases failure with
          | some message => cases hpems
          | none =>
              cases hpems
              have hkept : (sources.join (sources.resolve "keys") "public.pem") ≠
                  sources.defaultPrivate := Ne.symm (hjoin _)
              simp only [startup, hdefault, hfile, and_self, if_true, Disk.save, List.foldl_cons,
                List.foldl_nil]
              rw [Function.update_of_ne (Ne.symm hkept), Function.update_self]

/-- Nothing but a forced run of the script replaces the default file. -/
theorem KeyStep.keeps {e : KeyEvent K} (hstep : KeyStep node sources exports disk e disk')
    (hunforced : Unforced e) {pem : String} {key : K} (h : HoldsDefault sources disk pem key) :
    HoldsDefault sources disk' pem key := by
  refine ⟨?_, h.reads, h.strong⟩
  cases hstep with
  | start _ _ k failure =>
      simp only [startup, h.file, reduceCtorEq, false_and, and_false, if_false]
  | refused _ _ _ => exact h.file
  | saved args generateKeyPair hmain =>
      obtain ⟨-, -, -, -, -, hforced⟩ := Keygen.main_eq_ok hmain
      rw [Disk.save_of_not_mem]
      · exact h.file
      · intro f hf hpath
        refine hunforced (hforced ⟨f, hf, ?_⟩)
        rw [hpath, h.file]
        rfl

theorem keeps_of_run {tr : List (KeyEvent K)}
    (run : Run (KeyStep node sources exports) disk tr disk') (hunforced : ∀ e ∈ tr, Unforced e)
    {pem : String} {key : K} (h : HoldsDefault sources disk pem key) :
    HoldsDefault sources disk' pem key := by
  induction run with
  | nil _ => exact h
  | cons head _ ih =>
      rw [List.forall_mem_cons] at hunforced
      exact ih hunforced.2 (head.keeps hunforced.1 h)

/-- What a start records is what the start does. -/
theorem KeyStep.of_started {outcome : Except String (EncryptionService K)}
    (h : KeyStep node sources exports disk (.started config autoGenerateKeys outcome) disk') :
    ∃ k failure,
      startup node sources exports k failure autoGenerateKeys config disk = (outcome, disk') := by
  cases h with
  | start _ _ k failure => exact ⟨k, failure, rfl⟩

end Starts

/-- After a start that succeeds without configured keys, every later start
without configured keys succeeds and holds the same key, whatever is generated
in between, as long as nothing is forced. -/
theorem default_key_persists (hjoin : ∀ directory, sources.join directory "private.pem" ≠
      sources.join directory "public.pem") {disk disk' : Disk} {before between : List (KeyEvent K)}
    {config config' : Config} {auto auto' : Bool} {service : EncryptionService K}
    {outcome : Except String (EncryptionService K)}
    (run : Run (KeyStep node sources exports) disk
      (before ++ .started config auto (.ok service) :: between ++ [.started config' auto' outcome])
      disk')
    (hdefault : UsesDefault config) (hdefault' : UsesDefault config')
    (hunforced : ∀ e ∈ between, Unforced e) : outcome = .ok service := by
  obtain ⟨late, hlate, hlast⟩ := Run.append_iff.mp run
  obtain ⟨early, first, -, hfirst, hbetween⟩ := hlate.at_label
  obtain ⟨k, failure, hstartup⟩ := hfirst.of_started
  obtain ⟨pem, key, hholds, rfl⟩ := holds_of_startup hjoin hdefault (congrArg Prod.fst hstartup)
  rw [congrArg Prod.snd hstartup] at hholds
  have hkept := keeps_of_run hbetween hunforced hholds
  cases hlast with
  | cons hstep _ =>
      obtain ⟨k', failure', hstartup'⟩ := hstep.of_started
      have houtcome := congrArg Prod.fst hstartup'
      rw [startup_of_holds hkept hdefault'] at houtcome
      exact houtcome.symm

section Samples

open KeySources

theorem reads_privatePem :
    lettered.createPrivateKey (privatePem Keygen.letteredExports 0) = .ok 0 := by
  let key : Keygen.RsaKey lettered Keygen.letteredExports :=
    ⟨0, Keygen.reads_lettered (by simp), rfl, by decide⟩
  have hread := lawful_lettered.createPrivateKey_file key.block ['\n'] Keygen.newline_ends
  rw [key.text_block] at hread
  exact hread

def firstStart : Except String (EncryptionService UInt8) × Disk :=
  startup NodeCrypto.labelled lettered Keygen.letteredExports 0 none true (fun _ => none)
    fun _ => none

/-- A run of the script between two starts leaves the key that the first start
has made. -/
theorem default_key_persists_restart : ∃ outcome : Except String (EncryptionService UInt8),
    (∃ disk message, Run (KeyStep NodeCrypto.labelled lettered Keygen.letteredExports)
      (fun _ => none)
      ([] ++ .started (fun _ => none) true (.ok (NodeCrypto.labelled.onModuleInit [0])) ::
        [.scripted [] (.error message)] ++ [.started (fun _ => none) false outcome]) disk) ∧
    outcome = .ok (NodeCrypto.labelled.onModuleInit [0]) := by
  have hjoin : ∀ directory, lettered.join directory "private.pem" ≠
      lettered.join directory "public.pem" := by
    intro directory h
    have hnames := congrArg String.toList h
    simp [lettered] at hnames
  have hdefault : UsesDefault fun _ => none := ⟨rfl, rfl⟩
  have hfirst : firstStart.1 = .ok (NodeCrypto.labelled.onModuleInit [0]) :=
    (onModuleInit_default hdefault).mpr ⟨_, 0, rfl, reads_privatePem, rfl, rfl⟩
  obtain ⟨pem, key, hholds, -⟩ := holds_of_startup hjoin hdefault hfirst
  have hstart : KeyStep NodeCrypto.labelled lettered Keygen.letteredExports (fun _ => none)
      (.started (fun _ => none) true firstStart.1) firstStart.2 := .start _ _ true 0 none
  rw [hfirst] at hstart
  change HoldsDefault lettered firstStart.2 pem key at hholds
  generalize firstStart.2 = disk at hholds hstart
  have hexists : (disk (lettered.join (lettered.resolve (Keygen.opt [] "out" "keys"))
      "private.pem")).isSome = true := by
    change (disk lettered.defaultPrivate).isSome = true
    rw [hholds.file]
    rfl
  have hparsed : parseInt (Keygen.opt [] "bits" "2048") = some 2048 := by decide
  have hrefused : ∃ message, Keygen.main NodeCrypto.labelled lettered Keygen.letteredExports
      (fun path => (disk path).isSome) (fun _ => 1) [] = .error message := by
    refine ⟨"Key files already exist in /app/keys. Use --force to overwrite.", ?_⟩
    simp only [Keygen.main, hparsed, hexists]
    rfl
  obtain ⟨message, hmessage⟩ := hrefused
  have hlast : KeyStep NodeCrypto.labelled lettered Keygen.letteredExports disk
      (.started (fun _ => none) false _) _ := .start disk _ false 1 none
  have run : Run (KeyStep NodeCrypto.labelled lettered Keygen.letteredExports) _
      ([] ++ .started (fun _ => none) true (.ok (NodeCrypto.labelled.onModuleInit [0])) ::
        [.scripted [] (.error message)] ++ [.started (fun _ => none) false _]) _ :=
    .cons hstart (.cons (.refused disk [] (fun _ => 1) hmessage) (.cons hlast (.nil _)))
  have hunforced : ∀ e ∈ [KeyEvent.scripted [] (.error message)], Unforced (K := UInt8) e := by
    intro e he
    rw [List.mem_singleton.mp he]
    trivial
  exact ⟨_, ⟨_, message, run⟩, default_key_persists NodeCrypto.labelled lettered
    Keygen.letteredExports hjoin run hdefault hdefault hunforced⟩

end Samples

end EncryptionGateway.Encryption
