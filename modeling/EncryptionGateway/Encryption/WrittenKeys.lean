import EncryptionGateway.Encryption.PemBlocks

/-!
# The keys of one variable

An operator writes several private keys into `RSA_PRIVATE_KEY`, separated by
commas, each in base64 or as PEM text. In base64 all of them are loaded. PEM
text anywhere makes the whole value one PEM text, in which the first key that
the platform reads hides every other key.
-/

namespace EncryptionGateway.Encryption

open JavaScript Foundation Common Splitting

section Pieces

theorem isSpace_ne {c sep : Char} (hc : isSpace c = true) (hsep : isSpace sep = false) :
    c ≠ sep := by
  rintro rfl
  rw [hc] at hsep
  cases hsep

/-- Blanks at the ends of a list are blanks at the ends of its pieces. -/
theorem map_trimChars_splitOn {sep : Char} (hsep : isSpace sep = false) (l : List Char) :
    ((trimChars l).splitOn sep).map trimChars = (l.splitOn sep).map trimChars := by
  obtain ⟨blanks, blanks', hl, hb, hb'⟩ := exists_trimChars l
  have hnot : ∀ {m : List Char}, (∀ c ∈ m, isSpace c = true) → sep ∉ m := fun hm hmem =>
    isSpace_ne (hm sep hmem) hsep rfl
  have hend : ∀ m : List Char, ((m ++ blanks').splitOn sep).map trimChars =
      (m.splitOn sep).map trimChars := by
    intro m
    induction m using cut_induction sep with
    | last m hm =>
        have hm' : sep ∉ m ++ blanks' := by
          rw [List.mem_append]
          exact fun h => h.elim hm (hnot hb')
        rw [List.splitOn_eq_singleton hm', List.splitOn_eq_singleton hm, List.map_singleton,
          List.map_singleton, trimChars_append_blanks hb']
    | cut piece rest hpiece ih =>
        rw [List.append_assoc, List.cons_append, splitOn_cut hpiece, splitOn_cut hpiece,
          List.map_cons, List.map_cons, ih]
  have hstart : ∀ m : List Char, ((blanks ++ m).splitOn sep).map trimChars =
      (m.splitOn sep).map trimChars := by
    intro m
    by_cases hm : sep ∈ m
    · obtain ⟨piece, rest, rfl, hpiece⟩ := List.eq_append_cons_of_mem hm
      have hpiece' : sep ∉ blanks ++ piece := by
        rw [List.mem_append]
        exact fun h => h.elim (hnot hb) hpiece
      rw [← List.append_assoc, splitOn_cut hpiece', splitOn_cut hpiece, List.map_cons,
        List.map_cons, trimChars_blanks_append hb]
    · have hm' : sep ∉ blanks ++ m := by
        rw [List.mem_append]
        exact fun h => h.elim (hnot hb) hm
      rw [List.splitOn_eq_singleton hm', List.splitOn_eq_singleton hm, List.map_singleton,
        List.map_singleton, trimChars_blanks_append hb]
  conv_rhs => rw [hl, hend, hstart]

theorem listedValues_eq (value : String) :
    listedValues (trim value) =
      (((value.toList.splitOn ',').map trimChars).filter fun l => l ≠ []).map String.ofList := by
  have htrim : trim ∘ String.ofList = String.ofList ∘ trimChars := by
    funext l
    rw [Function.comp_apply, Function.comp_apply, trim, String.toList_ofList]
  have hempty : ((fun v : String => decide (v ≠ "")) ∘ String.ofList) =
      fun l : List Char => decide (l ≠ []) := by
    funext l
    rw [Function.comp_apply, decide_eq_decide, Ne, ← String.toList_inj, String.toList_ofList]
    rfl
  rw [listedValues, split, trim, String.toList_ofList, List.map_map, htrim, ← List.map_map,
    map_trimChars_splitOn rfl, List.filter_map, hempty]

end Pieces

/-- How a key is written into the variable. -/
inductive Spelling
  | base64
  | pem
  | escaped
deriving DecidableEq, Repr

/-- A key between two commas: its PEM text ends in any newlines, and blanks
surround what is written. -/
structure Entry {K : Type} (sources : KeySources K) extends PemBlock sources where
  ending : List Char
  spelling : Spelling
  before : List Char
  after : List Char
  ending_newlines : ∀ c ∈ ending, c = '\n' ∨ c = '\r'
  before_blank : ∀ c ∈ before, isSpace c = true
  after_blank : ∀ c ∈ after, isSpace c = true

namespace Entry

variable {K : Type} {sources : KeySources K} (node : NodeCrypto K)

def pem (entry : Entry sources) : List Char := entry.text ++ entry.ending

/-- What is written, without the blanks. -/
def body (entry : Entry sources) : List Char :=
  match entry.spelling with
  | .base64 => (Base64.encode (node.utf8Encode (String.ofList entry.pem))).toList
  | .pem => entry.pem
  | .escaped => escapeNewlines entry.pem

def written (entry : Entry sources) : List Char := entry.before ++ entry.body node ++ entry.after

/-- The value of the variable. -/
def value (entries : List (Entry sources)) : String :=
  String.ofList ([','].intercalate (entries.map (written node)))

section Base64

variable {K : Type} {sources : KeySources K} {node : NodeCrypto K}

private theorem base64_spec {bytes : Bytes} {c : Char} (hc : c ∈ Base64.encodeChars bytes) :
    (c ≠ '-' ∧ c ≠ ',' ∧ c ≠ '\\') ∧ isSpace c = false := by
  have hdigit : ∀ n : Fin 64, (Base64.sextetChar n ≠ '-' ∧ Base64.sextetChar n ≠ ',' ∧
      Base64.sextetChar n ≠ '\\') ∧ isSpace (Base64.sextetChar n) = false := by decide
  rcases Base64.mem_encodeChars hc with rfl | ⟨n, rfl⟩
  · decide
  · exact hdigit n

theorem body_eq_base64 {entry : Entry sources} (h : entry.spelling = .base64) :
    entry.body node =
      Base64.encodeChars (node.utf8Encode (String.ofList entry.pem)) := by
  rw [body, h]
  exact String.toList_ofList

theorem blank_ne {c : Char} (hc : isSpace c = true) : c ≠ '-' ∧ c ≠ ',' ∧ c ≠ '\\' :=
  ⟨isSpace_ne hc rfl, isSpace_ne hc rfl, isSpace_ne hc rfl⟩

/-- A key in base64 has no dash, no comma and no backslash. -/
theorem written_base64 {entry : Entry sources} (h : entry.spelling = .base64) {c : Char}
    (hc : c ∈ entry.written node) : c ≠ '-' ∧ c ≠ ',' ∧ c ≠ '\\' := by
  rw [written, List.mem_append, List.mem_append, body_eq_base64 h] at hc
  rcases hc with (hc | hc) | hc
  · exact blank_ne (entry.before_blank c hc)
  · exact (base64_spec hc).1
  · exact blank_ne (entry.after_blank c hc)

theorem trimChars_written {entry : Entry sources} (h : entry.spelling = .base64) :
    trimChars (entry.written node) = entry.body node := by
  apply trimChars_surrounded entry.before_blank entry.after_blank
  intro c hc
  rw [body_eq_base64 h] at hc
  exact (base64_spec hc).2

theorem pem_ne_nil (entry : Entry sources) : entry.pem ≠ [] := by
  intro h
  have hprefix := entry.begins
  rw [(List.append_eq_nil_iff.mp h).1] at hprefix
  exact absurd hprefix (by decide)

theorem body_ne_nil (hlaw : sources.Lawful node) {entry : Entry sources}
    (h : entry.spelling = .base64) : entry.body node ≠ [] := by
  rw [body_eq_base64 h, Ne, Base64.encodeChars_eq_nil]
  intro hempty
  have hdecode := hlaw.utf8Decode_utf8Encode (String.ofList entry.pem)
  rw [hempty, hlaw.utf8Decode_nil] at hdecode
  exact entry.pem_ne_nil (by simpa using congrArg String.toList hdecode.symm)

theorem decode_body (hlaw : sources.Lawful node) {entry : Entry sources}
    (h : entry.spelling = .base64) :
    node.utf8Decode (Base64.decode (String.ofList (entry.body node))) =
      String.ofList entry.pem := by
  have hdecode := Base64.decode_encode (node.utf8Encode (String.ofList entry.pem))
  rw [Base64.encode, ← body_eq_base64 h] at hdecode
  rw [hdecode, hlaw.utf8Decode_utf8Encode]

/-- In base64 the pieces between the commas are the keys. -/
theorem listedValues_value (hlaw : sources.Lawful node) {entries : List (Entry sources)}
    (hne : entries ≠ []) (hbase64 : ∀ entry ∈ entries, entry.spelling = .base64) :
    listedValues (trim (value node entries)) =
      entries.map fun entry => String.ofList (entry.body node) := by
  have hcomma : ∀ piece ∈ entries.map (written node), ',' ∉ piece := by
    intro piece hpiece hmem
    obtain ⟨entry, hentry, rfl⟩ := List.mem_map.mp hpiece
    exact (written_base64 (hbase64 entry hentry) hmem).2.1 rfl
  have hbodies : (entries.map (written node)).map trimChars = entries.map (body node) := by
    rw [List.map_map]
    exact List.map_congr_left fun entry hentry => trimChars_written (hbase64 entry hentry)
  have hkept : (entries.map (body node)).filter (fun l => l ≠ []) = entries.map (body node) := by
    rw [List.filter_eq_self]
    intro l hl
    obtain ⟨entry, hentry, rfl⟩ := List.mem_map.mp hl
    exact decide_eq_true (body_ne_nil hlaw (hbase64 entry hentry))
  rw [listedValues_eq, value, String.toList_ofList,
    List.splitOn_intercalate ',' hcomma (by simpa using hne), hbodies, hkept, List.map_map]
  rfl

/-- Keys in base64, and the commas between them, have no dash. -/
theorem dash_not_mem {front : List (Entry sources)}
    (hbase64 : ∀ entry ∈ front, entry.spelling = .base64) {c : Char}
    (hc : c = ',' ∨ ∃ piece ∈ front.map (written node), c ∈ piece) : c ≠ '-' ∧ c ≠ '\\' := by
  obtain rfl | ⟨piece, hpiece, hc⟩ := hc
  · decide
  · obtain ⟨entry, hentry, rfl⟩ := List.mem_map.mp hpiece
    have hwritten := written_base64 (hbase64 entry hentry) hc
    exact ⟨hwritten.1, hwritten.2.2⟩

theorem includes_value_eq_false {entries : List (Entry sources)}
    (hbase64 : ∀ entry ∈ entries, entry.spelling = .base64) :
    includes (trim (value node entries)) "-----BEGIN" = false := by
  rw [Bool.eq_false_iff, Ne, includes_iff]
  rintro ⟨start, stop, heq⟩
  obtain ⟨blanks, blanks', hvalue, -⟩ := exists_trimChars (value node entries).toList
  have hmem : '-' ∈ [','].intercalate (entries.map (written node)) := by
    rw [trim, String.toList_ofList (l := trimChars _)] at heq
    have hdash : '-' ∈ (value node entries).toList := by
      rw [hvalue, ← heq]
      simp
    rwa [value, String.toList_ofList] at hdash
  exact (dash_not_mem hbase64 (mem_of_mem_intercalate hmem)).1 rfl

end Base64

section PemText

variable {K : Type} {sources : KeySources K} {node : NodeCrypto K}

/-- The block that a key puts into the value. -/
def blocks (entry : Entry sources) : List (PemBlock sources) :=
  if entry.spelling = .base64 then [] else [entry.toPemBlock]

/-- The text that is read as PEM, when the value contains PEM text. -/
def pemText (node : NodeCrypto K) (entries : List (Entry sources)) : List Char :=
  unescapeNewlines (trim (value node entries)).toList

theorem getLast?_escapeNewlines {l : List Char} (hl : '\\' ∉ l) :
    (escapeNewlines l).getLast? ≠ some '\\' := by
  rcases List.eq_nil_or_concat l with rfl | ⟨l, c, rfl⟩
  · simp [escapeNewlines]
  · rw [List.concat_eq_append, escapeNewlines_append, List.getLast?_append]
    by_cases hc : c = '\n'
    · simp [escapeNewlines, hc]
    · have hslash : c ≠ '\\' := by
        rintro rfl
        exact hl (by simp)
      simp [escapeNewlines, hc, hslash]

/-- What a key in PEM writes behind its block has no dash, ends in no backslash
and is read as the newlines. -/
theorem exists_core (node : NodeCrypto K) {entry : Entry sources} (h : entry.spelling ≠ .base64) :
    ∃ core tail, entry.body node = core ++ tail ∧
      (core = entry.text ∨ core = escapeNewlines entry.text) ∧ '-' ∉ tail ∧
      tail.getLast? ≠ some '\\' ∧ unescapeNewlines tail = entry.ending := by
  have hending : ∀ {c : Char}, c ∈ entry.ending → c ≠ '-' ∧ c ≠ '\\' := by
    intro c hc
    rcases entry.ending_newlines c hc with rfl | rfl
    · decide
    · decide
  have hplain : '\\' ∉ entry.ending := fun hslash => (hending hslash).2 rfl
  cases hspelling : entry.spelling with
  | base64 => exact absurd hspelling h
  | pem =>
      refine ⟨entry.text, entry.ending, ?_, Or.inl rfl, fun hdash => (hending hdash).1 rfl, ?_,
        unescapeNewlines_eq_self hplain⟩
      · rw [body, hspelling]
        rfl
      · exact fun hslash => hplain (List.mem_of_getLast? hslash)
  | escaped =>
      refine ⟨escapeNewlines entry.text, escapeNewlines entry.ending, ?_, Or.inr rfl, ?_,
        getLast?_escapeNewlines hplain, unescapeNewlines_escapeNewlines hplain⟩
      · rw [body, hspelling]
        exact escapeNewlines_append _ _
      · intro hdash
        rcases mem_escapeNewlines hdash with h | h | h
        · cases h
        · cases h
        · exact (hending h).1 rfl

theorem getLast?_append_blank {l blanks : List Char} (hl : l.getLast? ≠ some '\\')
    (hblanks : ∀ c ∈ blanks, isSpace c = true) : (l ++ blanks).getLast? ≠ some '\\' := by
  rw [List.getLast?_append]
  cases h : blanks.getLast? with
  | none => simpa using hl
  | some c => simpa using (blank_ne (hblanks c (List.mem_of_getLast? h))).2.2

/-- A key in front of a text puts its block in front of the blocks of the text. -/
theorem written_append (node : NodeCrypto K) (entry : Entry sources)
    {found : List (PemBlock sources)} {l : List Char} (h : Written found l) :
    Written (entry.blocks ++ found) (entry.written node ++ l) := by
  by_cases hspelling : entry.spelling = .base64
  · rw [blocks, if_pos hspelling, List.nil_append]
    exact h.prepend _ (fun hdash => (written_base64 hspelling hdash).1 rfl)
      fun hslash => (written_base64 hspelling (List.mem_of_getLast? hslash)).2.2 rfl
  · obtain ⟨core, tail, hbody, hcore, hdash, hlast, -⟩ := exists_core node hspelling
    have hrest : Written found (tail ++ entry.after ++ l) := by
      refine h.prepend _ ?_ (getLast?_append_blank hlast entry.after_blank)
      rw [List.mem_append]
      exact fun hmem => hmem.elim hdash fun hmem => (blank_ne (entry.after_blank _ hmem)).1 rfl
    rw [blocks, if_neg hspelling, written, hbody]
    have hwritten : entry.before ++ (core ++ tail) ++ entry.after ++ l =
        entry.before ++ core ++ (tail ++ entry.after ++ l) := by
      simp only [List.append_assoc]
    rw [hwritten]
    exact .block (fun hmem => (blank_ne (entry.before_blank _ hmem)).1 rfl)
      (fun hslash => (blank_ne (entry.before_blank _ (List.mem_of_getLast? hslash))).2.2 rfl)
      entry.toPemBlock hcore hrest

theorem written_value (node : NodeCrypto K) (entries : List (Entry sources)) :
    Written (entries.flatMap blocks) (value node entries).toList := by
  rw [value, String.toList_ofList]
  induction entries with
  | nil => exact .plain (by simp)
  | cons entry rest ih =>
      rw [List.flatMap_cons, List.map_cons]
      cases rest with
      | nil =>
          have halone := written_append node entry (.plain List.not_mem_nil)
          simpa using halone
      | cons next rest =>
          have hcomma := ih.prepend [','] (by decide) (by decide)
          have happend := written_append node entry hcomma
          rw [List.map_cons] at happend ⊢
          rwa [List.intercalate_cons_cons, ← List.append_assoc] at *

/-- As soon as one key is PEM text, the whole value is one PEM text. -/
theorem inlinePems_value (node : NodeCrypto K) {entries : List (Entry sources)}
    (h : ¬ ∀ entry ∈ entries, entry.spelling = .base64) :
    trim (value node entries) ≠ "" ∧ inlinePems node (trim (value node entries)) =
      [⟨String.ofList (pemText node entries), "RSA_PRIVATE_KEY"⟩] := by
  have hblocks : entries.flatMap blocks ≠ [] := by
    intro hnil
    refine h fun entry hentry => ?_
    have hempty := List.flatMap_eq_nil_iff.mp hnil entry hentry
    by_contra hspelling
    rw [blocks, if_neg hspelling] at hempty
    cases hempty
  have hincludes : includes (trim (value node entries)) "-----BEGIN" = true := by
    rw [includes_iff, trim, String.toList_ofList (l := trimChars _)]
    exact (written_value node entries).trimChars.begin_infix hblocks
  refine ⟨?_, ?_⟩
  · intro hempty
    rw [hempty] at hincludes
    exact absurd hincludes (by decide)
  · rw [inlinePems, if_pos hincludes, pemText]

/-- PEM text in front of other keys begins the text, with its newlines. -/
theorem exists_pemText_in_front (node : NodeCrypto K) {entry : Entry sources}
    {rest : List (Entry sources)} (hspelling : entry.spelling ≠ .base64) (hrest : rest ≠ []) :
    ∃ more, pemText node (entry :: rest) = entry.text ++ (entry.ending ++ more) := by
  obtain ⟨next, others, rfl⟩ := List.exists_cons_of_ne_nil hrest
  obtain ⟨core, tail, hbody, hcore, -, hlast, hnewlines⟩ := exists_core node hspelling
  obtain ⟨-, hhead, hdash, hcore⟩ := PemBlock.core_spec hcore
  let later := [','].intercalate ((next :: others).map (written node))
  have hvalue : (value node (entry :: next :: others)).toList =
      entry.before ++ (core ++ (tail ++ entry.after ++ [','] ++ later)) := by
    rw [value, String.toList_ofList, List.map_cons, List.map_cons, List.intercalate_cons_cons,
      written, hbody]
    simp only [List.append_assoc]
    rfl
  have htrim : trimChars (value node (entry :: next :: others)).toList =
      core ++ (tail ++ (entry.after ++ [','] ++ trimEndChars later)) := by
    rw [hvalue, trimChars_eq, dropWhile_before hhead rfl,
      List.dropWhile_eq_nil_iff.mpr entry.before_blank, List.nil_append, ← List.append_assoc core,
      ← List.append_assoc core, trimEndChars_after [','] rfl rfl]
    simp only [List.append_assoc]
  refine ⟨unescapeNewlines (entry.after ++ [','] ++ trimEndChars later), ?_⟩
  rw [pemText, trim, String.toList_ofList, htrim, unescapeNewlines_append (by simp [hdash]),
    unescapeNewlines_append hlast, hcore, hnewlines]

/-- Reading this text ends with the block of a key, or with none. -/
theorem exists_firstStanding (node : NodeCrypto K) (entries : List (Entry sources))
    (stands : List Char → List Char → List Char → Bool) :
    ∃ first, FirstStanding sources stands [] (pemText node entries) first ∧
      ∀ block ∈ first, block ∈ entries.flatMap blocks := by
  have hcomposed := (written_value node entries).trimChars.unescapeNewlines
  rw [pemText, trim, String.toList_ofList (l := trimChars _)]
  exact hcomposed.exists_firstStanding stands []

end PemText

end Entry

namespace KeySources

open Entry

variable {K : Type} {node : NodeCrypto K} {sources : KeySources K}

theorem parseKey_block (block : PemBlock sources) {found : SourcedPem}
    (hreads : sources.createPrivateKey found.pem = .ok block.key) :
    sources.parseKey found = .ok ⟨block.key, found.source⟩ := by
  have hstrong : (decide (sources.asymmetricKeyType block.key = "rsa") &&
      decide (MIN_KEY_BITS ≤ (sources.modulusLength block.key).getD 0)) = true := by
    rw [Bool.and_eq_true, decide_eq_true_eq, decide_eq_true_eq]
    exact ⟨block.rsa, block.bits⟩
  rw [parseKey, hreads]
  simp only [Except.mapError, bind, Except.bind, require, hstrong, if_true]

theorem trimmedValue_eq_some {config : Config} {name raw : String} (hraw : config name = some raw)
    (hne : trim raw ≠ "") : trimmedValue config name = some (trim raw) := by
  rw [trimmedValue, hraw, Option.map_some]
  exact if_neg hne

/-- The startup with a value of `RSA_PRIVATE_KEY` is the parsing of its texts. -/
theorem onModuleInit_inline {config : Config} {raw : String} {loaded : List (LoadedKey K)}
    (hraw : config "RSA_PRIVATE_KEY" = some raw) (hne : trim raw ≠ "")
    (hloaded : (inlinePems node (trim raw)).mapM sources.parseKey = .ok loaded)
    (hsome : loaded ≠ []) (autoGenerateKeys : Bool) :
    sources.onModuleInit node autoGenerateKeys config =
      .ok (node.onModuleInit (loaded.map LoadedKey.key)) := by
  have hpems : (!(inlinePems node (trim raw)).isEmpty) = true := by
    rw [Bool.not_eq_true', List.isEmpty_eq_false_iff]
    rintro hnil
    rw [hnil] at hloaded
    cases hloaded
    exact hsome rfl
  rw [onModuleInit, loadPrivateKeys, configuredPems, trimmedValue_eq_some hraw hne]
  simp only [bind, Except.bind, require, hpems, if_true, hloaded, Except.map]

/-- In base64 every key is loaded. -/
theorem onModuleInit_base64 (hlaw : sources.Lawful node) {config : Config}
    {entries : List (Entry sources)} (hne : entries ≠ [])
    (hbase64 : ∀ entry ∈ entries, entry.spelling = .base64)
    (hconfig : config "RSA_PRIVATE_KEY" = some (value node entries)) (autoGenerateKeys : Bool) :
    sources.onModuleInit node autoGenerateKeys config =
      .ok (node.onModuleInit (entries.map fun entry => entry.key)) := by
  have hlisted := listedValues_value hlaw hne hbase64
  have htrim : trim (value node entries) ≠ "" := by
    intro hempty
    rw [hempty] at hlisted
    exact hne (List.map_eq_nil_iff.mp hlisted.symm)
  let source (i : ℕ) : String := "RSA_PRIVATE_KEY[" ++ toString i ++ "]"
  have hpems : inlinePems node (trim (value node entries)) = entries.zipIdx.map fun found =>
      ⟨node.utf8Decode (Base64.decode (String.ofList (found.1.body node))), source found.2⟩ := by
    rw [inlinePems, includes_value_eq_false hbase64, if_neg Bool.false_ne_true, hlisted,
      List.mapIdx_eq_zipIdx_map, List.zipIdx_map, List.map_map]
    rfl
  have hloaded : (inlinePems node (trim (value node entries))).mapM sources.parseKey =
      .ok (entries.zipIdx.map fun found => ⟨found.1.key, source found.2⟩) := by
    rw [hpems, mapM_eq_ok, List.forall₂_map_left_iff, List.forall₂_map_right_iff, List.forall₂_same]
    intro found hfound
    apply parseKey_block found.1.toPemBlock
    rw [decode_body hlaw (hbase64 found.1 (List.fst_mem_of_mem_zipIdx hfound))]
    exact hlaw.createPrivateKey_file found.1.toPemBlock found.1.ending found.1.ending_newlines
  have hkeys : (entries.zipIdx.map fun found => LoadedKey.mk found.1.key (source found.2)).map
      LoadedKey.key = entries.map fun entry => entry.key := by
    conv_rhs => rw [← List.zipIdx_map_fst 0 entries]
    rw [List.map_map, List.map_map]
    rfl
  rw [onModuleInit_inline hconfig htrim hloaded (by simpa using hne), hkeys]

/-- With PEM text in the value the startup is the parsing of the one text. -/
theorem onModuleInit_pem {config : Config} {entries : List (Entry sources)}
    (h : ¬ ∀ entry ∈ entries, entry.spelling = .base64)
    (hconfig : config "RSA_PRIVATE_KEY" = some (value node entries)) (autoGenerateKeys : Bool) :
    sources.onModuleInit node autoGenerateKeys config =
      (sources.parseKey ⟨String.ofList (pemText node entries), "RSA_PRIVATE_KEY"⟩).map
        fun loaded => node.onModuleInit [loaded.key] := by
  obtain ⟨hne, hpems⟩ := inlinePems_value node h
  rw [onModuleInit, loadPrivateKeys, configuredPems, trimmedValue_eq_some hconfig hne]
  simp only [hpems, bind, Except.bind, require, List.isEmpty_cons, Bool.not_false, if_true,
    List.mapM_cons, List.mapM_nil]
  cases sources.parseKey ⟨String.ofList (pemText node entries), "RSA_PRIVATE_KEY"⟩ with
  | error message => rfl
  | ok loaded => rfl

section Standing

variable {stands : List Char → List Char → List Char → Bool} {config : Config}
  {entries : List (Entry sources)}

/-- The first block that stands is loaded, and no other key. -/
theorem onModuleInit_found (hreads : sources.ReadsFirst stands)
    (h : ¬ ∀ entry ∈ entries, entry.spelling = .base64)
    (hconfig : config "RSA_PRIVATE_KEY" = some (value node entries)) {block : PemBlock sources}
    (hfirst : FirstStanding sources stands [] (pemText node entries) (some block))
    (autoGenerateKeys : Bool) :
    sources.onModuleInit node autoGenerateKeys config = .ok (node.onModuleInit [block.key]) := by
  have hparse : sources.parseKey ⟨String.ofList (pemText node entries), "RSA_PRIVATE_KEY"⟩ =
      .ok ⟨block.key, "RSA_PRIVATE_KEY"⟩ := parseKey_block block (hreads.reads hfirst)
  rw [onModuleInit_pem h hconfig, hparse]
  rfl

/-- Where none stands the startup fails. -/
theorem onModuleInit_nothing (hreads : sources.ReadsFirst stands)
    (h : ¬ ∀ entry ∈ entries, entry.spelling = .base64)
    (hconfig : config "RSA_PRIVATE_KEY" = some (value node entries))
    (hfirst : FirstStanding sources stands [] (pemText node entries) none)
    (autoGenerateKeys : Bool) :
    ∃ message, sources.onModuleInit node autoGenerateKeys config = .error message := by
  obtain ⟨message, hmessage⟩ := hreads.throws hfirst
  refine ⟨"RSA_PRIVATE_KEY is not a valid PEM private key: " ++ message, ?_⟩
  rw [onModuleInit_pem h hconfig, parseKey, hmessage]
  rfl

/-- PEM text in front, with its final newline and other keys behind it, hides
these. -/
theorem onModuleInit_pem_in_front (hreads : sources.ReadsFirst stands) {entry : Entry sources}
    {rest : List (Entry sources)} (hspelling : entry.spelling ≠ .base64)
    (hending : entry.ending.head? = some '\n') (hrest : rest ≠ [])
    (hconfig : config "RSA_PRIVATE_KEY" = some (value node (entry :: rest)))
    (autoGenerateKeys : Bool) :
    sources.onModuleInit node autoGenerateKeys config = .ok (node.onModuleInit [entry.key]) := by
  have hmixed : ¬ ∀ e ∈ entry :: rest, e.spelling = .base64 := fun h =>
    hspelling (h entry List.mem_cons_self)
  obtain ⟨more, hmore⟩ := exists_pemText_in_front node hspelling hrest
  have hstands : stands ([] ++ []) entry.text (entry.ending ++ more) = true := by
    refine hreads.stands_alone _ entry.toPemBlock _ (Or.inl rfl) (Or.inr ?_)
    rw [List.head?_append, hending]
    rfl
  have hfirst :
      FirstStanding sources stands [] (pemText node (entry :: rest)) (some entry.toPemBlock) := by
    rw [hmore]
    exact .found List.not_mem_nil hstands
  exact onModuleInit_found hreads hmixed hconfig hfirst autoGenerateKeys

end Standing

/-- Whatever way the keys are written, the startup fails or accepts all of them
exactly when there is one key only, no key is written as PEM text, or none of
those that are stands in the text by the lines around it. -/
theorem every_key_is_loaded_iff (hlaw : sources.Lawful node)
    (stands : List Char → List Char → List Char → Bool) (hreads : sources.ReadsFirst stands)
    (autoGenerateKeys : Bool) (config : Config) (entries : List (Entry sources))
    (hne : entries ≠ []) (hconfig : config "RSA_PRIVATE_KEY" = some (value node entries)) :
    (∀ service, sources.onModuleInit node autoGenerateKeys config = .ok service →
      Accepts node service (entries.map fun entry => entry.key)) ↔
    entries.length = 1 ∨ (∀ entry ∈ entries, entry.spelling = .base64) ∨
      FirstStanding sources stands [] (pemText node entries) none := by
  by_cases hbase64 : ∀ entry ∈ entries, entry.spelling = .base64
  · refine iff_of_true ?_ (Or.inr (Or.inl hbase64))
    intro service hservice
    rw [onModuleInit_base64 hlaw hne hbase64 hconfig] at hservice
    cases hservice
    exact accepts_onModuleInit.mpr rfl
  · obtain ⟨first, hfirst, hmem⟩ := exists_firstStanding node entries stands
    cases first with
    | none =>
        obtain ⟨message, hfails⟩ :=
          onModuleInit_nothing hreads hbase64 hconfig hfirst autoGenerateKeys
        refine iff_of_true ?_ (Or.inr (Or.inr hfirst))
        intro service hservice
        rw [hfails] at hservice
        cases hservice
    | some block =>
        rw [onModuleInit_found hreads hbase64 hconfig hfirst]
        have haccepts : (∀ service, Except.ok (ε := String) (node.onModuleInit [block.key]) =
            .ok service → Accepts node service (entries.map fun entry => entry.key)) ↔
            [block.key] = entries.map fun entry => entry.key := by
          constructor
          · exact fun h => accepts_onModuleInit.mp (h _ rfl)
          · intro h service hservice
            cases hservice
            exact accepts_onModuleInit.mpr h
        rw [haccepts]
        constructor
        · intro hkeys
          left
          rw [← List.length_map (fun e : Entry sources => e.key), ← hkeys]
          rfl
        · rintro (hlength | hall | hnothing)
          · obtain ⟨entry, rfl⟩ := List.length_eq_one_iff.mp hlength
            have hblock := hmem block rfl
            rw [List.flatMap_singleton, blocks] at hblock
            split at hblock
            · cases hblock
            · rw [List.mem_singleton.mp hblock]
              rfl
          · exact absurd hall hbase64
          · obtain ⟨message, hthrows⟩ := hreads.throws hnothing
            rw [hreads.reads hfirst] at hthrows
            cases hthrows

section Samples

def notDash (c : Char) : Bool := c ≠ '-'

/-- The block at the front of a text, and what follows it. -/
def takeBlock (l : List Char) : Option (List Char × List Char) :=
  (Pem.afterLabel notDash l).bind fun contents =>
    (Pem.afterLabel notDash (contents.dropWhile notDash)).map fun rest =>
      (l.take (l.length - rest.length), rest)

/-- The lines around a block have nothing else on them. -/
def standsAlone (before _block after : List Char) : Bool :=
  (before = [] ∨ before.getLast? = some '\n') &&
    (after = [] ∨ after.head? = some '\n' ∨ after.head? = some '\r')

/-- The key of a block, known by the first letter of its contents. -/
def letteredKey (block : List Char) : Except String UInt8 :=
  match block[28]? with
  | some 'A' => .ok 0
  | some 'B' => .ok 1
  | _ => .error "unsupported"

/-- The key of the first block that stands alone. -/
def readLettered : ℕ → List Char → List Char → Except String UInt8
  | 0, _, _ => .error "no start line"
  | fuel + 1, past, l =>
      match takeBlock (l.dropWhile notDash) with
      | none => .error "no start line"
      | some (block, rest) =>
          let before := past ++ l.takeWhile notDash
          if standsAlone before block rest then letteredKey block
          else readLettered fuel (before ++ block) rest

def lettered : KeySources UInt8 where
  createPrivateKey text := readLettered (text.toList.length + 1) [] text.toList
  asymmetricKeyType _ := "rsa"
  modulusLength _ := some 2048
  resolve p := "/app/" ++ p
  join directory name := directory ++ "/" ++ name
  existsSync _ := false
  readFileSync p := .error ("ENOENT: no such file or directory, open '" ++ p ++ "'")
  generate _ := .error "EACCES: permission denied, mkdir '/app/keys'"

theorem notDash_of_plain {l : List Char} (h : ∀ c ∈ l, c ≠ '-' ∧ c ≠ '\\') :
    ∀ c ∈ l, notDash c = true := fun c hc => decide_eq_true (h c hc).1

theorem takeBlock_text {sources : KeySources UInt8} (block : PemBlock sources) (rest : List Char) :
    takeBlock (block.text ++ rest) = some (block.text, rest) := by
  have hlabel : ∀ c ∈ "BEGIN ".toList ++ block.label, notDash c = true := by
    rw [List.forall_mem_append]
    exact ⟨List.all_eq_true.mp rfl, notDash_of_plain block.label_plain⟩
  have hend : ∀ c ∈ "END ".toList ++ block.label, notDash c = true := by
    rw [List.forall_mem_append]
    exact ⟨List.all_eq_true.mp rfl, notDash_of_plain block.label_plain⟩
  have hbegin : Pem.afterLabel notDash (block.text ++ rest) = some (block.contents ++
      (Pem.dashes ++ ("END ".toList ++ block.label) ++ Pem.dashes ++ rest)) := by
    have htext : block.text ++ rest =
        Pem.dashes ++ ("BEGIN ".toList ++ block.label) ++ Pem.dashes ++ (block.contents ++
          (Pem.dashes ++ ("END ".toList ++ block.label) ++ Pem.dashes ++ rest)) := by
      rw [PemBlock.text, Pem.armour]
      simp only [List.append_assoc]
    rw [htext]
    exact Pem.afterLabel_label (List.append_ne_nil_of_left_ne_nil (by decide) _) hlabel rfl _
  have hcontents : (block.contents ++ (Pem.dashes ++ ("END ".toList ++ block.label) ++ Pem.dashes ++
      rest)).dropWhile notDash =
        Pem.dashes ++ ("END ".toList ++ block.label) ++ Pem.dashes ++ rest := by
    rw [List.dropWhile_append_of_pos (notDash_of_plain block.contents_plain)]
    rfl
  have htake : (block.text ++ rest).take ((block.text ++ rest).length - rest.length) =
      block.text := by
    rw [List.length_append, Nat.add_sub_cancel, List.take_left']
    rfl
  rw [takeBlock, hbegin, Option.bind_some, hcontents,
    Pem.afterLabel_label (List.append_ne_nil_of_left_ne_nil (by decide) _) hend rfl,
    Option.map_some, htake]

/-- The reader goes on as the blocks of the text come. -/
theorem readLettered_block {sources : KeySources UInt8} (block : PemBlock sources)
    {between : List Char} (hbetween : '-' ∉ between) (fuel : ℕ) (past rest : List Char) :
    readLettered (fuel + 1) past (between ++ block.text ++ rest) =
      if standsAlone (past ++ between) block.text rest then letteredKey block.text
      else readLettered fuel (past ++ between ++ block.text) rest := by
  have hnot : ∀ c ∈ between, notDash c = true := fun c hc =>
    decide_eq_true (fun heq => hbetween (heq ▸ hc))
  obtain ⟨more, hmore⟩ := List.head?_eq_some_iff.mp block.head?_text
  have hdrop : (between ++ block.text ++ rest).dropWhile notDash = block.text ++ rest := by
    rw [List.append_assoc, List.dropWhile_append_of_pos hnot, hmore]
    rfl
  have htake : (between ++ block.text ++ rest).takeWhile notDash = between := by
    rw [List.append_assoc, List.takeWhile_append_of_pos hnot, hmore]
    exact List.append_nil _
  rw [readLettered, hdrop, takeBlock_text, htake]

theorem readLettered_plain {between : List Char} (hbetween : '-' ∉ between) (fuel : ℕ)
    (past : List Char) : readLettered (fuel + 1) past between = .error "no start line" := by
  have hdrop : between.dropWhile notDash = [] :=
    List.dropWhile_eq_nil_iff.mpr fun c hc => decide_eq_true fun heq => hbetween (heq ▸ hc)
  rw [readLettered, hdrop]
  rfl

theorem createPrivateKey_lettered (text : List Char) :
    lettered.createPrivateKey (String.ofList text) = readLettered (text.length + 1) [] text := by
  change readLettered _ [] (String.ofList text).toList = _
  rw [String.toList_ofList]

theorem letteredKey_text (block : PemBlock lettered) : letteredKey block.text = .ok block.key := by
  have hreads : readLettered (block.text.length + 1) [] ([] ++ block.text ++ []) =
      .ok block.key := by
    rw [List.nil_append, List.append_nil, ← createPrivateKey_lettered]
    exact block.reads
  have hstands : standsAlone ([] ++ []) block.text [] = true := rfl
  rwa [readLettered_block block List.not_mem_nil, if_pos hstands] at hreads

theorem readLettered_of_firstStanding {past text : List Char} {first : Option (PemBlock lettered)}
    (h : FirstStanding lettered standsAlone past text first) {fuel : ℕ}
    (hfuel : text.length < fuel) :
    readLettered fuel past text = (first.map PemBlock.key).elim (.error "no start line") .ok := by
  induction h generalizing fuel with
  | nothing hbetween =>
      obtain ⟨fuel, rfl⟩ := Nat.exists_eq_add_one_of_ne_zero (Nat.ne_zero_of_lt hfuel)
      exact readLettered_plain hbetween fuel _
  | @found past between rest block hbetween h =>
      obtain ⟨fuel, rfl⟩ := Nat.exists_eq_add_one_of_ne_zero (Nat.ne_zero_of_lt hfuel)
      rw [readLettered_block block hbetween, if_pos h]
      exact letteredKey_text block
  | @passed past between rest block first hbetween h later ih =>
      obtain ⟨fuel, rfl⟩ := Nat.exists_eq_add_one_of_ne_zero (Nat.ne_zero_of_lt hfuel)
      have hpos : 0 < block.text.length :=
        List.length_pos_of_mem (List.mem_of_head? block.head?_text)
      rw [List.length_append, List.length_append] at hfuel
      rw [readLettered_block block hbetween, if_neg (Bool.eq_false_iff.mp h)]
      exact ih (by omega)

theorem lawful_lettered : lettered.Lawful NodeCrypto.labelled where
  utf8Decode_utf8Encode := NodeCrypto.labelled_lawful.utf8Decode_utf8Encode
  utf8Decode_nil := rfl
  createPrivateKey_file block ending hending := by
    have hstands : standsAlone [] block.text ending = true := by
      cases ending with
      | nil => rfl
      | cons c ending =>
          rcases hending c List.mem_cons_self with rfl | rfl
          · rfl
          · rfl
    have hfirst : FirstStanding lettered standsAlone [] ([] ++ block.text ++ ending) (some block) :=
      .found List.not_mem_nil hstands
    rw [createPrivateKey_lettered]
    exact readLettered_of_firstStanding hfirst (Nat.lt_succ_self _)

theorem readsFirst_lettered : lettered.ReadsFirst standsAlone where
  stands_alone before block after hbefore hafter := by
    rw [standsAlone, Bool.and_eq_true, decide_eq_true_eq, decide_eq_true_eq]
    exact ⟨hbefore, hafter.imp_right Or.inl⟩
  reads {text block} hfirst := by
    rw [createPrivateKey_lettered]
    exact readLettered_of_firstStanding hfirst (Nat.lt_succ_self _)
  throws {text} hfirst := by
    refine ⟨"no start line", ?_⟩
    rw [createPrivateKey_lettered]
    exact readLettered_of_firstStanding hfirst (Nat.lt_succ_self _)

def letteredText (letter : Char) : List Char :=
  Pem.armour "PRIVATE KEY".toList ['\n', letter, '\n']

def blockA : PemBlock lettered where
  key := 0
  label := "PRIVATE KEY".toList
  contents := ['\n', 'A', '\n']
  label_plain := PemBlock.plain_label
  contents_plain := PemBlock.plain_of_all rfl
  reads := rfl
  rsa := rfl
  bits := by decide

def blockB : PemBlock lettered where
  key := 1
  label := "PRIVATE KEY".toList
  contents := ['\n', 'B', '\n']
  label_plain := PemBlock.plain_label
  contents_plain := PemBlock.plain_of_all rfl
  reads := rfl
  rsa := rfl
  bits := by decide

/-- A key with the newline at the end of its file, and no blanks. -/
def entryOf (block : PemBlock lettered) (spelling : Spelling) : Entry lettered where
  toPemBlock := block
  ending := ['\n']
  spelling := spelling
  before := []
  after := []
  ending_newlines := by simp
  before_blank := by simp
  after_blank := by simp

def letteredConfig (entries : List (Entry lettered)) : Config := fun name =>
  if name = "RSA_PRIVATE_KEY" then some (value NodeCrypto.labelled entries) else none

/-- In base64 two keys are loaded; of the same two keys as PEM text they are not. -/
theorem every_key_is_loaded_iff_rotation :
    (∀ service, lettered.onModuleInit NodeCrypto.labelled false
        (letteredConfig [entryOf blockA .base64, entryOf blockB .base64]) = .ok service →
      Accepts NodeCrypto.labelled service [0, 1]) ∧
    ¬ ∀ service, lettered.onModuleInit NodeCrypto.labelled false
        (letteredConfig [entryOf blockA .pem, entryOf blockB .pem]) = .ok service →
      Accepts NodeCrypto.labelled service [0, 1] := by
  have hbase64 : ∀ entry ∈ [entryOf blockA .base64, entryOf blockB .base64],
      entry.spelling = .base64 := by
    intro entry hentry
    rcases List.mem_pair.mp hentry with rfl | rfl
    · rfl
    · rfl
  have hloaded := every_key_is_loaded_iff lawful_lettered standsAlone readsFirst_lettered false
    (letteredConfig [entryOf blockA .base64, entryOf blockB .base64]) _ (List.cons_ne_nil _ _)
    (if_pos rfl)
  have hconfig : letteredConfig [entryOf blockA .pem, entryOf blockB .pem] "RSA_PRIVATE_KEY" =
      some (value NodeCrypto.labelled [entryOf blockA .pem, entryOf blockB .pem]) := if_pos rfl
  have hdropped := every_key_is_loaded_iff lawful_lettered standsAlone readsFirst_lettered false
    (letteredConfig [entryOf blockA .pem, entryOf blockB .pem]) _ (List.cons_ne_nil _ _) hconfig
  refine ⟨hloaded.mpr (Or.inr (Or.inl hbase64)), hdropped.not.mpr ?_⟩
  rintro (hlength | hall | hnothing)
  · cases hlength
  · cases hall _ List.mem_cons_self
  · obtain ⟨message, hfails⟩ := onModuleInit_nothing readsFirst_lettered
      (fun h => by cases h _ List.mem_cons_self) hconfig hnothing false
    rw [onModuleInit_pem_in_front readsFirst_lettered (by decide) rfl (List.cons_ne_nil _ _)
      hconfig] at hfails
    cases hfails

/-- Of two keys as PEM text the second is dropped, and the startup succeeds. -/
theorem second_pem_key_is_dropped :
    lettered.Lawful NodeCrypto.labelled ∧ lettered.ReadsFirst standsAlone ∧
    (value NodeCrypto.labelled [entryOf blockA .pem, entryOf blockB .pem]).toList =
      letteredText 'A' ++ "\n,".toList ++ letteredText 'B' ++ "\n".toList ∧
    ∃ service, lettered.onModuleInit NodeCrypto.labelled false
        (letteredConfig [entryOf blockA .pem, entryOf blockB .pem]) = .ok service ∧
      service.keys.map ServerKey.privateKey = [0] ∧
      ¬ Accepts NodeCrypto.labelled service [0, 1] := by
  have hloaded : lettered.onModuleInit NodeCrypto.labelled false
      (letteredConfig [entryOf blockA .pem, entryOf blockB .pem]) = .ok _ :=
    onModuleInit_pem_in_front readsFirst_lettered (by decide) rfl (List.cons_ne_nil _ _)
      (if_pos rfl) false
  refine ⟨lawful_lettered, readsFirst_lettered, ?_, _, hloaded, rfl, ?_⟩
  · rw [value, String.toList_ofList]
    decide
  · rw [accepts_onModuleInit]
    decide

end Samples

end KeySources

end EncryptionGateway.Encryption
