import EncryptionGateway.Encryption.KeyLoading
import EncryptionGateway.JavaScript.Pem

/-!
# PEM blocks in a longer text

The platform reads a text line by line. A block is read where the line that
begins it and the line that ends it are recognised; a block with other text on
one of these lines is passed over. The first block that is read is the key, and
a text in which no block is read has none.

## Implementation notes

Which lines are recognised depends on the platform in its details, so it is a
parameter: `stands before block after` holds of a block that is read between
the two texts.
-/

namespace EncryptionGateway.Encryption

open JavaScript Foundation Common

section Newlines

/-- PEM text on one line: every newline as a backslash and an `n`. -/
def escapeNewlines (l : List Char) : List Char :=
  l.flatMap fun c => if c = '\n' then ['\\', 'n'] else [c]

theorem escapeNewlines_append (l m : List Char) :
    escapeNewlines (l ++ m) = escapeNewlines l ++ escapeNewlines m :=
  List.flatMap_append

theorem mem_escapeNewlines {l : List Char} {c : Char} (h : c ∈ escapeNewlines l) :
    c = '\\' ∨ c = 'n' ∨ c ∈ l := by
  obtain ⟨d, hd, hc⟩ := List.mem_flatMap.mp h
  split at hc
  · simp only [List.mem_cons, List.not_mem_nil, or_false] at hc
    tauto
  · exact Or.inr (Or.inr (List.mem_singleton.mp hc ▸ hd))

theorem unescapeNewlines_step {c : Char} {l : List Char}
    (hnot : ∀ rest, c = '\\' → l = 'n' :: rest → False) :
    unescapeNewlines (c :: l) = c :: unescapeNewlines l := by
  rw [unescapeNewlines]
  exact hnot

theorem unescapeNewlines_cons {c : Char} (hc : c ≠ '\\') (l : List Char) :
    unescapeNewlines (c :: l) = c :: unescapeNewlines l :=
  unescapeNewlines_step fun _ hslash _ => hc hslash

/-- A text that does not end in a backslash is unescaped on its own. -/
theorem unescapeNewlines_append {l : List Char} (hl : l.getLast? ≠ some '\\') (rest : List Char) :
    unescapeNewlines (l ++ rest) = unescapeNewlines l ++ unescapeNewlines rest := by
  induction l using unescapeNewlines.induct with
  | case1 l ih =>
      have hl' : l.getLast? ≠ some '\\' := by
        cases l with
        | nil => simp
        | cons c l => simpa [List.getLast?_cons_cons] using hl
      change '\n' :: unescapeNewlines (l ++ rest) = _
      rw [ih hl']
      rfl
  | case2 c l hnot ih =>
      cases l with
      | nil =>
          have hc : c ≠ '\\' := by simpa using hl
          rw [List.singleton_append, unescapeNewlines_cons hc, unescapeNewlines_cons hc]
          rfl
      | cons d l =>
          have hl' : (d :: l).getLast? ≠ some '\\' := by
            rwa [List.getLast?_cons_cons] at hl
          have hnot' : ∀ more, c = '\\' → d :: (l ++ rest) = 'n' :: more → False := by
            intro more hc hd
            exact hnot l hc (by rw [(List.cons.inj hd).1])
          rw [List.cons_append, List.cons_append, unescapeNewlines_step hnot',
            unescapeNewlines_step hnot, ← List.cons_append, ih hl', List.cons_append]
  | case3 => rfl

theorem unescapeNewlines_eq_self {l : List Char} (hl : '\\' ∉ l) : unescapeNewlines l = l := by
  induction l with
  | nil => rfl
  | cons c l ih =>
      rw [List.mem_cons, not_or] at hl
      rw [unescapeNewlines_cons (Ne.symm hl.1), ih hl.2]

/-- The newlines of an escaped text come back. -/
theorem unescapeNewlines_escapeNewlines {l : List Char} (hl : '\\' ∉ l) :
    unescapeNewlines (escapeNewlines l) = l := by
  induction l with
  | nil => rfl
  | cons c l ih =>
      rw [List.mem_cons, not_or] at hl
      rw [escapeNewlines, List.flatMap_cons]
      by_cases hc : c = '\n'
      · rw [if_pos hc, hc]
        exact congrArg ('\n' :: ·) (ih hl.2)
      · rw [if_neg hc, List.singleton_append, unescapeNewlines_cons (Ne.symm hl.1)]
        exact congrArg (c :: ·) (ih hl.2)

theorem mem_unescapeNewlines {l : List Char} {c : Char} (h : c ∈ unescapeNewlines l) :
    c = '\n' ∨ c ∈ l := by
  induction l using unescapeNewlines.induct with
  | case1 l ih =>
      rcases List.mem_cons.mp h with h | h
      · exact Or.inl h
      · exact (ih h).imp_right fun h => List.mem_cons_of_mem _ (List.mem_cons_of_mem _ h)
  | case2 d l hnot ih =>
      rw [unescapeNewlines_step hnot] at h
      rcases List.mem_cons.mp h with h | h
      · exact Or.inr (h ▸ List.mem_cons_self)
      · exact (ih h).imp_right (List.mem_cons_of_mem _)
  | case3 => cases h

end Newlines

/-- The PEM block of an RSA private key that is long enough. -/
structure PemBlock {K : Type} (sources : KeySources K) where
  key : K
  label : List Char
  contents : List Char
  label_plain : ∀ c ∈ label, c ≠ '-' ∧ c ≠ '\\'
  contents_plain : ∀ c ∈ contents, c ≠ '-' ∧ c ≠ '\\'
  reads : sources.createPrivateKey (String.ofList (Pem.armour label contents)) = .ok key
  rsa : sources.asymmetricKeyType key = "rsa"
  bits : MIN_KEY_BITS ≤ (sources.modulusLength key).getD 0

namespace PemBlock

theorem plain_of_all {l : List Char} (h : (l.all fun c => decide (c ≠ '-' ∧ c ≠ '\\')) = true) :
    ∀ c ∈ l, c ≠ '-' ∧ c ≠ '\\' :=
  fun c hc => of_decide_eq_true (List.all_eq_true.mp h c hc)

theorem plain_label : ∀ c ∈ "PRIVATE KEY".toList, c ≠ '-' ∧ c ≠ '\\' := plain_of_all rfl

variable {K : Type} {sources : KeySources K} (block : PemBlock sources)

def text : List Char := Pem.armour block.label block.contents

theorem begins : "-----BEGIN".toList <+: block.text := Pem.begin_prefix_armour _ _

theorem head?_text : block.text.head? = some '-' := by
  obtain ⟨rest, hrest⟩ := block.begins
  rw [← hrest]
  rfl

theorem getLast?_text : block.text.getLast? = some '-' := Pem.getLast?_armour _ _

theorem plain : '\\' ∉ block.text := by
  intro h
  rcases Pem.mem_armour h with h | h | h | h | h
  · cases h
  · revert h
    decide
  · revert h
    decide
  · exact (block.label_plain _ h).2 rfl
  · exact (block.contents_plain _ h).2 rfl

end PemBlock

section Reading

variable {K : Type} {sources : KeySources K}

/-- From `past` on, the first block that stands in the text, or none. Between
the blocks there is no dash. -/
inductive FirstStanding (sources : KeySources K)
    (stands : List Char → List Char → List Char → Bool) :
    List Char → List Char → Option (PemBlock sources) → Prop
  | nothing {past between : List Char} (hbetween : '-' ∉ between) :
      FirstStanding sources stands past between none
  | found {past between rest : List Char} {block : PemBlock sources} (hbetween : '-' ∉ between)
      (h : stands (past ++ between) block.text rest = true) :
      FirstStanding sources stands past (between ++ block.text ++ rest) (some block)
  | passed {past between rest : List Char} {block : PemBlock sources}
      {first : Option (PemBlock sources)} (hbetween : '-' ∉ between)
      (h : stands (past ++ between) block.text rest = false)
      (later : FirstStanding sources stands (past ++ between ++ block.text) rest first) :
      FirstStanding sources stands past (between ++ block.text ++ rest) first

/-- The platform reads UTF-8 back, and a PEM file whatever newlines it ends in. -/
structure KeySources.Lawful (node : NodeCrypto K) (sources : KeySources K) : Prop where
  utf8Decode_utf8Encode : ∀ s, node.utf8Decode (node.utf8Encode s) = s
  utf8Decode_nil : node.utf8Decode [] = ""
  createPrivateKey_file : ∀ (block : PemBlock sources) (ending : List Char),
    (∀ c ∈ ending, c = '\n' ∨ c = '\r') →
      sources.createPrivateKey (String.ofList (block.text ++ ending)) = .ok block.key

/-- The platform reads the first block that stands, and throws where none does.
A block stands whose first and last line have nothing else on them. -/
structure KeySources.ReadsFirst (sources : KeySources K)
    (stands : List Char → List Char → List Char → Bool) : Prop where
  stands_alone : ∀ (before : List Char) (block : PemBlock sources) (after : List Char),
    before = [] ∨ before.getLast? = some '\n' → after = [] ∨ after.head? = some '\n' →
      stands before block.text after = true
  reads : ∀ {text : List Char} {block : PemBlock sources},
    FirstStanding sources stands [] text (some block) →
      sources.createPrivateKey (String.ofList text) = .ok block.key
  throws : ∀ {text : List Char},
    FirstStanding sources stands [] text none →
      ∃ message, sources.createPrivateKey (String.ofList text) = .error message

/-- The blocks of a text, in their order. -/
inductive Composed : List (PemBlock sources) → List Char → Prop
  | plain {between : List Char} (hbetween : '-' ∉ between) : Composed [] between
  | block {between rest : List Char} {blocks : List (PemBlock sources)} (hbetween : '-' ∉ between)
      (block : PemBlock sources) (h : Composed blocks rest) :
      Composed (block :: blocks) (between ++ block.text ++ rest)

/-- The reading of a text ends, with one of its blocks or with none. -/
theorem Composed.exists_firstStanding {blocks : List (PemBlock sources)} {text : List Char}
    (h : Composed blocks text) (stands : List Char → List Char → List Char → Bool)
    (past : List Char) :
    ∃ first, FirstStanding sources stands past text first ∧ ∀ block ∈ first, block ∈ blocks := by
  induction h generalizing past with
  | plain hbetween => exact ⟨none, .nothing hbetween, by simp⟩
  | @block between rest blocks hbetween block h ih =>
      cases hstands : stands (past ++ between) block.text rest with
      | true => exact ⟨some block, .found hbetween hstands, by simp⟩
      | false =>
          obtain ⟨first, hfirst, hmem⟩ := ih (past ++ between ++ block.text)
          exact ⟨first, .passed hbetween hstands hfirst,
            fun b hb => List.mem_cons_of_mem _ (hmem b hb)⟩

/-- The blocks of a text in which some of them are on one line. -/
inductive Written : List (PemBlock sources) → List Char → Prop
  | plain {between : List Char} (hbetween : '-' ∉ between) : Written [] between
  | block {between core rest : List Char} {blocks : List (PemBlock sources)}
      (hbetween : '-' ∉ between) (hlast : between.getLast? ≠ some '\\') (block : PemBlock sources)
      (hcore : core = block.text ∨ core = escapeNewlines block.text) (h : Written blocks rest) :
      Written (block :: blocks) (between ++ core ++ rest)

/-- On one line or on several, a block begins and ends alike. -/
theorem PemBlock.core_spec {block : PemBlock sources} {core : List Char}
    (hcore : core = block.text ∨ core = escapeNewlines block.text) :
    "-----BEGIN".toList <+: core ∧ core.head? = some '-' ∧ core.getLast? = some '-' ∧
      unescapeNewlines core = block.text := by
  rcases hcore with rfl | rfl
  · exact ⟨block.begins, block.head?_text, block.getLast?_text,
      unescapeNewlines_eq_self block.plain⟩
  · have hbegins : "-----BEGIN".toList <+: escapeNewlines block.text := by
      obtain ⟨rest, hrest⟩ := block.begins
      rw [← hrest, escapeNewlines_append]
      exact List.prefix_append _ _
    refine ⟨hbegins, ?_, ?_, unescapeNewlines_escapeNewlines block.plain⟩
    · obtain ⟨rest, hrest⟩ := hbegins
      rw [← hrest]
      rfl
    · obtain ⟨start, hstart⟩ := List.getLast?_eq_some_iff.mp block.getLast?_text
      rw [hstart, escapeNewlines_append]
      exact List.getLast?_concat

namespace Written

variable {blocks : List (PemBlock sources)} {l : List Char}

theorem prepend (front : List Char) (hfront : '-' ∉ front) (hlast : front.getLast? ≠ some '\\')
    (h : Written blocks l) : Written blocks (front ++ l) := by
  cases h with
  | plain hbetween => exact .plain (by simp [hfront, hbetween])
  | @block between core rest blocks hbetween hlast' block hcore h =>
      rw [← List.append_assoc, ← List.append_assoc]
      refine .block (by simp [hfront, hbetween]) ?_ block hcore h
      rw [List.getLast?_append]
      cases hb : between.getLast? with
      | none => simpa using hlast
      | some c => simpa [hb] using hlast'

/-- What contains a block contains the text by which the server knows PEM. -/
theorem begin_infix (h : Written blocks l) (hne : blocks ≠ []) : "-----BEGIN".toList <:+: l := by
  cases h with
  | plain _ => exact absurd rfl hne
  | block _ _ block hcore _ =>
      exact (PemBlock.core_spec hcore).1.isInfix.trans (List.infix_append _ _ _)

theorem dropWhile_isSpace (h : Written blocks l) : Written blocks (l.dropWhile isSpace) := by
  cases h with
  | plain hbetween =>
      exact .plain fun hdash => hbetween ((List.dropWhile_suffix isSpace).subset hdash)
  | @block between core rest blocks hbetween hlast block hcore h =>
      rw [List.append_assoc, dropWhile_before (PemBlock.core_spec hcore).2.1 rfl,
        ← List.append_assoc]
      refine .block (fun hdash => hbetween ((List.dropWhile_suffix isSpace).subset hdash)) ?_
        block hcore h
      intro hslash
      obtain ⟨front, hfront⟩ := List.dropWhile_suffix isSpace (l := between)
      rw [← hfront, List.getLast?_append, hslash] at hlast
      exact hlast rfl

theorem trimEndChars (h : Written blocks l) : Written blocks (JavaScript.trimEndChars l) := by
  induction h with
  | plain hbetween => exact .plain fun hdash => hbetween (mem_of_mem_trimEndChars hdash)
  | block hbetween hlast block hcore h ih =>
      rw [trimEndChars_after _ (PemBlock.core_spec hcore).2.2.1 rfl]
      exact .block hbetween hlast block hcore ih

theorem trimChars (h : Written blocks l) : Written blocks (JavaScript.trimChars l) :=
  h.dropWhile_isSpace.trimEndChars

theorem unescapeNewlines (h : Written blocks l) :
    Composed blocks (Encryption.unescapeNewlines l) := by
  have hplain : ∀ {m : List Char}, '-' ∉ m → '-' ∉ Encryption.unescapeNewlines m := by
    intro m hm hdash
    rcases mem_unescapeNewlines hdash with h | h
    · cases h
    · exact hm h
  induction h with
  | plain hbetween => exact .plain (hplain hbetween)
  | block hbetween hlast block hcore h ih =>
      obtain ⟨-, -, hdash, hcore⟩ := PemBlock.core_spec hcore
      rw [List.append_assoc, unescapeNewlines_append hlast,
        unescapeNewlines_append (by simp [hdash]), hcore, ← List.append_assoc]
      exact .block (hplain hbetween) block ih

end Written

end Reading

end EncryptionGateway.Encryption
