import EncryptionGateway.JavaScript.Base64
import EncryptionGateway.JavaScript.Text

/-!
# PEM text

What `export({ format: 'pem' })` writes, and the expression by which the clients
take the base64 out of it: every `-----…-----` and every white space is removed.

## Implementation notes

The expressions of the clients differ in the characters between the dashes and
in what is white space, so both are arguments.
-/

namespace EncryptionGateway.JavaScript

namespace Pem

def dashes : List Char := "-----".toList

/-- Lines of 64 characters, each with its end. -/
def lines (body : List Char) : List Char :=
  if body = [] then [] else body.take 64 ++ '\n' :: lines (body.drop 64)
termination_by body.length
decreasing_by
  have hpos : 0 < body.length := List.length_pos_of_ne_nil (by assumption)
  rw [List.length_drop]
  omega

/-- A body between the lines that begin and end it. -/
def armour (label body : List Char) : List Char :=
  dashes ++ ("BEGIN ".toList ++ label) ++ dashes ++ body ++
    (dashes ++ ("END ".toList ++ label) ++ dashes)

/-- The DER between two labels. -/
def text (label : String) (der : Bytes) : List Char :=
  dashes ++ ("BEGIN " ++ label).toList ++ dashes ++ '\n' :: lines (Base64.encodeChars der) ++
    (dashes ++ ("END " ++ label).toList ++ dashes)

/-- The whole file. -/
def file (label : String) (der : Bytes) : String := String.ofList (text label der ++ ['\n'])

/-- What follows the dashes at the front. -/
def afterDashes (l : List Char) : Option (List Char) :=
  if dashes.isPrefixOf l then some (l.drop 5) else none

/-- What follows a match of `-----…-----` at the front, with at least one
character between the dashes. -/
def afterLabel (inner : Char → Bool) (l : List Char) : Option (List Char) :=
  (afterDashes l).bind fun rest =>
    if rest.takeWhile inner = [] then none else afterDashes (rest.dropWhile inner)

theorem afterDashes_eq_some {l rest : List Char} (h : afterDashes l = some rest) :
    l = dashes ++ rest := by
  unfold afterDashes at h
  split at h
  · next hprefix =>
      obtain ⟨more, rfl⟩ := List.isPrefixOf_iff_prefix.mp hprefix
      cases h
      rfl
  · cases h

theorem afterDashes_append (rest : List Char) : afterDashes (dashes ++ rest) = some rest := rfl

theorem length_afterLabel {inner : Char → Bool} {l rest : List Char}
    (h : afterLabel inner l = some rest) : rest.length < l.length := by
  obtain ⟨body, hbody, hrest⟩ := Option.bind_eq_some_iff.mp h
  split at hrest
  · cases hrest
  · have hbegin := congrArg List.length (afterDashes_eq_some hbody)
    have hend := congrArg List.length (afterDashes_eq_some hrest)
    have hdrop := (List.dropWhile_suffix inner (l := body)).length_le
    have hdashes : dashes.length = 5 := rfl
    rw [List.length_append] at hbegin hend
    omega

/-- The global replacement of labels and white space by nothing. -/
def strip (inner space : Char → Bool) (l : List Char) : List Char :=
  match l with
  | [] => []
  | c :: rest =>
      match _h : afterLabel inner (c :: rest) with
      | some after => strip inner space after
      | none => if space c then strip inner space rest else c :: strip inner space rest
termination_by l.length
decreasing_by
  · exact length_afterLabel _h
  · exact Nat.lt_succ_self _
  · exact Nat.lt_succ_self _

section Strip

variable {inner space : Char → Bool}

theorem strip_of_some {l after : List Char} (h : afterLabel inner l = some after) :
    strip inner space l = strip inner space after := by
  cases l with
  | nil => cases h
  | cons c rest =>
      rw [strip]
      split
      · next after' h' =>
          rw [h] at h'
          cases h'
          rfl
      · next h' =>
          rw [h] at h'
          cases h'

theorem strip_of_none {c : Char} {rest : List Char} (h : afterLabel inner (c :: rest) = none) :
    strip inner space (c :: rest) =
      if space c then strip inner space rest else c :: strip inner space rest := by
  rw [strip]
  split
  · next after' h' =>
      rw [h] at h'
      cases h'
  · rfl

/-- A label is matched up to its last dash. -/
theorem afterLabel_label {label : List Char} (hne : label ≠ [])
    (hlabel : ∀ c ∈ label, inner c = true) (hdash : inner '-' = false) (rest : List Char) :
    afterLabel inner (dashes ++ label ++ dashes ++ rest) = some rest := by
  have htail : dashes ++ rest = '-' :: ("----".toList ++ rest) := rfl
  have htake : (label ++ (dashes ++ rest)).takeWhile inner = label := by
    rw [List.takeWhile_append_of_pos hlabel, htail, List.takeWhile_cons_of_neg (by simp [hdash]),
      List.append_nil]
  have hdrop : (label ++ (dashes ++ rest)).dropWhile inner = dashes ++ rest := by
    rw [List.dropWhile_append_of_pos hlabel, htail, List.dropWhile_cons_of_neg (by simp [hdash])]
  rw [List.append_assoc, List.append_assoc, afterLabel, afterDashes_append, Option.bind_some, htake,
    if_neg hne, hdrop, afterDashes_append]

/-- A label is removed. -/
theorem strip_label {label : List Char} (hne : label ≠ []) (hlabel : ∀ c ∈ label, inner c = true)
    (hdash : inner '-' = false) (rest : List Char) :
    strip inner space (dashes ++ label ++ dashes ++ rest) = strip inner space rest :=
  strip_of_some (afterLabel_label hne hlabel hdash rest)

/-- Text without dashes loses its white space only. -/
theorem strip_append {body : List Char} (hbody : '-' ∉ body) (rest : List Char) :
    strip inner space (body ++ rest) =
      body.filter (fun c => !space c) ++ strip inner space rest := by
  induction body with
  | nil => rfl
  | cons c body ih =>
      rw [List.mem_cons, not_or] at hbody
      have hnone : afterLabel inner (c :: (body ++ rest)) = none := by
        have hprefix : afterDashes (c :: (body ++ rest)) = none := by
          apply if_neg
          rw [List.isPrefixOf_iff_prefix]
          rintro ⟨more, hmore⟩
          exact hbody.1 (List.cons.inj hmore).1
        rw [afterLabel, hprefix]
        rfl
      rw [List.cons_append, strip_of_none hnone, ih hbody.2]
      cases hspace : space c with
      | true => simp [hspace]
      | false => simp [hspace]

end Strip

theorem filter_lines {keep : Char → Bool} (hnewline : keep '\n' = false) {body : List Char}
    (hbody : ∀ c ∈ body, keep c = true) : (lines body).filter keep = body := by
  induction body using lines.induct with
  | case1 =>
      rw [lines]
      rfl
  | case2 body hne ih =>
      rw [lines, if_neg hne, List.filter_append, List.filter_cons_of_neg (by simp [hnewline]),
        ih fun c hc => hbody c (List.mem_of_mem_drop hc),
        List.filter_eq_self.mpr fun c hc => hbody c (List.mem_of_mem_take hc),
        List.take_append_drop]

theorem lines_of_length_le {body : List Char} (hne : body ≠ []) (h : body.length ≤ 64) :
    lines body = body ++ ['\n'] := by
  rw [lines, if_neg hne, List.take_of_length_le h, List.drop_eq_nil_of_le h, lines, if_pos rfl]

theorem mem_lines {body : List Char} {c : Char} (h : c ∈ lines body) : c = '\n' ∨ c ∈ body := by
  induction body using lines.induct with
  | case1 =>
      rw [lines] at h
      cases h
  | case2 body hne ih =>
      rw [lines, if_neg hne, List.mem_append, List.mem_cons] at h
      rcases h with h | h | h
      · exact Or.inr (List.mem_of_mem_take h)
      · exact Or.inl h
      · exact (ih h).imp_right List.mem_of_mem_drop

section Armour

variable (label : String) (der : Bytes)

/-- Between the labels there is neither a dash nor a backslash. -/
theorem plain_body {c : Char} (h : c ∈ '\n' :: lines (Base64.encodeChars der)) :
    c ≠ '-' ∧ c ≠ '\\' := by
  have hdigit : ∀ n : Fin 64, Base64.sextetChar n ≠ '-' ∧ Base64.sextetChar n ≠ '\\' := by decide
  rcases List.mem_cons.mp h with rfl | h
  · decide
  · rcases mem_lines h with rfl | h
    · decide
    · rcases Base64.mem_encodeChars h with rfl | ⟨n, rfl⟩
      · decide
      · exact hdigit n

theorem text_eq_armour : text label der =
    armour label.toList ('\n' :: lines (Base64.encodeChars der)) := by
  rw [text, armour, String.toList_append, String.toList_append]

theorem begin_prefix_armour (label body : List Char) :
    "-----BEGIN".toList <+: armour label body := by
  have hbegin : dashes ++ "BEGIN ".toList = "-----BEGIN".toList ++ [' '] := by decide
  refine ⟨[' '] ++ label ++ dashes ++ body ++ (dashes ++ ("END ".toList ++ label) ++ dashes), ?_⟩
  simp only [armour, ← List.append_assoc]
  rw [hbegin]

theorem getLast?_armour (label body : List Char) : (armour label body).getLast? = some '-' := by
  have hdashes : dashes.getLast? = some '-' := by decide
  rw [armour, List.getLast?_append, List.getLast?_append, hdashes]
  rfl

theorem mem_armour {label body : List Char} {c : Char} (h : c ∈ armour label body) :
    c = '-' ∨ c ∈ "BEGIN ".toList ∨ c ∈ "END ".toList ∨ c ∈ label ∨ c ∈ body := by
  have hdashes : c ∈ dashes → c = '-' := fun hc => List.eq_of_mem_replicate (n := 5) hc
  simp only [armour, List.mem_append] at h
  tauto

end Armour

/-- The expression takes the base64 of the DER out of the file. -/
theorem strip_file {inner space : Char → Bool} {label : String} (der : Bytes)
    (hinner : ∀ c ∈ ("BEGIN " ++ label).toList ++ ("END " ++ label).toList, inner c = true)
    (hdash : inner '-' = false) (hnewline : space '\n' = true)
    (hdigits : ∀ c ∈ Base64.encodeChars der, space c = false) :
    strip inner space (file label der).toList = Base64.encodeChars der := by
  have hbegin : ("BEGIN " ++ label).toList ≠ [] := by simp
  have hend : ("END " ++ label).toList ≠ [] := by simp
  have hbody : '-' ∉ '\n' :: lines (Base64.encodeChars der) := fun h => (plain_body der h).1 rfl
  have htail : strip inner space (dashes ++ ("END " ++ label).toList ++ dashes ++ ['\n']) = [] := by
    rw [strip_label hend (fun c hc => hinner c (List.mem_append_right _ hc)) hdash,
      ← List.append_nil ['\n'], strip_append (by simp)]
    simp [hnewline, strip]
  have hfilter : ('\n' :: lines (Base64.encodeChars der)).filter (fun c => !space c) =
      Base64.encodeChars der := by
    rw [List.filter_cons_of_neg (by simp [hnewline])]
    exact filter_lines (by simp [hnewline]) fun c hc => by simp [hdigits c hc]
  calc strip inner space (file label der).toList
      = strip inner space (dashes ++ ("BEGIN " ++ label).toList ++ dashes ++
          (('\n' :: lines (Base64.encodeChars der)) ++
            (dashes ++ ("END " ++ label).toList ++ dashes ++ ['\n']))) := by
        rw [file, String.toList_ofList, text]
        simp only [List.append_assoc, List.cons_append]
    _ = Base64.encodeChars der := by
        rw [strip_label hbegin (fun c hc => hinner c (List.mem_append_left _ hc)) hdash,
          strip_append hbody, htail, hfilter, List.append_nil]

end Pem

end EncryptionGateway.JavaScript
