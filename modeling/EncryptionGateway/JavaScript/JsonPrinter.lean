import EncryptionGateway.JavaScript.Json
import Mathlib.Data.List.TakeWhile

/-!
# The text form of JSON values

`JSON.stringify` without indentation and `JSON.parse`, down to the escapes of
strings and the order of properties, and the proof that parsing undoes
printing. They make an instance of `JsonText`.

## Implementation notes

The parser takes fuel, one unit for each character at most. Which literals are
numbers is decided here; which number a literal denotes is left to
`NumberLiteral`.
-/

namespace EncryptionGateway.JavaScript

namespace Json

def isNumberChar (c : Char) : Bool :=
  c.isDigit || c = '-' || c = '+' || c = '.' || c = 'e' || c = 'E'

def isDigits (l : List Char) : Bool := !l.isEmpty && l.all Char.isDigit

def isIntegerPart : List Char → Bool
  | ['0'] => true
  | c :: rest => c.isDigit && c ≠ '0' && rest.all Char.isDigit
  | [] => false

def isExponent : List Char → Bool
  | '+' :: l => isDigits l
  | '-' :: l => isDigits l
  | l => isDigits l

def dropSign : List Char → List Char
  | '-' :: l => l
  | l => l

/-- Sign, integer part, fraction and exponent. -/
def isNumberLiteral (l : List Char) : Bool :=
  let body := dropSign l
  let mantissa := body.takeWhile fun c => c ≠ 'e' && c ≠ 'E'
  let exponent := body.dropWhile fun c => c ≠ 'e' && c ≠ 'E'
  let fraction := mantissa.dropWhile (· ≠ '.')
  !l.isEmpty && l.all isNumberChar && isIntegerPart (mantissa.takeWhile (· ≠ '.')) &&
    (fraction.isEmpty || isDigits fraction.tail) && (exponent.isEmpty || isExponent exponent.tail)

end Json

/-- Numbers whose text is a literal that denotes them. -/
class NumberLiteral (N : Type) extends JsNumber N where
  ofLiteral : String → Option N
  isNumberLiteral_text (n : N) : (JsNumber.finiteValue n).isSome →
    Json.isNumberLiteral (JsNumber.text n).toList = true
  ofLiteral_text (n : N) : (JsNumber.finiteValue n).isSome →
    ofLiteral (JsNumber.text n) = some n

namespace Json

def hexDigit (n : ℕ) : Char := if n < 10 then Char.ofNat (48 + n) else Char.ofNat (87 + n)

/-- Quotes, backslashes and control characters are escaped. -/
def escape (c : Char) : List Char :=
  if c = '"' then ['\\', '"']
  else if c = '\\' then ['\\', '\\']
  else if c = '\n' then ['\\', 'n']
  else if c = '\r' then ['\\', 'r']
  else if c = '\t' then ['\\', 't']
  else if c.toNat = 8 then ['\\', 'b']
  else if c.toNat = 12 then ['\\', 'f']
  else if c.toNat < 32 then
    ['\\', 'u', '0', '0', hexDigit (c.toNat / 16), hexDigit (c.toNat % 16)]
  else [c]

def quote (s : String) : List Char := '"' :: (s.toList.flatMap escape ++ ['"'])

variable {N : Type}

mutual

def print [JsNumber N] : Json N → List Char
  | null => ['n', 'u', 'l', 'l']
  | bool true => ['t', 'r', 'u', 'e']
  | bool false => ['f', 'a', 'l', 's', 'e']
  | num n =>
      if (JsNumber.finiteValue n).isSome then (JsNumber.text n).toList else ['n', 'u', 'l', 'l']
  | str s => quote s
  | arr items => '[' :: (printItems items ++ [']'])
  | obj fields => '{' :: (printFields fields ++ ['}'])

def printItems [JsNumber N] : List (Json N) → List Char
  | [] => []
  | [v] => print v
  | v :: w :: rest => print v ++ ',' :: printItems (w :: rest)

def printFields [JsNumber N] : List (String × Json N) → List Char
  | [] => []
  | [(k, v)] => quote k ++ ':' :: print v
  | (k, v) :: f :: rest => quote k ++ ':' :: (print v ++ ',' :: printFields (f :: rest))

end

def isBlank (c : Char) : Bool := c = ' ' || c = '\n' || c = '\r' || c = '\t'

def skipBlanks (l : List Char) : List Char := l.dropWhile isBlank

def hexValue (c : Char) : Option ℕ :=
  if '0' ≤ c ∧ c ≤ '9' then some (c.toNat - 48)
  else if 'a' ≤ c ∧ c ≤ 'f' then some (c.toNat - 87)
  else if 'A' ≤ c ∧ c ≤ 'F' then some (c.toNat - 55)
  else none

def hexUnit (a b c d : Char) : Option ℕ := do
  some ((((← hexValue a) * 16 + (← hexValue b)) * 16 + (← hexValue c)) * 16 + (← hexValue d))

def simpleEscape (c : Char) : Option ℕ :=
  match c with
  | '"' => some 34
  | '\\' => some 92
  | '/' => some 47
  | 'b' => some 8
  | 'f' => some 12
  | 'n' => some 10
  | 'r' => some 13
  | 't' => some 9
  | _ => none

/-- The code units of a string literal after its opening quote, and the text
behind its closing quote. -/
def parseUnits : List Char → Option (List ℕ × List Char)
  | [] => none
  | c :: rest =>
      if c = '"' then some ([], rest)
      else if c = '\\' then
        match rest with
        | 'u' :: a :: b :: c :: d :: rest =>
            match hexUnit a b c d, parseUnits rest with
            | some n, some (units, rest) => some (n :: units, rest)
            | _, _ => none
        | c :: rest =>
            match simpleEscape c, parseUnits rest with
            | some n, some (units, rest) => some (n :: units, rest)
            | _, _ => none
        | [] => none
      else if c.toNat < 32 then none
      else (parseUnits rest).map fun r => (c.toNat :: r.1, r.2)

/-- Surrogate pairs become one character, a surrogate on its own becomes the
replacement character. -/
def joinUnits : List ℕ → List Char
  | [] => []
  | [n] => [if n.isValidChar then Char.ofNat n else Char.ofNat 0xfffd]
  | m :: n :: rest =>
      if 0xd800 ≤ m ∧ m < 0xdc00 ∧ 0xdc00 ≤ n ∧ n < 0xe000 then
        Char.ofNat (0x10000 + (m - 0xd800) * 0x400 + (n - 0xdc00)) :: joinUnits rest
      else (if m.isValidChar then Char.ofNat m else Char.ofNat 0xfffd) :: joinUnits (n :: rest)

def parseString (l : List Char) : Option (String × List Char) :=
  (parseUnits l).map fun r => (String.ofList (joinUnits r.1), r.2)

/-- An array index comes before larger indices and before other names. -/
def comesBefore (a b : String) : Bool :=
  match indexValue a, indexValue b with
  | some m, some n => decide (m < n)
  | some _, none => true
  | none, _ => false

/-- Defines a property: in place when the name is present, else where property
order puts it. -/
def insertField (k : String) (v : Json N) : List (String × Json N) → List (String × Json N)
  | [] => [(k, v)]
  | f :: rest =>
      if f.1 = k then (k, v) :: rest
      else if comesBefore k f.1 then (k, v) :: f :: rest
      else f :: insertField k v rest

def parseNumber [NumberLiteral N] (l : List Char) : Option (Json N × List Char) :=
  let token := l.takeWhile isNumberChar
  if isNumberLiteral token then
    (NumberLiteral.ofLiteral (String.ofList token)).map fun n => (num n, l.dropWhile isNumberChar)
  else none

mutual

def parseValue [NumberLiteral N] : ℕ → List Char → Option (Json N × List Char)
  | 0, _ => none
  | fuel + 1, l =>
      match skipBlanks l with
      | 'n' :: 'u' :: 'l' :: 'l' :: rest => some (null, rest)
      | 't' :: 'r' :: 'u' :: 'e' :: rest => some (bool true, rest)
      | 'f' :: 'a' :: 'l' :: 's' :: 'e' :: rest => some (bool false, rest)
      | '"' :: rest => (parseString rest).map fun r => (str r.1, r.2)
      | '[' :: rest =>
          match skipBlanks rest with
          | ']' :: rest => some (arr [], rest)
          | rest => (parseItems fuel rest).map fun r => (arr r.1, r.2)
      | '{' :: rest =>
          match skipBlanks rest with
          | '}' :: rest => some (obj [], rest)
          | rest =>
              (parseFields fuel rest).map fun r =>
                (obj (r.1.foldl (fun fields f => insertField f.1 f.2 fields) []), r.2)
      | rest => parseNumber rest

/-- The items up to the closing bracket. -/
def parseItems [NumberLiteral N] : ℕ → List Char → Option (List (Json N) × List Char)
  | 0, _ => none
  | fuel + 1, l =>
      match parseValue fuel l with
      | none => none
      | some (v, rest) =>
          match skipBlanks rest with
          | ',' :: rest => (parseItems fuel rest).map fun r => (v :: r.1, r.2)
          | ']' :: rest => some ([v], rest)
          | _ => none

/-- The properties up to the closing brace, in the order of the text. -/
def parseFields [NumberLiteral N] : ℕ → List Char → Option (List (String × Json N) × List Char)
  | 0, _ => none
  | fuel + 1, l =>
      match skipBlanks l with
      | '"' :: rest =>
          match parseString rest with
          | none => none
          | some (k, rest) =>
              match skipBlanks rest with
              | ':' :: rest =>
                  match parseValue fuel rest with
                  | none => none
                  | some (v, rest) =>
                      match skipBlanks rest with
                      | ',' :: rest => (parseFields fuel rest).map fun r => ((k, v) :: r.1, r.2)
                      | '}' :: rest => some ([(k, v)], rest)
                      | _ => none
              | _ => none
      | _ => none

end

/-- `JSON.stringify(v)`. -/
def stringify [JsNumber N] (v : Json N) : String := String.ofList (print v)

/-- `JSON.parse(s)`. -/
def parse [NumberLiteral N] (s : String) : Option (Json N) :=
  match parseValue (s.toList.length + 1) s.toList with
  | none => none
  | some (v, rest) => if (skipBlanks rest).isEmpty then some v else none

private theorem hexValue_hexDigit : ∀ n : Fin 16, hexValue (hexDigit n) = some n.1 := by decide

private theorem parseUnits_close (l : List Char) : parseUnits ('"' :: l) = some ([], l) := by
  rw [parseUnits.eq_def]
  simp

private theorem parseUnits_plain {c : Char} (hq : c ≠ '"') (hb : c ≠ '\\') (hctl : ¬ c.toNat < 32)
    (l : List Char) :
    parseUnits (c :: l) = (parseUnits l).map fun r => (c.toNat :: r.1, r.2) := by
  rw [parseUnits.eq_def]
  simp [hq, hb, hctl]

private theorem parseUnits_simple {e : Char} {n : ℕ} (hu : e ≠ 'u')
    (h : simpleEscape e = some n) (l : List Char) :
    parseUnits ('\\' :: e :: l) = (parseUnits l).map fun r => (n :: r.1, r.2) := by
  rw [parseUnits.eq_def]
  simp only [Char.reduceEq, if_false, if_true]
  split
  · next heq => exact absurd (List.cons.inj heq).1 hu
  · next heq =>
      obtain ⟨rfl, rfl⟩ := List.cons.inj heq
      rw [h]
      cases parseUnits l <;> rfl
  · next heq => cases heq

/-- Reading an escaped character. -/
theorem parseUnits_escape (c : Char) (l : List Char) :
    parseUnits (escape c ++ l) = (parseUnits l).map fun r => (c.toNat :: r.1, r.2) := by
  unfold escape
  split
  · next h => subst h; exact parseUnits_simple (by decide) rfl l
  split
  · next h => subst h; exact parseUnits_simple (by decide) rfl l
  split
  · next h => subst h; exact parseUnits_simple (by decide) rfl l
  split
  · next h => subst h; exact parseUnits_simple (by decide) rfl l
  split
  · next h => subst h; exact parseUnits_simple (by decide) rfl l
  split
  · next h => rw [h]; exact parseUnits_simple (by decide) rfl l
  split
  · next h => rw [h]; exact parseUnits_simple (by decide) rfl l
  split
  · next h =>
      have hhi := hexValue_hexDigit ⟨c.toNat / 16, by omega⟩
      have hlo := hexValue_hexDigit ⟨c.toNat % 16, by omega⟩
      have hzero : hexValue '0' = some 0 := by decide
      have hunit : hexUnit '0' '0' (hexDigit (c.toNat / 16)) (hexDigit (c.toNat % 16)) =
          some c.toNat := by
        simp only at hhi hlo
        simp only [hexUnit, hzero, hhi, hlo, Option.bind_eq_bind, Option.bind_some,
          Option.some.injEq]
        omega
      simp only [List.cons_append, List.nil_append, parseUnits, hunit]
      cases parseUnits l <;> rfl
  · next hq hb _ _ _ _ _ hctl => exact parseUnits_plain hq hb hctl l

theorem parseUnits_quoted (cs rest : List Char) :
    parseUnits (cs.flatMap escape ++ '"' :: rest) = some (cs.map Char.toNat, rest) := by
  induction cs with
  | nil => exact parseUnits_close rest
  | cons c cs ih => rw [List.flatMap_cons, List.append_assoc, parseUnits_escape, ih]; rfl

theorem isValidChar_toNat (c : Char) : c.toNat.isValidChar := c.valid

private theorem not_surrogate {c : Char} : ¬ (0xd800 ≤ c.toNat ∧ c.toNat < 0xdc00) := by
  have h := isValidChar_toNat c
  unfold Nat.isValidChar at h
  omega

/-- A character is never half of a surrogate pair. -/
theorem joinUnits_toNat (cs : List Char) : joinUnits (cs.map Char.toNat) = cs := by
  induction cs with
  | nil => rfl
  | cons c cs ih =>
      cases cs with
      | nil => simp [joinUnits, isValidChar_toNat]
      | cons d cs =>
          rw [List.map_cons, List.map_cons, joinUnits, if_neg fun h => not_surrogate ⟨h.1, h.2.1⟩,
            if_pos (isValidChar_toNat c), Char.ofNat_toNat]
          rw [List.map_cons] at ih
          rw [ih]

theorem parseString_quoted (s : String) (rest : List Char) :
    parseString (s.toList.flatMap escape ++ '"' :: rest) = some (s, rest) := by
  simp [parseString, parseUnits_quoted, joinUnits_toNat]

theorem isNumberChar_of_literal {l : List Char} (h : isNumberLiteral l = true) :
    l ≠ [] ∧ ∀ c ∈ l, isNumberChar c = true := by
  simp only [isNumberLiteral, Bool.and_eq_true] at h
  exact ⟨by simpa using h.1.1.1.1, by simpa using h.1.1.1.2⟩

/-- The text behind a value does not continue a number. -/
def Ends (l : List Char) : Prop := ∀ c ∈ l.head?, isNumberChar c = false

theorem ends_cons {c : Char} (h : isNumberChar c = false) (l : List Char) : Ends (c :: l) := by
  rintro _ ⟨⟩
  exact h

private theorem takeWhile_literal {token rest : List Char}
    (h : ∀ c ∈ token, isNumberChar c = true) (hrest : Ends rest) :
    (token ++ rest).takeWhile isNumberChar = token ∧
      (token ++ rest).dropWhile isNumberChar = rest := by
  have hr : rest.takeWhile isNumberChar = [] ∧ rest.dropWhile isNumberChar = rest := by
    cases rest with
    | nil => exact ⟨rfl, rfl⟩
    | cons c rest =>
        have hc : isNumberChar c = false := hrest c rfl
        simp [hc]
  rw [List.takeWhile_append_of_pos h, List.dropWhile_append_of_pos h, hr.1, hr.2, List.append_nil]
  exact ⟨rfl, rfl⟩

theorem parseNumber_text [NumberLiteral N] {n : N} (h : (JsNumber.finiteValue n).isSome)
    {rest : List Char} (hrest : Ends rest) :
    parseNumber ((JsNumber.text n).toList ++ rest) = some (num n, rest) := by
  have hliteral := NumberLiteral.isNumberLiteral_text n h
  obtain ⟨htake, hdrop⟩ := takeWhile_literal (isNumberChar_of_literal hliteral).2 hrest
  rw [parseNumber, htake, hdrop, if_pos hliteral, String.ofList_toList,
    NumberLiteral.ofLiteral_text n h]
  rfl

/-- The first character of a printed value is neither blank nor closing. -/
def Opens (l : List Char) : Prop :=
  ∃ c rest, l = c :: rest ∧ isBlank c = false ∧ c ≠ ']' ∧ c ≠ '}'

private theorem opens_of_numberChar {c : Char} (h : isNumberChar c = true) :
    isBlank c = false ∧ c ≠ ']' ∧ c ≠ '}' ∧ c ≠ '"' ∧ c ≠ '[' ∧ c ≠ '{' ∧ c ≠ 'n' ∧ c ≠ 't' ∧
      c ≠ 'f' := by
  have hblank : isBlank c = false := by
    rw [Bool.eq_false_iff]
    intro hb
    simp only [isBlank, Bool.or_eq_true, decide_eq_true_eq] at hb
    rcases hb with ((rfl | rfl) | rfl) | rfl <;> simp [isNumberChar] at h
  refine ⟨hblank, ?_, ?_, ?_, ?_, ?_, ?_, ?_, ?_⟩ <;> (rintro rfl; simp [isNumberChar] at h)

theorem opens_print [NumberLiteral N] (v : Json N) : Opens (print v) := by
  cases v with
  | null => exact ⟨_, _, rfl, by decide⟩
  | bool b => cases b <;> exact ⟨_, _, rfl, by decide⟩
  | num n =>
      by_cases h : (JsNumber.finiteValue n).isSome
      · obtain ⟨hne, hall⟩ := isNumberChar_of_literal (NumberLiteral.isNumberLiteral_text n h)
        obtain ⟨c, rest, hcons⟩ := List.exists_cons_of_ne_nil hne
        have hc := opens_of_numberChar (hall c (by simp [hcons]))
        exact ⟨c, rest, by simp only [print, if_pos h, hcons], hc.1, hc.2.1, hc.2.2.1⟩
      · exact ⟨'n', ['u', 'l', 'l'], by simp only [print, if_neg h], by decide⟩
  | str s => exact ⟨_, _, rfl, by decide⟩
  | arr items => exact ⟨_, _, rfl, by decide⟩
  | obj fields => exact ⟨_, _, rfl, by decide⟩

theorem Opens.append {l : List Char} (h : Opens l) (rest : List Char) : Opens (l ++ rest) := by
  obtain ⟨c, tail, rfl, hc⟩ := h
  exact ⟨c, tail ++ rest, rfl, hc⟩

theorem Opens.skipBlanks {l : List Char} (h : Opens l) : skipBlanks l = l := by
  obtain ⟨c, rest, rfl, hc, -⟩ := h
  simp [Json.skipBlanks, hc]

/-- A property listed after all others is put behind them. -/
theorem insertField_of_last {fields : List (String × Json N)} {k : String} {v : Json N}
    (h : ∀ f ∈ fields, listedBefore f.1 k = true) :
    insertField k v fields = fields ++ [(k, v)] := by
  induction fields with
  | nil => rfl
  | cons f rest ih =>
      have hf : listedBefore f.1 k = true := h f (by simp)
      have hne : f.1 ≠ k := by
        rintro rfl
        unfold listedBefore at hf
        split at hf <;> simp_all
      have hlast : comesBefore k f.1 = false := by
        unfold listedBefore at hf
        unfold comesBefore
        split at hf <;> simp_all
        omega
      rw [insertField, if_neg hne, hlast, ih fun f' hf' => h f' (List.mem_cons_of_mem f hf')]
      rfl

/-- Defining the properties of an object in property order lists them in that
order. -/
theorem foldl_insertField {fields acc : List (String × Json N)}
    (h : ((acc ++ fields).map Prod.fst).Pairwise fun a b => listedBefore a b = true) :
    fields.foldl (fun acc f => insertField f.1 f.2 acc) acc = acc ++ fields := by
  induction fields generalizing acc with
  | nil => simp
  | cons f rest ih =>
      have hlast : ∀ g ∈ acc, listedBefore g.1 f.1 = true := by
        intro g hg
        rw [List.map_append, List.pairwise_append] at h
        exact h.2.2 g.1 (List.mem_map_of_mem hg) f.1 (by simp)
      rw [List.foldl_cons, insertField_of_last hlast]
      have hassoc : acc ++ f :: rest = acc ++ [(f.1, f.2)] ++ rest := by simp
      rw [hassoc] at h ⊢
      exact ih h

private theorem ends_close (rest : List Char) : Ends (']' :: rest) ∧ Ends ('}' :: rest) ∧
    Ends (',' :: rest) :=
  ⟨ends_cons (by decide) _, ends_cons (by decide) _, ends_cons (by decide) _⟩

section RoundTrip

variable [NumberLiteral N]

private theorem opens_printItems (v : Json N) (items : List (Json N)) :
    Opens (printItems (v :: items)) := by
  cases items with
  | nil => exact opens_print v
  | cons w rest => exact (opens_print v).append _

private theorem opens_printFields (f : String × Json N) (fields : List (String × Json N)) :
    Opens (printFields (f :: fields)) := by
  cases fields <;> exact ⟨_, _, rfl, by decide⟩

private theorem parseValue_number {n : N} (h : (JsNumber.finiteValue n).isSome) {rest : List Char}
    (hrest : Ends rest) (fuel : ℕ) :
    parseValue (fuel + 1) ((JsNumber.text n).toList ++ rest) = some (num n, rest) := by
  obtain ⟨hne, hall⟩ := isNumberChar_of_literal (NumberLiteral.isNumberLiteral_text n h)
  obtain ⟨c, tail, hcons⟩ := List.exists_cons_of_ne_nil hne
  obtain ⟨hblank, -, -, hq, hb, hc, hn, ht, hf⟩ := opens_of_numberChar (hall c (by simp [hcons]))
  have hparse := parseNumber_text h hrest
  rw [hcons, List.cons_append] at hparse ⊢
  have hskip : skipBlanks (c :: (tail ++ rest)) = c :: (tail ++ rest) := by
    simp [skipBlanks, hblank]
  rw [parseValue.eq_def]
  simp only [hskip]
  split
  all_goals first | exact hparse | simp_all

private theorem parseValue_bracket {l : List Char} (h : Opens l) (fuel : ℕ) :
    parseValue (fuel + 1) ('[' :: l) =
      (parseItems fuel l).map fun r => (arr (N := N) r.1, r.2) := by
  have hskip := h.skipBlanks
  obtain ⟨c, tail, rfl, -, hc, -⟩ := h
  rw [parseValue.eq_def]
  simp [show skipBlanks ('[' :: c :: tail) = '[' :: c :: tail by rfl, hskip, hc]

private theorem parseValue_brace {l : List Char} (h : Opens l) (fuel : ℕ) :
    parseValue (fuel + 1) ('{' :: l) = (parseFields fuel l).map fun r =>
      (obj (N := N) (r.1.foldl (fun fields f => insertField f.1 f.2 fields) []), r.2) := by
  have hskip := h.skipBlanks
  obtain ⟨c, tail, rfl, -, -, hc⟩ := h
  rw [parseValue.eq_def]
  simp [show skipBlanks ('{' :: c :: tail) = '{' :: c :: tail by rfl, hskip, hc]

private theorem parseFields_named {fuel : ℕ} {k : String} {v : Json N} {l rest : List Char}
    (h : parseValue fuel l = some (v, rest)) :
    parseFields (fuel + 1) (quote k ++ ':' :: l) =
      match skipBlanks rest with
      | ',' :: rest => (parseFields fuel rest).map fun r => ((k, v) :: r.1, r.2)
      | '}' :: rest => some ([(k, v)], rest)
      | _ => none := by
  have hskip : ∀ l, skipBlanks ('"' :: l) = '"' :: l := fun _ => rfl
  have hcolon : ∀ l, skipBlanks (':' :: l) = ':' :: l := fun _ => rfl
  rw [parseFields.eq_def]
  simp only [quote, List.cons_append, List.append_assoc, List.nil_append, hskip,
    parseString_quoted, hcolon, h]

mutual

/-- Parsing undoes printing on every JavaScript value. -/
theorem parseValue_print : ∀ (v : Json N), v.WellFormed → ∀ (fuel : ℕ) (rest : List Char),
    (print v).length < fuel → Ends rest → parseValue fuel (print v ++ rest) = some (v, rest)
  | null, _, fuel + 1, rest, _, _ => by rfl
  | bool true, _, fuel + 1, rest, _, _ => by rfl
  | bool false, _, fuel + 1, rest, _, _ => by rfl
  | num n, hw, fuel + 1, rest, _, hrest => by
      have hfinite : (JsNumber.finiteValue n).isSome := hw
      rw [print, if_pos hfinite]
      exact parseValue_number hfinite hrest fuel
  | str s, _, fuel + 1, rest, _, _ => by
      have h := parseString_quoted s rest
      have hskip : ∀ l, skipBlanks ('"' :: l) = '"' :: l := fun _ => rfl
      rw [parseValue.eq_def]
      simp only [print, quote, List.cons_append, List.append_assoc, List.nil_append, hskip, h]
      rfl
  | arr [], _, fuel + 1, rest, _, _ => by rfl
  | arr (v :: items), hw, fuel + 1, rest, hlen, _ => by
      simp only [print, List.length_cons, List.length_append] at hlen
      have hitems := parseItems_print v items hw.1 hw.2 fuel rest (by omega)
      simp only [print, List.cons_append, List.append_assoc, List.nil_append]
      rw [parseValue_bracket ((opens_printItems v items).append _), hitems]
      rfl
  | obj [], _, fuel + 1, rest, _, _ => by rfl
  | obj ((k, v) :: fields), hw, fuel + 1, rest, hlen, _ => by
      simp only [print, List.length_cons, List.length_append] at hlen
      have hfields := parseFields_print k v fields hw.2.1 hw.2.2 fuel rest (by omega)
      simp only [print, List.cons_append, List.append_assoc, List.nil_append]
      rw [parseValue_brace ((opens_printFields (k, v) fields).append _), hfields, Option.map_some,
        foldl_insertField hw.1]
      rfl

theorem parseItems_print : ∀ (v : Json N) (items : List (Json N)), v.WellFormed →
    ItemsWellFormed items → ∀ (fuel : ℕ) (rest : List Char),
    (printItems (v :: items)).length + 1 < fuel →
    parseItems fuel (printItems (v :: items) ++ ']' :: rest) = some (v :: items, rest)
  | v, [], hv, _, fuel + 1, rest, hlen => by
      simp only [printItems] at hlen ⊢
      rw [parseItems, parseValue_print v hv fuel _ (by omega) (ends_close rest).1]
      rfl
  | v, w :: items, hv, hitems, fuel + 1, rest, hlen => by
      simp only [printItems, List.length_append, List.length_cons] at hlen
      simp only [printItems, List.append_assoc, List.cons_append]
      have htail := parseItems_print w items hitems.1 hitems.2 fuel rest (by omega)
      rw [parseItems, parseValue_print v hv fuel _ (by omega) (ends_close _).2.2]
      simp only [show ∀ l, skipBlanks (',' :: l) = ',' :: l from fun _ => rfl, htail]
      rfl

theorem parseFields_print : ∀ (k : String) (v : Json N) (fields : List (String × Json N)),
    v.WellFormed → FieldsWellFormed fields → ∀ (fuel : ℕ) (rest : List Char),
    (printFields ((k, v) :: fields)).length + 1 < fuel →
    parseFields fuel (printFields ((k, v) :: fields) ++ '}' :: rest) =
      some ((k, v) :: fields, rest)
  | k, v, [], hv, _, fuel + 1, rest, hlen => by
      simp only [printFields, List.length_append, List.length_cons] at hlen
      have h := parseValue_print v hv fuel ('}' :: rest) (by omega) (ends_close rest).2.1
      simp only [printFields, List.append_assoc, List.cons_append]
      rw [parseFields_named h]
      rfl
  | k, v, (k', w) :: fields, hv, hfields, fuel + 1, rest, hlen => by
      simp only [printFields, List.length_append, List.length_cons] at hlen
      simp only [printFields, List.append_assoc, List.cons_append]
      have htail := parseFields_print k' w fields hfields.1 hfields.2 fuel rest (by omega)
      have h := parseValue_print v hv fuel
        (',' :: (printFields ((k', w) :: fields) ++ '}' :: rest)) (by omega) (ends_close _).2.2
      rw [parseFields_named h]
      simp only [show ∀ l, skipBlanks (',' :: l) = ',' :: l from fun _ => rfl, htail]
      rfl

end

theorem parse_stringify (v : Json N) (h : v.WellFormed) : parse (stringify v) = some v := by
  have hv := parseValue_print v h ((print v).length + 1) [] (Nat.lt_succ_self _)
    (fun _ hc => by cases hc)
  rw [List.append_nil] at hv
  rw [parse, stringify, String.toList_ofList, hv]
  rfl

theorem parse_empty : (parse "" : Option (Json N)) = none := rfl

end RoundTrip

end Json

/-- The printer and parser of this module. -/
def JsonText.standard (N : Type) [NumberLiteral N] : JsonText N :=
  ⟨Json.parse, Json.stringify, Json.parse_stringify, Json.parse_empty⟩

section Integers

/-- The digits of a number start with a zero only when it is zero. -/
private theorem isIntegerPart_toDigits (n : ℕ) : Json.isIntegerPart (Nat.toDigits 10 n) = true := by
  induction n using Nat.strongRecOn with
  | ind n ih =>
      by_cases hlt : n < 10
      · have h : ∀ m : Fin 10, Json.isIntegerPart [Nat.digitChar m] = true := by decide
        rw [Nat.toDigits_of_lt_base hlt]
        exact h ⟨n, hlt⟩
      · have hdigit : ∀ m : Fin 10, (Nat.digitChar m).isDigit = true := by decide
        have hlast := hdigit ⟨n % 10, Nat.mod_lt n (by decide)⟩
        have hpos : n / 10 ≠ 0 := by omega
        have h := ih (n / 10) (by omega)
        rw [Nat.toDigits_of_base_le (by decide) (by omega)]
        generalize hds : Nat.toDigits 10 (n / 10) = ds at h
        cases ds with
        | nil => cases h
        | cons c rest =>
            by_cases hc : c = '0'
            · subst hc
              cases rest with
              | nil =>
                  have hval := Nat.ofDigitChars_toDigits (b := 10) (n := n / 10) (by decide) le_rfl
                  rw [hds] at hval
                  exact absurd hval.symm hpos
              | cons d rest => simp [Json.isIntegerPart] at h
            · cases rest with
              | nil => simp_all [Json.isIntegerPart]
              | cons d rest => simp_all [Json.isIntegerPart]

private theorem digits_of_integerPart {l : List Char} (h : Json.isIntegerPart l = true) :
    l ≠ [] ∧ ∀ c ∈ l, c.isDigit = true := by
  unfold Json.isIntegerPart at h
  split at h
  · exact ⟨by simp, by simp⟩
  · next c rest _ =>
      simp only [Bool.and_eq_true, List.all_eq_true] at h
      exact ⟨by simp, List.forall_mem_cons.mpr ⟨h.1.1, h.2⟩⟩
  · cases h

private theorem ne_of_isDigit {c : Char} (h : c.isDigit = true) :
    c ≠ 'e' ∧ c ≠ 'E' ∧ c ≠ '.' ∧ c ≠ '-' := by
  refine ⟨?_, ?_, ?_, ?_⟩ <;> (rintro rfl; cases h)

/-- An integer part is a number literal, with or without a sign. -/
private theorem isNumberLiteral_of_integerPart {l : List Char} (h : Json.isIntegerPart l = true) :
    Json.isNumberLiteral l = true ∧ Json.isNumberLiteral ('-' :: l) = true := by
  obtain ⟨hne, hall⟩ := digits_of_integerPart h
  have hsign : Json.dropSign l = l := by
    unfold Json.dropSign
    split
    · exact absurd rfl (ne_of_isDigit (hall '-' (by simp))).2.2.2
    · rfl
  have he : (l.takeWhile fun c => c ≠ 'e' && c ≠ 'E') = l ∧
      (l.dropWhile fun c => c ≠ 'e' && c ≠ 'E') = [] := by
    have hp : ∀ c ∈ l, (c ≠ 'e' && c ≠ 'E') = true := by
      intro c hc
      obtain ⟨h₁, h₂, -⟩ := ne_of_isDigit (hall c hc)
      simp [h₁, h₂]
    exact ⟨List.takeWhile_eq_self_iff.mpr hp, List.dropWhile_eq_nil_iff.mpr hp⟩
  have hdot : (l.takeWhile (· ≠ '.')) = l ∧ (l.dropWhile (· ≠ '.')) = [] := by
    have hp : ∀ c ∈ l, decide (c ≠ '.') = true := by
      intro c hc
      obtain ⟨-, -, h₃, -⟩ := ne_of_isDigit (hall c hc)
      simp [h₃]
    exact ⟨List.takeWhile_eq_self_iff.mpr hp, List.dropWhile_eq_nil_iff.mpr hp⟩
  have hchars : l.all Json.isNumberChar = true := by
    rw [List.all_eq_true]
    intro c hc
    simp [Json.isNumberChar, hall c hc]
  constructor
  · simp only [Json.isNumberLiteral, hsign, he.1, he.2, hdot.1, hdot.2, hchars, h]
    simp [hne]
  · have hs : Json.dropSign ('-' :: l) = l := rfl
    simp only [Json.isNumberLiteral, hs, he.1, he.2, hdot.1, hdot.2, h, List.all_cons, hchars]
    simp [Json.isNumberChar]

/-- The integers as numbers; a literal with a fraction or an exponent denotes
none of them. -/
instance : NumberLiteral ℤ where
  text n := String.ofList
    (if n < 0 then '-' :: Nat.toDigits 10 n.natAbs else Nat.toDigits 10 n.natAbs)
  finiteValue n := some n
  ofInt n := n
  finiteValue_ofInt _ := rfl
  ofLiteral s :=
    let digits := Json.dropSign s.toList
    let n : ℤ := Nat.ofDigitChars 10 digits 0
    if digits.all Char.isDigit then some (if digits = s.toList then n else -n) else none
  isNumberLiteral_text n _ := by
    have h := isNumberLiteral_of_integerPart (isIntegerPart_toDigits n.natAbs)
    show Json.isNumberLiteral (String.ofList _).toList = true
    rw [String.toList_ofList]
    split
    · exact h.2
    · exact h.1
  ofLiteral_text n _ := by
    have hpart := isIntegerPart_toDigits n.natAbs
    obtain ⟨hne, hall⟩ := digits_of_integerPart hpart
    have hval := Nat.ofDigitChars_toDigits (b := 10) (n := n.natAbs) (by decide) le_rfl
    have hdigits : (Nat.toDigits 10 n.natAbs).all Char.isDigit = true := List.all_eq_true.mpr hall
    simp only [String.toList_ofList]
    by_cases hneg : n < 0
    · have hdrop : Json.dropSign ('-' :: Nat.toDigits 10 n.natAbs) = Nat.toDigits 10 n.natAbs := rfl
      rw [if_pos hneg, hdrop, hdigits, hval, if_pos rfl, if_neg (by simp)]
      congr 1
      omega
    · have hdrop : Json.dropSign (Nat.toDigits 10 n.natAbs) = Nat.toDigits 10 n.natAbs := by
        unfold Json.dropSign
        split
        · next heq => exact absurd rfl (ne_of_isDigit (hall '-' (by simp [heq]))).2.2.2
        · rfl
      rw [if_neg hneg, hdrop, hdigits, hval, if_pos rfl, if_pos rfl]
      congr 1
      omega

end Integers

end EncryptionGateway.JavaScript
