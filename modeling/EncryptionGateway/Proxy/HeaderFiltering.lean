import EncryptionGateway.Common.Payload
import EncryptionGateway.Foundation.InsertionMap
import EncryptionGateway.Foundation.Splitting
import EncryptionGateway.JavaScript.JsonPrinter

/-!
# Header filtering

`ProxyService.normalizeHeaders` reads a list of name and value pairs out of the
`Header` field, collects the names that `Connection` headers nominate, and then
keeps the pairs a client may control.

## Implementation notes

The order in which the properties of the result are listed is that of their
first insertion, array indices included.
-/

namespace EncryptionGateway.Proxy

open JavaScript Foundation Common

/-- Hop-by-hop headers, headers the HTTP client computes itself, and headers
that carry a proxy identity. -/
def BLOCKED_HEADERS : List String :=
  ["host", "connection", "keep-alive", "proxy-authorization", "proxy-authenticate",
    "proxy-connection", "te", "trailer", "transfer-encoding", "upgrade", "content-length", "expect",
    "forwarded", "x-real-ip", "cf-connecting-ip", "true-client-ip", "fastly-client-ip"]

/-- The class `[!#$%&'*+.^_|~0-9A-Za-z-]` and the grave accent. -/
def isTokenChar (c : Char) : Bool := c.isAlphanum || "!#$%&'*+.^_`|~-".toList.contains c

/-- `HEADER_NAME.test(name)`. -/
def isHeaderName (name : String) : Bool := name.toList ≠ [] && name.toList.all isTokenChar

/-- `HEADER_VALUE.test(text)`: tab, visible ASCII with space, and the upper half
of the 8-bit range. -/
def isHeaderValue (text : String) : Bool :=
  text.toList.all fun c => c.toNat = 9 || (0x20 ≤ c.toNat && c.toNat ≤ 0x7e) ||
    (0x80 ≤ c.toNat && c.toNat ≤ 0xff)

section Reading

variable {N : Type} [JsNumber N]

/-- `Array.isArray(header) ? header : header ? [header] : []`. -/
def headerEntries (header : Option (Json N)) : List (Json N) :=
  match header with
  | some (.arr items) => items
  | some v => if v.truthy then [v] else []
  | none => []

/-- An object with both properties is one pair; any other contributes its
properties, and what is no object contributes nothing. -/
def entryPairs (entry : Json N) : List (String × String) :=
  match entry with
  | .obj fields =>
      match Json.lookup fields "Key", Json.lookup fields "Value" with
      | some key, some value => [(key.toText, value.toText)]
      | _, _ => fields.map fun f => (f.1, f.2.toText)
  | .arr items => items.zipIdx.map fun e => (toString e.2, e.1.toText)
  | _ => []

def headerPairs (header : Option (Json N)) : List (String × String) :=
  (headerEntries header).flatMap entryPairs

end Reading

/-- The names nominated by one header. -/
def nominations (p : String × String) : List String :=
  if toLowerCase p.1 = "connection" then (split p.2 ',').map fun token => toLowerCase (trim token)
  else []

/-- The test that makes `add` drop a header. -/
def isDropped (connectionHeaders : List String) (name : String) : Bool :=
  BLOCKED_HEADERS.contains (toLowerCase name) || startsWith (toLowerCase name) "x-forwarded-" ||
    connectionHeaders.contains (toLowerCase name)

abbrev Headers := InsertionMap String String

/-- `add(key, value)`. -/
def add (connectionHeaders : List String) (headers : Headers) (p : String × String) :
    Except HttpException Headers :=
  if isHeaderName p.1 && isHeaderValue p.2 then
    .ok (if isDropped connectionHeaders p.1 then headers else headers.set p.1 p.2)
  else .error (badRequest ("Header \"" ++ p.1 ++ "\" is not valid"))

/-- The headers to send. All nominations are collected before the first header
is added. -/
def addAll (pairs : List (String × String)) : Except HttpException Headers :=
  pairs.foldlM (add (pairs.flatMap nominations)) .empty

def normalizeHeaders {N : Type} [JsNumber N] (header : Option (Json N)) :
    Except HttpException Headers :=
  addAll (headerPairs header)

/-! ## What is kept -/

/-- The delimiters of a header field. -/
def delimiters : List Char := "\"(),/:;<=>?@[\\]\x7b\x7d".toList

/-- A `token`: visible ASCII without delimiters, not empty. -/
def IsToken (name : String) : Prop :=
  name ≠ "" ∧ ∀ c ∈ name.toList, 0x21 ≤ c.toNat ∧ c.toNat ≤ 0x7e ∧ c ∉ delimiters

/-- Tab, space, visible ASCII and `obs-text`. -/
def IsFieldValue (text : String) : Prop :=
  ∀ c ∈ text.toList, c = '\t' ∨ c = ' ' ∨ (0x21 ≤ c.toNat ∧ c.toNat ≤ 0x7e) ∨
    (0x80 ≤ c.toNat ∧ c.toNat ≤ 0xff)

/-- The value of a `Connection` header lists the name, in any case and between
any blanks. -/
def Nominates (value name : String) : Prop :=
  ∃ before blanks token blanks' after : List Char,
    value.toList = before ++ (blanks ++ token ++ blanks') ++ after ∧
    Splitting.Bounded ',' before after ∧ (∀ c ∈ blanks, isSpace c = true) ∧
    (∀ c ∈ blanks', isSpace c = true) ∧
    toLowerCase (String.ofList token) = toLowerCase name

/-- The names that pass for no request. -/
def Withheld (name : String) : Prop :=
  toLowerCase name ∈ BLOCKED_HEADERS ∨ "x-forwarded-".toList <+: (toLowerCase name).toList

/-- The names that never pass. -/
def Dropped (pairs : List (String × String)) (name : String) : Prop :=
  toLowerCase name ∈ BLOCKED_HEADERS ∨ "x-forwarded-".toList <+: (toLowerCase name).toList ∨
    ∃ p ∈ pairs, toLowerCase p.1 = "connection" ∧ Nominates p.2 name

theorem Withheld.dropped {name : String} (h : Withheld name) (pairs : List (String × String)) :
    Dropped pairs name :=
  h.imp_right Or.inl

/-- The value of the last pair with exactly this name. -/
def lastValue (pairs : List (String × String)) (name : String) : Option String :=
  ((pairs.filter fun p => decide (p.1 = name)).getLast?).map Prod.snd

section Characters

theorem toNat_lt_of_isTokenChar {c : Char} (h : isTokenChar c = true) : c.toNat < 128 := by
  have hmarks : ("!#$%&'*+.^_`|~-".toList.all fun d => decide (d.toNat < 128)) = true := by
    decide +kernel
  rw [isTokenChar, Bool.or_eq_true, List.contains_iff_mem] at h
  rcases h with h | h
  · exact toNat_lt_of_isAlphanum h
  · exact of_decide_eq_true (List.all_eq_true.mp hmarks c h)

theorem isTokenChar_iff {c : Char} :
    isTokenChar c = true ↔ 0x21 ≤ c.toNat ∧ c.toNat ≤ 0x7e ∧ c ∉ delimiters := by
  by_cases h : c.toNat < 128
  · exact Numeral.ascii_cases (P := fun c => isTokenChar c = true ↔
      0x21 ≤ c.toNat ∧ c.toNat ≤ 0x7e ∧ c ∉ delimiters) (by decide +kernel) h
  · constructor
    · exact fun htoken => absurd (toNat_lt_of_isTokenChar htoken) h
    · rintro ⟨-, hle, -⟩
      omega

theorem isTokenChar_lowerChar {c : Char} (h : isTokenChar c = true) :
    isTokenChar (lowerChar c) = true := by
  have hall := Numeral.ascii_cases
    (P := fun c => isTokenChar c = true → isTokenChar (lowerChar c) = true) (by decide +kernel)
    (toNat_lt_of_isTokenChar h)
  exact hall h

/-- White space and commas end a token in any case. -/
theorem not_isTokenChar_lowerChar {c : Char} (h : isSpace c = true ∨ c = ',') :
    isTokenChar (lowerChar c) = false := by
  rcases h with h | rfl
  · have hcode : c.toNat = 32 ∨ (9 ≤ c.toNat ∧ c.toNat ≤ 13) ∨ 0xa0 ≤ c.toNat := by
      simp only [isSpace, Bool.or_eq_true, Bool.and_eq_true, decide_eq_true_eq,
        ← Char.toNat_inj] at h
      have : ' '.toNat = 32 := rfl
      omega
    have hkelvin : c.toNat ≠ 0x212a := by
      simp only [isSpace, Bool.or_eq_true, Bool.and_eq_true, decide_eq_true_eq,
        ← Char.toNat_inj] at h
      have : ' '.toNat = 32 := rfl
      omega
    rw [lowerChar_eq_self (by omega) hkelvin, ← Bool.not_eq_true, isTokenChar_iff]
    omega
  · decide +kernel

end Characters

theorem isHeaderName_iff {name : String} : isHeaderName name = true ↔ IsToken name := by
  simp only [isHeaderName, IsToken, Bool.and_eq_true, List.all_eq_true, isTokenChar_iff,
    decide_eq_true_eq, Ne, String.toList_eq_nil_iff]

theorem isHeaderValue_iff {text : String} : isHeaderValue text = true ↔ IsFieldValue text := by
  have htab : ∀ c : Char, c = '\t' ↔ c.toNat = 9 := fun c => by rw [← Char.toNat_inj]; rfl
  have hspace : ∀ c : Char, c = ' ' ↔ c.toNat = 0x20 := fun c => by rw [← Char.toNat_inj]; rfl
  simp only [isHeaderValue, IsFieldValue, List.all_eq_true, Bool.or_eq_true, Bool.and_eq_true,
    decide_eq_true_eq, htab, hspace]
  refine forall₂_congr fun c _ => ?_
  omega

theorem isSpace_false_of_lowerCase {token : List Char} {name : String} (hname : IsToken name)
    (heq : toLowerCase (String.ofList token) = toLowerCase name) {c : Char} (hc : c ∈ token) :
    isSpace c = false ∧ c ≠ ',' := by
  have hmem : lowerChar c ∈ name.toList.map lowerChar := by
    rw [← toList_toLowerCase, ← heq, toList_toLowerCase, String.toList_ofList]
    exact List.mem_map_of_mem hc
  obtain ⟨d, hd, hlower⟩ := List.mem_map.mp hmem
  have htoken := isTokenChar_lowerChar (isTokenChar_iff.mpr (hname.2 d hd))
  rw [hlower] at htoken
  constructor
  · by_contra hspace
    rw [not_isTokenChar_lowerChar (Or.inl (by simpa using hspace))] at htoken
    cases htoken
  · rintro rfl
    rw [not_isTokenChar_lowerChar (Or.inr rfl)] at htoken
    cases htoken

/-- The tokens collected from a header are the names its value lists. -/
theorem mem_nominations_iff {p : String × String} {name : String} (hname : IsToken name) :
    toLowerCase name ∈ nominations p ↔ toLowerCase p.1 = "connection" ∧ Nominates p.2 name := by
  unfold nominations
  split
  · next hconnection =>
      simp only [hconnection, true_and, split, List.map_map, List.mem_map, Function.comp_apply]
      constructor
      · rintro ⟨piece, hpiece, hlower⟩
        obtain ⟨-, before, after, hvalue, hbounded⟩ := Splitting.mem_splitOn_iff.mp hpiece
        obtain ⟨blanks, blanks', hsplit, hb, hb'⟩ := exists_trimChars piece
        rw [trim, String.toList_ofList] at hlower
        exact ⟨before, blanks, trimChars piece, blanks', after, hsplit ▸ hvalue, hbounded, hb, hb',
          hlower⟩
      · rintro ⟨before, blanks, token, blanks', after, hvalue, hbounded, hb, hb', hlower⟩
        refine ⟨blanks ++ token ++ blanks', ?_, ?_⟩
        · refine hvalue ▸ Splitting.mem_splitOn_of_bounded ?_ hbounded
          have hspaces : ∀ l : List Char, (∀ c ∈ l, isSpace c = true) → ',' ∉ l := by
            intro l hl hcomma
            exact absurd (hl _ hcomma) (by decide)
          simp only [List.mem_append, not_or]
          exact ⟨⟨hspaces _ hb, fun hc => (isSpace_false_of_lowerCase hname hlower hc).2 rfl⟩,
            hspaces _ hb'⟩
        · rw [trim, String.toList_ofList, trimChars_surrounded hb hb'
            fun c hc => (isSpace_false_of_lowerCase hname hlower hc).1]
          exact hlower
  · next hother => simp [hother]

theorem isDropped_iff {pairs : List (String × String)} {name : String} (hname : IsToken name) :
    isDropped (pairs.flatMap nominations) name = true ↔ Dropped pairs name := by
  simp only [isDropped, Dropped, Bool.or_eq_true, List.contains_iff_mem, List.mem_flatMap,
    mem_nominations_iff hname, startsWith_iff, or_assoc]

/-- The pair may be sent as a header field. -/
def WellFormedHeader (p : String × String) : Prop := IsToken p.1 ∧ IsFieldValue p.2

theorem wellFormedHeader_iff {p : String × String} :
    (isHeaderName p.1 && isHeaderValue p.2) = true ↔ WellFormedHeader p := by
  rw [Bool.and_eq_true, isHeaderName_iff, isHeaderValue_iff, WellFormedHeader]

theorem add_checked (connectionHeaders : List String) (headers : Headers) (p : String × String) :
    add connectionHeaders headers p =
      if (isHeaderName p.1 && isHeaderValue p.2) = true then
        .ok (if isDropped connectionHeaders p.1 then headers else headers.set p.1 p.2)
      else .error (badRequest ("Header \"" ++ p.1 ++ "\" is not valid")) :=
  rfl

theorem addAll_eq_ok {pairs : List (String × String)} {headers : Headers} :
    addAll pairs = .ok headers ↔ (∀ p ∈ pairs, WellFormedHeader p) ∧
      pairs.foldl (fun headers p => if isDropped (pairs.flatMap nominations) p.1 then headers
        else headers.set p.1 p.2) .empty = headers := by
  rw [addAll, foldlM_checked_eq_ok (add_checked _)]
  simp only [wellFormedHeader_iff]

theorem addAll_eq_error {pairs : List (String × String)} {e : HttpException}
    (h : addAll pairs = .error e) : ∃ p ∈ pairs, ¬ WellFormedHeader p ∧
      e = badRequest ("Header \"" ++ p.1 ++ "\" is not valid") := by
  obtain ⟨p, hp, hinvalid, he⟩ := foldlM_checked_eq_error (add_checked _) h
  refine ⟨p, hp, ?_, he⟩
  rw [← wellFormedHeader_iff, hinvalid]
  exact Bool.false_ne_true

theorem lastValue_cons (p : String × String) (pairs : List (String × String)) (name : String) :
    lastValue (p :: pairs) name =
      (lastValue pairs name).or (if p.1 = name then some p.2 else none) := by
  unfold lastValue
  by_cases h : p.1 = name
  · cases hrest : pairs.filter fun q => decide (q.1 = name) with
    | nil => simp [h, hrest]
    | cons q rest =>
        rw [List.filter_cons_of_pos (by simpa using h), hrest, List.getLast?_cons_cons,
          List.getLast?_eq_some_getLast (List.cons_ne_nil q rest)]
        rfl
  · simp [h]

/-- The loop keeps the last value of every name that is not dropped. -/
theorem get_foldl_set (dropped : String → Bool) (pairs : List (String × String))
    (headers : Headers) (name : String) :
    (pairs.foldl (fun headers p => if dropped p.1 then headers else headers.set p.1 p.2)
      headers).get name =
      if dropped name then headers.get name else (lastValue pairs name).or (headers.get name) := by
  induction pairs generalizing headers with
  | nil => simp [lastValue]
  | cons p rest ih =>
      rw [List.foldl_cons, ih, lastValue_cons]
      by_cases hname : p.1 = name
      · subst hname
        by_cases hdropped : dropped p.1 = true
        · simp [hdropped]
        · simp [hdropped]
      · have hkept : (if dropped p.1 then headers else headers.set p.1 p.2).get name =
            headers.get name := by
          split
          · rfl
          · exact headers.get_set_ne _ (Ne.symm hname)
        simp [hkept, hname]

theorem get_of_addAll {pairs : List (String × String)} {headers : Headers}
    (h : addAll pairs = .ok headers) {name value : String} :
    headers.get name = some value ↔ ¬ Dropped pairs name ∧ lastValue pairs name = some value := by
  obtain ⟨hall, rfl⟩ := addAll_eq_ok.mp h
  rw [get_foldl_set]
  cases hlast : lastValue pairs name with
  | none => simp
  | some last =>
      obtain ⟨p, hp, -⟩ := Option.map_eq_some_iff.mp hlast
      obtain ⟨hmem, hname⟩ := List.mem_filter.mp (List.mem_of_getLast? hp)
      obtain rfl : p.1 = name := by simpa using hname
      rw [← isDropped_iff (hall p hmem).1]
      simp

theorem lastValue_mem {pairs : List (String × String)} {name value : String}
    (h : lastValue pairs name = some value) : (name, value) ∈ pairs := by
  obtain ⟨p, hp, rfl⟩ := Option.map_eq_some_iff.mp h
  obtain ⟨hmem, hname⟩ := List.mem_filter.mp (List.mem_of_getLast? hp)
  obtain rfl : p.1 = name := by simpa using hname
  exact hmem

/-- A header that is sent is well formed and under no withheld name. -/
theorem kept_of_addAll {pairs : List (String × String)} {headers : Headers}
    (h : addAll pairs = .ok headers) {name value : String} (hget : headers.get name = some value) :
    WellFormedHeader (name, value) ∧ ¬ Withheld name := by
  obtain ⟨hkept, hlast⟩ := (get_of_addAll h).mp hget
  exact ⟨(addAll_eq_ok.mp h).1 _ (lastValue_mem hlast),
    fun hwithheld => hkept (hwithheld.dropped pairs)⟩

theorem mem_keys_of_addAll {pairs : List (String × String)} {headers : Headers}
    (h : addAll pairs = .ok headers) {name : String} :
    name ∈ headers.keys ↔ ¬ Dropped pairs name ∧ ∃ value, (name, value) ∈ pairs := by
  have hlast : (∃ value, lastValue pairs name = some value) ↔ ∃ value, (name, value) ∈ pairs := by
    constructor
    · rintro ⟨value, hvalue⟩
      exact ⟨value, lastValue_mem hvalue⟩
    · rintro ⟨value, hvalue⟩
      have hne : (pairs.filter fun p => decide (p.1 = name)) ≠ [] :=
        List.ne_nil_of_mem (List.mem_filter.mpr ⟨hvalue, by simp⟩)
      exact ⟨_, by rw [lastValue, List.getLast?_eq_some_getLast hne, Option.map_some]⟩
  simp only [InsertionMap.mem_keys, ← InsertionMap.get_eq_some, get_of_addAll h, exists_and_left,
    hlast]

/-- The order of the pairs decides neither what is refused nor what is dropped. -/
theorem addAll_perm {pairs pairs' : List (String × String)} (hperm : pairs'.Perm pairs)
    {headers : Headers} (h : addAll pairs = .ok headers) :
    ∃ headers', addAll pairs' = .ok headers' ∧
      ∀ name, name ∈ headers'.keys ↔ name ∈ headers.keys := by
  obtain ⟨hall, -⟩ := addAll_eq_ok.mp h
  have h' := addAll_eq_ok.mpr ⟨fun p hp => hall p (hperm.mem_iff.mp hp), rfl⟩
  refine ⟨_, h', fun name => ?_⟩
  simp only [mem_keys_of_addAll h', mem_keys_of_addAll h, Dropped, hperm.mem_iff]

section Headers

variable {N : Type} [JsNumber N]

/-- In a validated payload no entry is skipped. -/
theorem entries_are_objects {text : JsonText N} {value : Json N} {payload : DecryptedPayload N}
    (h : parsePayload text value = .ok payload) {entry : Json N}
    (hentry : entry ∈ headerEntries payload.Header) : ∃ fields, entry = .obj fields := by
  obtain ⟨-, -, -, -, -, -, hheader, -⟩ := parsePayload_eq_ok h
  unfold headerEntries at hentry
  split at hentry
  · next items heq =>
      rw [heq, validateHeader_arr_eq_ok] at hheader
      obtain ⟨fields, hfields, -⟩ := hheader.2 entry hentry
      exact ⟨fields, hfields⟩
  · next v harr heq =>
      rw [heq] at hheader
      split at hentry
      · obtain rfl := List.mem_singleton.mp hentry
        cases entry with
        | obj fields => exact ⟨fields, rfl⟩
        | arr items => exact absurd rfl (harr items)
        | null => simp [Json.truthy] at *
        | _ => simp [validateHeader, Json.present] at hheader
      · cases hentry
  · cases hentry

/-- The headers sent upstream: those of the last pairs of each name, unless the
name is blocked or nominated anywhere. -/
theorem normalizeHeaders_exact (text : JsonText N) (value : Json N) (payload : DecryptedPayload N)
    (h : parsePayload text value = .ok payload) :
    (∀ entry ∈ headerEntries payload.Header, ∃ fields, entry = .obj fields) ∧
    (∀ e, normalizeHeaders payload.Header = .error e → e.status = 400) ∧
    ((∃ e, normalizeHeaders payload.Header = .error e) ↔
      ∃ p ∈ headerPairs payload.Header, ¬ WellFormedHeader p) ∧
    (∀ headers, normalizeHeaders payload.Header = .ok headers → ∀ name value,
      headers.get name = some value ↔ ¬ Dropped (headerPairs payload.Header) name ∧
        lastValue (headerPairs payload.Header) name = some value) ∧
    ∀ (header' : Option (Json N)) headers,
      (headerPairs header').Perm (headerPairs payload.Header) →
      normalizeHeaders payload.Header = .ok headers →
      ∃ headers', normalizeHeaders header' = .ok headers' ∧
        ∀ name, name ∈ headers'.keys ↔ name ∈ headers.keys := by
  refine ⟨fun entry => entries_are_objects h, ?_, ?_,
    fun headers hok name value => get_of_addAll hok,
    fun header' headers hperm hok => addAll_perm hperm hok⟩
  · intro e he
    obtain ⟨p, -, -, rfl⟩ := addAll_eq_error he
    rfl
  · constructor
    · rintro ⟨e, he⟩
      obtain ⟨p, hp, hinvalid, -⟩ := addAll_eq_error he
      exact ⟨p, hp, hinvalid⟩
    · rintro ⟨p, hp, hinvalid⟩
      cases hresult : normalizeHeaders payload.Header with
      | error e => exact ⟨e, rfl⟩
      | ok headers => exact absurd ((addAll_eq_ok.mp hresult).1 p hp) hinvalid

section Samples

/-- A `Connection` header that nominates a header before it. -/
def nominating : Json ℤ :=
  .arr [.obj [("X-Extra", .str "1"), ("Accept", .str "*/*")],
    .obj [("Key", .str "Connection"), ("Value", .str "close, x-extra")]]

def requestWith (header : Json ℤ) : Json ℤ :=
  .obj [("AccessPoint", .str "https://api.example/"), ("Header", header)]

def payloadWith (header : Json ℤ) : DecryptedPayload ℤ :=
  ⟨"https://api.example/", none, some header, none, none, none, none⟩

theorem parsePayload_requestWith {header : Json ℤ} (h : validateHeader (some header) = .ok ()) :
    parsePayload (JsonText.standard ℤ) (requestWith header) = .ok (payloadWith header) := by
  show (validateHeader (some header) >>= fun _ => _) = _
  rw [h]
  rfl

theorem normalizeHeaders_exact_nominating :
    ∃ payload, parsePayload (JsonText.standard ℤ) (requestWith nominating) = .ok payload ∧
      ∀ headers, normalizeHeaders payload.Header = .ok headers → ∀ name value,
        headers.get name = some value ↔ ¬ Dropped (headerPairs payload.Header) name ∧
          lastValue (headerPairs payload.Header) name = some value :=
  ⟨payloadWith nominating, rfl,
    (normalizeHeaders_exact (JsonText.standard ℤ) (requestWith nominating) _ rfl).2.2.2.1⟩

end Samples

end Headers

end EncryptionGateway.Proxy
