import EncryptionGateway.Proxy.ProxyController

/-!
# Response headers

`ProxyService.sanitizeResponseHeaders` reads the header map of an upstream
response into an object, which both response modes write as JSON. Every header
that is kept comes out under its lower-cased name, except for one named
`__proto__`.
-/

namespace EncryptionGateway.Proxy

open JavaScript Foundation Common

variable {N : Type} [JsNumber N]

/-- The text of a header value; `null` and objects have none. -/
def headerText (value : Json N) : Option HeaderText :=
  match value with
  | .arr items => some (.repeated (items.map Json.toText))
  | v => if isHeaderScalar v then some (.single v.toText) else none

/-- A header as it is kept: not one of the connection, and with a text. -/
def keptHeader (f : String × Json N) : Option (String × HeaderText) :=
  if toLowerCase f.1 ∈ ProxyService.droppedResponseHeaders then none
  else (headerText f.2).map fun text => (toLowerCase f.1, text)

/-- The last text under a name among the headers that are kept. -/
def sanitised (headers : List (String × Json N)) (name : String) : Option HeaderText :=
  (((headers.filterMap keptHeader).filter fun e => decide (e.1 = name)).getLast?).map Prod.snd

theorem keptHeader_eq_some {f : String × Json N} {e : String × HeaderText} :
    keptHeader f = some e ↔ e.1 = toLowerCase f.1 ∧
      e.1 ∉ ProxyService.droppedResponseHeaders ∧ headerText f.2 = some e.2 := by
  unfold keptHeader
  split
  · next hdropped =>
      simp only [reduceCtorEq, false_iff]
      rintro ⟨hname, hkept, -⟩
      exact hkept (hname ▸ hdropped)
  · next hkept =>
      rw [Option.map_eq_some_iff]
      constructor
      · rintro ⟨text, htext, rfl⟩
        exact ⟨rfl, hkept, htext⟩
      · rintro ⟨hname, -, htext⟩
        exact ⟨e.2, htext, Prod.ext hname.symm rfl⟩

theorem sanitised_snoc (headers : List (String × Json N)) (f : String × Json N) (name : String) :
    sanitised (headers ++ [f]) name =
      match keptHeader f with
      | some e => if e.1 = name then some e.2 else sanitised headers name
      | none => sanitised headers name := by
  cases hkept : keptHeader f with
  | none => simp [sanitised, List.filterMap_append, hkept]
  | some e =>
      by_cases hname : e.1 = name
      · simp [sanitised, List.filterMap_append, hkept, hname]
      · simp [sanitised, List.filterMap_append, hkept, hname]

/-- One header of the loop. -/
theorem sanitizeResponseHeaders_snoc (headers : List (String × Json N)) (f : String × Json N) :
    ProxyService.sanitizeResponseHeaders (headers ++ [f]) =
      match keptHeader f with
      | some e => ProxyService.assign (ProxyService.sanitizeResponseHeaders headers) e.1 e.2
      | none => ProxyService.sanitizeResponseHeaders headers := by
  have hstep : ProxyService.sanitizeResponseHeaders (headers ++ [f]) =
      if ProxyService.droppedResponseHeaders.contains (toLowerCase f.1) then
        ProxyService.sanitizeResponseHeaders headers
      else
        match f.2 with
        | .arr items => ProxyService.assign (ProxyService.sanitizeResponseHeaders headers)
            (toLowerCase f.1) (.repeated (items.map Json.toText))
        | v => if isHeaderScalar v then
            ProxyService.assign (ProxyService.sanitizeResponseHeaders headers) (toLowerCase f.1)
              (.single v.toText)
          else ProxyService.sanitizeResponseHeaders headers := by
    rw [ProxyService.sanitizeResponseHeaders, List.foldl_append]
    rfl
  rw [hstep, keptHeader]
  by_cases hdropped : toLowerCase f.1 ∈ ProxyService.droppedResponseHeaders
  · rw [if_pos (List.contains_iff_mem.mpr hdropped), if_pos hdropped]
  · rw [if_neg (mt List.contains_iff_mem.mp hdropped), if_neg hdropped]
    cases f.2 <;> simp [headerText, isHeaderScalar]

theorem get_assign (out : InsertionMap String HeaderText) (k : String) (text : HeaderText)
    (name : String) :
    (ProxyService.assign out k text).get name =
      if k = name ∧ name ≠ "__proto__" then some text else out.get name := by
  unfold ProxyService.assign
  split
  · next hproto =>
      rw [if_neg]
      rintro ⟨rfl, hname⟩
      exact hname hproto
  · next hproto =>
      by_cases hname : k = name
      · subst hname
        rw [if_pos ⟨rfl, hproto⟩, InsertionMap.get_set_self]
      · rw [if_neg (fun h => hname h.1), out.get_set_ne text (Ne.symm hname)]

/-- What the loop leaves under a name. -/
theorem get_sanitizeResponseHeaders (headers : List (String × Json N)) (name : String) :
    (ProxyService.sanitizeResponseHeaders headers).get name =
      if name = "__proto__" then none else sanitised headers name := by
  induction headers using List.reverseRecOn with
  | nil => simp [ProxyService.sanitizeResponseHeaders, sanitised]
  | append_singleton headers f ih =>
      rw [sanitizeResponseHeaders_snoc, sanitised_snoc]
      cases keptHeader f with
      | none => exact ih
      | some e =>
          simp only [get_assign, ih]
          by_cases hproto : name = "__proto__"
          · rw [if_pos hproto, if_pos hproto, if_neg (fun h => h.2 hproto)]
          · by_cases hname : e.1 = name
            · rw [if_pos ⟨hname, hproto⟩, if_neg hproto, if_pos hname]
            · rw [if_neg (fun h => hname h.1), if_neg hproto, if_neg hproto, if_neg hname]

omit [JsNumber N] in
/-- The properties of the object that is written. -/
theorem lookup_headerFields (headers : InsertionMap String HeaderText) (name : String) :
    Json.lookup (headerFields headers : List (String × Json N)) name =
      (headers.get name).map HeaderText.toJson := by
  have hnames :
      ((headers.entries.map fun e => (e.1, (e.2.toJson : Json N))).map Prod.fst).Nodup := by
    rw [List.map_map]
    exact headers.nodup
  rw [headerFields, Json.lookup_assignFields hnames, Json.lookup, InsertionMap.get,
    List.find?_map, Option.map_map, Option.map_map]
  rfl

omit [JsNumber N] in
theorem nodup_headerFields (headers : InsertionMap String HeaderText) :
    ((headerFields headers : List (String × Json N)).map Prod.fst).Nodup :=
  (Json.pairwise_assignFields _).imp Json.ne_of_listedBefore

/-- A name is missing exactly when no header under it is kept. -/
theorem sanitised_eq_none {headers : List (String × Json N)} {name : String}
    (hname : name ∉ ProxyService.droppedResponseHeaders) :
    sanitised headers name = none ↔
      ∀ f ∈ headers, toLowerCase f.1 = name → headerText f.2 = none := by
  rw [sanitised, Option.map_eq_none_iff, List.getLast?_eq_none_iff, List.filter_eq_nil_iff]
  constructor
  · intro h f hf hlower
    by_contra htext
    obtain ⟨text, htext⟩ := Option.ne_none_iff_exists'.mp htext
    have hkept : keptHeader f = some (name, text) :=
      keptHeader_eq_some.mpr ⟨hlower.symm, hname, htext⟩
    exact h (name, text) (List.mem_filterMap.mpr ⟨f, hf, hkept⟩) (decide_eq_true rfl)
  · intro h e he heq
    obtain ⟨f, hf, hkept⟩ := List.mem_filterMap.mp he
    obtain ⟨hlower, -, htext⟩ := keptHeader_eq_some.mp hkept
    have hsame : e.1 = name := of_decide_eq_true heq
    rw [h f hf (hlower.symm.trans hsame)] at htext
    cases htext

end EncryptionGateway.Proxy
