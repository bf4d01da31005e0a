import EncryptionGateway.JavaScript.JsonPrinter

/-!
# JavaScript values and their JSON

A value that is written with `JSON.stringify` and read back with `JSON.parse`
comes back unchanged, except that an infinite number comes back as `null`. An
object built by assigning its properties one after the other is such a value.
-/

namespace EncryptionGateway.JavaScript

namespace Json

variable {N : Type} [JsNumber N]

mutual

/-- What `JSON.stringify` makes of a value: an infinite number is written as
`null`. -/
def serialised : Json N → Json N
  | num n => if (JsNumber.finiteValue n).isSome then num n else null
  | arr items => arr (serialisedItems items)
  | obj fields => obj (serialisedFields fields)
  | null => null
  | bool b => bool b
  | str s => str s

def serialisedItems : List (Json N) → List (Json N)
  | [] => []
  | v :: rest => serialised v :: serialisedItems rest

def serialisedFields : List (String × Json N) → List (String × Json N)
  | [] => []
  | (k, v) :: rest => (k, serialised v) :: serialisedFields rest

end

/-- The tree is a JavaScript value: every object in it lists distinct
properties in property order. -/
def IsValue (v : Json N) : Prop := v.serialised.WellFormed

/-- The properties of an object literal that `JSON.stringify` writes, `none`
being `undefined`. -/
def definedFields (fields : List (String × Option (Json N))) : List (String × Json N) :=
  fields.filterMap fun f => f.2.map fun v => (f.1, v)

theorem serialisedItems_eq_map (items : List (Json N)) :
    serialisedItems items = items.map serialised := by
  induction items with
  | nil => rfl
  | cons v rest ih => rw [serialisedItems, ih, List.map_cons]

theorem serialisedFields_eq_map (fields : List (String × Json N)) :
    serialisedFields fields = fields.map fun f => (f.1, serialised f.2) := by
  induction fields with
  | nil => rfl
  | cons f rest ih => rw [serialisedFields, ih, List.map_cons]

theorem itemsWellFormed_iff {items : List (Json N)} :
    ItemsWellFormed items ↔ ∀ v ∈ items, v.WellFormed := by
  induction items with
  | nil => simp [ItemsWellFormed]
  | cons v rest ih => rw [ItemsWellFormed, ih, List.forall_mem_cons]

theorem fieldsWellFormed_iff {fields : List (String × Json N)} :
    FieldsWellFormed fields ↔ ∀ f ∈ fields, f.2.WellFormed := by
  induction fields with
  | nil => simp [FieldsWellFormed]
  | cons f rest ih => rw [FieldsWellFormed, ih, List.forall_mem_cons]

theorem isValue_arr {items : List (Json N)} : (arr items).IsValue ↔ ∀ v ∈ items, v.IsValue := by
  rw [IsValue, serialised, WellFormed, itemsWellFormed_iff, serialisedItems_eq_map,
    List.forall_mem_map]
  rfl

theorem isValue_obj {fields : List (String × Json N)} :
    (obj fields).IsValue ↔ (fields.map Prod.fst).Pairwise (fun a b => listedBefore a b = true) ∧
      ∀ f ∈ fields, f.2.IsValue := by
  have hnames : ((serialisedFields fields).map Prod.fst) = fields.map Prod.fst := by
    rw [serialisedFields_eq_map, List.map_map]
    rfl
  rw [IsValue, serialised, WellFormed, hnames, fieldsWellFormed_iff, serialisedFields_eq_map,
    List.forall_mem_map]
  rfl

theorem isValue_str (s : String) : (str s : Json N).IsValue := trivial

theorem isValue_num (n : N) : (num n).IsValue := by
  unfold IsValue serialised
  split
  · next h => exact h
  · trivial

/-- The properties of the value that is written. -/
theorem lookup_serialisedFields (fields : List (String × Json N)) (k : String) :
    lookup (serialisedFields fields) k = (lookup fields k).map serialised := by
  induction fields with
  | nil => rfl
  | cons f rest ih =>
      by_cases hk : f.1 = k
      · simp [serialisedFields, lookup, hk]
      · simpa [serialisedFields, lookup, hk] using ih

theorem get_serialised (v : Json N) (k : String) :
    v.serialised.get k = (v.get k).map serialised := by
  cases v with
  | obj fields => exact lookup_serialisedFields fields k
  | num n =>
      rw [serialised]
      split <;> rfl
  | _ => rfl

mutual

/-- A value without infinite numbers is written as it is. -/
theorem serialised_of_wellFormed : ∀ v : Json N, v.WellFormed → v.serialised = v
  | null, _ => rfl
  | bool _, _ => rfl
  | str _, _ => rfl
  | num n, h => by
      have hfinite : (JsNumber.finiteValue n).isSome = true := h
      rw [serialised, if_pos hfinite]
  | arr items, h => by rw [serialised, serialisedItems_of_wellFormed items h]
  | obj fields, h => by rw [serialised, serialisedFields_of_wellFormed fields h.2]

theorem serialisedItems_of_wellFormed : ∀ items : List (Json N), ItemsWellFormed items →
    serialisedItems items = items
  | [], _ => rfl
  | v :: rest, h => by
      rw [serialisedItems, serialised_of_wellFormed v h.1, serialisedItems_of_wellFormed rest h.2]

theorem serialisedFields_of_wellFormed : ∀ fields : List (String × Json N),
    FieldsWellFormed fields → serialisedFields fields = fields
  | [], _ => rfl
  | (k, v) :: rest, h => by
      rw [serialisedFields, serialised_of_wellFormed v h.1, serialisedFields_of_wellFormed rest h.2]

end

theorem WellFormed.isValue {v : Json N} (h : v.WellFormed) : v.IsValue := by
  rw [IsValue, serialised_of_wellFormed v h]
  exact h

/-! ## Object literals -/

omit [JsNumber N] in
theorem mem_definedFields {fields : List (String × Option (Json N))} {f : String × Json N} :
    f ∈ definedFields fields ↔ (f.1, some f.2) ∈ fields := by
  simp only [definedFields, List.mem_filterMap, Option.map_eq_some_iff]
  constructor
  · rintro ⟨⟨k, o⟩, hmem, v, rfl, rfl⟩
    exact hmem
  · exact fun hmem => ⟨(f.1, some f.2), hmem, f.2, rfl, rfl⟩

omit [JsNumber N] in
theorem names_definedFields (fields : List (String × Option (Json N))) :
    ((definedFields fields).map Prod.fst).Sublist (fields.map Prod.fst) := by
  induction fields with
  | nil => exact List.Sublist.refl []
  | cons f rest ih =>
      cases hf : f.2 with
      | none => simpa [definedFields, hf] using ih.cons f.1
      | some v => simpa [definedFields, hf] using ih

omit [JsNumber N] in
/-- A property the literal does not list is missing. -/
theorem get_definedFields_eq_none {fields : List (String × Option (Json N))} {k : String}
    (h : k ∉ fields.map Prod.fst) : (obj (definedFields fields)).get k = none := by
  rw [get, lookup_eq_none, ← Bool.not_eq_true, hasKey_iff]
  rintro ⟨v, hv⟩
  exact h ((names_definedFields fields).subset (List.mem_map_of_mem hv))

theorem isValue_definedFields {fields : List (String × Option (Json N))}
    (hnames : (fields.map Prod.fst).Pairwise fun a b => listedBefore a b = true)
    (h : ∀ f ∈ fields, ∀ v ∈ f.2, v.IsValue) : (obj (definedFields fields)).IsValue := by
  refine isValue_obj.mpr ⟨hnames.sublist (names_definedFields fields), fun f hf => ?_⟩
  exact h _ (mem_definedFields.mp hf) f.2 rfl

/-! ## Objects built by assignment -/

private theorem toDigits_digit {c : Char} (h : c.isDigit = true) :
    c.toNat - 48 < 10 ∧ Nat.toDigits 10 (c.toNat - 48) = [c] := by
  have hc : 48 ≤ c.toNat ∧ c.toNat ≤ 57 := by
    simpa [Char.isDigit, UInt32.le_iff_toNat_le] using h
  have hspell : ∀ d : Fin 10, Nat.digitChar d.1 = Char.ofNat (48 + d.1) := by decide
  have hd : c.toNat - 48 < 10 := by omega
  refine ⟨hd, ?_⟩
  rw [Nat.toDigits_of_lt_base hd, hspell ⟨c.toNat - 48, hd⟩]
  show [Char.ofNat (48 + (c.toNat - 48))] = [c]
  rw [Nat.add_sub_cancel' hc.1, Char.ofNat_toNat]

/-- Reading further digits appends them to the digits read before. -/
private theorem toDigits_foldl {l : List Char} (hdigit : ∀ c ∈ l, c.isDigit = true) {acc : ℕ}
    (hpos : 0 < acc) :
    Nat.toDigits 10 (l.foldl (fun acc c => acc * 10 + (c.toNat - 48)) acc) =
      Nat.toDigits 10 acc ++ l := by
  induction l generalizing acc with
  | nil => simp
  | cons c rest ih =>
      obtain ⟨hlt, hc⟩ := toDigits_digit (hdigit c List.mem_cons_self)
      rw [List.foldl_cons, ih (fun d hd => hdigit d (List.mem_cons_of_mem c hd)) (by omega),
        Nat.mul_comm acc 10, ← Nat.toDigits_append_toDigits (by decide) hpos hlt, hc,
        List.append_assoc, List.singleton_append]

/-- An index is the decimal numeral of its value. -/
theorem toList_of_indexValue {k : String} {n : ℕ} (h : indexValue k = some n) :
    k.toList = Nat.toDigits 10 n := by
  unfold indexValue at h
  simp only [Option.ite_none_right_eq_some, Option.some.injEq] at h
  obtain ⟨⟨hne, hall, hzero, -⟩, rfl⟩ := h
  rw [List.all_eq_true] at hall
  generalize k.toList = l at hne hall hzero
  cases l with
  | nil => exact absurd rfl hne
  | cons c rest =>
      obtain ⟨-, hc⟩ := toDigits_digit (hall c List.mem_cons_self)
      rw [List.foldl_cons, Nat.zero_mul, Nat.zero_add]
      by_cases hpos : 0 < c.toNat - 48
      · rw [toDigits_foldl (fun d hd => hall d (List.mem_cons_of_mem c hd)) hpos, hc,
          List.singleton_append]
      · -- the numeral of zero has no second digit
        have hval : c.toNat - 48 = 0 := by omega
        rw [hval, Nat.toDigits_zero] at hc
        obtain rfl : '0' = c := by simpa using hc
        have hrest : rest = [] := by simpa using hzero rfl
        rw [hrest]
        rfl

theorem indexValue_inj {a b : String} {n : ℕ} (ha : indexValue a = some n)
    (hb : indexValue b = some n) : a = b :=
  String.toList_inj.mp ((toList_of_indexValue ha).trans (toList_of_indexValue hb).symm)

/-- Of two names one may be listed first; `comesBefore` says which one must. -/
theorem listedBefore_of_comesBefore {a b : String} (h : comesBefore a b = true) :
    listedBefore a b = true := by
  unfold comesBefore at h
  unfold listedBefore
  cases ha : indexValue a with
  | none => simp [ha] at h
  | some m =>
      cases hb : indexValue b with
      | none =>
          have hne : a ≠ b := by
            rintro rfl
            rw [ha] at hb
            cases hb
          simpa using hne
      | some n => simpa [ha, hb] using h

theorem listedBefore_of_not_comesBefore {a b : String} (hne : b ≠ a)
    (h : comesBefore a b = false) : listedBefore b a = true := by
  unfold comesBefore at h
  unfold listedBefore
  cases ha : indexValue a with
  | none =>
      cases hb : indexValue b with
      | none => simpa using hne
      | some n => simpa using hne
  | some m =>
      cases hb : indexValue b with
      | none => simp [ha, hb] at h
      | some n =>
          have hdiff : m ≠ n := by
            rintro rfl
            exact hne (indexValue_inj hb ha)
          simp only [ha, hb, decide_eq_false_iff_not] at h
          simp only [decide_eq_true_eq]
          omega

theorem listedBefore_trans {a b c : String} (hab : comesBefore a b = true)
    (hbc : listedBefore b c = true) : listedBefore a c = true := by
  unfold comesBefore at hab
  unfold listedBefore at hbc ⊢
  cases ha : indexValue a with
  | none => simp [ha] at hab
  | some m =>
      cases hc : indexValue c with
      | none =>
          have hne : a ≠ c := by
            rintro rfl
            rw [ha] at hc
            cases hc
          simpa using hne
      | some o =>
          cases hb : indexValue b with
          | none => simp [hb, hc] at hbc
          | some n =>
              simp only [ha, hb, hc, decide_eq_true_eq] at hab hbc ⊢
              omega

omit [JsNumber N] in
/-- The names after an assignment. -/
theorem mem_insertField {k : String} {v : Json N} {fields : List (String × Json N)}
    {f : String × Json N} (h : f ∈ insertField k v fields) : f = (k, v) ∨ f ∈ fields := by
  induction fields with
  | nil => simpa [insertField] using h
  | cons g rest ih =>
      rw [insertField] at h
      split at h
      · exact (List.mem_cons.mp h).imp_right (List.mem_cons_of_mem g)
      · split at h
        · exact List.mem_cons.mp h
        · rcases List.mem_cons.mp h with rfl | h
          · exact Or.inr List.mem_cons_self
          · exact (ih h).imp_right (List.mem_cons_of_mem g)

omit [JsNumber N] in
/-- Assigning a property keeps property order. -/
theorem pairwise_insertField {k : String} {v : Json N} {fields : List (String × Json N)}
    (h : (fields.map Prod.fst).Pairwise fun a b => listedBefore a b = true) :
    ((insertField k v fields).map Prod.fst).Pairwise fun a b => listedBefore a b = true := by
  induction fields with
  | nil => simp [insertField]
  | cons f rest ih =>
      rw [List.map_cons, List.pairwise_cons] at h
      rw [insertField]
      split
      · next heq => simpa [← heq] using h
      · next hne =>
          split
          · next hfirst =>
              rw [List.map_cons, List.map_cons, List.pairwise_cons, List.forall_mem_cons]
              refine ⟨⟨listedBefore_of_comesBefore hfirst, ?_⟩, List.pairwise_cons.mpr h⟩
              intro b hb
              exact listedBefore_trans hfirst (h.1 b hb)
          · next hfirst =>
              rw [Bool.not_eq_true] at hfirst
              rw [List.map_cons, List.pairwise_cons]
              refine ⟨?_, ih h.2⟩
              intro b hb
              obtain ⟨g, hg, rfl⟩ := List.mem_map.mp hb
              rcases mem_insertField hg with rfl | hg
              · exact listedBefore_of_not_comesBefore hne hfirst
              · exact h.1 g.1 (List.mem_map_of_mem hg)

/-- The properties of an object to which they are assigned one after the other. -/
def assignFields (entries : List (String × Json N)) : List (String × Json N) :=
  entries.foldl (fun fields f => insertField f.1 f.2 fields) []

omit [JsNumber N] in
theorem assignFields_snoc (entries : List (String × Json N)) (f : String × Json N) :
    assignFields (entries ++ [f]) = insertField f.1 f.2 (assignFields entries) := by
  rw [assignFields, List.foldl_append]
  rfl

omit [JsNumber N] in
theorem mem_of_mem_assignFields {entries : List (String × Json N)} {f : String × Json N}
    (h : f ∈ assignFields entries) : f ∈ entries := by
  induction entries using List.reverseRecOn with
  | nil => exact h
  | append_singleton entries g ih =>
      rw [assignFields_snoc] at h
      rw [List.mem_append, List.mem_singleton]
      exact (mem_insertField h).symm.imp_left ih

omit [JsNumber N] in
theorem pairwise_assignFields (entries : List (String × Json N)) :
    ((assignFields entries).map Prod.fst).Pairwise fun a b => listedBefore a b = true := by
  induction entries using List.reverseRecOn with
  | nil => exact List.Pairwise.nil
  | append_singleton entries g ih =>
      rw [assignFields_snoc]
      exact pairwise_insertField ih

theorem isValue_assignFields {entries : List (String × Json N)} (h : ∀ f ∈ entries, f.2.IsValue) :
    (obj (assignFields entries)).IsValue :=
  isValue_obj.mpr ⟨pairwise_assignFields entries, fun f hf => h f (mem_of_mem_assignFields hf)⟩

omit [JsNumber N] in
/-- A defined property is read back, the others are as they were. -/
theorem lookup_insertField (k : String) (v : Json N) (fields : List (String × Json N))
    (name : String) :
    lookup (insertField k v fields) name = if k = name then some v else lookup fields name := by
  induction fields with
  | nil => exact lookup_cons (k, v) [] name
  | cons f rest ih =>
      rw [insertField]
      split
      · next hsame =>
          rw [lookup_cons, lookup_cons, hsame]
          split <;> rfl
      · next hother =>
          split
          · exact lookup_cons (k, v) (f :: rest) name
          · rw [lookup_cons, lookup_cons, ih]
            by_cases hname : k = name
            · rw [if_pos hname, if_pos hname, if_neg (fun h => hother (h.trans hname.symm))]
            · rw [if_neg hname, if_neg hname]

omit [JsNumber N] in
/-- Assigning properties of different names keeps each of them. -/
theorem lookup_assignFields {entries : List (String × Json N)}
    (hnames : (entries.map Prod.fst).Nodup) (name : String) :
    lookup (assignFields entries) name = lookup entries name := by
  have happend : ∀ (entries : List (String × Json N)) (f : String × Json N),
      lookup (entries ++ [f]) name =
        (lookup entries name).or (if f.1 = name then some f.2 else none) := by
    intro entries f
    induction entries with
    | nil => exact lookup_cons f [] name
    | cons g rest ih =>
        rw [List.cons_append, lookup_cons, lookup_cons, ih]
        split <;> rfl
  induction entries using List.reverseRecOn with
  | nil => rfl
  | append_singleton entries f ih =>
      rw [List.map_append, List.nodup_append] at hnames
      obtain ⟨hentries, -, hnew⟩ := hnames
      rw [assignFields_snoc, lookup_insertField, happend, ih hentries]
      by_cases hname : f.1 = name
      · have hnone : lookup entries name = none := by
          rw [lookup_eq_none, ← Bool.not_eq_true, hasKey_iff]
          rintro ⟨v, hv⟩
          exact hnew name (List.mem_map_of_mem hv) f.1 (by simp) hname.symm
        rw [if_pos hname, if_pos hname, hnone, Option.none_or]
      · rw [if_neg hname, if_neg hname, Option.or_none]

omit [JsNumber N] in
theorem ne_of_listedBefore {a b : String} (h : listedBefore a b = true) : a ≠ b := by
  rintro rfl
  unfold listedBefore at h
  split at h <;> simp_all

/-- Properties that are written as they are. -/
theorem serialisedFields_eq_self {fields : List (String × Json N)}
    (h : ∀ f ∈ fields, f.2.serialised = f.2) : serialisedFields fields = fields := by
  rw [serialisedFields_eq_map]
  calc
    fields.map (fun f => (f.1, serialised f.2)) = fields.map id :=
      List.map_congr_left fun f hf => by rw [h f hf]; rfl
    _ = fields := List.map_id fields

end Json

/-- A JavaScript value. -/
abbrev JsValue (N : Type) [JsNumber N] := { v : Json N // v.IsValue }

/-- `JSON.stringify(v)`. -/
def JsonText.write {N : Type} [JsNumber N] (text : JsonText N) (v : Json N) : String :=
  text.stringify v.serialised

theorem JsonText.parse_write {N : Type} [JsNumber N] (text : JsonText N) {v : Json N}
    (h : v.IsValue) : text.parse (text.write v) = some v.serialised :=
  text.parse_stringify v.serialised h

end EncryptionGateway.JavaScript
