import EncryptionGateway.Proxy.HeaderFiltering

/-!
# Header limits

`parsePayload` checks the length of every header it reads in the `Header`
field. `normalizeHeaders` reads the field again. The two readings differ on one
shape: an object that is itself a `Key`/`Value` pair, which the validator takes
for a map with two entries.
-/

namespace EncryptionGateway.Proxy

open JavaScript Foundation Common

variable {N : Type} [JsNumber N]

/-- The pairs of one array element that are checked. -/
def validatedItemPairs (entry : Json N) : List (String × String) :=
  match entry with
  | .obj fields =>
      if Json.hasKey fields "Key" || Json.hasKey fields "Value" then
        match Json.lookup fields "Key", Json.lookup fields "Value" with
        | some (.str key), some value => [(key, value.toText)]
        | _, _ => []
      else fields.map fun f => (f.1, f.2.toText)
  | _ => []

/-- The pairs on which the validator calls `validateHeaderEntry`. -/
def validatedPairs (header : Option (Json N)) : List (String × String) :=
  match header with
  | some (.arr items) => items.flatMap validatedItemPairs
  | some (.obj fields) => fields.map fun f => (f.1, f.2.toText)
  | _ => []

def WithinLimits (p : String × String) : Prop := length p.1 ≤ 256 ∧ length p.2 ≤ 8192

/-- Every header that is sent is within the limits. -/
def LimitsHold (header : Option (Json N)) : Prop :=
  ∀ headers, normalizeHeaders header = .ok headers → ∀ name value,
    headers.get name = some value → WithinLimits (name, value)

/-- The field is itself a `Key`/`Value` pair. -/
def IsPair (header : Option (Json N)) (key value : Json N) : Prop :=
  ∃ fields, header = some (.obj fields) ∧ Json.lookup fields "Key" = some key ∧
    Json.lookup fields "Value" = some value

/-- A pair that is sent with a name the validator never saw. -/
def Oversized (key value : Json N) : Prop :=
  256 < length key.toText ∧ WellFormedHeader (key.toText, value.toText) ∧
    ¬ "x-forwarded-".toList <+: (toLowerCase key.toText).toList

theorem withinLimits_of_mapFits {fields : List (String × Json N)} (h : MapFits fields)
    {p : String × String} (hp : p ∈ fields.map fun f => (f.1, f.2.toText)) : WithinLimits p := by
  obtain ⟨f, hf, rfl⟩ := List.mem_map.mp hp
  exact ⟨(h.2 f hf).1, (h.2 f hf).2.2⟩

/-- Every pair the validator reads is within the limits. -/
theorem validatedPairs_within {header : Option (Json N)} {u : Unit}
    (h : validateHeader header = .ok u) {p : String × String} (hp : p ∈ validatedPairs header) :
    WithinLimits p := by
  unfold validatedPairs at hp
  split at hp
  · next items =>
      rw [validateHeader_arr_eq_ok] at h
      obtain ⟨entry, hentry, hp⟩ := List.mem_flatMap.mp hp
      obtain ⟨fields, rfl, hfits⟩ := h.2 entry hentry
      unfold validatedItemPairs at hp
      simp only at hp
      split at hp
      · next hkeys =>
          rw [if_pos hkeys] at hfits
          obtain ⟨key, value, hkey, hvalue, hfits⟩ := hfits
          rw [hkey, hvalue] at hp
          obtain rfl := List.mem_singleton.mp hp
          exact ⟨hfits.1, hfits.2.2⟩
      · next hkeys =>
          rw [if_neg hkeys] at hfits
          exact withinLimits_of_mapFits hfits hp
  · next fields =>
      rw [validateHeader_obj_eq_ok] at h
      exact withinLimits_of_mapFits h hp
  · cases hp

/-- An object that is no `Key`/`Value` pair contributes its properties. -/
theorem entryPairs_of_map {fields : List (String × Json N)}
    (h : Json.lookup fields "Key" = none ∨ Json.lookup fields "Value" = none) :
    entryPairs (.obj fields) = fields.map fun f => (f.1, f.2.toText) := by
  rcases h with h | h
  · simp only [entryPairs, h]
  · cases hkey : Json.lookup fields "Key" <;> simp only [entryPairs, hkey, h]

theorem validatedItemPairs_eq {entry : Json N} (h : ItemFits entry) :
    validatedItemPairs entry = entryPairs entry := by
  obtain ⟨fields, rfl, hfits⟩ := h
  unfold validatedItemPairs
  simp only
  split
  · next hkeys =>
      rw [if_pos hkeys] at hfits
      obtain ⟨key, value, hkey, hvalue, -⟩ := hfits
      simp only [entryPairs, hkey, hvalue, Json.toText]
  · next hkeys =>
      rw [Bool.not_eq_true, Bool.or_eq_false_iff, ← Json.lookup_eq_none] at hkeys
      exact (entryPairs_of_map (Or.inl hkeys.1)).symm

/-- On every other shape both readings are the same. -/
theorem validatedPairs_eq {header : Option (Json N)} {u : Unit} (h : validateHeader header = .ok u)
    (hpair : ¬ ∃ key value, IsPair header key value) :
    validatedPairs header = headerPairs header := by
  match header with
  | none => rfl
  | some (.arr items) =>
      rw [validateHeader_arr_eq_ok] at h
      exact List.flatMap_congr fun entry hentry => validatedItemPairs_eq (h.2 entry hentry)
  | some (.obj fields) =>
      have hmap : Json.lookup fields "Key" = none ∨ Json.lookup fields "Value" = none := by
        by_contra hboth
        rw [not_or, ← Ne, ← Ne, Option.ne_none_iff_exists', Option.ne_none_iff_exists'] at hboth
        obtain ⟨⟨key, hkey⟩, value, hvalue⟩ := hboth
        exact hpair ⟨key, value, fields, rfl, hkey, hvalue⟩
      show fields.map _ = [Json.obj fields].flatMap entryPairs
      rw [List.flatMap_singleton, entryPairs_of_map hmap]
  | some .null => rfl
  | some (.bool _) => cases h
  | some (.num _) => cases h
  | some (.str _) => cases h

theorem headerPairs_of_isPair {header : Option (Json N)} {key value : Json N}
    (h : IsPair header key value) : headerPairs header = [(key.toText, value.toText)] := by
  obtain ⟨fields, rfl, hkey, hvalue⟩ := h
  show [Json.obj fields].flatMap entryPairs = _
  simp only [List.flatMap_singleton, entryPairs, hkey, hvalue]

/-- The validator sees at least two pairs where the other reading sees one. -/
theorem validatedPairs_ne {header : Option (Json N)} {key value : Json N}
    (h : IsPair header key value) : validatedPairs header ≠ headerPairs header := by
  intro heq
  rw [headerPairs_of_isPair h] at heq
  obtain ⟨fields, rfl, hkey, hvalue⟩ := h
  have hmem : ∀ {name v}, Json.lookup fields name = some v → name = key.toText := by
    intro name v hv
    have hin : (name, v.toText) ∈ validatedPairs (some (.obj fields)) :=
      List.mem_map.mpr ⟨_, Json.mem_of_lookup hv, rfl⟩
    rw [heq, List.mem_singleton] at hin
    exact congrArg Prod.fst hin
  exact absurd ((hmem hkey).trans (hmem hvalue).symm) (by decide)

/-- A token has one code unit for each character, in any case. -/
theorem length_of_isToken {name : String} (h : IsToken name) :
    length name = (toLowerCase name).toList.length := by
  rw [toList_toLowerCase, List.length_map, length]
  have hone : ∀ c ∈ name.toList, (if c.toNat < 0x10000 then 1 else 2) = 1 := by
    intro c hc
    have := (h.2 c hc).2.1
    exact if_pos (by omega)
  rw [List.map_congr_left hone]
  simp

theorem not_dropped_of_long {key value : String} (htoken : IsToken key) (hlong : 256 < length key)
    (hforwarded : ¬ "x-forwarded-".toList <+: (toLowerCase key).toList) :
    ¬ Dropped [(key, value)] key := by
  rw [length_of_isToken htoken] at hlong
  rintro (hblocked | hstart | ⟨p, hp, hconnection, -⟩)
  · have hshort : ∀ name ∈ BLOCKED_HEADERS, name.toList.length ≤ 256 := by decide +kernel
    exact absurd (hshort _ hblocked) (Nat.not_le.mpr hlong)
  · exact hforwarded hstart
  · obtain rfl := List.mem_singleton.mp hp
    rw [show toLowerCase key = "connection" from hconnection] at hlong
    exact absurd hlong (by decide)

/-- The limits fail for a pair exactly when its name is oversized. -/
theorem limitsHold_of_isPair {header : Option (Json N)} {key value : Json N} {u : Unit}
    (h : validateHeader header = .ok u) (hpair : IsPair header key value) :
    LimitsHold header ↔ ¬ Oversized key value := by
  have hpairs := headerPairs_of_isPair hpair
  have hvalue : length value.toText ≤ 8192 := by
    obtain ⟨fields, rfl, -, hvalue⟩ := hpair
    have hin : ("Value", value.toText) ∈ validatedPairs (some (.obj fields)) :=
      List.mem_map.mpr ⟨_, Json.mem_of_lookup hvalue, rfl⟩
    exact (validatedPairs_within h hin).2
  constructor
  · rintro hlimits ⟨hlong, hwell, hforwarded⟩
    have hok := addAll_eq_ok.mpr
      ⟨fun p hp => (List.mem_singleton.mp hp) ▸ hwell, rfl⟩
    have hlast : lastValue [(key.toText, value.toText)] key.toText = some value.toText := by
      simp [lastValue]
    have hget := (get_of_addAll hok).mpr
      ⟨not_dropped_of_long hwell.1 hlong hforwarded, hlast⟩
    have hwithin := hlimits _ (by rw [normalizeHeaders, hpairs, hok]) _ _ hget
    exact absurd hwithin.1 (Nat.not_le.mpr hlong)
  · intro hsized headers hok name text hget
    rw [normalizeHeaders, hpairs] at hok
    obtain ⟨hnot, hlast⟩ := (get_of_addAll hok).mp hget
    have hwell := (addAll_eq_ok.mp hok).1 _ (List.mem_singleton_self _)
    have heq : key.toText = name ∧ value.toText = text := by
      by_cases hname : key.toText = name
      · simpa [lastValue, hname] using hlast
      · simp [lastValue, hname] at hlast
    obtain ⟨rfl, rfl⟩ := heq
    refine ⟨?_, hvalue⟩
    by_contra hlong
    exact hsized ⟨Nat.lt_of_not_le hlong, hwell, fun hp => hnot (Or.inr (Or.inl hp))⟩

theorem limitsHold_of_not_isPair {header : Option (Json N)} {u : Unit}
    (h : validateHeader header = .ok u) (hpair : ¬ ∃ key value, IsPair header key value) :
    LimitsHold header := by
  intro headers hok name value hget
  obtain ⟨-, hlast⟩ := (get_of_addAll hok).mp hget
  obtain ⟨p, hp, rfl⟩ := Option.map_eq_some_iff.mp hlast
  obtain ⟨hmem, hname⟩ := List.mem_filter.mp (List.mem_of_getLast? hp)
  obtain rfl : p.1 = name := by simpa using hname
  rw [← validatedPairs_eq h hpair] at hmem
  exact validatedPairs_within h hmem

/-- Both readings agree, and the limits hold, unless the field is itself a pair;
the limits fail exactly when such a pair is sent with an oversized name. -/
theorem header_limits_iff (text : JsonText N) (value : Json N) (payload : DecryptedPayload N)
    (h : parsePayload text value = .ok payload) :
    (LimitsHold payload.Header ∧ validatedPairs payload.Header = headerPairs payload.Header ↔
      ¬ ∃ key value, IsPair payload.Header key value) ∧
    (LimitsHold payload.Header ↔
      ¬ ∃ key value, IsPair payload.Header key value ∧ Oversized key value) := by
  obtain ⟨-, -, -, -, -, -, hheader, -⟩ := parsePayload_eq_ok h
  by_cases hpair : ∃ key value, IsPair payload.Header key value
  · obtain ⟨key, value, hpair⟩ := hpair
    constructor
    · exact iff_of_false (fun hboth => validatedPairs_ne hpair hboth.2)
        (not_not.mpr ⟨key, value, hpair⟩)
    · rw [limitsHold_of_isPair hheader hpair, not_iff_not]
      constructor
      · exact fun hsized => ⟨key, value, hpair, hsized⟩
      · rintro ⟨key', value', hpair', hsized⟩
        obtain ⟨fields, heq, hkey, hvalue⟩ := hpair
        obtain ⟨fields', heq', hkey', hvalue'⟩ := hpair'
        obtain rfl : fields = fields' := by
          rw [heq] at heq'
          exact Json.obj.inj (Option.some.inj heq')
        obtain rfl := Option.some.inj (hkey.symm.trans hkey')
        obtain rfl := Option.some.inj (hvalue.symm.trans hvalue')
        exact hsized
  · have hlimits := limitsHold_of_not_isPair hheader hpair
    exact ⟨iff_of_true ⟨hlimits, validatedPairs_eq hheader hpair⟩ hpair,
      iff_of_true hlimits fun ⟨key, value, hp, _⟩ => hpair ⟨key, value, hp⟩⟩

section Samples

def letters (n : ℕ) : String := String.ofList (List.replicate n 'a')

theorem length_letters (n : ℕ) : length (letters n) = n := by
  simp [length, letters]

theorem mem_letters {n : ℕ} {c : Char} (h : c ∈ (letters n).toList) : c = 'a' := by
  rw [letters, String.toList_ofList] at h
  exact List.eq_of_mem_replicate h

theorem wellFormedHeader_letters {n : ℕ} (hn : n ≠ 0) : WellFormedHeader (letters n, "1") := by
  refine ⟨⟨?_, ?_⟩, isHeaderValue_iff.mp (show isHeaderValue "1" = true by decide)⟩
  · simp [letters, hn]
  · intro c hc
    rw [mem_letters hc]
    decide

theorem letters_not_forwarded (n : ℕ) :
    ¬ "x-forwarded-".toList <+: (toLowerCase (letters n)).toList := by
  intro hstart
  have hx : 'x' ∈ (toLowerCase (letters n)).toList := hstart.subset (by decide)
  rw [toList_toLowerCase, List.mem_map] at hx
  obtain ⟨c, hc, hlower⟩ := hx
  rw [mem_letters hc] at hlower
  exact absurd hlower (by decide)

def pairRequest (name : String) : Json ℤ := .obj [("Key", .str name), ("Value", .str "1")]

theorem sent_of_oversized {name : String} (hlong : 256 < length name) (hmax : length name ≤ 8192)
    (hwell : WellFormedHeader (name, "1"))
    (hforwarded : ¬ "x-forwarded-".toList <+: (toLowerCase name).toList) :
    ∃ payload headers,
      parsePayload (JsonText.standard ℤ) (requestWith (pairRequest name)) = .ok payload ∧
      normalizeHeaders payload.Header = .ok headers ∧ headers.get name = some "1" ∧
      validatedPairs payload.Header ≠ headerPairs payload.Header := by
  have hpair : IsPair (payloadWith (pairRequest name)).Header (.str name) (.str "1") :=
    ⟨_, rfl, rfl, rfl⟩
  have hok := addAll_eq_ok.mpr ⟨fun p hp => (List.mem_singleton.mp hp) ▸ hwell, rfl⟩
  refine ⟨payloadWith (pairRequest name), _, ?_, hok, ?_, validatedPairs_ne hpair⟩
  · refine parsePayload_requestWith (validateHeader_obj_eq_ok.mpr ⟨by simp, ?_⟩)
    have hkey : HeaderFits "Key" (Json.str (N := ℤ) name) := ⟨by decide, rfl, hmax⟩
    have hvalue : HeaderFits "Value" (Json.str (N := ℤ) "1") := ⟨by decide, rfl, by decide⟩
    simpa using ⟨hkey, hvalue⟩
  · exact (get_of_addAll hok).mpr
      ⟨not_dropped_of_long hwell.1 hlong hforwarded, by simp [lastValue]⟩

/-- A pair in the place of the whole field passes the validator as a map, and its
name is sent although it is longer than a name may be. -/
theorem long_name_sent : ∃ payload headers,
    parsePayload (JsonText.standard ℤ) (requestWith (pairRequest (letters 257))) = .ok payload ∧
    normalizeHeaders payload.Header = .ok headers ∧ headers.get (letters 257) = some "1" ∧
    length (letters 257) = 257 ∧ validatedPairs payload.Header ≠ headerPairs payload.Header := by
  have hlength := length_letters 257
  obtain ⟨payload, headers, hparse, hok, hget, hne⟩ :=
    sent_of_oversized (show 256 < length (letters 257) by omega) (by omega)
      (wellFormedHeader_letters (by decide)) (letters_not_forwarded 257)
  exact ⟨payload, headers, hparse, hok, hget, hlength, hne⟩

theorem header_limits_iff_nominating : LimitsHold (payloadWith nominating).Header := by
  refine ((header_limits_iff (JsonText.standard ℤ) (requestWith nominating) _ rfl).1.mpr ?_).1
  rintro ⟨key, value, fields, heq, -⟩
  cases heq

end Samples

end EncryptionGateway.Proxy
