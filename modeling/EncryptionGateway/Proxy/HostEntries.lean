import EncryptionGateway.Proxy.TargetPolicy

/-!
# Host entries

What a host in an allow-list opens. The entry is canonical for no scheme in
particular: a port is dropped from it whenever it is the default of one of the
two schemes, while a URL drops only the default port of its own.
-/

namespace EncryptionGateway.Proxy.TargetPolicy

open JavaScript Foundation

/-- Letters, digits, dots and hyphens. -/
def IsDnsName (name : String) : Prop := name ≠ "" ∧ ∀ c ∈ name.toList, isHostChar c = true

/-- The rule comes from an entry whose host part is this text. -/
def HostPart (parseUrl : UrlParser) (rule : Rule) (text : String) : Prop :=
  parseHostEntry text = .ok rule ∨ ∃ entry method target,
    parseRouteEntry parseUrl entry = .ok rule ∧ readRoute entry = some (method, target) ∧
      text = String.ofList (routeHost target)

/-- The host test of a rule. -/
def Opens (rule : Rule) (u : Url) : Prop := rule.host = toLowerCase u.host

/-- The host and port an entry names: its own port, else the default of the
scheme of the URL. -/
def Names (name : String) (port : Option ℕ) (u : Url) : Prop :=
  toLowerCase name = u.hostname ∧ u.effectivePort = port.or (Url.defaultPort u.protocol)

/-- The entry spells the default port of the other scheme, and the URL leads to
one of the two ports of the host. -/
def CrossesSchemes (name : String) (port : Option ℕ) (u : Url) : Prop :=
  toLowerCase name = u.hostname ∧ (port = some 443 ∨ port = some 80) ∧
    port ≠ Url.defaultPort u.protocol ∧ (u.effectivePort = some 443 ∨ u.effectivePort = some 80)

/-- The port that is left in the rule. -/
def keptPort (port : Option ℕ) : Option ℕ :=
  if port = some 443 ∨ port = some 80 then none else port

section Spelling

def portDigits (p : ℕ) : List Char := Nat.toDigits 10 p

theorem portDigits_inj {p q : ℕ} (h : portDigits p = portDigits q) : p = q := by
  rw [← Nat.ofDigitChars_ten_toDigits (n := p), ← Nat.ofDigitChars_ten_toDigits (n := q)]
  exact congrArg (fun ds => Nat.ofDigitChars 10 ds 0) h

theorem isDigit_of_mem_portDigits {p : ℕ} {c : Char} (h : c ∈ portDigits p) : c.isDigit = true :=
  Nat.isDigit_of_mem_toDigits (by decide) (by decide) h

theorem colon_not_mem_portDigits (p : ℕ) : ':' ∉ portDigits p := fun h =>
  absurd (isDigit_of_mem_portDigits h) (by decide)

theorem toList_spell_some (name : String) (p : ℕ) :
    (Url.spell name (some p)).toList = name.toList ++ ':' :: portDigits p := by
  simp [Url.spell, portDigits]

theorem lowerChar_of_isDigit {c : Char} (h : c.isDigit = true) : lowerChar c = c := by
  have hval : c.toNat = c.val.toNat := rfl
  have h9 : '9'.val.toNat = 57 := rfl
  simp only [Char.isDigit, Bool.and_eq_true, decide_eq_true_eq, UInt32.le_iff_toNat_le, ge_iff_le]
    at h
  exact lowerChar_eq_self (by omega) (by omega)

/-- Lower case reaches the host only. -/
theorem toLowerCase_spell (name : String) (port : Option ℕ) :
    toLowerCase (Url.spell name port) = Url.spell (toLowerCase name) port := by
  cases port with
  | none => rfl
  | some p =>
      apply String.toList_inj.mp
      have hdigits : (portDigits p).map lowerChar = portDigits p :=
        (List.map_congr_left fun c hc =>
          lowerChar_of_isDigit (isDigit_of_mem_portDigits hc)).trans (List.map_id _)
      rw [toList_toLowerCase, toList_spell_some, toList_spell_some, toList_toLowerCase,
        List.map_append, List.map_cons, hdigits]
      rfl

/-- A colon-free host and its port can be read back from the text. -/
theorem splitOn_spell {name : String} (hname : ':' ∉ name.toList) (port : Option ℕ) :
    (Url.spell name port).toList.splitOn ':' = name.toList :: (port.map portDigits).toList := by
  cases port with
  | none => exact List.splitOn_eq_singleton hname
  | some p =>
      rw [toList_spell_some, Splitting.splitOn_cut hname,
        List.splitOn_eq_singleton (colon_not_mem_portDigits p)]
      rfl

theorem spell_inj {name name' : String} {port port' : Option ℕ} (hname : ':' ∉ name.toList)
    (hname' : ':' ∉ name'.toList) (h : Url.spell name port = Url.spell name' port') :
    name = name' ∧ port = port' := by
  have hsplit := splitOn_spell hname port
  rw [h, splitOn_spell hname' port', List.cons.injEq] at hsplit
  refine ⟨(String.toList_inj.mp hsplit.1).symm, ?_⟩
  cases port <;> cases port' <;> simp at hsplit
  · rfl
  · rw [portDigits_inj hsplit.2]

theorem port_suffix_iff {name : String} (hname : ':' ∉ name.toList) {port : Option ℕ} {q : ℕ} :
    ':' :: portDigits q <:+ (Url.spell name port).toList ↔ port = some q := by
  constructor
  · rintro ⟨start, hstart⟩
    have hsplit := splitOn_spell hname port
    rw [← hstart, List.splitOn_append_cons_self,
      List.splitOn_eq_singleton (colon_not_mem_portDigits q)] at hsplit
    cases port with
    | none =>
        have hlength := congrArg List.length hsplit
        have hpos := List.length_pos_iff.mpr (List.splitOn_ne_nil ':' start)
        simp at hlength
    | some p =>
        have hlast := congrArg List.getLast? hsplit
        simp only [List.getLast?_append, List.getLast?_singleton, Option.map_some,
          Option.toList_some, List.getLast?_cons_cons, Option.some_or, Option.some.injEq] at hlast
        rw [portDigits_inj hlast]
  · rintro rfl
    rw [toList_spell_some]
    exact List.suffix_append _ _

theorem take_spell (name : String) {p n : ℕ} (hn : (portDigits p).length + 1 = n) :
    (Url.spell name (some p)).toList.take ((Url.spell name (some p)).toList.length - n) =
      name.toList := by
  rw [toList_spell_some]
  simp [hn]

theorem dropDefaultPort_spell {name : String} (hname : ':' ∉ name.toList) (port : Option ℕ) :
    String.ofList (dropDefaultPort (Url.spell name port).toList) =
      Url.spell name (keptPort port) := by
  have h443 : ":443".toList = ':' :: portDigits 443 := by decide
  have h80 : ":80".toList = ':' :: portDigits 80 := by decide
  apply String.toList_inj.mp
  rw [String.toList_ofList, dropDefaultPort, h443, h80]
  simp only [List.isSuffixOf_iff_suffix, port_suffix_iff hname]
  by_cases hs : port = some 443
  · rw [if_pos hs, hs]
    exact take_spell name (by decide)
  · by_cases hp : port = some 80
    · rw [if_neg hs, if_pos hp, hp]
      exact take_spell name (by decide)
    · rw [if_neg hs, if_neg hp, keptPort, if_neg (by simp [hs, hp])]

end Spelling

/-- The host of a rule is that of its entry, in lower case and without a port
that is the default of either scheme. -/
theorem host_of_hostPart {parseUrl : UrlParser} {rule : Rule} {text : String}
    (h : HostPart parseUrl rule text) :
    rule.host = String.ofList (dropDefaultPort (toLowerCase text).toList) := by
  have hassert : ∀ {variable_ entry host : String},
      assertHost variable_ entry text = .ok host →
      host = String.ofList (dropDefaultPort (toLowerCase text).toList) := by
    intro variable_ entry host hhost
    simp only [assertHost, bind_eq_ok, Except.ok.injEq] at hhost
    obtain ⟨-, -, -, -, rfl⟩ := hhost
    rfl
  rcases h with h | ⟨entry, method, target, h, hread, rfl⟩
  · simp only [parseHostEntry, bind_eq_ok, Except.ok.injEq] at h
    obtain ⟨-, -, -, -, host, hhost, rfl⟩ := h
    exact hassert hhost
  · rw [parseRouteEntry, hread] at h
    simp only [bind_eq_ok] at h
    obtain ⟨-, -, -, -, -, -, host, hhost, -, -, h⟩ := h
    split at h
    · cases h
    · cases h
      exact hassert hhost

theorem IsDnsName.isHostChar_lower {name : String} (h : IsDnsName name) {c : Char}
    (hc : c ∈ (toLowerCase name).toList) : isHostChar c = true := by
  rw [toList_toLowerCase, List.mem_map] at hc
  obtain ⟨d, hd, rfl⟩ := hc
  have hhost := h.2 d hd
  have hlt : d.toNat < 128 := by
    simp only [isHostChar, Bool.or_eq_true, decide_eq_true_eq] at hhost
    rcases hhost with (halnum | rfl) | rfl
    · exact toNat_lt_of_isAlphanum halnum
    · decide
    · decide
  have hall := Numeral.ascii_cases
    (P := fun d => isHostChar d = true → isHostChar (lowerChar d) = true) (by decide +kernel) hlt
  exact hall hhost

theorem IsDnsName.colon_free {name : String} (h : IsDnsName name) :
    ':' ∉ (toLowerCase name).toList := fun hc =>
  absurd (h.isHostChar_lower hc) (by decide)

/-- A URL whose host spells like a name has that name and port. -/
theorem eq_of_spell_eq {name : String} {port : Option ℕ} {u : Url} (hname : IsDnsName name)
    (hu : u.CanonicalAuthority) (h : Url.spell (toLowerCase name) port = u.host) :
    toLowerCase name = u.hostname ∧ port = u.port := by
  refine spell_inj hname.colon_free (fun hcolon => ?_) h
  -- a host with colons starts with a bracket, which no name contains
  have hhead : u.host.toList.head? = some '[' := by
    rw [Url.host]
    cases hport : u.port with
    | none => exact hu.bracketed hcolon
    | some p =>
        rw [toList_spell_some, List.head?_append, hu.bracketed hcolon]
        rfl
  rw [← h] at hhead
  have hne : (toLowerCase name).toList ≠ [] := by
    rw [toList_toLowerCase, Ne, List.map_eq_nil_iff, String.toList_eq_nil_iff]
    exact hname.1
  have hname_head : (toLowerCase name).toList.head? = some '[' := by
    cases port with
    | none => exact hhead
    | some p =>
        rw [toList_spell_some, List.head?_append] at hhead
        rw [← hhead]
        cases hl : (toLowerCase name).toList with
        | nil => exact absurd hl hne
        | cons c l => rfl
  exact absurd (hname.isHostChar_lower (List.mem_of_head? hname_head)) (by decide)

/-- The host test compares the name and the port that is kept. -/
theorem opens_iff {parseUrl : UrlParser} {rule : Rule} {text name : String} {port : Option ℕ}
    {u : Url} (hpart : HostPart parseUrl rule text) (hspell : text = Url.spell name port)
    (hname : IsDnsName name) (hu : u.CanonicalAuthority) :
    Opens rule u ↔ toLowerCase name = u.hostname ∧ keptPort port = u.port := by
  have hhost : rule.host = Url.spell (toLowerCase name) (keptPort port) := by
    rw [host_of_hostPart hpart, hspell, toLowerCase_spell, dropDefaultPort_spell hname.colon_free]
  have hlower : toLowerCase u.host = u.host := by
    rw [Url.host, toLowerCase_spell, hu.lower]
  rw [Opens, hhost, hlower]
  constructor
  · exact eq_of_spell_eq hname hu
  · rintro ⟨hname_eq, hport⟩
    rw [hname_eq, hport, Url.host]

/-- The port that is kept leads to the port that is spelled, except across
schemes. Here `d` is the default port of the URL and `q` the port it shows. -/
theorem keptPort_exact_iff {d q port : Option ℕ} (hd : d = some 443 ∨ d = some 80) (hq : q ≠ d) :
    (keptPort port = q ↔ q.or d = port.or d) ↔
      ¬ ((port = some 443 ∨ port = some 80) ∧ port ≠ d ∧
        (q.or d = some 443 ∨ q.or d = some 80)) := by
  cases port with
  | none => cases q <;> grind [keptPort]
  | some p => cases q <;> grind [keptPort]

/-- An entry opens exactly the host and port it names, unless it spells the
default port of the other scheme and the URL leads to a default port. -/
theorem host_entry_exact_iff (parseUrl : UrlParser) (rule : Rule) (text name : String)
    (port : Option ℕ) (u : Url) (hpart : HostPart parseUrl rule text)
    (hspell : text = Url.spell name port) (hname : IsDnsName name) (hu : u.CanonicalAuthority) :
    (Opens rule u ↔ Names name port u) ↔ ¬ CrossesSchemes name port u := by
  rw [opens_iff hpart hspell hname hu, Names, CrossesSchemes]
  have hdefault : Url.defaultPort u.protocol = some 443 ∨ Url.defaultPort u.protocol = some 80 := by
    rcases hu.scheme with hs | hs <;> simp [hs, Url.defaultPort]
  by_cases hhost : toLowerCase name = u.hostname
  · simp only [hhost, true_and]
    exact keptPort_exact_iff hdefault hu.port_ne
  · simp [hhost]

section Samples

def exampleRule : Rule where
  method := "*"
  host := "api.example.com"
  path := "/"
  isPrefix := true
  source := "api.example.com:80"

/-- What a parser makes of `https://api.example.com/`. -/
def exampleUrl : Url := ⟨"https:", "api.example.com", none, "/", "https://api.example.com/"⟩

theorem exampleUrl_canonical : exampleUrl.CanonicalAuthority where
  scheme := Or.inl rfl
  lower := by decide
  bracketed := by decide
  port_ne := by decide

theorem isDnsName_example : IsDnsName "api.example.com" :=
  ⟨by decide, List.all_eq_true.mp (by decide)⟩

/-- The entry for port 80 opens port 443. -/
theorem entry_opens_other_port :
    parseHostEntry "api.example.com:80" = .ok exampleRule ∧
      "api.example.com:80" = Url.spell "api.example.com" (some 80) ∧
      IsDnsName "api.example.com" ∧ exampleUrl.CanonicalAuthority ∧ Opens exampleRule exampleUrl ∧
      ¬ Names "api.example.com" (some 80) exampleUrl := by
  refine ⟨rfl, by decide, isDnsName_example, exampleUrl_canonical, rfl, ?_⟩
  rintro ⟨-, hport⟩
  exact absurd hport (by decide)

/-- The entry for port 443 opens that port. -/
theorem host_entry_exact_iff_default :
    Opens { exampleRule with source := "api.example.com:443" } exampleUrl ↔
      Names "api.example.com" (some 443) exampleUrl := by
  refine (host_entry_exact_iff (fun _ => none) { exampleRule with source := "api.example.com:443" }
    "api.example.com:443" "api.example.com" (some 443) exampleUrl (Or.inl rfl) (by decide)
    isDnsName_example exampleUrl_canonical).mpr ?_
  rintro ⟨-, -, hport, -⟩
  exact hport (by decide)

end Samples

end EncryptionGateway.Proxy.TargetPolicy
