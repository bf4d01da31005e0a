import EncryptionGateway.JavaScript.UrlPath
import EncryptionGateway.Proxy.RouteMatching

/-!
# The path of a route entry

An entry of `ALLOWED_ROUTES` is cut at its first slash, and the rest is read by
the URL parser. The parser takes a query and a fragment off the path and removes
control characters from its end, so the rule may keep only a part of what was
written.
-/

namespace EncryptionGateway.Proxy.TargetPolicy

open JavaScript Foundation PathConfinement UrlPath

/-- The text of an entry from its first slash, without a final `*`. -/
def writtenPath (entry : String) : List Char :=
  match readRoute entry with
  | none => []
  | some (_, target) => (readPath (routePath target)).1

section Reading

/-- The parts of an entry hold no white space. -/
theorem not_isSpace_of_mem_splitBlanks {l piece : List Char} (h : piece ∈ splitBlanks l) :
    ∀ c ∈ piece, isSpace c = false := by
  induction l generalizing piece with
  | nil =>
      obtain rfl : piece = [] := List.mem_singleton.mp h
      simp
  | cons c rest ih =>
      rw [splitBlanks] at h
      split at h
      · split at h
        · exact ih h
        · rcases List.mem_cons.mp h with rfl | h
          · simp
          · exact ih h
      · next hc =>
          cases hsplit : splitBlanks rest with
          | nil =>
              rw [hsplit] at h
              cases h
          | cons first more =>
              rw [hsplit, List.modifyHead_cons] at h
              rcases List.mem_cons.mp h with rfl | h
              · rw [List.forall_mem_cons]
                exact ⟨Bool.eq_false_iff.mpr hc, ih (hsplit ▸ List.mem_cons_self)⟩
              · exact ih (hsplit ▸ List.mem_cons_of_mem first h)

theorem readRoute_target {entry method : String} {target : List Char}
    (h : readRoute entry = some (method, target)) : ∀ c ∈ target, isSpace c = false := by
  unfold readRoute at h
  split at h
  · next hsplit =>
      cases h
      exact not_isSpace_of_mem_splitBlanks (hsplit ▸ List.mem_singleton_self target)
  · next hsplit =>
      cases h
      exact not_isSpace_of_mem_splitBlanks (l := entry.toList) (by rw [hsplit]; simp)
  · cases h

/-- The written path starts with a slash. -/
theorem head_readPath {target : List Char} (h : routePath target ≠ []) :
    (readPath (routePath target)).1.head? = some '/' := by
  obtain ⟨c, rest, hpath⟩ := List.exists_cons_of_ne_nil h
  have hslash : c = '/' := by
    have hhead := List.head?_dropWhile_not (fun c => decide (c ≠ '/')) target
    rw [← routePath, hpath] at hhead
    simpa using hhead
  subst hslash
  rw [hpath, readPath]
  split
  · next hstar =>
      cases rest with
      | nil => cases hstar
      | cons d more => rfl
  · rfl

theorem mem_of_mem_readPath {rawPath : List Char} {c : Char} (h : c ∈ (readPath rawPath).1) :
    c ∈ rawPath := by
  unfold readPath at h
  split at h
  · exact List.mem_of_mem_dropLast h
  · exact h

/-- What an accepted entry is read to. -/
theorem parseRouteEntry_eq_ok {parseUrl : UrlParser} {entry : String} {rule : Rule}
    (h : parseRouteEntry parseUrl entry = .ok rule) :
    ∃ url, parseUrl ("https://x" ++ String.ofList (writtenPath entry)) = some url ∧
      rule.path = url.pathname ∧ (writtenPath entry).head? = some '/' ∧
      ∀ c ∈ writtenPath entry, isSpace c = false := by
  unfold parseRouteEntry at h
  cases hread : readRoute entry with
  | none =>
      rw [hread] at h
      cases h
  | some route =>
      obtain ⟨method, target⟩ := route
      have hwritten : writtenPath entry = (readPath (routePath target)).1 := by
        rw [writtenPath, hread]
      rw [hread] at h
      simp only [bind_eq_ok, require_eq_ok, Bool.and_eq_true, decide_eq_true_eq] at h
      obtain ⟨-, -, -, -, -, ⟨-, hpath⟩, host, -, -, -, h⟩ := h
      have hmem : ∀ c ∈ (readPath (routePath target)).1, c ∈ target := fun c hc =>
        (List.dropWhile_suffix _).subset (mem_of_mem_readPath hc)
      have hspace : ∀ c ∈ (readPath (routePath target)).1, isSpace c = false := fun c hc =>
        readRoute_target hread c (hmem c hc)
      rw [hwritten]
      split at h
      · cases h
      · next url hurl =>
          cases h
          exact ⟨url, hurl, rfl, head_readPath hpath, hspace⟩

end Reading

/-- Nothing in the text starts a query or a fragment, and it does not end in a
control character. -/
def PlainPath (text : List Char) : Prop :=
  (∀ c ∈ text, c ≠ '?' ∧ c ≠ '#') ∧ ∀ c, text.getLast? = some c → 0x20 ≤ c.toNat

/-- The rule keeps all of the written path: no part of it is read as anything
else, and what the rule admits lies at the normalised path or below it. -/
structure Covers (written : List Char) (rule : Rule) : Prop where
  whole : pathText written = written
  path : rule.path = pathnameOf written
  confines : ∀ method url, ['/'] <+: url.pathname.toList → admits method url rule = true →
    url.pathname = pathnameOf written ∨
      rule.isPrefix = true ∧ SegmentPrefix (pathnameOf written) url.pathname

theorem pathText_eq_self_iff_plain {written : List Char}
    (hspace : ∀ c ∈ written, isSpace c = false) :
    pathText written = written ↔ PlainPath written := by
  have hplain : ∀ c ∈ written, isTabOrNewline c = false := by
    intro c hc
    by_contra hblank
    rw [Bool.not_eq_false] at hblank
    have hcases : (c = '\t' ∨ c = '\n') ∨ c = '\r' := by simpa [isTabOrNewline] using hblank
    rcases hcases with (rfl | rfl) | rfl <;> exact absurd (hspace _ hc) (by decide)
  have hends : ∀ c, endsPath c = false ↔ c ≠ '?' ∧ c ≠ '#' := by simp [endsPath]
  have hlast : ∀ c ∈ written, isControlOrSpace c = false ↔ 0x20 ≤ c.toNat := by
    intro c hc
    have hne : c.toNat ≠ 0x20 := by
      intro heq
      obtain rfl : c = ' ' := Char.toNat_inj.mp heq
      exact absurd (hspace _ hc) (by decide)
    simp only [isControlOrSpace, decide_eq_false_iff_not]
    omega
  rw [pathText_eq_self hplain, PlainPath]
  simp only [hends]
  refine and_congr_right fun _ => forall_congr' fun c => ?_
  constructor
  · exact fun h hc => (hlast c (List.mem_of_getLast? hc)).mp (h hc)
  · exact fun h hc => (hlast c (List.mem_of_getLast? hc)).mpr (h hc)

/-- A rule with the whole path confines what it admits. -/
theorem covers_of_whole {written : List Char} {rule : Rule} (hwhole : pathText written = written)
    (hpath : rule.path = pathnameOf written) : Covers written rule := by
  refine ⟨hwhole, hpath, fun method url habsolute hadmits => ?_⟩
  obtain ⟨-, -, hmatch⟩ := admits_iff.mp hadmits
  cases hrule : rule.isPrefix with
  | false =>
      rw [matchesPath, hrule] at hmatch
      exact Or.inl ((of_decide_eq_true hmatch).trans hpath)
  | true =>
      rw [matchesPath_prefix_iff hrule habsolute, hpath] at hmatch
      exact Or.inr ⟨rfl, hmatch⟩

/-- The rule of an accepted entry has the part of its path that the parser reads
as one, which is all of it exactly when the path is plain. -/
theorem route_entry_covers_iff (parseUrl : UrlParser) (hparse : ReadsPaths parseUrl)
    (allowedHosts allowedRoutes : String) (policy : TargetPolicy)
    (hcreate : create parseUrl allowedHosts allowedRoutes = .ok policy) (entry : String)
    (hentry : entry ∈ splitList allowedRoutes) :
    ∃ rule ∈ policy.rules, parseRouteEntry parseUrl entry = .ok rule ∧
      rule.path = pathnameOf (pathText (writtenPath entry)) ∧
      (Covers (writtenPath entry) rule ↔ PlainPath (writtenPath entry)) := by
  obtain ⟨hosts, -, h⟩ := bind_eq_ok.mp hcreate
  obtain ⟨routes, hroutes, h⟩ := bind_eq_ok.mp h
  cases h
  rw [mapM_eq_ok] at hroutes
  obtain ⟨rule, hmem, hrule⟩ := exists_of_forall₂ hroutes hentry
  obtain ⟨url, hurl, hpath, hhead, hspace⟩ := parseRouteEntry_eq_ok hrule
  obtain ⟨url', hurl', hpathname⟩ := hparse (writtenPath entry) hhead
  obtain rfl : url = url' := Option.some.inj (hurl.symm.trans hurl')
  refine ⟨rule, List.mem_append_right hosts hmem, hrule, hpath.trans hpathname, ?_⟩
  rw [← pathText_eq_self_iff_plain hspace]
  constructor
  · exact fun hcovers => hcovers.whole
  · intro hwhole
    rw [hwhole] at hpathname
    exact covers_of_whole hwhole (hpath.trans hpathname)

section Samples

/-- A parser of URLs on one host. -/
def pathParser : UrlParser := fun text =>
  if startsWith text "https://x/" then
    some ⟨"https:", "x", none, pathnameOf (pathText (text.toList.drop 9)), text⟩
  else none

theorem readsPaths_pathParser : ReadsPaths pathParser := by
  intro text hslash
  obtain ⟨rest, rfl⟩ : ∃ rest, text = '/' :: rest := by
    cases text with
    | nil => cases hslash
    | cons c rest =>
        obtain rfl : c = '/' := Option.some.inj hslash
        exact ⟨rest, rfl⟩
  have hcut : ("https://x" ++ String.ofList ('/' :: rest)).toList =
      "https://x".toList ++ '/' :: rest := by
    rw [String.toList_append, String.toList_ofList (l := '/' :: rest)]
  have hstarts : startsWith ("https://x" ++ String.ofList ('/' :: rest)) "https://x/" = true :=
    startsWith_iff.mpr (hcut ▸ ⟨rest, rfl⟩)
  refine ⟨_, if_pos hstarts, ?_⟩
  rw [hcut]
  rfl

def lookupEntry : String := "GET api.example.com/users?id=*"

def usersRule : Rule where
  method := "GET"
  host := "api.example.com"
  path := "/users"
  isPrefix := true
  source := lookupEntry

/-- The entry is meant for one query and opens everything below the path. -/
theorem query_widens_entry :
    ReadsPaths pathParser ∧ create pathParser "" lookupEntry = .ok ⟨[usersRule]⟩ ∧
      lookupEntry ∈ splitList lookupEntry ∧
      parseRouteEntry pathParser lookupEntry = .ok usersRule ∧
      admits "GET" ⟨"https:", "api.example.com", none, "/users/7/keys",
        "https://api.example.com/users/7/keys"⟩ usersRule = true ∧
      ¬ Covers (writtenPath lookupEntry) usersRule := by
  refine ⟨readsPaths_pathParser, rfl, by decide, rfl, by decide, fun hcovers => ?_⟩
  have hpath := hcovers.path
  revert hpath
  decide

theorem route_entry_covers_iff_admin :
    ∃ rule, parseRouteEntry pathParser "api.example.com/admin/*" = .ok rule ∧
      Covers (writtenPath "api.example.com/admin/*") rule := by
  have hcreate : create pathParser "" "api.example.com/admin/*" =
      .ok ⟨[⟨"*", "api.example.com", "/admin/", true, "api.example.com/admin/*"⟩]⟩ := rfl
  obtain ⟨rule, -, hrule, -, hcovers⟩ := route_entry_covers_iff pathParser readsPaths_pathParser ""
    "api.example.com/admin/*" _ hcreate "api.example.com/admin/*" (by decide)
  have hplain : ((writtenPath "api.example.com/admin/*").all fun c => c ≠ '?' && c ≠ '#') =
      true := by
    decide
  refine ⟨rule, hrule, hcovers.mpr ⟨by simpa using hplain, ?_⟩⟩
  intro c hc
  have hlast : (writtenPath "api.example.com/admin/*").getLast? = some '/' := by decide
  obtain rfl := Option.some.inj (hlast.symm.trans hc)
  decide

end Samples

end EncryptionGateway.Proxy.TargetPolicy
