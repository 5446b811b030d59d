import VoxtralServer.Lib.Multimap
import VoxtralServer.Server.Middleware

/-!
# Requests as the adapter passes them on

The listener keeps the header lines of a request in a hash multimap. The adapter
copies them into a map in the order of a loop over it, so of several lines with
one name only the last one counts.

* `runMiddleware_congr`: what the middleware looks at.
* `decision_exact`: the order decides nothing exactly when the lines of each of
  the two names that matter mean the same.
* `decision_by_order`: a request with duplicates, decided both ways.
-/

namespace VoxtralServer

/-! ## The adapter -/

/-- `httplib::Request`, with the header lines in the order of a loop over them. -/
structure HttplibRequest where
  method : Str := []
  path : Str := []
  body : Str := []
  headers : List (Str × Str) := []
  remoteAddr : Str := []

/-- `std::tolower` of every byte. -/
def toLower (s : Str) : Str :=
  s.map fun c => if ('A').toUInt8 ≤ c ∧ c ≤ ('Z').toUInt8 then c + 32 else c

/-- `adapt_request`. -/
def adaptRequest (req : HttplibRequest) : HttpRequest where
  method := req.method
  path := req.path
  body := req.body
  remoteAddr := req.remoteAddr
  headers := Multimap.ofEntries (req.headers.map fun line => (toLower line.1, line.2))

/-- The values of a header, under any spelling of its name. -/
def headerValues (lines : List (Str × Str)) (name : Str) : List Str :=
  (lines.filter fun line => decide (toLower line.1 = name)).map Prod.snd

theorem mem_headerValues {lines : List (Str × Str)} {name v : Str} :
    v ∈ headerValues lines name ↔ ∃ line ∈ lines, toLower line.1 = name ∧ line.2 = v := by
  simp only [headerValues, List.mem_map, List.mem_filter, decide_eq_true_eq, and_assoc]

/-- The header that is passed on is one of the values, or empty without any. -/
theorem header_adaptRequest (req : HttplibRequest) (name : Str) :
    ((adaptRequest req).header name = [] ∧ headerValues req.headers name = []) ∨
    (adaptRequest req).header name ∈ headerValues req.headers name := by
  rcases Multimap.lookup_ofEntries (req.headers.map fun line => (toLower line.1, line.2)) name with
    ⟨hnone, hother⟩ | ⟨v, hv, hmem⟩
  · refine .inl ⟨by rw [HttpRequest.header, adaptRequest, hnone, Option.getD_none], ?_⟩
    refine List.eq_nil_iff_forall_not_mem.mpr fun v hv => ?_
    obtain ⟨line, hline, hname, -⟩ := mem_headerValues.mp hv
    exact hother _ (List.mem_map_of_mem hline) hname
  · obtain ⟨line, hline, heq⟩ := List.mem_map.mp hmem
    obtain ⟨hname, hvalue⟩ := Prod.mk.injEq .. ▸ heq
    refine .inr (mem_headerValues.mpr ⟨line, hline, hname, ?_⟩)
    rw [HttpRequest.header, adaptRequest, hv, Option.getD_some]
    exact hvalue

/-- The last line is passed on. -/
theorem header_concat (req : HttplibRequest) (lines : List (Str × Str)) (line : Str × Str) :
    (adaptRequest { req with headers := lines ++ [line] }).header (toLower line.1) = line.2 := by
  simp only [HttpRequest.header, adaptRequest, List.map_append, List.map_cons, List.map_nil,
    Multimap.ofEntries_concat, AList.lookup_insert, Option.getD_some]

/-- Lines in another order have the same values. -/
theorem headerValues_perm {lines lines' : List (Str × Str)} (h : lines.Perm lines') (name : Str) :
    (headerValues lines name).Perm (headerValues lines' name) :=
  (h.filter _).map _

/-! ## What the middleware decides -/

/-- The address whose limiters a request meets, the authentication result when
the header is checked, and the outcome with the limiters that are left. -/
structure Decision where
  charged : Option Str
  verdict : Option AuthResult
  outcome : MiddlewareOutcome

variable {lib : JsonLib} {cfg : ServerConfig} {ms : Moments} {lim : Limiters}

/-- The limiters admit the address of the request. -/
instance (req : HttpRequest) : Decidable (Admits cfg ms lim req) :=
  inferInstanceAs (Decidable (_ ∧ _))

/-- What `run_middleware` decides about a request. -/
def decision (lib : JsonLib) (cfg : ServerConfig) (ms : Moments) (lim : Limiters)
    (req : HttpRequest) : Decision where
  charged := if isInternalEndpoint req.path then none else some (clientIp cfg req)
  verdict :=
    if !isInternalEndpoint req.path && cfg.requireAuth && decide (Admits cfg ms lim req) then
      some (checkBearerAuth (req.header (utf8 "authorization")) cfg.apiKey)
    else none
  outcome := runMiddleware lib cfg ms lim req

/-- The middleware looks at the path, at the address of the client and, once the
limiters have admitted it, at the authentication result. -/
theorem runMiddleware_congr {req req' : HttpRequest} (hpath : req.path = req'.path)
    (hip : clientIp cfg req = clientIp cfg req')
    (hauth : cfg.requireAuth = true → Admits cfg ms lim req →
      checkBearerAuth (req.header (utf8 "authorization")) cfg.apiKey =
        checkBearerAuth (req'.header (utf8 "authorization")) cfg.apiKey) :
    runMiddleware lib cfg ms lim req = runMiddleware lib cfg ms lim req' := by
  unfold runMiddleware
  rw [hpath, ← hip]
  cases hrequire : cfg.requireAuth with
  | false => rfl
  | true =>
    simp only [if_true]
    by_cases hadmits : Admits cfg ms lim req
    · rw [hauth hrequire hadmits]
    · -- the header is not looked at
      split
      · rfl
      · split
        · rfl
        · next hblocked =>
          split
          · rfl
          · next hlimited =>
            exact absurd ⟨Bool.not_eq_true _ ▸ hblocked, Int.not_lt.mp hlimited⟩ hadmits

theorem admits_congr {req req' : HttpRequest} (hip : clientIp cfg req = clientIp cfg req')
    (h : Admits cfg ms lim req) : Admits cfg ms lim req' := by
  unfold Admits at h ⊢
  rwa [← hip]

theorem decision_congr {req req' : HttpRequest} (hpath : req.path = req'.path)
    (hip : clientIp cfg req = clientIp cfg req')
    (hauth : cfg.requireAuth = true → Admits cfg ms lim req →
      checkBearerAuth (req.header (utf8 "authorization")) cfg.apiKey =
        checkBearerAuth (req'.header (utf8 "authorization")) cfg.apiKey) :
    decision lib cfg ms lim req = decision lib cfg ms lim req' := by
  have hadmits : Admits cfg ms lim req ↔ Admits cfg ms lim req' :=
    ⟨admits_congr hip, admits_congr hip.symm⟩
  have hverdict : (decision lib cfg ms lim req).verdict =
      (decision lib cfg ms lim req').verdict := by
    simp only [decision, hpath, ← hadmits]
    split
    · next hchecked =>
      simp only [Bool.and_eq_true, decide_eq_true_eq] at hchecked
      rw [hauth hchecked.1.2 hchecked.2]
    · rfl
  have hcharged : (decision lib cfg ms lim req).charged =
      (decision lib cfg ms lim req').charged := by
    simp only [decision, hpath, hip]
  exact (Decision.mk.injEq ..).mpr ⟨hcharged, hverdict, runMiddleware_congr hpath hip hauth⟩

/-! ## The order of the header lines -/

/-- The address that a value of `X-Forwarded-For` gives. -/
def ipOf (cfg : ServerConfig) (req : HttplibRequest) (value : Str) : Str :=
  extractClientIp value req.remoteAddr cfg.trustProxy cfg.trustedProxyHops

/-- The lines of each of the two headers mean the same: all give one address,
and if the header is checked then all give one authentication result. -/
def OneMeaning (cfg : ServerConfig) (ms : Moments) (lim : Limiters) (req : HttplibRequest) : Prop :=
  isInternalEndpoint req.path = true ∨
  (∀ v ∈ headerValues req.headers (utf8 "x-forwarded-for"),
    ∀ w ∈ headerValues req.headers (utf8 "x-forwarded-for"), ipOf cfg req v = ipOf cfg req w) ∧
  (cfg.requireAuth = true → Admits cfg ms lim (adaptRequest req) →
    ∀ v ∈ headerValues req.headers (utf8 "authorization"),
    ∀ w ∈ headerValues req.headers (utf8 "authorization"),
      checkBearerAuth v cfg.apiKey = checkBearerAuth w cfg.apiKey)

/-- An order in which a loop may visit the lines: names that differ in case only
are equal. -/
structure IsOrder (req : HttplibRequest) (lines : List (Str × Str)) : Prop where
  perm : lines.Perm req.headers
  grouped : Multimap.Grouped (fun line => toLower line.1) lines

/-- The request with its lines in this order. -/
def HttplibRequest.inOrder (req : HttplibRequest) (lines : List (Str × Str)) : HttplibRequest :=
  { req with headers := lines }

variable {req : HttplibRequest} {lines lines' : List (Str × Str)}

/-- When all values of a header mean the same, every order gives this meaning. -/
theorem header_order {γ : Type} {f : Str → γ} {name : Str}
    (hsame : ∀ v ∈ headerValues req.headers name, ∀ w ∈ headerValues req.headers name, f v = f w)
    (h : lines.Perm req.headers) (h' : lines'.Perm req.headers) :
    f ((adaptRequest (req.inOrder lines)).header name) =
      f ((adaptRequest (req.inOrder lines')).header name) := by
  have hv := headerValues_perm h name
  have hv' := headerValues_perm h' name
  rcases header_adaptRequest (req.inOrder lines) name with ⟨heq, hnone⟩ | hmem <;>
    rcases header_adaptRequest (req.inOrder lines') name with ⟨heq', hnone'⟩ | hmem'
  · rw [heq, heq']
  · have hvalue := hv.mem_iff.mpr (hv'.mem_iff.mp hmem')
    rw [show headerValues lines name = [] from hnone] at hvalue
    cases hvalue
  · have hvalue := hv'.mem_iff.mpr (hv.mem_iff.mp hmem)
    rw [show headerValues lines' name = [] from hnone'] at hvalue
    cases hvalue
  · exact hsame _ (hv.mem_iff.mp hmem) _ (hv'.mem_iff.mp hmem')

/-- Some order makes the header mean what one of its values means. -/
theorem exists_order {name v : Str} (hv : v ∈ headerValues req.headers name) :
    ∃ lines, IsOrder req lines ∧ (adaptRequest (req.inOrder lines)).header name = v := by
  obtain ⟨line, hline, rfl, rfl⟩ := mem_headerValues.mp hv
  obtain ⟨lines, hperm, hgrouped⟩ :=
    (Multimap.exists_grouped_last hline : ∃ lines, (lines ++ [line]).Perm req.headers ∧
      Multimap.Grouped (fun line => toLower line.1) (lines ++ [line]))
  exact ⟨lines ++ [line], ⟨hperm, hgrouped⟩, header_concat req lines line⟩

/-- **The order of the header lines.** From the same limiters at the same times,
all orders of the lines lead to the same address, authentication result and
limiters exactly when the lines of each of the two headers mean the same. -/
theorem decision_exact (lib : JsonLib) (cfg : ServerConfig) (ms : Moments) (lim : Limiters)
    (req : HttplibRequest) :
    (∀ lines lines', IsOrder req lines → IsOrder req lines' →
      decision lib cfg ms lim (adaptRequest (req.inOrder lines)) =
        decision lib cfg ms lim (adaptRequest (req.inOrder lines'))) ↔
    OneMeaning cfg ms lim req := by
  constructor
  · intro hsame
    unfold OneMeaning
    cases hinternal : isInternalEndpoint req.path with
    | true => exact .inl rfl
    | false =>
      have hpath (lines : List (Str × Str)) :
          isInternalEndpoint (adaptRequest (req.inOrder lines)).path = false := hinternal
      have hips : ∀ v ∈ headerValues req.headers (utf8 "x-forwarded-for"),
          ∀ w ∈ headerValues req.headers (utf8 "x-forwarded-for"),
            ipOf cfg req v = ipOf cfg req w := by
        intro v hv w hw
        obtain ⟨lines, horder, rfl⟩ := exists_order hv
        obtain ⟨lines', horder', rfl⟩ := exists_order hw
        have hcharged := congrArg Decision.charged (hsame lines lines' horder horder')
        simp only [decision, hpath, Bool.false_eq_true, if_false, Option.some.injEq] at hcharged
        exact hcharged
      refine .inr ⟨hips, fun hrequire hadmits v hv w hw => ?_⟩
      obtain ⟨lines, horder, rfl⟩ := exists_order hv
      obtain ⟨lines', horder', rfl⟩ := exists_order hw
      have hadmitted {lines : List (Str × Str)} (horder : IsOrder req lines) :
          Admits cfg ms lim (adaptRequest (req.inOrder lines)) :=
        admits_congr (header_order hips (.refl req.headers) horder.perm) hadmits
      have hverdict := congrArg Decision.verdict (hsame lines lines' horder horder')
      simp only [decision, hpath, hrequire, hadmitted horder, hadmitted horder', Bool.not_false,
        Bool.and_self, decide_true, if_true, Option.some.injEq] at hverdict
      exact hverdict
  · intro hmeaning lines lines' horder horder'
    rcases hmeaning with hinternal | ⟨hips, hauth⟩
    · have hpath (lines : List (Str × Str)) :
          isInternalEndpoint (adaptRequest (req.inOrder lines)).path = true := hinternal
      simp only [decision, runMiddleware, hpath, if_true, Bool.not_true, Bool.false_and,
        Bool.false_eq_true, if_false]
    · have hip : clientIp cfg (adaptRequest (req.inOrder lines)) =
          clientIp cfg (adaptRequest (req.inOrder lines')) :=
        header_order hips horder.perm horder'.perm
      refine decision_congr rfl hip fun hrequire hadmits => ?_
      have hown := header_order hips horder.perm (.refl req.headers)
      exact header_order (f := fun value => checkBearerAuth value cfg.apiKey)
        (hauth hrequire (admits_congr hown hadmits)) horder.perm horder'.perm

/-- Authentication on, behind one trusted proxy. -/
def exProxyConfig : ServerConfig where
  modelPath := utf8 "model"
  requireAuth := true
  apiKey := utf8 "secret"
  trustProxy := true

/-- A request with two lines for each of the two headers. -/
def exDuplicates : HttplibRequest where
  path := utf8 "/v1/audio/speech"
  headers :=
    [(utf8 "X-Forwarded-For", utf8 "10.0.0.1"), (utf8 "x-forwarded-for", utf8 "10.0.0.2"),
     (utf8 "Authorization", utf8 "Bearer secret"), (utf8 "Authorization", utf8 "Bearer guess")]

/-- Its lines with each pair the other way round. -/
def exSwapped : List (Str × Str) :=
  [(utf8 "x-forwarded-for", utf8 "10.0.0.2"), (utf8 "X-Forwarded-For", utf8 "10.0.0.1"),
   (utf8 "Authorization", utf8 "Bearer guess"), (utf8 "Authorization", utf8 "Bearer secret")]

theorem exGrouped {a b c d : Str × Str} (hab : toLower a.1 = toLower b.1)
    (hcd : toLower c.1 = toLower d.1) (hne : toLower a.1 ≠ toLower c.1) :
    Multimap.Grouped (fun line => toLower line.1) [a, b, c, d] := by
  have hfirst : Multimap.Grouped (fun line => toLower line.1) ([] ++ [a, b]) :=
    .group .nil (by simp) (k := toLower a.1) (by simp [hab])
  have hboth : Multimap.Grouped (fun line => toLower line.1) ([a, b] ++ [c, d]) :=
    .group hfirst (k := toLower c.1) (by simp [← hab, hne]) (by simp [hcd])
  exact hboth

/-- One order charges one address and lets the request through, the other one
charges another address with a failed authentication. -/
theorem decision_by_order : ∃ lines lines',
    exProxyConfig.validate = .ok () ∧
    IsOrder exDuplicates lines ∧ IsOrder exDuplicates lines' ∧
    (decision (exJson []) exProxyConfig exMoments (.ofConfig exProxyConfig)
      (adaptRequest (exDuplicates.inOrder lines))).charged = some (utf8 "10.0.0.2") ∧
    (decision (exJson []) exProxyConfig exMoments (.ofConfig exProxyConfig)
      (adaptRequest (exDuplicates.inOrder lines'))).charged = some (utf8 "10.0.0.1") ∧
    (decision (exJson []) exProxyConfig exMoments (.ofConfig exProxyConfig)
      (adaptRequest (exDuplicates.inOrder lines))).verdict.map AuthResult.authenticated =
        some false ∧
    (decision (exJson []) exProxyConfig exMoments (.ofConfig exProxyConfig)
      (adaptRequest (exDuplicates.inOrder lines'))).verdict.map AuthResult.authenticated =
        some true ∧
    (decision (exJson []) exProxyConfig exMoments (.ofConfig exProxyConfig)
      (adaptRequest (exDuplicates.inOrder lines))).outcome.limiters ≠
    (decision (exJson []) exProxyConfig exMoments (.ofConfig exProxyConfig)
      (adaptRequest (exDuplicates.inOrder lines'))).outcome.limiters := by
  refine ⟨exDuplicates.headers, exSwapped, by decide, ⟨.refl _, ?_⟩, ⟨?_, ?_⟩, by decide,
    by decide, by decide, by decide, fun hsame => ?_⟩
  · exact exGrouped (by decide) (by decide) (by decide)
  · exact (List.Perm.swap ..).trans (((List.Perm.swap ..).cons _).cons _)
  · exact exGrouped (by decide) (by decide) (by decide)
  · -- only the first order records a failure
    have hsize := congrArg (fun lim : Limiters => lim.auth.ipStates.size) hsame
    exact absurd hsize (by decide)

end VoxtralServer
