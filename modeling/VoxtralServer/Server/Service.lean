import VoxtralServer.Server.MiddlewareRace
import VoxtralServer.Server.RefusalCauses
import VoxtralServer.Server.Routes

/-!
# The service

Any number of requests to the two API routes at once. Each is a call of
`run_middleware`, which meets the shared limiters in steps of its own, and after
it, when it is let through, a call of its handler. A speech handler goes on with
the inference pool, its worker, and a shutdown.

* `gate_refines`, `speech_refines`: the middleware calls are an interleaving of
  such calls, and the speech handlers are one of theirs, so what holds of either
  holds here.
* `reachable_aligned`: a handler runs only for a request that was let through.
* `reachable_serves`: each speech handler works on its own request.
* `concurrent_answers`: every request is answered as its route alone would answer
  it, for the limiters that its call met.
-/

namespace VoxtralServer

/-! ## The system -/

/-- The middleware calls, the speech handlers, and the requests, in the order of
their arrival. The `i`th request has the `i`th call of either kind. -/
structure Service where
  gate : Race.State
  speech : SpeechServer := {}
  requests : List HttplibRequest := []

namespace Service

/-- The steps. A request arrives, its middleware call takes a step, its speech
handler is called, or a speech handler, the worker or a shutdown takes a step. -/
inductive Act
  | arrive (req : HttplibRequest)
  | gate (i : Nat) (m : Moment)
  | receive (i : Nat) (now : Int)
  | speech (a : SpeechServer.Act)

/-- A request that arrives meets `P`. -/
def Act.Arrives (P : HttpRequest → Prop) : Act → Prop
  | .arrive req => P (adaptRequest req)
  | .gate _ _ | .receive _ _ | .speech _ => True

instance (P : HttpRequest → Prop) [DecidablePred P] (a : Act) : Decidable (a.Arrives P) :=
  match a with
  | .arrive req => inferInstanceAs (Decidable (P (adaptRequest req)))
  | .gate _ _ | .receive _ _ | .speech _ => .isTrue trivial

/-- Where the middleware call of the `i`th request is. -/
def phaseOf (s : Service) (i : Nat) : Option Phase := (s.gate.calls[i]?).map Race.Call.phase

/-- The middleware has let the `i`th request through. -/
def letThrough (s : Service) (i : Nat) : Bool :=
  match s.phaseOf i with
  | some (.done (.ok none)) => true
  | _ => false

/-- The route is one that the middleware stands before. -/
def IsApi (req : HttplibRequest) : Prop :=
  routeOf req = some .speech ∨ routeOf req = some .voices

instance (req : HttplibRequest) : Decidable (IsApi req) := inferInstanceAs (Decidable (_ ∨ _))

/-- The first step of a speech handler needs its request. -/
def isReceive : SpeechServer.Act → Bool
  | .receive _ _ _ => true
  | _ => false

def step (lib : JsonLib) (cfg : ServerConfig) (deps : HandlerDeps) (p : InferencePool.Params)
    (s : Service) : Act → Option Service
  | .arrive req =>
    if IsApi req then
      (Race.step lib cfg s.gate (.arrive (adaptRequest req))).map fun gate =>
        { s with gate := gate, requests := s.requests ++ [req] }
    else none
  | .gate i m => (Race.step lib cfg s.gate (.advance i m)).map fun gate => { s with gate := gate }
  | .receive i now =>
    match s.requests[i]? with
    | some req =>
      if routeOf req = some .speech ∧ s.letThrough i = true then
        (SpeechServer.step lib deps p s.speech (.receive i (adaptRequest req) now)).map
          fun speech => { s with speech := speech }
      else none
    | none => none
  | .speech a =>
    if isReceive a then none
    else (SpeechServer.step lib deps p s.speech a).map fun speech => { s with speech := speech }

/-- All interleavings, from limiters as the configuration sets them up and an idle
pool. -/
def system (lib : JsonLib) (cfg : ServerConfig) (deps : HandlerDeps) (p : InferencePool.Params) :
    System Service Act where
  init s := ∃ now now', s = { gate := { limiters := .ofConfig cfg, clock := now }
                              speech := { pool := { clock := now' } } }
  step := step lib cfg deps p

variable {lib : JsonLib} {cfg : ServerConfig} {deps : HandlerDeps} {p : InferencePool.Params}
  {s s' : Service} {a : Act}

/-- What the steps are. -/
inductive Moves (lib : JsonLib) (cfg : ServerConfig) (deps : HandlerDeps)
    (p : InferencePool.Params) (s : Service) : Act → Service → Prop
  | arrive {req : HttplibRequest} : IsApi req →
      Moves lib cfg deps p s (.arrive req)
        { s with gate := { s.gate with calls := s.gate.calls ++ [⟨adaptRequest req, .start⟩] }
                 requests := s.requests ++ [req] }
  | gate {i : Nat} {m : Moment} {gate : Race.State} :
      (Race.system lib cfg).step s.gate (.advance i m) = some gate →
      Moves lib cfg deps p s (.gate i m) { s with gate := gate }
  | receive {i : Nat} {now : Int} {req : HttplibRequest} {speech : SpeechServer} :
      s.requests[i]? = some req → routeOf req = some .speech → s.letThrough i = true →
      (SpeechServer.system lib deps p).step s.speech (.receive i (adaptRequest req) now) =
        some speech →
      Moves lib cfg deps p s (.receive i now) { s with speech := speech }
  | speech {a : SpeechServer.Act} {speech : SpeechServer} : isReceive a = false →
      (SpeechServer.system lib deps p).step s.speech a = some speech →
      Moves lib cfg deps p s (.speech a) { s with speech := speech }

theorem step_moves (h : (system lib cfg deps p).step s a = some s') :
    Moves lib cfg deps p s a s' := by
  simp only [system, step] at h
  split at h
  · -- arrive
    split at h
    · next happ =>
      cases h
      exact .arrive happ
    · cases h
  · -- gate
    obtain ⟨gate, hgate, rfl⟩ := Option.map_eq_some_iff.mp h
    exact .gate hgate
  · -- receive
    split at h
    · next req hreq =>
      split at h
      · next hpass =>
        obtain ⟨speech, hspeech, rfl⟩ := Option.map_eq_some_iff.mp h
        exact .receive hreq hpass.1 hpass.2 hspeech
      · cases h
    · cases h
  · -- speech
    split at h
    · cases h
    · next ha =>
      obtain ⟨speech, hspeech, rfl⟩ := Option.map_eq_some_iff.mp h
      exact .speech (Bool.not_eq_true _ ▸ ha) hspeech

/-! ## The two parts -/

theorem gate_refines (lib : JsonLib) (cfg : ServerConfig) (deps : HandlerDeps)
    (p : InferencePool.Params) :
    System.Refines (system lib cfg deps p) (Race.system lib cfg) Service.gate := by
  constructor
  · rintro s ⟨now, now', rfl⟩
    exact ⟨rfl, rfl, rfl⟩
  · intro s a t _ hst
    cases step_moves hst with
    | arrive => exact .inr ⟨.arrive _, rfl⟩
    | gate hgate => exact .inr ⟨_, hgate⟩
    | _ => exact .inl rfl

theorem speech_refines (lib : JsonLib) (cfg : ServerConfig) (deps : HandlerDeps)
    (p : InferencePool.Params) :
    System.Refines (system lib cfg deps p) (SpeechServer.system lib deps p) Service.speech := by
  constructor
  · rintro s ⟨now, now', rfl⟩
    exact ⟨now', rfl⟩
  · intro s a t _ hst
    cases step_moves hst with
    | receive _ _ _ hspeech => exact .inr ⟨_, hspeech⟩
    | speech _ hspeech => exact .inr ⟨_, hspeech⟩
    | _ => exact .inl rfl

/-- The service is in no state that its speech calls alone do not reach. -/
theorem reachable_speech (h : (system lib cfg deps p).Reachable System.Any s) :
    (SpeechServer.system lib deps p).Reachable System.Any s.speech :=
  System.reachable_map (speech_refines lib cfg deps p) h

/-! ## Requests and their calls -/

/-- The request that the `i`th speech handler is called with. -/
def own (s : Service) (i : Nat) : HttpRequest := adaptRequest ((s.requests[i]?).getD {})

/-- The middleware calls are those of the requests, and a speech handler runs only
for a speech request that was let through. -/
structure Aligned (s : Service) : Prop where
  calls : s.gate.calls.map Race.Call.req = s.requests.map adaptRequest
  api : ∀ req ∈ s.requests, IsApi req
  started : ∀ i, (s.speech.calls i).pc ≠ .idle →
    s.letThrough i = true ∧ ∃ req, s.requests[i]? = some req ∧ routeOf req = some .speech

theorem letThrough_phase {i : Nat} :
    s.letThrough i = true ↔ s.phaseOf i = some (.done (.ok none)) := by
  unfold letThrough
  split
  · next h => simp [h]
  · next h => simpa using h

/-- The middleware call of a request. -/
theorem Aligned.call (h : s.Aligned) {i : Nat} {call : Race.Call}
    (hcall : s.gate.calls[i]? = some call) :
    ∃ req, s.requests[i]? = some req ∧ call.req = adaptRequest req ∧ IsApi req := by
  have hmap := congrArg (fun l => l[i]?) h.calls
  simp only [List.getElem?_map, hcall, Option.map_some] at hmap
  obtain ⟨req, hreq, heq⟩ := Option.map_eq_some_iff.mp hmap.symm
  exact ⟨req, hreq, heq.symm, h.api req (List.mem_of_getElem? hreq)⟩

/-- A middleware call that is done takes no further step. -/
theorem gate_done {i j : Nat} {m : Moment} {gate : Race.State}
    {result : Except JsonError (Option HttpResponse)}
    (hgate : (Race.system lib cfg).step s.gate (.advance i m) = some gate)
    (hj : s.phaseOf j = some (.done result)) :
    ({ s with gate := gate } : Service).phaseOf j = some (.done result) := by
  obtain ⟨call, hcall, hphase⟩ := Option.map_eq_some_iff.mp hj
  rcases Race.step_cases hgate with ⟨_, ha, _⟩ | ⟨i', m', call', phase, lim, ops, ha, hcall', _, _,
    hstep, rfl⟩
  · cases ha
  · cases ha
    have hne : i ≠ j := by
      rintro rfl
      rw [hcall] at hcall'
      cases hcall'
      rw [hphase] at hstep
      cases hstep
    simp only [phaseOf, List.getElem?_set_ne hne]
    exact hj

theorem gate_letThrough {i j : Nat} {m : Moment} {gate : Race.State}
    (hgate : (Race.system lib cfg).step s.gate (.advance i m) = some gate)
    (hj : s.letThrough j = true) : ({ s with gate := gate } : Service).letThrough j = true :=
  letThrough_phase.mpr (gate_done hgate (letThrough_phase.mp hj))

theorem gate_requests {i : Nat} {m : Moment} {gate gate' : Race.State}
    (hgate : (Race.system lib cfg).step gate (.advance i m) = some gate') :
    gate'.calls.map Race.Call.req = gate.calls.map Race.Call.req := by
  rcases Race.step_cases hgate with ⟨_, ha, _⟩ | ⟨i', m', call, phase, lim, ops, ha, hcall, _, _,
    _, rfl⟩
  · cases ha
  · obtain ⟨hlt, rfl⟩ := List.getElem?_eq_some_iff.mp hcall
    have hlt' : i' < (gate.calls.map Race.Call.req).length := by simpa using hlt
    have hsame : gate.calls[i'].req = (gate.calls.map Race.Call.req)[i'] := by simp
    rw [List.map_set, hsame, List.set_getElem_self]

/-- A handler that is not called yet stays so in the steps of the others. -/
theorem speech_started {b : SpeechServer.Act} {speech : SpeechServer} (hb : isReceive b = false)
    (hspeech : (SpeechServer.system lib deps p).step s.speech b = some speech) {i : Nat}
    (hi : (speech.calls i).pc ≠ .idle) : (s.speech.calls i).pc ≠ .idle := by
  intro hidle
  refine hi (SpeechServer.step_idle hspeech (fun req now heq => ?_) hidle)
  rw [heq] at hb
  cases hb

/-- A handler is called by its own first step only. -/
theorem receive_started {i j : Nat} {req : HttpRequest} {now : Int} {speech : SpeechServer}
    (hspeech : (SpeechServer.system lib deps p).step s.speech (.receive i req now) = some speech)
    (hj : (speech.calls j).pc ≠ .idle) : j = i ∨ (s.speech.calls j).pc ≠ .idle := by
  by_cases hne : j = i
  · exact .inl hne
  · refine .inr fun hidle => hj (SpeechServer.step_idle hspeech (fun req' now' heq => ?_) hidle)
    cases heq
    exact hne rfl

theorem step_aligned (hi : s.Aligned) (hst : (system lib cfg deps p).step s a = some s') :
    s'.Aligned := by
  cases step_moves hst with
  | @arrive req happ =>
    refine ⟨by simp [hi.calls], ?_, fun i hpc => ?_⟩
    · intro req' hmem
      rcases List.mem_append.mp hmem with hmem | hmem
      · exact hi.api req' hmem
      · rw [List.mem_singleton.mp hmem]
        exact happ
    · obtain ⟨hpass, req', hreq', hroute⟩ := hi.started i hpc
      obtain ⟨hlt, _⟩ := List.getElem?_eq_some_iff.mp hreq'
      have hlen : s.gate.calls.length = s.requests.length := by
        simpa using congrArg List.length hi.calls
      refine ⟨?_, req', by rw [List.getElem?_append_left hlt, hreq'], hroute⟩
      rw [letThrough_phase] at hpass ⊢
      simpa [phaseOf, List.getElem?_append_left (hlen ▸ hlt)] using hpass
  | @gate i m gate hgate =>
    refine ⟨(gate_requests hgate).trans hi.calls, hi.api, fun j hpc => ?_⟩
    obtain ⟨hpass, hreq⟩ := hi.started j hpc
    exact ⟨gate_letThrough hgate hpass, hreq⟩
  | @receive i now req speech hreq hroute hpass hspeech =>
    refine ⟨hi.calls, hi.api, fun j hpc => ?_⟩
    rcases receive_started hspeech hpc with rfl | hstarted
    · exact ⟨hpass, req, hreq, hroute⟩
    · exact hi.started j hstarted
  | speech hb hspeech =>
    exact ⟨hi.calls, hi.api, fun j hpc => hi.started j (speech_started hb hspeech hpc)⟩

theorem reachable_aligned (h : (system lib cfg deps p).Reachable System.Any s) : s.Aligned := by
  refine System.reachable_inv (I := Aligned) ?_ (fun _ _ _ hi _ hst => step_aligned hi hst) h
  rintro s ⟨now, now', rfl⟩
  exact ⟨rfl, by simp, fun i hpc => absurd rfl hpc⟩

/-- Each speech handler is as far as `handleSpeech` on its own request. -/
theorem reachable_follows (h : (system lib cfg deps p).Reachable System.Any s) :
    ∀ i, SpeechServer.Follows lib deps (· = s.own i) (s.speech.pool.submits i)
      (s.speech.calls i) := by
  refine System.reachable_inv_of (I := fun s => ∀ i, SpeechServer.Follows lib deps (· = s.own i)
    (s.speech.pool.submits i) (s.speech.calls i)) ?_ ?_ h
  · rintro s ⟨now, now', rfl⟩ i
    exact .idle rfl rfl
  · intro s a t hr hi _ hst
    have hspeech := reachable_speech hr
    cases step_moves hst with
    | @arrive req =>
      intro i
      by_cases hidle : (s.speech.calls i).pc = .idle
      · exact .idle hidle ((hi i).metrics_eq_nil hidle)
      · obtain ⟨_, req', hreq', _⟩ := (reachable_aligned hr).started i hidle
        obtain ⟨hlt, _⟩ := List.getElem?_eq_some_iff.mp hreq'
        have hown : ({ s with
            gate := { s.gate with calls := s.gate.calls ++ [⟨adaptRequest req, .start⟩] }
            requests := s.requests ++ [req] } : Service).own i = s.own i := by
          simp only [own, List.getElem?_append_left hlt]
        rw [hown]
        exact hi i
    | gate => exact hi
    | @receive i now req speech hreq _ _ hreceive =>
      refine SpeechServer.step_follows (R := fun i req => req = s.own i) hspeech hi ?_ hreceive
      intro j req' now' heq
      cases heq
      simp only [own, hreq, Option.getD_some]
    | speech hb hother =>
      refine SpeechServer.step_follows (R := fun i req => req = s.own i) hspeech hi ?_ hother
      intro j req' now' heq
      rw [heq] at hb
      cases hb

/-- Each speech handler works on its own request. -/
theorem reachable_serves (h : (system lib cfg deps p).Reachable System.Any s) (i : Nat) :
    SpeechServer.Serves lib deps (s.own i) (s.speech.pool.submits i) (s.speech.calls i) :=
  (reachable_follows h i).serves (SpeechServer.reachable_linked (reachable_speech h) i)

/-! ## Decisions of the middleware -/

/-- The limiters and moments that the steps of the `i`th middleware call met: the
failure limiter when it asked that, and the request limiter, unless it was
blocked, when it asked this one. -/
structure Met (cfg : ServerConfig) (moments : List (Service × Act)) (i : Nat) (req : HttpRequest)
    (lim : Limiters) (ms : Moments) : Prop where
  auth : ∃ t, (t, Act.gate i ms.blocked) ∈ moments ∧ t.phaseOf i = some .start ∧
    t.gate.limiters.auth = lim.auth
  request : (cfg.requireAuth = true ∧
      (lim.auth.isBlocked (clientIp cfg req) ms.blocked.t.now).1 = true) ∨
    ∃ t, (t, Act.gate i ms.request) ∈ moments ∧ t.phaseOf i = some .atRequest ∧
      t.gate.limiters.request = lim.request

/-- The failure limiter does not block the request. -/
def Unblocked (cfg : ServerConfig) (req : HttpRequest) (lim : Limiters) (ms : Moments) : Prop :=
  cfg.requireAuth = true → (lim.auth.isBlocked (clientIp cfg req) ms.blocked.t.now).1 = false

/-- The request limiter has room for it. -/
def Allowed (cfg : ServerConfig) (req : HttpRequest) (lim : Limiters) (ms : Moments) : Prop :=
  (lim.request.checkRequest ms.request.requestOrd (clientIp cfg req) ms.request.t).1 ≤ 0

/-- What a middleware call has found out when it is at a phase. -/
def Found (lib : JsonLib) (cfg : ServerConfig) (moments : List (Service × Act)) (i : Nat)
    (req : HttpRequest) (lim : Limiters) (ms : Moments) : Phase → Prop
  | .start => True
  | .atRequest =>
    (∃ t, (t, Act.gate i ms.blocked) ∈ moments ∧ t.phaseOf i = some .start ∧
      t.gate.limiters.auth = lim.auth) ∧ Unblocked cfg req lim ms
  | .atCompare =>
    Met cfg moments i req lim ms ∧ cfg.requireAuth = true ∧ Unblocked cfg req lim ms ∧
      Allowed cfg req lim ms
  | .atRecord r =>
    Met cfg moments i req lim ms ∧ cfg.requireAuth = true ∧ Unblocked cfg req lim ms ∧
      Allowed cfg req lim ms ∧
      r = checkBearerAuth (req.header (utf8 "authorization")) cfg.apiKey ∧ r.authenticated = false
  | .done result =>
    Met cfg moments i req lim ms ∧ (runMiddleware lib cfg ms lim req).result = result

variable {moments : List (Service × Act)} {i : Nat} {req : HttpRequest}

theorem Met.append {lim : Limiters} {ms : Moments} (h : Met cfg moments i req lim ms)
    (later : List (Service × Act)) : Met cfg (moments ++ later) i req lim ms where
  auth :=
    let ⟨t, hmem, ht⟩ := h.auth
    ⟨t, List.mem_append_left _ hmem, ht⟩
  request := h.request.imp_right fun ⟨t, hmem, ht⟩ => ⟨t, List.mem_append_left _ hmem, ht⟩

theorem Found.append {lim : Limiters} {ms : Moments} {phase : Phase}
    (h : Found lib cfg moments i req lim ms phase) (later : List (Service × Act)) :
    Found lib cfg (moments ++ later) i req lim ms phase := by
  cases phase with
  | start => trivial
  | atRequest =>
    obtain ⟨⟨t, hmem, ht⟩, hunblocked⟩ := h
    exact ⟨⟨t, List.mem_append_left _ hmem, ht⟩, hunblocked⟩
  | atCompare => exact ⟨h.1.append later, h.2⟩
  | atRecord r => exact ⟨h.1.append later, h.2⟩
  | done result => exact ⟨h.1.append later, h.2⟩

/-- The routes behind the middleware are no internal endpoints. -/
theorem IsApi.path {req : HttplibRequest} (h : IsApi req) :
    isInternalEndpoint (adaptRequest req).path = false := by
  have hpath : req.path = utf8 "/v1/voices" ∨ req.path = utf8 "/v1/audio/speech" := by
    unfold IsApi routeOf at h
    split at h
    · repeat' split at h
      all_goals simp_all
    · split at h
      · next hpost => exact .inr hpost.2
      · simp at h
  change isInternalEndpoint req.path = false
  rcases hpath with hpath | hpath <;> rw [hpath] <;> decide

/-- The first step finds out whether the address is blocked. -/
theorem start_found {m : Moment} {phase' : Phase} {lim' : Limiters} {ops : List MetricOp}
    (hphase : s.phaseOf i = some .start) (hpath : isInternalEndpoint req.path = false)
    (hstep : Phase.step lib cfg req m s.gate.limiters .start = some (phase', lim', ops)) :
    ∃ lim ms, Found lib cfg (moments ++ [(s, .gate i m)]) i req lim ms phase' := by
  have hnow : (s, Act.gate i m) ∈ moments ++ [(s, .gate i m)] :=
    List.mem_append_right _ (List.mem_singleton_self _)
  have hauth : ∃ t, (t, Act.gate i m) ∈ moments ++ [(s, .gate i m)] ∧
      t.phaseOf i = some .start ∧ t.gate.limiters.auth = s.gate.limiters.auth :=
    ⟨s, hnow, hphase, rfl⟩
  refine ⟨s.gate.limiters, ⟨m, m, m⟩, ?_⟩
  simp only [Phase.step, hpath, Bool.false_eq_true, if_false] at hstep
  split at hstep
  · next hrequire =>
    split at hstep
    · next hblocked =>
      cases hstep
      refine ⟨⟨hauth, .inl ⟨hrequire, hblocked⟩⟩, ?_⟩
      simp only [runMiddleware, hpath, hrequire, hblocked, Bool.false_eq_true, if_false, if_true]
    · next hblocked =>
      cases hstep
      exact ⟨hauth, fun _ => Bool.not_eq_true _ ▸ hblocked⟩
  · next hrequire =>
    cases hstep
    exact ⟨hauth, fun h => absurd h hrequire⟩

/-- The second one asks the request limiter. -/
theorem request_found {m : Moment} {phase' : Phase} {lim' : Limiters} {ops : List MetricOp}
    (hphase : s.phaseOf i = some .atRequest) (hpath : isInternalEndpoint req.path = false)
    (h : ∃ lim ms, Found lib cfg moments i req lim ms .atRequest)
    (hstep : Phase.step lib cfg req m s.gate.limiters .atRequest = some (phase', lim', ops)) :
    ∃ lim ms, Found lib cfg (moments ++ [(s, .gate i m)]) i req lim ms phase' := by
  have hnow : (s, Act.gate i m) ∈ moments ++ [(s, .gate i m)] :=
    List.mem_append_right _ (List.mem_singleton_self _)
  obtain ⟨lim, ms, ⟨t, hmem, ht⟩, hunblocked⟩ := h
  let lim₂ : Limiters := { auth := lim.auth, request := s.gate.limiters.request }
  let ms₂ : Moments := { ms with request := m }
  have hmet : Met cfg (moments ++ [(s, .gate i m)]) i req lim₂ ms₂ :=
    ⟨⟨t, List.mem_append_left _ hmem, ht⟩, .inr ⟨s, hnow, hphase, rfl⟩⟩
  refine ⟨lim₂, ms₂, ?_⟩
  simp only [Phase.step] at hstep
  split at hstep
  · next hlimited =>
    cases hstep
    refine ⟨hmet, ?_⟩
    cases hrequire : cfg.requireAuth with
    | true =>
      simp only [runMiddleware, hpath, hrequire, lim₂, ms₂, hunblocked hrequire, hlimited,
        Bool.false_eq_true, if_false, if_true]
    | false =>
      simp only [runMiddleware, hpath, hrequire, lim₂, ms₂, hlimited, Bool.false_eq_true,
        if_false, if_true]
  · next hlimited =>
    split at hstep
    · next hrequire =>
      cases hstep
      exact ⟨hmet, hrequire, hunblocked, Int.not_lt.mp hlimited⟩
    · next hrequire =>
      cases hstep
      refine ⟨hmet, ?_⟩
      simp only [runMiddleware, hpath, Bool.not_eq_true _ ▸ hrequire, lim₂, ms₂, hlimited,
        Bool.false_eq_true, if_false]

/-- What a step of a middleware call adds to what it has found out. -/
theorem phase_found {m : Moment} {phase phase' : Phase} {lim' : Limiters} {ops : List MetricOp}
    (hphase : s.phaseOf i = some phase) (hpath : isInternalEndpoint req.path = false)
    (h : phase ≠ .start → ∃ lim ms, Found lib cfg moments i req lim ms phase)
    (hstep : phase.step lib cfg req m s.gate.limiters = some (phase', lim', ops)) :
    ∃ lim ms, Found lib cfg (moments ++ [(s, .gate i m)]) i req lim ms phase' := by
  cases phase with
  | start => exact start_found hphase hpath hstep
  | atRequest => exact request_found hphase hpath (h (by simp)) hstep
  | atCompare =>
    obtain ⟨lim, ms, hmet, hrequire, hunblocked, hallowed⟩ := h (by simp)
    refine ⟨lim, ms, ?_⟩
    simp only [Phase.step] at hstep
    split at hstep
    · next hfails =>
      cases hstep
      exact ⟨hmet.append _, hrequire, hunblocked, hallowed, rfl, by simpa using hfails⟩
    · next hfails =>
      cases hstep
      refine ⟨hmet.append _, ?_⟩
      simp only [runMiddleware, hpath, hrequire, hunblocked hrequire, Int.not_lt.mpr hallowed,
        hfails, Bool.false_eq_true, if_false, if_true]
  | atRecord r =>
    obtain ⟨lim, ms, hmet, hrequire, hunblocked, hallowed, rfl, hfails⟩ := h (by simp)
    refine ⟨lim, ms, ?_⟩
    cases hstep
    refine ⟨hmet.append _, ?_⟩
    simp only [runMiddleware, hpath, hrequire, hunblocked hrequire, Int.not_lt.mpr hallowed, hfails,
      Bool.false_eq_true, if_false, if_true, Bool.not_false]
  | done result => cases hstep

/-- In every run each middleware call has found out what its phase says. -/
theorem history_found (h : (system lib cfg deps p).History System.Any moments s) :
    ∀ i call, s.gate.calls[i]? = some call → call.phase ≠ .start →
      ∃ lim ms, Found lib cfg moments i call.req lim ms call.phase := by
  refine System.history_inv (I := fun moments s => ∀ i call, s.gate.calls[i]? = some call →
    call.phase ≠ .start → ∃ lim ms, Found lib cfg moments i call.req lim ms call.phase) ?_ ?_ h
  · rintro s ⟨now, now', rfl⟩ i call hcall
    cases hcall
  · intro moments s a t hr hi _ hst i call hcall hphase
    have hkeep (hold : s.gate.calls[i]? = some call) :
        ∃ lim ms, Found lib cfg (moments ++ [(s, a)]) i call.req lim ms call.phase := by
      obtain ⟨lim, ms, hfound⟩ := hi i call hold hphase
      exact ⟨lim, ms, hfound.append _⟩
    cases step_moves hst with
    | @arrive req =>
      by_cases hlt : i < s.gate.calls.length
      · exact hkeep (by rwa [List.getElem?_append_left hlt] at hcall)
      · rw [List.getElem?_append_right (Nat.not_lt.mp hlt)] at hcall
        obtain ⟨_, rfl⟩ := List.getElem?_eq_some_iff.mp hcall
        simp at hphase
    | @gate j m gate hgate =>
      rcases Race.step_cases hgate with ⟨_, ha, _⟩ | ⟨j', m', call', phase, lim', ops, ha, hcall',
        _, _, hstep, rfl⟩
      · cases ha
      · cases ha
        by_cases hne : j = i
        · subst hne
          obtain ⟨hlt, _⟩ := List.getElem?_eq_some_iff.mp hcall'
          rw [List.getElem?_set_self hlt] at hcall
          cases hcall
          obtain ⟨req, _, hreq, happ⟩ := (reachable_aligned hr).call hcall'
          have hold : s.phaseOf j = some call'.phase := by simp only [phaseOf, hcall', Option.map]
          exact phase_found hold (hreq ▸ happ.path) (hi j call' hcall') hstep
        · rw [List.getElem?_set_ne hne] at hcall
          exact hkeep hcall
    | receive => exact hkeep hcall
    | speech => exact hkeep hcall

/-! ## Answers -/

/-- What the route has answered, once its middleware call and its handler are at
their end. -/
def answer (lib : JsonLib) (deps : HandlerDeps) (s : Service) (i : Nat) :
    Option (Except JsonError HttpResponse) :=
  match s.phaseOf i, s.requests[i]? with
  | some (.done (.error e)), _ => some (.error e)
  | some (.done (.ok (some resp))), _ => some (.ok resp)
  | some (.done (.ok none)), some req =>
    if routeOf req = some .voices then some (handleVoices lib deps)
    else
      match (s.speech.calls i).pc with
      | .ended result => some result
      | _ => none
  | _, _ => none

/-- How an answer comes about. -/
inductive Answers (lib : JsonLib) (deps : HandlerDeps) (s : Service) (i : Nat)
    (req : HttplibRequest) : Except JsonError HttpResponse → Prop
  | threw {e : JsonError} : s.phaseOf i = some (.done (.error e)) →
      Answers lib deps s i req (.error e)
  | refused {resp : HttpResponse} : s.phaseOf i = some (.done (.ok (some resp))) →
      Answers lib deps s i req (.ok resp)
  | voices : s.phaseOf i = some (.done (.ok none)) → routeOf req = some .voices →
      Answers lib deps s i req (handleVoices lib deps)
  | speech {result : Except JsonError HttpResponse} : s.phaseOf i = some (.done (.ok none)) →
      routeOf req = some .speech → (s.speech.calls i).pc = .ended result →
      Answers lib deps s i req result

theorem answer_cases (hi : s.Aligned) {result : Except JsonError HttpResponse}
    (h : answer lib deps s i = some result) :
    ∃ req, s.requests[i]? = some req ∧ IsApi req ∧ Answers lib deps s i req result := by
  have hreq {phase : Phase} (hphase : s.phaseOf i = some phase) :
      ∃ req, s.requests[i]? = some req ∧ IsApi req := by
    obtain ⟨call, hcall, _⟩ := Option.map_eq_some_iff.mp hphase
    obtain ⟨req, hreq, _, happ⟩ := hi.call hcall
    exact ⟨req, hreq, happ⟩
  unfold answer at h
  split at h
  · next hphase =>
    cases h
    obtain ⟨req, hreq, happ⟩ := hreq hphase
    exact ⟨req, hreq, happ, .threw hphase⟩
  · next hphase =>
    cases h
    obtain ⟨req, hreq, happ⟩ := hreq hphase
    exact ⟨req, hreq, happ, .refused hphase⟩
  · next req hphase hreq =>
    have happ := hi.api req (List.mem_of_getElem? hreq)
    refine ⟨req, hreq, happ, ?_⟩
    split at h
    · next hvoices =>
      cases h
      exact .voices hphase hvoices
    · next hnot =>
      split at h
      · next hpc =>
        cases h
        exact .speech hphase (happ.resolve_right hnot) hpc
      · cases h
  · cases h

/-- What the handler of a route behind the middleware answers. -/
def handleOf (lib : JsonLib) (deps : HandlerDeps) (req : HttplibRequest) (scene : Scene) :
    Route → Except JsonError HttpResponse
  | .voices => handleVoices lib deps
  | _ => (handleSpeech lib deps scene.pool scene.start scene.stop (adaptRequest req)).result

/-- The middleware answers, or the handler does. -/
def orHandle (middleware : Except JsonError (Option HttpResponse))
    (handle : Except JsonError HttpResponse) : Except JsonError HttpResponse :=
  middleware.bind fun answer =>
    match answer with
    | some resp => .ok resp
    | none => handle

/-- What a route behind the middleware leaves. -/
theorem runRoute_result (lib : JsonLib) (listener : Listener) (rng : Nat → UInt32)
    (cfg : ServerConfig) (deps : HandlerDeps) (t : Thread) (scene : Scene) {req : HttplibRequest}
    {route : Route} (happ : IsApi req) (hroute : routeOf req = some route) :
    (runRoute lib listener rng cfg deps t req scene route).result =
      (orHandle (middlewareOf lib cfg req scene) (handleOf lib deps req scene route)).map
        fun resp => some
          (adaptResponse listener (applySecurityHeaders resp (requestIdAt rng t.draws)) {}) := by
  have hhandler (before : List Str) (middleware : Except JsonError (Option HttpResponse))
      (handle : Except JsonError HttpResponse) (during : List Str)
      (after : HttpResponse → List Str) :
      (runHandler listener rng t {} before middleware handle during after).result =
        (orHandle middleware handle).map fun resp => some
          (adaptResponse listener (applySecurityHeaders resp (requestIdAt rng t.draws)) {}) := by
    unfold runHandler generateRequestId
    cases middleware with
    | error e => rfl
    | ok answer =>
      cases answer with
      | some resp => rfl
      | none => cases handle <;> rfl
  rcases happ with happ | happ <;> rw [hroute] at happ <;> cases happ <;> exact hhandler ..

/-- The middleware's part of an answer, and the handler's in any scene with the
right answers of the pool. -/
theorem Answers.parts {req : HttplibRequest} {route : Route}
    {result : Except JsonError HttpResponse} (hr : (system lib cfg deps p).Reachable System.Any s)
    (hreq : s.requests[i]? = some req) (hroute : routeOf req = some route)
    (h : Answers lib deps s i req result) :
    ∃ mw pool start stop, s.phaseOf i = some (.done mw) ∧ ∀ view lim ms messages,
      orHandle mw (handleOf lib deps req
        { toServerView := view, limiters := lim, moments := ms, pool := pool, start := start,
          stop := stop, submitMessages := messages } route) = result := by
  cases h with
  | threw hphase => exact ⟨_, none, 0, 0, hphase, fun _ _ _ _ => rfl⟩
  | refused hphase => exact ⟨_, none, 0, 0, hphase, fun _ _ _ _ => rfl⟩
  | voices hphase hvoices =>
    rw [hroute] at hvoices
    cases hvoices
    exact ⟨_, none, 0, 0, hphase, fun _ _ _ _ => rfl⟩
  | speech hphase hspeech hpc =>
    rw [hroute] at hspeech
    cases hspeech
    obtain ⟨view, stop, hcall⟩ := (reachable_serves hr i).outcome hpc
    have hown : s.own i = adaptRequest req := by simp only [own, hreq, Option.getD_some]
    rw [hown] at hcall
    refine ⟨_, some view, (s.speech.calls i).start, stop, hphase, fun _ _ _ _ => ?_⟩
    simp only [orHandle, handleOf, hcall, Except.bind]

/-- **Concurrent requests are answered one by one.** In every run, whatever the
other requests, the worker and a shutdown do in between, the answer to a request
is what its route answers on its own, for some answers of the pool and for the
limiters that the steps of its middleware call met. -/
theorem concurrent_answers (h : (system lib cfg deps p).History System.Any moments s)
    {result : Except JsonError HttpResponse} (ha : answer lib deps s i = some result) :
    ∃ req route scene, s.requests[i]? = some req ∧ routeOf req = some route ∧
      Met cfg moments i (adaptRequest req) scene.limiters scene.moments ∧
      ∀ listener rng t, (runRoute lib listener rng cfg deps t req scene route).result =
        result.map fun resp => some
          (adaptResponse listener (applySecurityHeaders resp (requestIdAt rng t.draws)) {}) := by
  have haligned := reachable_aligned h.reachable
  obtain ⟨req, hreq, happ, hanswers⟩ := answer_cases haligned ha
  obtain ⟨route, hroute⟩ : ∃ route, routeOf req = some route :=
    happ.elim (fun hroute => ⟨_, hroute⟩) fun hroute => ⟨_, hroute⟩
  obtain ⟨mw, pool, start, stop, hphase, hparts⟩ := hanswers.parts h.reachable hreq hroute
  -- what the middleware call found out is what it answers on its own
  obtain ⟨call, hcall, hcallPhase⟩ := Option.map_eq_some_iff.mp hphase
  obtain ⟨req', hreq', hcallReq, _⟩ := haligned.call hcall
  rw [hreq] at hreq'
  cases hreq'
  obtain ⟨lim, ms, hfound⟩ := history_found h i call hcall (by rw [hcallPhase]; nofun)
  rw [hcallPhase, hcallReq] at hfound
  obtain ⟨hmet, hrun⟩ := hfound
  refine ⟨req, route, { limiters := lim, moments := ms, pool := pool, start := start,
                        stop := stop }, hreq, hroute, hmet, fun listener rng t => ?_⟩
  rw [runRoute_result lib listener rng cfg deps t _ happ hroute, middlewareOf, hrun, hparts]

/-- The service without authentication, before any request. -/
def exService : Service := { gate := { limiters := .ofConfig exOpenConfig, clock := 0 } }

theorem exService_init (lib : JsonLib) (deps : HandlerDeps) (p : InferencePool.Params) :
    (system lib exOpenConfig deps p).init exService := ⟨0, 0, rfl⟩

/-- Two requests arrive, and the one whose body is no JSON is answered. -/
def exOopsRun : List Act :=
  [.arrive (exGet "/v1/voices"), .arrive (exPost (utf8 "oops")), .gate 1 exMoment,
   .gate 0 exMoment, .gate 1 exMoment, .receive 1 0]

/-- The answer in this run is the one of the route. -/
theorem concurrent_answers_oops : ∃ s result,
    (system exSpeechLib exOpenConfig {} {}).Reachable System.Any s ∧
    answer exSpeechLib {} s 1 = some result ∧ SpeechServer.AnsweredWith result 400 ∧
    ∃ scene, (speechRoute exSpeechLib exListener (fun _ => 0) exOpenConfig {} {}
        (exPost (utf8 "oops")) scene {}).result =
      result.map fun resp => some
        (adaptResponse exListener (applySecurityHeaders resp (requestIdAt (fun _ => 0) 0)) {}) := by
  obtain ⟨s, hrun, _⟩ :=
    System.exists_reaches (S := system exSpeechLib exOpenConfig {} {}) (G := System.Any)
      (s := exService) exOopsRun (by decide)
  have hhistory : (system exSpeechLib exOpenConfig {} {}).History System.Any _ s :=
    ⟨exService, exService_init .., System.runs_of_run _ hrun⟩
  cases hrun
  obtain ⟨req, route, scene, hreq, hroute, _, heq⟩ := concurrent_answers (i := 1) hhistory rfl
  cases hreq
  cases hroute
  exact ⟨_, _, hhistory.reachable, rfl, ⟨_, rfl, rfl⟩, scene, heq exListener (fun _ => 0) {}⟩

end Service
end VoxtralServer
