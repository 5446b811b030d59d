import VoxtralServer.Server.Response

/-!
# The routes

The handlers that `register_routes` registers, and the requests that one thread
of the listener serves one after the other. Each handler but two generates an
id, sets it for the log, marks its response with it, and resets it.

* `Framed`: what a handler leaves: a marked response, no request id, and log
  lines under an id of its own.
* `frame_exact`: every handler of a sequence of requests leaves that exactly when
  no request asks for the metrics, and none throws in `handle_speech`.
* `frame_broken`: a request for the metrics, and one whose body is an array.
-/

namespace VoxtralServer

/-! ## Handlers -/

/-- A line of the log, with the request id under which it was written. -/
structure LogLine where
  requestId : Str
  message : Str
deriving DecidableEq

/-- The run of a handler: the thread before and after it, its log lines, and the
response it leaves or the exception that leaves it. The error handler may leave
the response alone. -/
structure HandlerRun where
  start : Thread
  finish : Thread
  lines : List LogLine
  result : Except JsonError (Option HttplibResponse)

/-- What the server is like when a request comes: its limiters, and what the
handlers meet. -/
structure Scene extends ServerView where
  limiters : Limiters
  moments : Moments
  pool : Option PoolView := none
  start : Int := 0
  stop : Int := 0
  /-- What `submit` logs. -/
  submitMessages : List Str := []

section Handlers

variable (lib : JsonLib) (listener : Listener) (rng : Nat → UInt32) (cfg : ServerConfig)
  (deps : HandlerDeps)

/-- A handler that generates an id and sets it, logs, runs the middleware, answers
or goes on with `handle`, which logs as well, and logs the response. -/
def runHandler (t : Thread) (res : HttplibResponse) (before : List Str)
    (middleware : Except JsonError (Option HttpResponse)) (handle : Except JsonError HttpResponse)
    (during : List Str) (after : HttpResponse → List Str) : HandlerRun :=
  let (requestId, named) := generateRequestId rng t
  let named := named.setRequestId requestId
  let log (messages : List Str) := messages.map fun message => LogLine.mk named.requestId message
  match middleware with
  | .error e => { start := t, finish := named, lines := log before, result := .error e }
  | .ok (some answer) =>
    { start := t
      finish := named.setRequestId []
      lines := log before
      result := .ok (some (adaptResponse listener (applySecurityHeaders answer requestId) res)) }
  | .ok none =>
    match handle with
    | .error e =>
      { start := t, finish := named, lines := log (before ++ during), result := .error e }
    | .ok response =>
      { start := t
        finish := named.setRequestId []
        lines := log (before ++ during ++ after response)
        result :=
          .ok (some (adaptResponse listener (applySecurityHeaders response requestId) res)) }

/-- `GET /health`. -/
def healthRoute (t : Thread) (scene : Scene) (res : HttplibResponse) : HandlerRun :=
  runHandler listener rng t res [] (.ok none) (handleHealth lib scene.toServerView) [] fun _ => []

/-- `GET /ready`. -/
def readyRoute (t : Thread) (scene : Scene) (res : HttplibResponse) : HandlerRun :=
  runHandler listener rng t res [] (.ok none) (handleReady lib deps scene.toServerView) []
    fun _ => []

/-- `GET /metrics`: no id, and no headers of its own. -/
def metricsRoute (t : Thread) (scene : Scene) (res : HttplibResponse) : HandlerRun where
  start := t
  finish := t
  lines := []
  result := .ok (some (adaptResponse listener (handleMetrics scene.toServerView) res))

/-- `run_middleware` on the adapted request. -/
def middlewareOf (req : HttplibRequest) (scene : Scene) : Except JsonError (Option HttpResponse) :=
  (runMiddleware lib cfg scene.moments scene.limiters (adaptRequest req)).result

/-- `GET /v1/voices`. -/
def voicesRoute (t : Thread) (req : HttplibRequest) (scene : Scene) (res : HttplibResponse) :
    HandlerRun :=
  runHandler listener rng t res [] (middlewareOf lib cfg req scene) (handleVoices lib deps) []
    fun _ => []

/-- The log line of a speech request. -/
def speechReceived (req : HttpRequest) : Str :=
  utf8 "POST /v1/audio/speech from " ++ req.remoteAddr ++ utf8 " (" ++ toStr req.body.length ++
    utf8 " bytes)"

/-- The log line of its response. -/
def speechAnswered (resp : HttpResponse) : Str :=
  utf8 "POST /v1/audio/speech → " ++ toStr resp.status ++ utf8 " (" ++
    toStr (if resp.isBinary then resp.binaryBody.length else resp.body.length) ++ utf8 " bytes)"

/-- `POST /v1/audio/speech`. -/
def speechRoute (t : Thread) (req : HttplibRequest) (scene : Scene) (res : HttplibResponse) :
    HandlerRun :=
  let out := handleSpeech lib deps scene.pool scene.start scene.stop (adaptRequest req)
  runHandler listener rng t res [speechReceived (adaptRequest req)] (middlewareOf lib cfg req scene)
    out.result (if out.submits.isEmpty then [] else scene.submitMessages)
    fun response => [speechAnswered response]

/-- The error handler: answers when the status is 404. -/
def errorHandler (t : Thread) (res : HttplibResponse) : HandlerRun :=
  if res.status = 404 then
    match makeErrorResponse lib 404 (utf8 "invalid_request_error") (utf8 "not_found")
      (utf8 "The requested endpoint does not exist.") with
    | .error e => { start := t, finish := t, lines := [], result := .error e }
    | .ok response =>
      let (requestId, named) := generateRequestId rng t
      let response := applySecurityHeaders response requestId
      { start := t
        finish := named
        lines := []
        result := .ok (some ((res.setHeaders listener response.headers).setContent listener
          response.body (utf8 "application/json"))) }
  else { start := t, finish := t, lines := [], result := .ok none }

/-! ## Requests -/

/-- The registered routes. -/
inductive Route
  | health
  | ready
  | metrics
  | voices
  | speech
deriving DecidableEq

/-- The route of a request. Those of GET serve HEAD as well. -/
def routeOf (req : HttplibRequest) : Option Route :=
  if req.method = utf8 "GET" ∨ req.method = utf8 "HEAD" then
    if req.path = utf8 "/health" then some .health
    else if req.path = utf8 "/ready" then some .ready
    else if req.path = utf8 "/metrics" then some .metrics
    else if req.path = utf8 "/v1/voices" then some .voices
    else none
  else if req.method = utf8 "POST" ∧ req.path = utf8 "/v1/audio/speech" then some .speech
  else none

/-- The handler of a route. -/
def runRoute (t : Thread) (req : HttplibRequest) (scene : Scene) : Route → HandlerRun
  | .health => healthRoute lib listener rng t scene {}
  | .ready => readyRoute lib listener rng deps t scene {}
  | .metrics => metricsRoute listener t scene {}
  | .voices => voicesRoute lib listener rng cfg deps t req scene {}
  | .speech => speechRoute lib listener rng cfg deps t req scene {}

/-- The error handler runs on every status from 400 on. -/
def onError (t : Thread) (res : HttplibResponse) : List HandlerRun :=
  if 400 ≤ res.status then [errorHandler lib listener rng t res] else []

/-- The response after a handler. -/
def HandlerRun.response (run : HandlerRun) (req : HttplibRequest) : HttplibResponse :=
  match run.result with
  | .ok res => res.getD {}
  | .error e => listener.thrown req e

/-- The handlers that one request runs. -/
def serve (t : Thread) (req : HttplibRequest) (scene : Scene) : List HandlerRun :=
  match routeOf req with
  | some route =>
    let run := runRoute lib listener rng cfg deps t req scene route
    run :: onError lib listener rng run.finish (run.response listener req)
  | none => onError lib listener rng t (listener.unrouted req)

/-- The thread that some runs leave. -/
def threadAfter (t : Thread) (runs : List HandlerRun) : Thread :=
  (runs.getLast?.map HandlerRun.finish).getD t

/-- The handlers that a sequence of requests runs on a thread. -/
def serveAll (t : Thread) : List (HttplibRequest × Scene) → List HandlerRun
  | [] => []
  | (req, scene) :: requests =>
    let runs := serve lib listener rng cfg deps t req scene
    runs ++ serveAll (threadAfter t runs) requests

end Handlers

/-! ## What a handler leaves -/

/-- The mandatory headers, with this id. -/
structure Marked (res : HttplibResponse) (requestId : Str) : Prop where
  contentTypeOptions : (utf8 "X-Content-Type-Options", utf8 "nosniff") ∈ res.headers
  cacheControl : (utf8 "Cache-Control", utf8 "no-store") ∈ res.headers
  requestId : (utf8 "X-Request-Id", requestId) ∈ res.headers

/-- The id is made of numbers that the handler has drawn. -/
def HandlerRun.Draws (rng : Nat → UInt32) (run : HandlerRun) (requestId : Str) : Prop :=
  ∃ n, run.start.draws ≤ n ∧ n + 4 ≤ run.finish.draws ∧ requestId = requestIdAt rng n

/-- The handler has marked its response with a fresh id, its log lines are under
such an id, and no id is set when it has finished. -/
structure Framed (rng : Nat → UInt32) (run : HandlerRun) : Prop where
  marked : ∀ res, run.result = .ok (some res) → ∃ id, run.Draws rng id ∧ Marked res id
  lines : ∀ line ∈ run.lines, run.Draws rng line.requestId
  reset : run.finish.requestId = []

variable {lib : JsonLib} {listener : Listener} {rng : Nat → UInt32} {cfg : ServerConfig}
  {deps : HandlerDeps} {t : Thread} {res : HttplibResponse}

theorem applySecurityHeaders_lookup (resp : HttpResponse) (requestId : Str) :
    (applySecurityHeaders resp requestId).headers.lookup (utf8 "X-Content-Type-Options") =
      some (utf8 "nosniff") ∧
    (applySecurityHeaders resp requestId).headers.lookup (utf8 "Cache-Control") =
      some (utf8 "no-store") ∧
    (applySecurityHeaders resp requestId).headers.lookup (utf8 "X-Request-Id") =
      some requestId := by
  refine ⟨?_, ?_, AList.lookup_insert _⟩
  · rw [applySecurityHeaders, AList.lookup_insert_ne (by decide),
      AList.lookup_insert_ne (by decide), AList.lookup_insert]
  · rw [applySecurityHeaders, AList.lookup_insert_ne (by decide), AList.lookup_insert]

/-- The listener takes the mandatory headers. -/
theorem marked_of_lookup (hlistener : listener.Documented) (resp : HttpResponse) {n : Nat}
    (h : ∀ name value, (applySecurityHeaders resp (requestIdAt rng n)).headers.lookup name =
      some value → listener.isFieldName name = true → listener.isFieldValue value = true →
      toLower name ≠ utf8 "content-type" → (name, value) ∈ res.headers) :
    Marked res (requestIdAt rng n) := by
  obtain ⟨hoptions, hcache, hid⟩ := applySecurityHeaders_lookup resp (requestIdAt rng n)
  obtain ⟨hne, hvisible⟩ := requestIdAt_visible rng n
  have hname (name : String) (hne : utf8 name ≠ []) (h : (utf8 name).all isNameChar = true) :
      listener.isFieldName (utf8 name) = true :=
    hlistener.fieldName _ hne (List.all_eq_true.mp h)
  have hvalue (value : String) (hne : utf8 value ≠ []) (h : (utf8 value).all isVisible = true) :
      listener.isFieldValue (utf8 value) = true :=
    hlistener.fieldValue _ hne (List.all_eq_true.mp h)
  constructor
  · exact h _ _ hoptions (hname _ (by decide) (by decide)) (hvalue _ (by decide) (by decide))
      (by decide)
  · exact h _ _ hcache (hname _ (by decide) (by decide)) (hvalue _ (by decide) (by decide))
      (by decide)
  · exact h _ _ hid (hname _ (by decide) (by decide)) (hlistener.fieldValue _ hne hvisible)
      (by decide)

theorem requestIdAt_ne_nil (rng : Nat → UInt32) (n : Nat) : requestIdAt rng n ≠ [] :=
  (requestIdAt_visible rng n).1

section RunHandler

variable {before during : List Str} {middleware : Except JsonError (Option HttpResponse)}
  {handle : Except JsonError HttpResponse} {after : HttpResponse → List Str}

/-- The id is drawn first, and every line is under it. -/
theorem runHandler_draws (listener : Listener) (rng : Nat → UInt32) (t : Thread)
    (res : HttplibResponse) (before : List Str)
    (middleware : Except JsonError (Option HttpResponse)) (handle : Except JsonError HttpResponse)
    (during : List Str) (after : HttpResponse → List Str) :
    (runHandler listener rng t res before middleware handle during after).start = t ∧
    (runHandler listener rng t res before middleware handle during after).finish.draws =
      t.draws + 4 ∧
    ∀ line ∈ (runHandler listener rng t res before middleware handle during after).lines,
      line.requestId = requestIdAt rng t.draws := by
  unfold runHandler generateRequestId
  dsimp only
  split
  · exact ⟨rfl, rfl, by simp [Thread.setRequestId]⟩
  · exact ⟨rfl, rfl, by simp [Thread.setRequestId]⟩
  · split
    · exact ⟨rfl, rfl, by simp [Thread.setRequestId, or_imp, forall_and]⟩
    · exact ⟨rfl, rfl, by simp [Thread.setRequestId, or_imp, forall_and]⟩

/-- A handler leaves the frame when it returns, and does not when it throws. -/
theorem runHandler_framed (hlistener : listener.Documented) :
    Framed rng (runHandler listener rng t res before middleware handle during after) ↔
      ∃ answer, middleware = .ok answer ∧ (answer = none → ∃ resp, handle = .ok resp) := by
  obtain ⟨hstart, hdraws, hlines⟩ :=
    runHandler_draws listener rng t res before middleware handle during after
  have hown : (runHandler listener rng t res before middleware handle during after).Draws rng
      (requestIdAt rng t.draws) := ⟨t.draws, by rw [hstart], by rw [hdraws], rfl⟩
  have hownLines : ∀ line ∈
      (runHandler listener rng t res before middleware handle during after).lines,
      (runHandler listener rng t res before middleware handle during after).Draws rng
        line.requestId :=
    fun line hline => hlines line hline ▸ hown
  constructor
  · rintro ⟨_, _, hreset⟩
    cases middleware with
    | error e => exact absurd hreset (requestIdAt_ne_nil rng t.draws)
    | ok answer =>
      refine ⟨answer, rfl, ?_⟩
      rintro rfl
      cases handle with
      | error e => exact absurd hreset (requestIdAt_ne_nil rng t.draws)
      | ok resp => exact ⟨resp, rfl⟩
  · rintro ⟨answer, rfl, hhandle⟩
    cases answer with
    | some answer =>
      refine ⟨fun res' h => ?_, hownLines, rfl⟩
      cases h
      exact ⟨_, hown, marked_of_lookup hlistener _ fun name value => adaptResponse_keeps⟩
    | none =>
      obtain ⟨resp, rfl⟩ := hhandle rfl
      refine ⟨fun res' h => ?_, hownLines, rfl⟩
      cases h
      exact ⟨_, hown, marked_of_lookup hlistener _ fun name value => adaptResponse_keeps⟩

end RunHandler

/-! ## The middleware -/

theorem checkBearerAuth_utf8 (authHeader apiKey : Str) :
    ValidUtf8 (checkBearerAuth authHeader apiKey).errorCode ∧
    ValidUtf8 (checkBearerAuth authHeader apiKey).errorMessage := by
  unfold checkBearerAuth
  split
  · exact ⟨validUtf8_utf8 _, validUtf8_utf8 _⟩
  · split
    · exact ⟨validUtf8_utf8 _, validUtf8_utf8 _⟩
    · split
      · exact ⟨validUtf8_nil, validUtf8_nil⟩
      · exact ⟨validUtf8_utf8 _, validUtf8_utf8 _⟩

theorem tooManyRequests_ok (hlib : lib.Documented) (errorCode message : String)
    (retryAfter : Str) :
    ∃ answer, tooManyRequests lib (utf8 errorCode) (utf8 message) retryAfter = .ok answer := by
  obtain ⟨resp, hresp, _⟩ := literalError_ok hlib 429 "rate_limit_error" errorCode message
  exact ⟨_, by rw [tooManyRequests, hresp]; rfl⟩

theorem unauthorized_ok (hlib : lib.Documented) (authHeader apiKey : Str) :
    ∃ answer, unauthorized lib (checkBearerAuth authHeader apiKey) = .ok answer := by
  obtain ⟨hcode, hmessage⟩ := checkBearerAuth_utf8 authHeader apiKey
  obtain ⟨resp, hresp⟩ := makeErrorResponse_ok 401 hlib (validUtf8_utf8 "authentication_error")
    hcode hmessage validUtf8_nil
  exact ⟨_, by rw [unauthorized, hresp]; rfl⟩

/-- The middleware does not throw. -/
theorem runMiddleware_ok (hlib : lib.Documented) (cfg : ServerConfig) (ms : Moments)
    (lim : Limiters) (req : HttpRequest) :
    ∃ answer, (runMiddleware lib cfg ms lim req).result = .ok answer := by
  unfold runMiddleware
  cases isInternalEndpoint req.path with
  | true => exact ⟨none, rfl⟩
  | false =>
    cases cfg.requireAuth with
    | true =>
      simp only [Bool.false_eq_true, if_false, if_true]
      split
      · exact tooManyRequests_ok hlib ..
      · split
        · exact tooManyRequests_ok hlib ..
        · split
          · exact unauthorized_ok hlib ..
          · exact ⟨none, rfl⟩
    | false =>
      simp only [Bool.false_eq_true, if_false]
      split
      · exact tooManyRequests_ok hlib ..
      · exact ⟨none, rfl⟩

/-- The middleware lets the request through: the limiters admit its address, and
with authentication on its header is accepted. -/
structure LetThrough (cfg : ServerConfig) (scene : Scene) (req : HttpRequest) : Prop where
  unblocked : cfg.requireAuth = true →
    (scene.limiters.auth.isBlocked (clientIp cfg req) scene.moments.blocked.t.now).1 = false
  allowed : (scene.limiters.request.checkRequest scene.moments.request.requestOrd
    (clientIp cfg req) scene.moments.request.t).1 ≤ 0
  authenticated : cfg.requireAuth = true →
    (checkBearerAuth (req.header (utf8 "authorization")) cfg.apiKey).authenticated = true

theorem runMiddleware_none (lib : JsonLib) {scene : Scene} {req : HttpRequest}
    (hpath : isInternalEndpoint req.path = false) :
    (runMiddleware lib cfg scene.moments scene.limiters req).result = .ok none ↔
      LetThrough cfg scene req := by
  cases hrequire : cfg.requireAuth with
  | true =>
    rw [runMiddleware_pass hrequire hpath]
    exact ⟨fun ⟨⟨h1, h2⟩, h3⟩ => ⟨fun _ => h1, h2, fun _ => h3⟩,
      fun ⟨h1, h2, h3⟩ => ⟨⟨h1 hrequire, h2⟩, h3 hrequire⟩⟩
  | false =>
    unfold runMiddleware
    simp only [hpath, hrequire, Bool.false_eq_true, if_false]
    split
    · next hlimited =>
      simp only [rateLimited, tooManyRequests_ne, false_iff]
      intro h
      have := h.allowed
      omega
    · next hlimited =>
      exact iff_of_true rfl ⟨fun h => by simp [hrequire] at h, Int.not_lt.mp hlimited,
        fun h => by simp [hrequire] at h⟩

/-! ## The routes -/

theorem headers_setHeader {line line' : Str × Str}
    (h : line ∈ (res.setHeader listener line').headers) : line ∈ res.headers ∨ line = line' := by
  unfold HttplibResponse.setHeader at h
  split at h
  · simpa using h
  · exact .inl h

theorem headers_setHeaders {line : Str × Str} {headers : Table Str Str}
    (h : line ∈ (res.setHeaders listener headers).headers) :
    line ∈ res.headers ∨ headers.lookup line.1 = some line.2 := by
  have hlines (entries : List (Sigma fun _ : Str => Str)) : ∀ {res : HttplibResponse},
      line ∈ (entries.foldl (fun res entry => res.setHeader listener (entry.1, entry.2))
        res).headers → line ∈ res.headers ∨ ⟨line.1, line.2⟩ ∈ entries := by
    induction entries with
    | nil => exact fun h => .inl h
    | cons entry entries ih =>
      intro res h
      rcases ih h with h | h
      · rcases headers_setHeader h with h | rfl
        · exact .inl h
        · exact .inr (by simp)
      · exact .inr (List.mem_cons_of_mem _ h)
  refine (hlines _ h).imp_right fun h => ?_
  have hlookup : (headers.reorder listener.headerOrder).lookup line.1 = some line.2 :=
    AList.mem_lookup_iff.mpr h
  rwa [Table.lookup_reorder] at hlookup

theorem headers_setContent (res : HttplibResponse) {line : Str × Str} {headers : Table Str Str}
    {body contentType : Str}
    (h : line ∈ ((res.setHeaders listener headers).setContent listener body contentType).headers) :
    line ∈ res.headers ∨ headers.lookup line.1 = some line.2 ∨ line.1 = utf8 "Content-Type" := by
  rcases headers_setHeader h with h | rfl
  · exact (headers_setHeaders (List.mem_filter.mp h).1).imp_right .inl
  · exact .inr (.inr rfl)

/-- Every line of an adapted response was there, or is one of the headers, or is
the type of the content. -/
theorem headers_adaptResponse {resp : HttpResponse} {line : Str × Str}
    (h : line ∈ (adaptResponse listener resp res).headers) :
    line ∈ res.headers ∨ resp.headers.lookup line.1 = some line.2 ∨
      line.1 = utf8 "Content-Type" := by
  unfold adaptResponse at h
  dsimp only at h
  split at h
  · exact headers_setContent { res with status := resp.status } h
  · exact headers_setContent { res with status := resp.status } h

/-- The response with the metrics is not marked. -/
theorem metricsRoute_not_framed (scene : Scene) :
    ¬ Framed rng (metricsRoute listener t scene {}) := by
  intro h
  obtain ⟨id, _, hmarked⟩ := h.marked _ rfl
  have hname : utf8 "X-Request-Id" ≠ utf8 "Content-Type" := by decide
  rcases headers_adaptResponse hmarked.requestId with h | h | h
  · cases h
  · rw [handleMetrics, AList.lookup_insert_ne hname] at h
    cases h
  · exact hname h

/-- The request makes no handler leave its frame: it is not for the metrics, and
if it is a speech request that is let through then it does not throw. -/
def Keeps (lib : JsonLib) (cfg : ServerConfig) (deps : HandlerDeps) (req : HttplibRequest)
    (scene : Scene) : Prop :=
  routeOf req ≠ some .metrics ∧
  (routeOf req = some .speech → LetThrough cfg scene (adaptRequest req) →
    ¬ Throws lib deps (adaptRequest req))

theorem routeOf_speech {req : HttplibRequest} (h : routeOf req = some .speech) :
    req.path = utf8 "/v1/audio/speech" := by
  unfold routeOf at h
  split at h
  · repeat' split at h
    all_goals cases h
  · split at h
    · next hpost => exact hpost.2
    · cases h

/-- The handler of a route leaves the frame exactly on such requests. -/
theorem runRoute_framed (hlib : lib.Documented) (hlistener : listener.Documented)
    {req : HttplibRequest} {scene : Scene} {route : Route} (hroute : routeOf req = some route) :
    Framed rng (runRoute lib listener rng cfg deps t req scene route) ↔
      Keeps lib cfg deps req scene := by
  obtain ⟨answer, hanswer⟩ := runMiddleware_ok hlib cfg scene.moments scene.limiters
    (adaptRequest req)
  have hother (h : route ≠ .metrics ∧ route ≠ .speech) : Keeps lib cfg deps req scene :=
    ⟨by rw [hroute]; simpa using h.1, fun hspeech => by
      rw [hroute] at hspeech
      exact absurd (Option.some.inj hspeech) h.2⟩
  cases route with
  | health =>
    refine iff_of_true ((runHandler_framed hlistener).mpr ⟨none, rfl, fun _ => ?_⟩)
      (hother (by decide))
    exact handleHealth_ok hlib
  | ready =>
    refine iff_of_true ((runHandler_framed hlistener).mpr ⟨none, rfl, fun _ => ?_⟩)
      (hother (by decide))
    exact handleReady_ok hlib
  | metrics => exact iff_of_false (metricsRoute_not_framed scene) fun h => h.1 hroute
  | voices =>
    refine iff_of_true ((runHandler_framed hlistener).mpr ⟨answer, hanswer, fun _ => ?_⟩)
      (hother (by decide))
    exact handleVoices_ok hlib
  | speech =>
    have hpath : isInternalEndpoint (adaptRequest req).path = false := by
      rw [show (adaptRequest req).path = req.path from rfl, routeOf_speech hroute]
      decide
    have hpass : answer = none ↔ LetThrough cfg scene (adaptRequest req) := by
      rw [← runMiddleware_none lib hpath, hanswer, Except.ok.injEq]
    refine (runHandler_framed hlistener).trans ?_
    simp only [middlewareOf, hanswer, Except.ok.injEq, exists_eq_left', hpass,
      handleSpeech_throws hlib, Keeps, hroute]
    simp

theorem errorHandler_framed (hlib : lib.Documented) (hlistener : listener.Documented)
    (ht : t.requestId = []) : Framed rng (errorHandler lib listener rng t res) := by
  obtain ⟨resp, hresp, _⟩ := literalError_ok hlib 404 "invalid_request_error" "not_found"
    "The requested endpoint does not exist."
  unfold errorHandler
  split
  · rw [hresp]
    refine ⟨fun res' h => ?_, by simp, ht⟩
    cases h
    refine ⟨_, ⟨t.draws, Nat.le_refl _, Nat.le_refl _, rfl⟩, ?_⟩
    refine marked_of_lookup hlistener resp fun name value hlookup hname hvalue hother => ?_
    exact mem_setContent (mem_setHeaders hlookup hname hvalue) hother
  · refine ⟨fun res' h => ?_, by simp, ht⟩
    cases h

/-! ## Sequences of requests -/

/-- The error handler leaves the request id as it is. -/
theorem errorHandler_thread (lib : JsonLib) (listener : Listener) (rng : Nat → UInt32)
    (t : Thread) (res : HttplibResponse) :
    (errorHandler lib listener rng t res).start = t ∧
    t.draws ≤ (errorHandler lib listener rng t res).finish.draws ∧
    (errorHandler lib listener rng t res).lines = [] := by
  unfold errorHandler
  split
  · split
    · exact ⟨rfl, Nat.le_refl _, rfl⟩
    · exact ⟨rfl, Nat.le_add_right _ _, rfl⟩
  · exact ⟨rfl, Nat.le_refl _, rfl⟩

theorem runRoute_thread (lib : JsonLib) (listener : Listener) (rng : Nat → UInt32)
    (cfg : ServerConfig) (deps : HandlerDeps) (t : Thread) (req : HttplibRequest) (scene : Scene)
    (route : Route) :
    (runRoute lib listener rng cfg deps t req scene route).start = t ∧
    t.draws ≤ (runRoute lib listener rng cfg deps t req scene route).finish.draws ∧
    ∀ line ∈ (runRoute lib listener rng cfg deps t req scene route).lines,
      (runRoute lib listener rng cfg deps t req scene route).Draws rng line.requestId := by
  have hrun {before during : List Str} {middleware : Except JsonError (Option HttpResponse)}
      {handle : Except JsonError HttpResponse} {after : HttpResponse → List Str}
      {run : HandlerRun}
      (heq : run = runHandler listener rng t {} before middleware handle during after) :
      run.start = t ∧ t.draws ≤ run.finish.draws ∧
        ∀ line ∈ run.lines, run.Draws rng line.requestId := by
    subst heq
    obtain ⟨hstart, hdraws, hlines⟩ :=
      runHandler_draws listener rng t {} before middleware handle during after
    refine ⟨hstart, by rw [hdraws]; exact Nat.le_add_right _ _, fun line hline => ?_⟩
    exact ⟨t.draws, by rw [hstart], by rw [hdraws], hlines line hline⟩
  cases route with
  | metrics => exact ⟨rfl, Nat.le_refl _, by simp [runRoute, metricsRoute]⟩
  | health =>
    exact hrun (show _ = runHandler listener rng t {} [] (.ok none)
      (handleHealth lib scene.toServerView) [] (fun _ => []) from rfl)
  | ready =>
    exact hrun (show _ = runHandler listener rng t {} [] (.ok none)
      (handleReady lib deps scene.toServerView) [] (fun _ => []) from rfl)
  | voices => exact hrun rfl
  | speech => exact hrun rfl

/-- The runs follow one another on a thread: each starts where an earlier one has
finished or later, and its log lines are under its own id. -/
structure Follow (rng : Nat → UInt32) (t : Thread) (runs : List HandlerRun) : Prop where
  after : ∀ run ∈ runs, t.draws ≤ run.start.draws ∧ run.start.draws ≤ run.finish.draws
  last : t.draws ≤ (threadAfter t runs).draws ∧
    ∀ run ∈ runs, run.finish.draws ≤ (threadAfter t runs).draws
  pairwise : runs.Pairwise fun run later => run.finish.draws ≤ later.start.draws
  lines : ∀ run ∈ runs, ∀ line ∈ run.lines, run.Draws rng line.requestId

theorem follow_nil (rng : Nat → UInt32) (t : Thread) : Follow rng t [] :=
  ⟨by simp, ⟨Nat.le_refl _, by simp⟩, .nil, by simp⟩

theorem follow_onError : Follow rng t (onError lib listener rng t res) := by
  obtain ⟨hstart, hle, hlines⟩ := errorHandler_thread lib listener rng t res
  unfold onError
  split
  · refine ⟨?_, ?_, List.pairwise_singleton _ _, ?_⟩
    · simp [hstart, hle]
    · simp [threadAfter, hle]
    · simp [hlines]
  · exact follow_nil rng t

theorem Follow.append {runs later : List HandlerRun} (h : Follow rng t runs)
    (h' : Follow rng (threadAfter t runs) later) : Follow rng t (runs ++ later) := by
  have hlast : threadAfter t (runs ++ later) = threadAfter (threadAfter t runs) later := by
    unfold threadAfter
    rw [List.getLast?_append]
    cases later.getLast? <;> simp
  refine ⟨fun run hrun => ?_, ?_, ?_, fun run hrun => ?_⟩
  · rcases List.mem_append.mp hrun with hrun | hrun
    · exact h.after run hrun
    · exact ⟨h.last.1.trans (h'.after run hrun).1, (h'.after run hrun).2⟩
  · rw [hlast]
    refine ⟨h.last.1.trans h'.last.1, fun run hrun => ?_⟩
    rcases List.mem_append.mp hrun with hrun | hrun
    · exact (h.last.2 run hrun).trans h'.last.1
    · exact h'.last.2 run hrun
  · refine List.pairwise_append.mpr ⟨h.pairwise, h'.pairwise, fun run hrun run' hrun' => ?_⟩
    exact (h.last.2 run hrun).trans (h'.after run' hrun').1
  · rcases List.mem_append.mp hrun with hrun | hrun
    · exact h.lines run hrun
    · exact h'.lines run hrun

theorem follow_serve (req : HttplibRequest) (scene : Scene) :
    Follow rng t (serve lib listener rng cfg deps t req scene) := by
  unfold serve
  split
  · next route _ =>
    obtain ⟨hstart, hle, hlines⟩ :=
      runRoute_thread lib listener rng cfg deps t req scene route
    have hone : Follow rng t [runRoute lib listener rng cfg deps t req scene route] := by
      refine ⟨?_, ?_, List.pairwise_singleton _ _, ?_⟩
      · simp [hstart, hle]
      · simp [threadAfter, hle]
      · simpa using hlines
    exact hone.append follow_onError
  · exact follow_onError

theorem follow_serveAll (lib : JsonLib) (listener : Listener) (rng : Nat → UInt32)
    (cfg : ServerConfig) (deps : HandlerDeps) (requests : List (HttplibRequest × Scene)) :
    ∀ t, Follow rng t (serveAll lib listener rng cfg deps t requests) := by
  induction requests with
  | nil => exact follow_nil rng
  | cons r requests ih => exact fun t => (follow_serve r.1 r.2).append (ih _)

/-- The handlers of a request leave their frames exactly when it keeps to it. -/
theorem serve_framed (rng : Nat → UInt32) (hlib : lib.Documented) (hlistener : listener.Documented)
    (ht : t.requestId = []) (req : HttplibRequest) (scene : Scene) :
    (∀ run ∈ serve lib listener rng cfg deps t req scene, Framed rng run) ↔
      Keeps lib cfg deps req scene := by
  have herror {t : Thread} (ht : t.requestId = []) {res : HttplibResponse} :
      ∀ run ∈ onError lib listener rng t res, Framed rng run := by
    intro run hrun
    unfold onError at hrun
    split at hrun
    · rw [List.mem_singleton.mp hrun]
      exact errorHandler_framed hlib hlistener ht
    · cases hrun
  unfold serve
  split
  · next route hroute =>
    rw [List.forall_mem_cons, runRoute_framed hlib hlistener hroute]
    refine ⟨fun h => h.1, fun hkeeps => ⟨hkeeps, herror ?_⟩⟩
    exact ((runRoute_framed hlib hlistener hroute).mpr hkeeps).reset
  · next hroute =>
    refine iff_of_true (herror ht) ⟨by simp [hroute], fun h => ?_⟩
    rw [hroute] at h
    cases h

/-- **The frame of every exit.** For every sequence of requests on a fresh
thread: each handler marks its response with a fresh id, logs under it and leaves
no id behind, exactly when no request asks for the metrics and none that is let
through throws in `handle_speech`. Whatever the requests are, each log line is
under an id that its own handler has drawn. -/
theorem frame_exact (lib : JsonLib) (hlib : lib.Documented) (listener : Listener)
    (hlistener : listener.Documented) (rng : Nat → UInt32) (cfg : ServerConfig)
    (deps : HandlerDeps) (requests : List (HttplibRequest × Scene)) :
    ((∀ run ∈ serveAll lib listener rng cfg deps {} requests, Framed rng run) ↔
      ∀ r ∈ requests, Keeps lib cfg deps r.1 r.2) ∧
    (∀ run ∈ serveAll lib listener rng cfg deps {} requests,
      ∀ line ∈ run.lines, run.Draws rng line.requestId) ∧
    (serveAll lib listener rng cfg deps {} requests).Pairwise
      fun run later => run.finish.draws ≤ later.start.draws := by
  have hframed : ∀ (t : Thread), t.requestId = [] →
      ((∀ run ∈ serveAll lib listener rng cfg deps t requests, Framed rng run) ↔
        ∀ r ∈ requests, Keeps lib cfg deps r.1 r.2) := by
    induction requests with
    | nil => simp [serveAll]
    | cons r requests ih =>
      intro t ht
      rw [serveAll, List.forall_mem_append, List.forall_mem_cons,
        serve_framed rng hlib hlistener ht r.1 r.2]
      refine and_congr_right fun hkeeps => ih _ ?_
      have hruns := (serve_framed rng hlib hlistener ht r.1 r.2).mpr hkeeps
      unfold threadAfter
      cases hlast : (serve lib listener rng cfg deps t r.1 r.2).getLast? with
      | none => exact ht
      | some run => exact (hruns run (List.mem_of_getLast? hlast)).reset
  have hfollow := follow_serveAll lib listener rng cfg deps requests {}
  exact ⟨hframed {} rfl, hfollow.lines, hfollow.pairwise⟩

/-- A listener that takes plain names and values only. -/
def exListener : Listener where
  isFieldName name := !name.isEmpty && name.all isNameChar
  isFieldValue value := value.all fun c => isVisible c || c == (' ').toUInt8
  headerOrder := .id _ _
  unrouted _ := { status := 404 }
  thrown _ _ := { status := 500 }

theorem exListener_documented : exListener.Documented where
  fieldName name hne hname := by
    simp only [exListener, Bool.and_eq_true, List.all_eq_true]
    exact ⟨by simpa using hne, hname⟩
  fieldValue value _ hvalue := by
    simp only [exListener, List.all_eq_true, Bool.or_eq_true]
    exact fun c hc => .inl (hvalue c hc)

/-- No authentication. -/
def exOpenConfig : ServerConfig := { modelPath := utf8 "model" }

def exScene : Scene := { limiters := .ofConfig exOpenConfig, moments := exMoments }

def exGet (path : String) : HttplibRequest where
  method := utf8 "GET"
  path := utf8 path
  remoteAddr := utf8 "127.0.0.1"

def exPost (body : Str) : HttplibRequest where
  method := utf8 "POST"
  path := utf8 "/v1/audio/speech"
  body := body
  headers := [(utf8 "Content-Type", utf8 "application/json")]
  remoteAddr := utf8 "127.0.0.1"

def exRequests : List (HttplibRequest × Scene) :=
  [(exGet "/health", exScene), (exGet "/missing", exScene), (exPost (utf8 "oops"), exScene)]

/-- A probe, an unknown path and a body that is no JSON run four handlers, the error
handler twice, and all leave the frame. -/
theorem frame_exact_three :
    (serveAll exSpeechLib exListener (fun _ => 0) exOpenConfig {} {} exRequests).length = 4 ∧
    ∀ run ∈ serveAll exSpeechLib exListener (fun _ => 0) exOpenConfig {} {} exRequests,
      Framed (fun _ => 0) run := by
  refine ⟨by decide, (frame_exact exSpeechLib exSpeechLib_documented exListener
    exListener_documented _ exOpenConfig {} _).1.mpr ?_⟩
  simp only [exRequests, List.forall_mem_cons, List.not_mem_nil, false_imp_iff, forall_true_iff,
    and_true]
  refine ⟨⟨by decide, fun h => absurd h (by decide)⟩, ⟨by decide, fun h => absurd h (by decide)⟩,
    by decide, fun _ _ => ?_⟩
  rintro ⟨_, _, h | ⟨j, h, _⟩⟩
  · cases h
  · cases h

/-- A speech request whose body is an empty array leaves its id on the thread, and
the response with the metrics has no id. -/
theorem frame_broken :
    exOpenConfig.validate = .ok () ∧
    (∃ run ∈ serveAll exSpeechLib exListener (fun _ => 0) exOpenConfig {} {}
      [(exPost exArrayBody, exScene)],
      run.result = .error .typeError ∧
      run.finish.requestId = utf8 "00000000-0000-4000-8000-000000000000") ∧
    ∃ run ∈ serveAll exSpeechLib exListener (fun _ => 0) exOpenConfig {} {}
      [(exGet "/metrics", exScene)],
      ∃ res, run.result = .ok (some res) ∧ res.headers.map Prod.fst = [utf8 "Content-Type"] := by
  refine ⟨by decide, ?_, ?_⟩
  · refine ⟨_, List.mem_cons_self, rfl, by decide⟩
  · refine ⟨_, List.mem_cons_self, _, rfl, by decide⟩

end VoxtralServer
