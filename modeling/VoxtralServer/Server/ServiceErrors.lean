import VoxtralServer.Server.RequestFaults
import VoxtralServer.Server.ServedAudio

/-!
# The errors of the service

Why a request to an API route is not answered with status 200, among any number of
requests at once.

* `Cause.error`, `Cause.Holds`: what is reported for a cause, and what the cause is in
  the run of the service.
* `errors_explained`: every error response reports a cause that holds for its own
  request, a request answered with status 200 has no fault, and an exception comes
  from a speech request whose reading throws.
-/

namespace VoxtralServer
namespace Service

/-! ## Causes -/

/-- What makes a request fail: the middleware, a fault, or the pool. -/
inductive Cause
  | blocked
  | overLimit
  | unauthorized
  | fault (f : Fault)
  | notReady
  | notTaken
  | failed

/-- The error that is reported for a cause. -/
def Cause.error : Cause → ApiError
  | .blocked => ⟨429, utf8 "rate_limit_error", utf8 "auth_rate_limited", []⟩
  | .overLimit => ⟨429, utf8 "rate_limit_error", utf8 "rate_limited", []⟩
  | .unauthorized => ⟨401, utf8 "authentication_error", utf8 "invalid_api_key", []⟩
  | .fault f => f.error
  | .notReady => ⟨503, utf8 "server_error", utf8 "model_not_ready", []⟩
  | .notTaken => ⟨503, utf8 "server_error", utf8 "queue_full", []⟩
  | .failed => ⟨500, utf8 "server_error", utf8 "inference_failed", []⟩

/-- The job was queued, and then it was past its deadline when the worker looked, or
the backend threw. -/
def JobFailed (pool : InferencePool Nat) (i : Nat) : Prop :=
  ∃ job, (i, .pushed job) ∈ pool.trace ∧
    ((∃ now, job.deadline ≤ now ∧ ((i, .worked (.checked now)) ∈ pool.trace ∨
        (i, .worked (.rechecked now)) ∈ pool.trace)) ∨
      ∃ what, (i, .worked (.threw what)) ∈ pool.trace)

/-- The request is a speech request that was let through. -/
def IsSpeech (s : Service) (i : Nat) : Prop :=
  s.letThrough i = true ∧ ∃ req, s.requests[i]? = some req ∧ routeOf req = some .speech

/-- The cause holds for the `i`th request in a run with these moments. Those of the
pool hold for a request without a fault. -/
def Cause.Holds (lib : JsonLib) (cfg : ServerConfig) (deps : HandlerDeps)
    (p : InferencePool.Params) (moments : List (Service × Act)) (s : Service) (i : Nat) :
    Cause → Prop
  | .blocked => cfg.requireAuth = true ∧ ∃ t m, (t, Act.gate i m) ∈ moments ∧
      t.phaseOf i = some .start ∧
      (t.gate.limiters.auth.isBlocked (clientIp cfg (s.own i)) m.t.now).1 = true
  | .overLimit => ∃ t m, (t, Act.gate i m) ∈ moments ∧ t.phaseOf i = some .atRequest ∧
      0 < (t.gate.limiters.request.checkRequest m.requestOrd (clientIp cfg (s.own i)) m.t).1
  | .unauthorized => cfg.requireAuth = true ∧
      (checkBearerAuth ((s.own i).header (utf8 "authorization")) cfg.apiKey).authenticated = false
  | .fault f => s.IsSpeech i ∧ f.Holds lib deps (s.own i)
  | .notReady => s.IsSpeech i ∧ Faultless lib deps (s.own i) ∧
      ∃ t, (t, Act.speech (.checkPool i)) ∈ moments ∧ t.speech.pool.accepting = false
  | .notTaken => s.IsSpeech i ∧ Faultless lib deps (s.own i) ∧
      ∃ t, (t, Act.speech (.pool (.lock i))) ∈ moments ∧
        (t.speech.pool.accepting = false ∨ (t.speech.pool.queue.length : Int) = p.maxQueueDepth)
  | .failed => s.IsSpeech i ∧ Faultless lib deps (s.own i) ∧ JobFailed s.speech.pool i

/-- The response is a WAV file and says how long it is. -/
structure IsAudio (resp : HttpResponse) : Prop where
  contentType : resp.headers.lookup (utf8 "Content-Type") = some (utf8 "audio/wav")
  contentLength : resp.headers.lookup (utf8 "Content-Length") =
    some (toStr resp.binaryBody.length)

/-- What an answer says about its request. -/
inductive Explained (lib : JsonLib) (cfg : ServerConfig) (deps : HandlerDeps)
    (p : InferencePool.Params) (moments : List (Service × Act)) (s : Service) (i : Nat) :
    Except JsonError HttpResponse → Prop
  | served {resp : HttpResponse} : resp.status = 200 → s.letThrough i = true →
      (s.IsSpeech i → Faultless lib deps (s.own i) ∧ IsAudio resp) →
      Explained lib cfg deps p moments s i (.ok resp)
  | refused {resp : HttpResponse} (c : Cause) : Reports lib c.error resp →
      c.Holds lib cfg deps p moments s i → Explained lib cfg deps p moments s i (.ok resp)
  | threw {e : JsonError} : s.IsSpeech i → Throws lib deps (s.own i) →
      Explained lib cfg deps p moments s i (.error e)

variable {lib : JsonLib} {cfg : ServerConfig} {deps : HandlerDeps} {p : InferencePool.Params}
  {moments : List (Service × Act)} {s s' : Service} {a : Act} {i : Nat}

/-! ## The middleware -/

theorem tooManyRequests_reports (hfaith : lib.Faithful) {code message retryAfter : Str}
    {resp : HttpResponse} (h : tooManyRequests lib code message retryAfter = .ok (some resp)) :
    Reports lib ⟨429, utf8 "rate_limit_error", code, []⟩ resp := by
  unfold tooManyRequests at h
  cases hmake : makeErrorResponse lib 429 (utf8 "rate_limit_error") code message with
  | error e =>
    rw [hmake] at h
    cases h
  | ok made =>
    rw [hmake] at h
    cases h
    obtain ⟨hstatus, hcontent, htextual, hdocument⟩ :=
      makeErrorResponse_reports (e := ⟨429, utf8 "rate_limit_error", code, []⟩) hfaith hmake
    -- `Retry-After` is another header
    refine ⟨hstatus, ?_, htextual, hdocument⟩
    rw [AList.lookup_insert_ne (by decide)]
    exact hcontent

theorem unauthorized_reports (hfaith : lib.Faithful) {authHeader apiKey : Str}
    {resp : HttpResponse} (hfails : (checkBearerAuth authHeader apiKey).authenticated = false)
    (h : VoxtralServer.unauthorized lib (checkBearerAuth authHeader apiKey) = .ok (some resp)) :
    Reports lib Cause.unauthorized.error resp := by
  have hcode : (checkBearerAuth authHeader apiKey).errorCode = utf8 "invalid_api_key" := by
    unfold checkBearerAuth at hfails ⊢
    split
    · rfl
    split
    · rfl
    split
    · next hempty hformat hequal => simp [hempty, hformat, hequal] at hfails
    · rfl
  unfold VoxtralServer.unauthorized at h
  rw [hcode] at h
  cases hmake : makeErrorResponse lib 401 (utf8 "authentication_error") (utf8 "invalid_api_key")
      (checkBearerAuth authHeader apiKey).errorMessage with
  | error e =>
    rw [hmake] at h
    cases h
  | ok made =>
    rw [hmake] at h
    cases h
    exact makeErrorResponse_reports hfaith hmake

/-- Why the middleware refuses a request. -/
theorem runMiddleware_refusal {ms : Moments} {lim : Limiters} {req : HttpRequest}
    {resp : HttpResponse} (h : (runMiddleware lib cfg ms lim req).result = .ok (some resp)) :
    (cfg.requireAuth = true ∧ (lim.auth.isBlocked (clientIp cfg req) ms.blocked.t.now).1 = true ∧
      authRateLimited lib = .ok (some resp)) ∨
    (Unblocked cfg req lim ms ∧ ∃ retryAfter > 0, (lim.request.checkRequest ms.request.requestOrd
        (clientIp cfg req) ms.request.t).1 = retryAfter ∧
      rateLimited lib retryAfter = .ok (some resp)) ∨
    (cfg.requireAuth = true ∧
      (checkBearerAuth (req.header (utf8 "authorization")) cfg.apiKey).authenticated = false ∧
      VoxtralServer.unauthorized lib
        (checkBearerAuth (req.header (utf8 "authorization")) cfg.apiKey) = .ok (some resp)) := by
  unfold runMiddleware at h
  cases hpath : isInternalEndpoint req.path with
  | true =>
    rw [hpath] at h
    cases h
  | false =>
    cases hauth : cfg.requireAuth with
    | true =>
      simp only [hpath, hauth, Bool.false_eq_true, if_false, if_true] at h
      split at h
      · next hblocked => exact .inl ⟨rfl, hblocked, h⟩
      next hblocked =>
      split at h
      · next hpos =>
        exact .inr (.inl ⟨fun _ => by simpa using hblocked, _, hpos, rfl, h⟩)
      split at h
      · next hfails => exact .inr (.inr ⟨rfl, by simpa using hfails, h⟩)
      · cases h
    | false =>
      simp only [hpath, hauth, Bool.false_eq_true, if_false] at h
      split at h
      · next hpos => exact .inr (.inl ⟨fun hyes => by simp [hauth] at hyes, _, hpos, rfl, h⟩)
      · cases h

/-- A refusal of the middleware reports its cause. -/
theorem refusal_explained (hfaith : lib.Faithful)
    (h : (system lib cfg deps p).History System.Any moments s) {resp : HttpResponse}
    (hphase : s.phaseOf i = some (.done (.ok (some resp)))) :
    Explained lib cfg deps p moments s i (.ok resp) := by
  obtain ⟨call, hcall, hcallPhase⟩ := Option.map_eq_some_iff.mp hphase
  obtain ⟨req, hreq, hcallReq, _⟩ := (reachable_aligned h.reachable).call hcall
  obtain ⟨lim, ms, hfound⟩ := history_found h i call hcall (by simp [hcallPhase])
  have hown : call.req = s.own i := by simp only [own, hreq, Option.getD_some, hcallReq]
  rw [hcallPhase, hown] at hfound
  obtain ⟨hmet, hrun⟩ := hfound
  rcases runMiddleware_refusal hrun with ⟨hauth, hblocked, hresp⟩ |
    ⟨hunblocked, retryAfter, hpos, hretry, hresp⟩ | ⟨hauth, hfails, hresp⟩
  · obtain ⟨t, hmem, hstart, hlim⟩ := hmet.auth
    exact .refused .blocked (tooManyRequests_reports hfaith hresp)
      ⟨hauth, t, ms.blocked, hmem, hstart, hlim ▸ hblocked⟩
  · rcases hmet.request with ⟨hauth, hblocked⟩ | ⟨t, hmem, hat, hlim⟩
    · rw [hunblocked hauth] at hblocked
      cases hblocked
    · refine .refused .overLimit (tooManyRequests_reports hfaith hresp)
        ⟨t, ms.request, hmem, hat, ?_⟩
      rw [hlim, hretry]
      exact hpos
  · exact .refused .unauthorized (unauthorized_reports hfaith hfails hresp) ⟨hauth, hfails⟩

/-! ## The pool -/

/-- A step of the service leaves the speech handlers alone, or is one of theirs. -/
theorem step_speech (hst : (system lib cfg deps p).step s a = some s') :
    s'.speech = s.speech ∨ ∃ b, (SpeechServer.system lib deps p).step s.speech b = some s'.speech ∧
      (a = .speech b ∨ isReceive b = true) := by
  cases step_moves hst with
  | arrive => exact .inl rfl
  | gate => exact .inl rfl
  | receive _ _ _ hspeech => exact .inr ⟨_, hspeech, .inr rfl⟩
  | speech _ hspeech => exact .inr ⟨_, hspeech, .inl rfl⟩

/-- `model_not_ready` is the answer of a call that found the pool closed. -/
theorem history_notReady (hfaith : lib.Faithful)
    (h : (system lib cfg deps p).History System.Any moments s)
    {result : Except JsonError HttpResponse} (hpc : (s.speech.calls i).pc = .ended result)
    (href : RefusedAs lib (utf8 "model_not_ready") result) :
    ∃ t, (t, Act.speech (.checkPool i)) ∈ moments ∧ t.speech.pool.accepting = false := by
  refine System.history_inv (I := fun moments s => (s.speech.calls i).pc = .ended result →
    ∃ t, (t, Act.speech (.checkPool i)) ∈ moments ∧ t.speech.pool.accepting = false) ?_ ?_ h hpc
  · rintro s ⟨now, now', rfl⟩ hidle
    cases hidle
  · intro moments s a t _ hi _ hst hended
    have hkeep (hold : (s.speech.calls i).pc = .ended result) :
        ∃ t, (t, Act.speech (.checkPool i)) ∈ moments ++ [(s, a)] ∧
          t.speech.pool.accepting = false := by
      obtain ⟨u, hu, hno⟩ := hi hold
      exact ⟨u, List.mem_append_left _ hu, hno⟩
    rcases step_speech hst with heq | ⟨b, hspeech, hb⟩
    · exact hkeep (heq ▸ hended)
    · rcases SpeechServer.step_notReady hfaith hspeech hended href with hold | ⟨rfl, hno⟩
      · exact hkeep hold
      · rcases hb with rfl | hreceive
        · exact ⟨s, by simp, hno⟩
        · cases hreceive

/-- A job that was refused came to a pool that was closed or full. -/
theorem history_refused (h : (system lib cfg deps p).History System.Any moments s)
    (hret : s.speech.pool.submits i = .returned false) :
    ∃ t, (t, Act.speech (.pool (.lock i))) ∈ moments ∧
      (t.speech.pool.accepting = false ∨
        (t.speech.pool.queue.length : Int) = p.maxQueueDepth) := by
  refine System.history_inv (I := fun moments s => s.speech.pool.submits i = .returned false →
    ∃ t, (t, Act.speech (.pool (.lock i))) ∈ moments ∧ (t.speech.pool.accepting = false ∨
      (t.speech.pool.queue.length : Int) = p.maxQueueDepth)) ?_ ?_ h hret
  · rintro s ⟨now, now', rfl⟩ hidle
    cases hidle
  · intro moments s a t hr hi _ hst hret
    have hkeep (hold : s.speech.pool.submits i = .returned false) :
        ∃ t, (t, Act.speech (.pool (.lock i))) ∈ moments ++ [(s, a)] ∧
          (t.speech.pool.accepting = false ∨
            (t.speech.pool.queue.length : Int) = p.maxQueueDepth) := by
      obtain ⟨u, hu, hno⟩ := hi hold
      exact ⟨u, List.mem_append_left _ hu, hno⟩
    rcases step_speech hst with heq | ⟨b, hspeech, hb⟩
    · exact hkeep (heq ▸ hret)
    · by_cases hlock : b = .pool (.lock i)
      · subst hlock
        rcases hb with rfl | hreceive
        · refine ⟨s, by simp, ?_⟩
          exact ((SpeechServer.lock_decides hspeech).2.2 hret).imp_right
            (SpeechServer.full_length (reachable_speech hr))
        · cases hreceive
      · exact hkeep ((SpeechServer.step_undecided hspeech hlock).2 hret)

/-- A delivered error comes from a job that failed. -/
theorem delivered_failed (h : (SpeechServer.system lib deps p).Reachable System.Any s.speech)
    {text : Str} (hinvoked : SpeechServer.invoked s.speech.pool i = [.error text]) :
    JobFailed s.speech.pool i := by
  rw [SpeechServer.invoked_eq h] at hinvoked
  rcases (SpeechServer.reachable_sound h i).framed.invoked with ⟨hnone, _⟩ | ⟨d, hone, _⟩
  · rw [hnone] at hinvoked
    cases hinvoked
  · rw [hone] at hinvoked
    cases hinvoked
    obtain ⟨job, h₀, h₁, hlived, heq, _⟩ := SpeechServer.invoked_lived h hone
    have hmem {e : JobEvent Nat} (he : e ∈ h₀) : (i, e) ∈ s.speech.pool.trace :=
      InferencePool.mem_history.mp (heq ▸ List.mem_append_left _ he)
    cases hlived with
    | expired hpast =>
      exact ⟨job, hmem (by simp), .inl ⟨_, hpast, .inl (hmem (by simp))⟩⟩
    | @failed _ what => exact ⟨job, hmem (by simp), .inr ⟨what, hmem (by simp)⟩⟩
    | late _ hpast =>
      exact ⟨job, hmem (by simp), .inl ⟨_, hpast, .inr (hmem (by simp))⟩⟩

theorem refusedAs_poolNotReady (hlib : lib.Documented) (hfaith : lib.Faithful) :
    RefusedAs lib (utf8 "model_not_ready") (poolNotReady lib).result := by
  obtain ⟨resp, hresp⟩ := makeErrorResponse_ok 503 hlib (validUtf8_utf8 "server_error")
    (validUtf8_utf8 "model_not_ready")
    (validUtf8_utf8 "The model is not ready to accept requests. Try again later.") validUtf8_nil
  exact ⟨resp, _, _, hresp, (makeErrorResponse_status hresp).1,
    makeErrorResponse_parse hfaith hresp, rfl, rfl⟩

/-- How `handle_speech` ends on a request that it has read. -/
theorem handleSpeech_read_cases (view : PoolView) (start stop : Int) {req : HttpRequest}
    {fields : SpeechFields} (hread : readSpeech lib deps req = .ok fields) :
    (handleSpeech lib deps (some view) start stop req).result = (poolNotReady lib).result ∨
    (handleSpeech lib deps (some view) start stop req).result = (queueFull lib).result ∨
    ∃ text r, (handleSpeech lib deps (some view) start stop req).result =
      (respond lib start stop text r).result := by
  unfold handleSpeech
  rw [hread]
  dsimp only
  split
  · exact .inl rfl
  split
  · exact .inr (.inl rfl)
  · exact .inr (.inr ⟨_, _, rfl⟩)

/-- An answer with status 200 is audio. -/
theorem respond_audio {start stop : Int} {text : Str} {r : SynthesisResult} {resp : HttpResponse}
    (h : (respond lib start stop text r).result = .ok resp) (h200 : resp.status = 200) :
    IsAudio resp := by
  unfold respond at h
  split at h
  · rw [(makeErrorResponse_status h).1] at h200
    cases h200
  · cases h
    refine ⟨?_, AList.lookup_insert _⟩
    rw [AList.lookup_insert_ne (by decide)]
    exact AList.lookup_insert _

/-- The answer of a speech handler reports its cause. -/
theorem speech_explained (hlib : lib.Documented) (hfaith : lib.Faithful)
    (h : (system lib cfg deps p).History System.Any moments s) (hspeech : s.IsSpeech i)
    {result : Except JsonError HttpResponse} (hpc : (s.speech.calls i).pc = .ended result) :
    Explained lib cfg deps p moments s i result := by
  have hr := reachable_speech h.reachable
  obtain ⟨view, stop, hcall⟩ := (reachable_serves h.reachable i).outcome hpc
  have hresult : (handleSpeech lib deps (some view) (s.speech.calls i).start stop
      (s.own i)).result = result := by
    rw [hcall]
  cases result with
  | error e =>
    refine .threw hspeech ?_
    by_contra hthrows
    obtain ⟨resp, hresp⟩ :=
      (handleSpeech_throws hlib deps (some view) (s.speech.calls i).start stop _).mpr hthrows
    rw [hresult] at hresp
    cases hresp
  | ok resp =>
    have hfaults := readSpeech_faults lib deps (s.own i)
    cases hread : readSpeech lib deps (s.own i) with
    | error ending =>
      rw [hread] at hfaults
      simp only [handleSpeech, hread] at hresult
      rcases hfaults with ⟨e, herror⟩ | ⟨f, message, herror, hholds⟩
      · rw [hresult] at herror
        cases herror
      · rw [hresult] at herror
        exact .refused (.fault f) (makeErrorResponse_reports hfaith herror.symm) ⟨hspeech, hholds⟩
    | ok fields =>
      rw [hread] at hfaults
      rcases handleSpeech_read_cases view (s.speech.calls i).start stop hread with
        hcase | hcase | ⟨text, r, hcase⟩
      · -- the pool was closed when the call asked it
        rw [hresult] at hcase
        have hmoment := history_notReady hfaith h hpc
          (hcase ▸ refusedAs_poolNotReady hlib hfaith)
        exact .refused .notReady (makeErrorResponse_reports hfaith hcase.symm)
          ⟨hspeech, hfaults, hmoment⟩
      · -- the pool did not take the job
        rw [hresult] at hcase
        have hret := SpeechServer.queueFull_refused hfaith hr hpc
          (hcase ▸ refusedAs_queueFull hlib hfaith)
        exact .refused .notTaken (makeErrorResponse_reports hfaith hcase.symm)
          ⟨hspeech, hfaults, history_refused h hret⟩
      · -- the job was taken
        rw [hresult] at hcase
        rcases SpeechServer.answered_delivered hlib hr hpc with ⟨_, hno, hno'⟩ |
          ⟨result, resp', _, heq, h200, _⟩ | ⟨text', hinvoked, _, herror⟩
        · unfold respond at hcase
          split at hcase
          · exact absurd ⟨resp, rfl, (makeErrorResponse_status hcase.symm).1⟩ hno'
          · cases hcase
            exact absurd ⟨_, rfl, rfl⟩ hno
        · cases heq
          exact .served h200 hspeech.1 fun _ => ⟨hfaults, respond_audio hcase.symm h200⟩
        · exact .refused .failed (makeErrorResponse_reports hfaith herror.symm)
            ⟨hspeech, hfaults, delivered_failed hr hinvoked⟩

/-! ## All answers -/

/-- **Errors tell the cause.** In every run, whatever the other requests, the worker
and a shutdown do, each answer is one of these:

* status 200, and the request was let through and, for speech, has no fault and is
  answered with audio;
* an error as a JSON document, with the status, code and parameter of a cause that
  holds for this very request in this run;
* an exception of the handler, for a speech request whose reading throws. -/
theorem errors_explained (hlib : lib.Documented) (hfaith : lib.Faithful)
    (h : (system lib cfg deps p).History System.Any moments s)
    {result : Except JsonError HttpResponse} (ha : answer lib deps s i = some result) :
    Explained lib cfg deps p moments s i result := by
  obtain ⟨req, hreq, _, hanswers⟩ := answer_cases (reachable_aligned h.reachable) ha
  cases hanswers with
  | threw hphase =>
    -- the middleware does not throw
    obtain ⟨call, hcall, hcallPhase⟩ := Option.map_eq_some_iff.mp hphase
    obtain ⟨lim, ms, hfound⟩ := history_found h i call hcall (by simp [hcallPhase])
    rw [hcallPhase] at hfound
    obtain ⟨answer, hanswer⟩ := runMiddleware_ok hlib cfg ms lim call.req
    rw [hfound.2] at hanswer
    cases hanswer
  | refused hphase => exact refusal_explained hfaith h hphase
  | voices hphase hroute =>
    obtain ⟨resp, hresp⟩ : ∃ resp, handleVoices lib deps = .ok resp := handleVoices_ok hlib
    rw [hresp]
    refine .served (status_of_map hresp) (letThrough_phase.mpr hphase) ?_
    rintro ⟨_, req', hreq', hspeech⟩
    rw [hreq] at hreq'
    cases hreq'
    rw [hroute] at hspeech
    cases hspeech
  | speech hphase hroute hpc =>
    exact speech_explained hlib hfaith h ⟨letThrough_phase.mpr hphase, req, hreq, hroute⟩ hpc

open Json (textJson textJson_documented textJson_faithful)

/-- A body that is no JSON is named as the cause. -/
theorem errors_explained_oops : ∃ moments s resp,
    (system textJson exOpenConfig {} {}).History System.Any moments s ∧
    answer textJson {} s 1 = some (.ok resp) ∧ resp.status = 400 ∧
    Explained textJson exOpenConfig {} {} moments s 1 (.ok resp) := by
  obtain ⟨s, hrun, _⟩ :=
    System.exists_reaches (S := system textJson exOpenConfig {} {}) (G := System.Any)
      (s := exService) exOopsRun (by decide)
  have hhistory : (system textJson exOpenConfig {} {}).History System.Any _ s :=
    ⟨exService, exService_init .., System.runs_of_run _ hrun⟩
  have hanswer : answer textJson {} s 1 = some (makeErrorResponse textJson 400
      (utf8 "invalid_request_error") (utf8 "invalid_content_type")
      (utf8 "Invalid JSON in request body.")) := by
    cases hrun
    rfl
  obtain ⟨resp, hresp⟩ := makeErrorResponse_ok 400 textJson_documented
    (validUtf8_utf8 "invalid_request_error") (validUtf8_utf8 "invalid_content_type")
    (validUtf8_utf8 "Invalid JSON in request body.") validUtf8_nil
  rw [hresp] at hanswer
  exact ⟨_, s, resp, hhistory, hanswer, (makeErrorResponse_status hresp).1,
    errors_explained textJson_documented textJson_faithful hhistory hanswer⟩

end Service
end VoxtralServer
