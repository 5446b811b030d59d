import VoxtralServer.Auth.AuthRateLimiter
import VoxtralServer.Auth.ClientIp
import VoxtralServer.Auth.RequestRateLimiter
import VoxtralServer.Auth.Token
import VoxtralServer.Config
import VoxtralServer.Server.Http

/-!
# The authentication and rate limit middleware

`run_middleware` stands before the two API handlers. It asks the failure
limiter, then the request limiter, then compares the bearer token, and charges
each step to the client address.

* `ofConfig_valid`: a valid configuration reaches the limiters unchanged.
* `runMiddleware_pass`: when a request is let through.
* `gate_exact`: with authentication on, only the exact header is let through,
  except for tokens that the comparison confuses with the key.
-/

namespace VoxtralServer

/-! ## Limiters -/

/-- The rate limiters of a `TtsServer`. -/
structure Limiters where
  auth : AuthRateLimiter
  request : RequestRateLimiter
deriving DecidableEq

/-- The limiters as the `TtsServer` constructor sets them up. -/
def Limiters.ofConfig (cfg : ServerConfig) : Limiters where
  auth := { maxFailures := sizeOfInt cfg.authRateLimitMax
            windowSecs := cfg.authRateLimitWindow
            maxTrackedIps := 10000 }
  request := { maxRpm := sizeOfInt cfg.requestRateLimitRpm, maxTrackedIps := 10000 }

/-- The limits of a valid configuration are in range, so the casts keep them.
An `int` is below `2 ^ 31`. -/
theorem Limiters.ofConfig_valid {cfg : ServerConfig} (h : cfg.Valid)
    (hmax : cfg.authRateLimitMax < 2 ^ 31) (hrpm : cfg.requestRateLimitRpm < 2 ^ 31) :
    ((ofConfig cfg).auth.maxFailures : Int) = cfg.authRateLimitMax ∧
    ((ofConfig cfg).request.maxRpm : Int) = cfg.requestRateLimitRpm := by
  have h1 := h.authRateLimitMax
  have h2 := h.requestRateLimitRpm
  simp only [ofConfig, sizeOfInt]
  omega

/-- What a critical section of a limiter meets: its clock readings and the
iteration orders of the two tables. -/
structure Moment where
  t : Readings
  authOrd : IterOrder Str AuthRateLimiter.IpState
  requestOrd : IterOrder Str RequestRateLimiter.IpState

/-- Both readings are the same, and the tables are in order. -/
def momentAt (now : Int) : Moment := ⟨⟨now, now⟩, .id _ _, .id _ _⟩

/-! ## The middleware -/

/-- `is_internal_endpoint`. -/
def isInternalEndpoint (path : Str) : Bool :=
  path == utf8 "/health" || path == utf8 "/ready" || path == utf8 "/metrics"

/-- `client_ip` in `run_middleware`. -/
def clientIp (cfg : ServerConfig) (req : HttpRequest) : Str :=
  extractClientIp (req.header (utf8 "x-forwarded-for")) req.remoteAddr cfg.trustProxy
    cfg.trustedProxyHops

/-- An error response of the middleware with a `Retry-After` header. -/
def tooManyRequests (lib : JsonLib) (errorCode message retryAfter : Str) :
    Except JsonError (Option HttpResponse) :=
  (makeErrorResponse lib 429 (utf8 "rate_limit_error") errorCode message).map fun resp =>
    some { resp with headers := resp.headers.insert (utf8 "Retry-After") retryAfter }

/-- The answer to a client address that failed too often. -/
def authRateLimited (lib : JsonLib) : Except JsonError (Option HttpResponse) :=
  tooManyRequests lib (utf8 "auth_rate_limited")
    (utf8 "Too many authentication failures. Try again later.") (utf8 "60")

/-- The answer to a client address over its request limit. -/
def rateLimited (lib : JsonLib) (retryAfter : Int) : Except JsonError (Option HttpResponse) :=
  tooManyRequests lib (utf8 "rate_limited") (utf8 "Rate limit exceeded. Please slow down.")
    (toStr retryAfter)

/-- The answer to a failed authentication. -/
def unauthorized (lib : JsonLib) (result : AuthResult) : Except JsonError (Option HttpResponse) :=
  (makeErrorResponse lib 401 (utf8 "authentication_error") result.errorCode
    result.errorMessage).map some

/-- The moments of the three critical sections that one call may enter. -/
structure Moments where
  blocked : Moment
  request : Moment
  failure : Moment

/-- What one call returns or throws, the limiters it leaves, and its metrics. -/
structure MiddlewareOutcome where
  result : Except JsonError (Option HttpResponse)
  limiters : Limiters
  metrics : List MetricOp := []

/-- `run_middleware`, with no other call at work on the limiters. -/
def runMiddleware (lib : JsonLib) (cfg : ServerConfig) (ms : Moments) (lim : Limiters)
    (req : HttpRequest) : MiddlewareOutcome :=
  if isInternalEndpoint req.path then { result := .ok none, limiters := lim }
  else
    let ip := clientIp cfg req
    let (blocked, auth) :=
      if cfg.requireAuth then lim.auth.isBlocked ip ms.blocked.t.now else (false, lim.auth)
    if blocked then
      { result := authRateLimited lib
        limiters := { lim with auth := auth }
        metrics := [.requestsRejectedAuth] }
    else
      let (retryAfter, request) := lim.request.checkRequest ms.request.requestOrd ip ms.request.t
      if retryAfter > 0 then
        { result := rateLimited lib retryAfter
          limiters := { auth := auth, request := request }
          metrics := [.requestsRejectedRateLimit] }
      else if cfg.requireAuth then
        let authResult := checkBearerAuth (req.header (utf8 "authorization")) cfg.apiKey
        if !authResult.authenticated then
          let (_, auth) := auth.checkAndRecordFailure ms.failure.authOrd ip ms.failure.t
          { result := unauthorized lib authResult
            limiters := { auth := auth, request := request }
            metrics := [.requestsRejectedAuth] }
        else { result := .ok none, limiters := { auth := auth, request := request } }
      else { result := .ok none, limiters := { auth := auth, request := request } }

/-! ## Who is let through -/

variable {lib : JsonLib} {cfg : ServerConfig} {ms : Moments} {lim : Limiters} {req : HttpRequest}

theorem tooManyRequests_ne {errorCode message retryAfter : Str} :
    tooManyRequests lib errorCode message retryAfter ≠ .ok none := by
  unfold tooManyRequests
  cases makeErrorResponse lib 429 (utf8 "rate_limit_error") errorCode message <;>
    simp [Except.map]

theorem tooManyRequests_eq {errorCode message retryAfter : Str} {resp : HttpResponse}
    (h : tooManyRequests lib errorCode message retryAfter = .ok (some resp)) :
    resp.status = 429 ∧ resp.headers.lookup (utf8 "Retry-After") = some retryAfter := by
  unfold tooManyRequests at h
  cases hmake : makeErrorResponse lib 429 (utf8 "rate_limit_error") errorCode message with
  | error e =>
    rw [hmake] at h
    cases h
  | ok made =>
    rw [hmake] at h
    cases h
    exact ⟨(makeErrorResponse_status hmake).1, AList.lookup_insert _⟩

theorem unauthorized_status {result : AuthResult} {resp : HttpResponse}
    (h : unauthorized lib result = .ok (some resp)) : resp.status = 401 := by
  unfold unauthorized at h
  cases hmake : makeErrorResponse lib 401 (utf8 "authentication_error") result.errorCode
      result.errorMessage with
  | error e =>
    rw [hmake] at h
    cases h
  | ok made =>
    rw [hmake] at h
    cases h
    exact (makeErrorResponse_status hmake).1

/-- A request that is refused gets status 401 or 429. -/
theorem refused_status {resp : HttpResponse}
    (h : (runMiddleware lib cfg ms lim req).result = .ok (some resp)) :
    resp.status = 401 ∨ resp.status = 429 := by
  unfold runMiddleware at h
  split at h
  · cases h
  dsimp only at h
  generalize (if cfg.requireAuth then lim.auth.isBlocked (clientIp cfg req) ms.blocked.t.now
    else (false, lim.auth)) = asked at h
  split at h
  · exact .inr (tooManyRequests_eq h).1
  split at h
  · exact .inr (tooManyRequests_eq h).1
  split at h
  · split at h
    · exact .inl (unauthorized_status h)
    · cases h
  · cases h

theorem unauthorized_ne {result : AuthResult} : unauthorized lib result ≠ .ok none := by
  unfold unauthorized
  cases makeErrorResponse lib 401 (utf8 "authentication_error") result.errorCode
    result.errorMessage <;> simp [Except.map]

/-- The two limiters, as they are, let the client address of the request
through. -/
def Admits (cfg : ServerConfig) (ms : Moments) (lim : Limiters) (req : HttpRequest) : Prop :=
  (lim.auth.isBlocked (clientIp cfg req) ms.blocked.t.now).1 = false ∧
  (lim.request.checkRequest ms.request.requestOrd (clientIp cfg req) ms.request.t).1 ≤ 0

/-- With authentication on, a request to an API endpoint is let through when
the limiters admit it and its header is accepted. -/
theorem runMiddleware_pass (hauth : cfg.requireAuth = true)
    (hpath : isInternalEndpoint req.path = false) :
    (runMiddleware lib cfg ms lim req).result = .ok none ↔
      Admits cfg ms lim req ∧
      (checkBearerAuth (req.header (utf8 "authorization")) cfg.apiKey).authenticated = true := by
  unfold runMiddleware Admits
  rw [hpath, hauth]
  simp only [Bool.false_eq_true, if_false, if_true]
  split
  · next h => simp [authRateLimited, tooManyRequests_ne, h]
  · next h =>
    rw [Bool.not_eq_true] at h
    split
    · next hr =>
      simp only [rateLimited, tooManyRequests_ne, false_iff]
      omega
    · next hr =>
      have hle : (lim.request.checkRequest ms.request.requestOrd (clientIp cfg req)
          ms.request.t).1 ≤ 0 := by omega
      split
      · next ha => simpa [unauthorized_ne] using fun _ _ => ha
      · next ha => simpa [h, hle] using ha

/-- The request is let through with a token that is not the key: the limiters
admit it, and the comparison confuses its token with the key. -/
def Slips (cfg : ServerConfig) (ms : Moments) (lim : Limiters) (req : HttpRequest) : Prop :=
  Admits cfg ms lim req ∧ ∃ token, token ≠ [] ∧
    req.header (utf8 "authorization") = bearerPrefix ++ token ∧ Confusable token cfg.apiKey

theorem Confusable.ne {a b : Str} (h : Confusable a b) : a ≠ b := by
  rintro rfl
  exact h.1 rfl

/-- **The authentication gate.** With authentication on, a request to an API
endpoint is let through only with the exact header, except when it slips
through. The exact header is accepted for every key that is not empty. The
comparison is equality except on confusable strings. -/
theorem gate_exact (lib : JsonLib) (cfg : ServerConfig) (hauth : cfg.requireAuth = true)
    (hkey : cfg.apiKey ≠ []) :
    (∀ ms lim req, isInternalEndpoint req.path = false →
      (((runMiddleware lib cfg ms lim req).result = .ok none →
          req.header (utf8 "authorization") = bearerPrefix ++ cfg.apiKey) ↔
        ¬ Slips cfg ms lim req)) ∧
    (checkBearerAuth (bearerPrefix ++ cfg.apiKey) cfg.apiKey).authenticated = true ∧
    ∀ a b, (constantTimeEquals a b = true ↔ a = b) ↔ ¬ Confusable a b := by
  refine ⟨?_, authenticated_exact hkey, ?_⟩
  · intro ms lim req hpath
    rw [runMiddleware_pass hauth hpath, authenticated_cases hkey]
    constructor
    · rintro hexact ⟨hadmits, token, hne, heq, hconf⟩
      have h := hexact ⟨hadmits, .inr ⟨token, hne, heq, hconf⟩⟩
      rw [heq, List.append_cancel_left_eq] at h
      exact hconf.ne h
    · rintro hslips ⟨hadmits, h | h⟩
      · exact h
      · exact absurd ⟨hadmits, h⟩ hslips
  · intro a b
    rw [constantTimeEquals_iff]
    constructor
    · intro h hconf
      exact hconf.ne (h.mp (.inr hconf))
    · intro hconf
      simp [hconf]

/-- A key of 257 bytes. -/
def exLongKey : Str := List.replicate 257 ('x').toUInt8

/-- One byte of it is confusable with the whole. -/
theorem exLongKey_confusable : Confusable (utf8 "x") exLongKey := by
  have hlen : exLongKey.length = 257 := List.length_replicate
  refine ⟨?_, ?_, .inl ⟨List.replicate 256 ('x').toUInt8, rfl⟩⟩
  · rw [hlen]
    decide
  · rw [hlen]
    decide

def exConfig : ServerConfig :=
  { modelPath := utf8 "model", requireAuth := true, apiKey := exLongKey }

/-- A request to the API with the given `Authorization` header. -/
def exRequest (authorization : Str) : HttpRequest where
  path := utf8 "/v1/audio/speech"
  headers := (∅ : Table Str Str).insert (utf8 "authorization") authorization

theorem exRequest_header (authorization : Str) :
    (exRequest authorization).header (utf8 "authorization") = authorization := by
  rw [HttpRequest.header, exRequest, AList.lookup_insert, Option.getD_some]

def exMoment : Moment := momentAt 0

def exMoments : Moments := ⟨exMoment, exMoment, exMoment⟩

theorem exConfig_admits (authorization : Str) :
    Admits exConfig exMoments (Limiters.ofConfig exConfig) (exRequest authorization) := by
  have hip : clientIp exConfig (exRequest authorization) = utf8 "127.0.0.1" := by
    simp only [clientIp, exRequest, exConfig, extractClientIp, Bool.not_false, Bool.true_or,
      if_true]
  unfold Admits
  rw [hip]
  decide

/-- The exact header does not slip through, and a token of one byte compares
equal to the key. -/
theorem gate_exact_long_key :
    ¬ Slips exConfig exMoments (Limiters.ofConfig exConfig)
        (exRequest (bearerPrefix ++ exLongKey)) ∧
    (checkBearerAuth (bearerPrefix ++ exLongKey) exLongKey).authenticated = true ∧
    ¬ (constantTimeEquals (utf8 "x") exLongKey = true ↔ utf8 "x" = exLongKey) := by
  obtain ⟨hgate, haccept, hequal⟩ := gate_exact (exJson []) exConfig rfl (by decide)
  refine ⟨(hgate _ _ _ (by decide)).mp fun _ => exRequest_header _, haccept, ?_⟩
  intro h
  exact (hequal _ _).mp h exLongKey_confusable

/-- A request with a one-byte token passes the gate of a valid configuration
whose key is 257 times that byte. -/
theorem gate_passed_by_wrong_token :
    exConfig.validate = .ok () ∧ exConfig.requireAuth = true ∧ exConfig.apiKey ≠ [] ∧
    isInternalEndpoint (exRequest (bearerPrefix ++ utf8 "x")).path = false ∧
    (runMiddleware (exJson []) exConfig exMoments (Limiters.ofConfig exConfig)
      (exRequest (bearerPrefix ++ utf8 "x"))).result = .ok none ∧
    (exRequest (bearerPrefix ++ utf8 "x")).header (utf8 "authorization") ≠
      bearerPrefix ++ exConfig.apiKey ∧
    constantTimeEquals (utf8 "x") exConfig.apiKey = true ∧ utf8 "x" ≠ exConfig.apiKey := by
  have hequal : constantTimeEquals (utf8 "x") exLongKey = true :=
    (constantTimeEquals_iff _ _).mpr (.inr exLongKey_confusable)
  refine ⟨by decide, rfl, by decide, by decide, ?_, ?_, hequal, exLongKey_confusable.ne⟩
  · refine (runMiddleware_pass rfl (by decide)).mpr ⟨exConfig_admits _, ?_⟩
    rw [exRequest_header]
    exact (authenticated_iff _ _).mpr ⟨utf8 "x", by decide, rfl, hequal⟩
  · rw [exRequest_header]
    intro h
    exact exLongKey_confusable.ne (List.append_cancel_left h)

end VoxtralServer
