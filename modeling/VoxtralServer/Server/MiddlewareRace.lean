import VoxtralServer.Lib.System
import VoxtralServer.Server.Middleware

/-!
# Concurrent middleware calls

Each limiter has its own mutex, so concurrent calls of `run_middleware`
interleave between its critical sections. A call is a sequence of atomic
steps: ask the failure limiter, ask the request limiter, compare the token,
record the failure.

* `solo_run`: one call that runs alone computes `runMiddleware`.
* `guesses_bounded`: at most `max_failures + 1` wrong tokens of an address are
  compared in one of its failure windows, as long as each request that passes
  the first check still has headroom.
* `guesses_unbounded`: concurrent requests do not leave that headroom.
-/

namespace VoxtralServer

/-! ## The steps of a call -/

/-- Where a call of `run_middleware` is. -/
inductive Phase
  | start
  | atRequest
  | atCompare
  | atRecord (authResult : AuthResult)
  | done (result : Except JsonError (Option HttpResponse))

/-- The next step of a call: its new phase, the limiters it leaves, and its
metrics. A call that is done has none. -/
def Phase.step (lib : JsonLib) (cfg : ServerConfig) (req : HttpRequest) (m : Moment)
    (lim : Limiters) : Phase → Option (Phase × Limiters × List MetricOp)
  | .start =>
    if isInternalEndpoint req.path then some (.done (.ok none), lim, [])
    else if cfg.requireAuth then
      let (blocked, auth) := lim.auth.isBlocked (clientIp cfg req) m.t.now
      let lim := { lim with auth := auth }
      if blocked then some (.done (authRateLimited lib), lim, [.requestsRejectedAuth])
      else some (.atRequest, lim, [])
    else some (.atRequest, lim, [])
  | .atRequest =>
    let (retryAfter, request) := lim.request.checkRequest m.requestOrd (clientIp cfg req) m.t
    let lim := { lim with request := request }
    if retryAfter > 0 then
      some (.done (rateLimited lib retryAfter), lim, [.requestsRejectedRateLimit])
    else if cfg.requireAuth then some (.atCompare, lim, [])
    else some (.done (.ok none), lim, [])
  | .atCompare =>
    let authResult := checkBearerAuth (req.header (utf8 "authorization")) cfg.apiKey
    if !authResult.authenticated then some (.atRecord authResult, lim, [])
    else some (.done (.ok none), lim, [])
  | .atRecord authResult =>
    let (_, auth) := lim.auth.checkAndRecordFailure m.authOrd (clientIp cfg req) m.t
    some (.done (unauthorized lib authResult), { lim with auth := auth }, [.requestsRejectedAuth])
  | .done _ => none

/-- A call from `phase` on, when no other call steps in between. -/
def Phase.runAlone (lib : JsonLib) (cfg : ServerConfig) (req : HttpRequest) :
    List Moment → Phase → Limiters → List MetricOp → Option MiddlewareOutcome
  | _, .done result, lim, metrics => some ⟨result, lim, metrics⟩
  | [], _, _, _ => none
  | m :: ms, phase, lim, metrics =>
    (phase.step lib cfg req m lim).bind fun (phase, lim, ops) =>
      runAlone lib cfg req ms phase lim (metrics ++ ops)

/-- One call that runs alone computes `run_middleware`. -/
theorem solo_run (lib : JsonLib) (cfg : ServerConfig) (req : HttpRequest) (ms : Moments)
    (compare : Moment) (lim : Limiters) :
    Phase.runAlone lib cfg req [ms.blocked, ms.request, compare, ms.failure] .start lim [] =
      some (runMiddleware lib cfg ms lim req) := by
  unfold runMiddleware
  simp only [Phase.runAlone, Phase.step]
  split
  · rfl
  split
  · split
    · simp [Phase.runAlone]
    · simp only [Option.bind_some, Phase.runAlone, Phase.step, List.append_nil]
      split
      · rfl
      · simp only [Option.bind_some, Phase.runAlone, Phase.step]
        split <;> rfl
  · simp only [Option.bind_some, Phase.runAlone, Phase.step, List.append_nil]
    split <;> rfl

/-! ## Interleaved calls -/

namespace Race

/-- A call of `run_middleware`. -/
structure Call where
  req : HttpRequest
  phase : Phase

/-- A token of an address that was compared with the key. -/
structure Comparison where
  ip : Str
  token : Str
  now : Int
deriving DecidableEq, Repr

/-- The limiters, the last clock reading, the calls so far, and the tokens they
compared, the latest first. -/
structure State where
  limiters : Limiters
  clock : Int
  calls : List Call := []
  compared : List Comparison := []
  metrics : List MetricOp := []

/-- A request arrives, or a call takes its next step. -/
inductive Act
  | arrive (req : HttpRequest)
  | advance (i : Nat) (m : Moment)

/-- The token that `check_bearer_auth` compares, if it gets that far. -/
def presentedToken (authHeader : Str) : Option Str :=
  if authHeader.length ≤ bearerPrefix.length ∨
      authHeader.take bearerPrefix.length ≠ bearerPrefix then none
  else some (authHeader.drop bearerPrefix.length)

/-- What the step of a call compares with the key. -/
def comparison (cfg : ServerConfig) (req : HttpRequest) (now : Int) : Phase → List Comparison
  | .atCompare =>
    ((presentedToken (req.header (utf8 "authorization"))).map fun token =>
      (⟨clientIp cfg req, token, now⟩ : Comparison)).toList
  | _ => []

def step (lib : JsonLib) (cfg : ServerConfig) (s : State) : Act → Option State
  | .arrive req => some { s with calls := s.calls ++ [⟨req, .start⟩] }
  | .advance i m =>
    if s.clock ≤ m.t.now ∧ m.t.now ≤ m.t.fresh then
      (s.calls[i]?).bind fun call =>
        (call.phase.step lib cfg call.req m s.limiters).map fun (phase, lim, ops) =>
          { limiters := lim
            clock := m.t.fresh
            calls := s.calls.set i ⟨call.req, phase⟩
            compared := comparison cfg call.req m.t.now call.phase ++ s.compared
            metrics := s.metrics ++ ops }
    else none

/-- All interleavings of any number of calls, from empty limiters with any
parameters. -/
def system (lib : JsonLib) (cfg : ServerConfig) : System State Act where
  init s := s.limiters.auth.ipStates = ∅ ∧ s.calls = [] ∧ s.compared = []
  step := step lib cfg

variable {lib : JsonLib} {cfg : ServerConfig} {ip : Str} {s s' : State} {a : Act}

/-- What a step is. -/
theorem step_cases (h : (system lib cfg).step s a = some s') :
    (∃ req, a = .arrive req ∧ s' = { s with calls := s.calls ++ [⟨req, .start⟩] }) ∨
    ∃ i m call phase lim ops, a = .advance i m ∧ s.calls[i]? = some call ∧
      s.clock ≤ m.t.now ∧ m.t.now ≤ m.t.fresh ∧
      call.phase.step lib cfg call.req m s.limiters = some (phase, lim, ops) ∧
      s' = { limiters := lim
             clock := m.t.fresh
             calls := s.calls.set i ⟨call.req, phase⟩
             compared := comparison cfg call.req m.t.now call.phase ++ s.compared
             metrics := s.metrics ++ ops } := by
  cases a with
  | arrive req => exact .inl ⟨req, rfl, (Option.some.inj h).symm⟩
  | advance i m =>
    simp only [system, step] at h
    split at h
    · next ht =>
      obtain ⟨call, hcall, h⟩ := Option.bind_eq_some_iff.mp h
      obtain ⟨⟨phase, lim, ops⟩, hstep, h⟩ := Option.map_eq_some_iff.mp h
      exact .inr ⟨i, m, call, phase, lim, ops, rfl, hcall, ht.1, ht.2, hstep, h.symm⟩
    · cases h

/-- A call of the state takes its step. -/
theorem advance_step {i : Nat} {m : Moment} {call : Call} {phase : Phase} {lim : Limiters}
    {ops : List MetricOp} (hnow : s.clock ≤ m.t.now) (hfresh : m.t.now ≤ m.t.fresh)
    (hcall : s.calls[i]? = some call)
    (hstep : call.phase.step lib cfg call.req m s.limiters = some (phase, lim, ops)) :
    step lib cfg s (.advance i m) = some
      { limiters := lim
        clock := m.t.fresh
        calls := s.calls.set i ⟨call.req, phase⟩
        compared := comparison cfg call.req m.t.now call.phase ++ s.compared
        metrics := s.metrics ++ ops } := by
  simp only [step, hnow, hfresh, and_self, if_true, hcall, Option.bind_some, hstep,
    Option.map_some]

/-! ## Counting guesses -/

/-- The authentication of the request fails. -/
def authFails (cfg : ServerConfig) (req : HttpRequest) : Bool :=
  !(checkBearerAuth (req.header (utf8 "authorization")) cfg.apiKey).authenticated

/-- The call of `ip` has passed the first check and may still record a failure. -/
def pendingCall (cfg : ServerConfig) (ip : Str) (c : Call) : Bool :=
  decide (clientIp cfg c.req = ip) &&
    match c.phase with
    | .atRequest => cfg.requireAuth && authFails cfg c.req
    | .atCompare => authFails cfg c.req
    | .atRecord _ => true
    | _ => false

/-- The call of `ip` has compared its token and not yet recorded its failure. -/
def recordingCall (cfg : ServerConfig) (ip : Str) (c : Call) : Bool :=
  decide (clientIp cfg c.req = ip) &&
    match c.phase with
    | .atRecord _ => true
    | _ => false

def pending (cfg : ServerConfig) (s : State) (ip : Str) : Nat :=
  s.calls.countP (pendingCall cfg ip)

def recording (cfg : ServerConfig) (s : State) (ip : Str) : Nat :=
  s.calls.countP (recordingCall cfg ip)

/-- How many tokens of `ip` that satisfy `p` were compared in the failure window
that opened at `w`. -/
def comparedIn (s : State) (ip : Str) (p : Str → Bool) (w : Int) : Nat :=
  s.compared.countP fun c => decide (c.ip = ip) && p c.token &&
    decide (w ≤ c.now ∧ c.now - w ≤ seconds s.limiters.auth.windowSecs)

/-- The comparison found the token wrong. -/
def mismatch (cfg : ServerConfig) (token : Str) : Bool := !constantTimeEquals token cfg.apiKey

/-- How many tokens of `ip` were found wrong at `w` or later. -/
def mismatchesSince (cfg : ServerConfig) (s : State) (ip : Str) (w : Int) : Nat :=
  s.compared.countP fun c => decide (c.ip = ip) && mismatch cfg c.token && decide (w ≤ c.now)

namespace RaceLemmas

theorem countP_set_add {α : Type} {p : α → Bool} {l : List α} {i : Nat} {x : α} (y : α)
    (h : l[i]? = some x) :
    (l.set i y).countP p + (p x).toNat = l.countP p + (p y).toNat := by
  obtain ⟨hi, rfl⟩ := List.getElem?_eq_some_iff.mp h
  have hpos : p l[i] = true → 0 < l.countP p := fun hp =>
    List.countP_pos_iff.mpr ⟨l[i], List.getElem_mem hi, hp⟩
  rw [List.countP_set hi]
  cases hx : p l[i] with
  | false => cases p y <;> simp
  | true =>
    have := hpos hx
    cases p y <;> simp <;> omega

/-- The comparison step compares what `check_bearer_auth` compares. -/
theorem presentedToken_fails {req : HttpRequest} {token : Str}
    (h : presentedToken (req.header (utf8 "authorization")) = some token) :
    authFails cfg req = mismatch cfg token := by
  unfold presentedToken at h
  split at h
  · cases h
  · next hfmt =>
    have hne : ¬ ((req.header (utf8 "authorization")).isEmpty = true) := by
      rw [List.isEmpty_iff]
      intro he
      simp [he] at hfmt
    unfold authFails checkBearerAuth
    rw [if_neg hne, if_neg hfmt, Option.some.inj h]
    cases hc : constantTimeEquals token cfg.apiKey <;> simp [mismatch, hc]

end RaceLemmas

open RaceLemmas

/-! ## What a step changes -/

/-- What the step of a call does to the failure limiter and to its phase. -/
inductive PhaseMoves (cfg : ServerConfig) (req : HttpRequest) (m : Moment) (lim lim' : Limiters) :
    Phase → Phase → Prop
  | internal {r : Except JsonError (Option HttpResponse)} : isInternalEndpoint req.path = true →
      lim'.auth = lim.auth → PhaseMoves cfg req m lim lim' .start (.done r)
  | blocked {r : Except JsonError (Option HttpResponse)} :
      (lim.auth.isBlocked (clientIp cfg req) m.t.now).1 = true →
      lim'.auth = (lim.auth.isBlocked (clientIp cfg req) m.t.now).2 →
      PhaseMoves cfg req m lim lim' .start (.done r)
  | passed : isInternalEndpoint req.path = false → cfg.requireAuth = true →
      (lim.auth.isBlocked (clientIp cfg req) m.t.now).1 = false →
      lim'.auth = (lim.auth.isBlocked (clientIp cfg req) m.t.now).2 →
      PhaseMoves cfg req m lim lim' .start .atRequest
  | unchecked : isInternalEndpoint req.path = false → cfg.requireAuth = false →
      lim'.auth = lim.auth →
      PhaseMoves cfg req m lim lim' .start .atRequest
  | answered {r : Except JsonError (Option HttpResponse)} : lim'.auth = lim.auth →
      PhaseMoves cfg req m lim lim' .atRequest (.done r)
  | allowed : cfg.requireAuth = true → lim'.auth = lim.auth →
      PhaseMoves cfg req m lim lim' .atRequest .atCompare
  | wrong {r : AuthResult} : authFails cfg req = true → lim'.auth = lim.auth →
      PhaseMoves cfg req m lim lim' .atCompare (.atRecord r)
  | right {r : Except JsonError (Option HttpResponse)} : authFails cfg req = false →
      lim'.auth = lim.auth → PhaseMoves cfg req m lim lim' .atCompare (.done r)
  | recorded {r : AuthResult} {r' : Except JsonError (Option HttpResponse)} :
      lim'.auth = (lim.auth.checkAndRecordFailure m.authOrd (clientIp cfg req) m.t).2 →
      PhaseMoves cfg req m lim lim' (.atRecord r) (.done r')

theorem phase_moves {req : HttpRequest} {m : Moment} {lim lim' : Limiters} {phase phase' : Phase}
    {ops : List MetricOp} (h : phase.step lib cfg req m lim = some (phase', lim', ops)) :
    PhaseMoves cfg req m lim lim' phase phase' := by
  cases phase with
  | start =>
    simp only [Phase.step] at h
    split at h
    · next hpath =>
      cases h
      exact .internal hpath rfl
    · next hpath =>
      rw [Bool.not_eq_true] at hpath
      split at h
      · next hauth =>
        split at h
        · next hb =>
          cases h
          exact .blocked hb rfl
        · next hb =>
          cases h
          exact .passed hpath hauth (Bool.not_eq_true _ ▸ hb) rfl
      · next hauth =>
        cases h
        exact .unchecked hpath (Bool.not_eq_true _ ▸ hauth) rfl
  | atRequest =>
    simp only [Phase.step] at h
    split at h
    · cases h
      exact .answered rfl
    · split at h
      · next hauth =>
        cases h
        exact .allowed hauth rfl
      · cases h
        exact .answered rfl
  | atCompare =>
    simp only [Phase.step] at h
    split at h
    · next hfails =>
      cases h
      exact .wrong hfails rfl
    · next hfails =>
      cases h
      exact .right (Bool.not_eq_true _ ▸ hfails) rfl
  | atRecord r =>
    cases h
    exact .recorded rfl
  | done r => cases h

/-- It leaves the parameters of the limiter. -/
theorem phase_params {req : HttpRequest} {m : Moment} {lim lim' : Limiters} {phase phase' : Phase}
    {ops : List MetricOp} (h : phase.step lib cfg req m lim = some (phase', lim', ops)) :
    lim'.auth.maxFailures = lim.auth.maxFailures ∧ lim'.auth.windowSecs = lim.auth.windowSecs ∧
      lim'.auth.maxTrackedIps = lim.auth.maxTrackedIps := by
  cases phase_moves h with
  | blocked _ heq => exact heq ▸ AuthRateLimiter.isBlocked_params
  | passed _ _ _ heq => exact heq ▸ AuthRateLimiter.isBlocked_params
  | recorded heq => exact heq ▸ AuthRateLimiter.recordFailure_params ..
  | internal _ heq => simp [heq]
  | unchecked _ _ heq => simp [heq]
  | answered heq => simp [heq]
  | allowed _ heq => simp [heq]
  | wrong _ heq => simp [heq]
  | right _ heq => simp [heq]

/-- The middleware call has asked the request limiter. -/
def AskedRequest : Phase → Prop
  | .start | .atRequest => False
  | _ => True

/-- What a step of a middleware call does to the request limiter. -/
theorem phase_request {req : HttpRequest} {m : Moment} {phase phase' : Phase}
    {lim lim' : Limiters} {ops : List MetricOp}
    (h : phase.step lib cfg req m lim = some (phase', lim', ops)) :
    (phase = .atRequest ∧ AskedRequest phase' ∧
      lim'.request = (lim.request.checkRequest m.requestOrd (clientIp cfg req) m.t).2) ∨
    (phase ≠ .atRequest ∧ (AskedRequest phase → AskedRequest phase') ∧
      lim'.request = lim.request) := by
  cases phase with
  | start =>
    refine .inr ⟨by simp, False.elim, ?_⟩
    simp only [Phase.step] at h
    repeat' split at h
    all_goals cases h
    all_goals rfl
  | atRequest =>
    refine .inl ⟨rfl, ?_⟩
    simp only [Phase.step] at h
    repeat' split at h
    all_goals cases h
    all_goals exact ⟨trivial, rfl⟩
  | atCompare =>
    refine .inr ⟨by simp, ?_⟩
    simp only [Phase.step] at h
    split at h <;> cases h <;> exact ⟨fun _ => trivial, rfl⟩
  | atRecord r =>
    cases h
    exact .inr ⟨by simp, fun _ => trivial, rfl⟩
  | done r => cases h

theorem step_maxRpm (h : (system lib cfg).step s a = some s') :
    s'.limiters.request.maxRpm = s.limiters.request.maxRpm := by
  obtain ⟨req, rfl, rfl⟩ | ⟨i, m, call, phase, lim, ops, rfl, _, _, _, hstep, rfl⟩ := step_cases h
  · rfl
  · rcases phase_request hstep with ⟨_, _, heq⟩ | ⟨_, _, heq⟩
    · rw [heq]
      exact RequestRateLimiter.checkRequest_params.1
    · rw [heq]

/-- How many steps a middleware call has left at most. -/
def phaseLeft : Phase → Nat
  | .start => 4
  | .atRequest => 3
  | .atCompare => 2
  | .atRecord _ => 1
  | .done _ => 0

/-- A middleware call that is not done has a step, whatever the limiters are. -/
theorem phase_enabled (lib : JsonLib) (cfg : ServerConfig) (req : HttpRequest) (m : Moment)
    (lim : Limiters) {phase : Phase} (h : ∀ result, phase ≠ .done result) :
    ∃ phase' lim' ops, phase.step lib cfg req m lim = some (phase', lim', ops) ∧
      phaseLeft phase' < phaseLeft phase := by
  cases phase with
  | start =>
    simp only [Phase.step]
    repeat' split
    all_goals exact ⟨_, _, _, rfl, by simp [phaseLeft]⟩
  | atRequest =>
    simp only [Phase.step]
    repeat' split
    all_goals exact ⟨_, _, _, rfl, by simp [phaseLeft]⟩
  | atCompare =>
    simp only [Phase.step]
    split <;> exact ⟨_, _, _, rfl, by simp [phaseLeft]⟩
  | atRecord r => exact ⟨_, _, _, rfl, by simp [phaseLeft]⟩
  | done result => exact absurd rfl (h result)

/-! ## The invariant of one address -/

/-- What is known of an address as long as no unexpired entry of it is evicted
and every request that passes the first check has headroom. -/
structure Inv (cfg : ServerConfig) (ip : Str) (s : State) : Prop where
  pending_le : pending cfg s ip ≤ s.limiters.auth.maxFailures + 1
  failures_le : ∀ st, s.limiters.auth.ipStates.lookup ip = some st →
    st.failures + pending cfg s ip ≤ s.limiters.auth.maxFailures + 1
  recorded : ∀ st, s.limiters.auth.ipStates.lookup ip = some st →
    mismatchesSince cfg s ip st.windowStart ≤ st.failures + recording cfg s ip
  unrecorded : ∀ τ, s.clock ≤ τ →
    (∀ st, s.limiters.auth.ipStates.lookup ip = some st →
      s.limiters.auth.expired τ st = true) →
    mismatchesSince cfg s ip τ ≤ recording cfg s ip
  clocked : ∀ c ∈ s.compared, c.now ≤ s.clock

/-- The step evicts no unexpired entry of the address. -/
def Kept (cfg : ServerConfig) (ip : Str) (s : State) : Act → Prop
  | .arrive _ => True
  | .advance i m =>
    match s.calls[i]? with
    | some ⟨req, .atRecord _⟩ =>
      s.limiters.auth.evicts m.authOrd (clientIp cfg req) m.t ip = false
    | _ => True

instance (s : State) (a : Act) : Decidable (Kept cfg ip s a) := by
  unfold Kept
  split
  · infer_instance
  · split <;> infer_instance

/-- When a request of the address that will fail asks the failure limiter, it
is blocked, or the failures in the open window and the requests under way leave
room for one more. -/
def Headroom (cfg : ServerConfig) (ip : Str) (s : State) : Act → Prop
  | .arrive _ => True
  | .advance i m =>
    match s.calls[i]? with
    | some ⟨req, .start⟩ =>
      isInternalEndpoint req.path = false → clientIp cfg req = ip → authFails cfg req = true →
        (s.limiters.auth.isBlocked ip m.t.now).1 = true ∨
        s.limiters.auth.openFailures ip m.t.now + pending cfg s ip ≤ s.limiters.auth.maxFailures
    | _ => True

instance (s : State) (a : Act) : Decidable (Headroom cfg ip s a) := by
  unfold Headroom
  split
  · infer_instance
  · split <;> infer_instance

namespace RaceLemmas

theorem expired_of_le {l : AuthRateLimiter} {st : AuthRateLimiter.IpState} {now τ : Int}
    (h : l.expired now st = true) (hle : now ≤ τ) : l.expired τ st = true := by
  simp only [AuthRateLimiter.expired, decide_eq_true_eq] at h ⊢
  omega

theorem expired_congr {l l' : AuthRateLimiter} (h : l'.windowSecs = l.windowSecs) :
    l'.expired = l.expired := by
  funext now st
  simp only [AuthRateLimiter.expired, h]

theorem mismatchesSince_eq_zero {w : Int} (h : ∀ c ∈ s.compared, c.now < w) :
    mismatchesSince cfg s ip w = 0 := by
  unfold mismatchesSince
  rw [List.countP_eq_zero]
  intro c hc
  simp [h c hc]

end RaceLemmas

/-- A step that records no failure of the address and lets no request of it
past the first check keeps the invariant. It may find `k` more tokens wrong, if
as many calls are about to record that. -/
theorem Inv.quiet {now : Int} {k : Nat} (hi : Inv cfg ip s)
    (hmax : s'.limiters.auth.maxFailures = s.limiters.auth.maxFailures)
    (hsecs : s'.limiters.auth.windowSecs = s.limiters.auth.windowSecs)
    (h1 : s.clock ≤ now) (h2 : now ≤ s'.clock)
    (hentry : s'.limiters.auth.ipStates.lookup ip = s.limiters.auth.ipStates.lookup ip ∨
      (s'.limiters.auth.ipStates.lookup ip = none ∧
        ∀ st, s.limiters.auth.ipStates.lookup ip = some st →
          s.limiters.auth.expired now st = true))
    (hpend : pending cfg s' ip ≤ pending cfg s ip)
    (hrec : recording cfg s' ip = recording cfg s ip + k)
    (hmis : ∀ w, mismatchesSince cfg s' ip w ≤ mismatchesSince cfg s ip w + k)
    (hclk : ∀ c ∈ s'.compared, c.now ≤ s'.clock) : Inv cfg ip s' := by
  have hstill : ∀ st, s'.limiters.auth.ipStates.lookup ip = some st →
      s.limiters.auth.ipStates.lookup ip = some st := by
    intro st hst
    rcases hentry with h | ⟨h, _⟩
    · exact h ▸ hst
    · rw [h] at hst
      cases hst
  constructor
  · rw [hmax]
    exact Nat.le_trans hpend hi.pending_le
  · intro st hst
    have := hi.failures_le st (hstill st hst)
    omega
  · intro st hst
    have := hi.recorded st (hstill st hst)
    have := hmis st.windowStart
    omega
  · intro τ hτ hexp
    have hold := hi.unrecorded τ (by omega) (by
      intro st hst
      rcases hentry with h | ⟨_, h⟩
      · rw [← expired_congr hsecs]
        exact hexp st (h ▸ hst)
      · exact expired_of_le (h st hst) (by omega))
    have := hmis τ
    omega
  · exact hclk

/-- A request with headroom passes the first check. -/
theorem Inv.pass {now : Int} (hi : Inv cfg ip s) (h1 : s.clock ≤ now) (h2 : now ≤ s'.clock)
    (hauth : s'.limiters.auth = (s.limiters.auth.isBlocked ip now).2)
    (hroom : s.limiters.auth.openFailures ip now + pending cfg s ip ≤
      s.limiters.auth.maxFailures)
    (hpend : pending cfg s' ip = pending cfg s ip + 1)
    (hrec : recording cfg s' ip = recording cfg s ip) (hcomp : s'.compared = s.compared) :
    Inv cfg ip s' := by
  have hmax : s'.limiters.auth.maxFailures = s.limiters.auth.maxFailures := by
    rw [hauth, AuthRateLimiter.isBlocked_params.1]
  have hsecs : s'.limiters.auth.windowSecs = s.limiters.auth.windowSecs := by
    rw [hauth, AuthRateLimiter.isBlocked_params.2.1]
  have hself : ∀ st, s'.limiters.auth.ipStates.lookup ip = some st →
      s.limiters.auth.ipStates.lookup ip = some st ∧
      st.failures = s.limiters.auth.openFailures ip now := by
    intro st hst
    rw [hauth] at hst
    exact AuthRateLimiter.isBlocked_self hst
  have hmis : ∀ w, mismatchesSince cfg s' ip w = mismatchesSince cfg s ip w := fun w => by
    unfold mismatchesSince
    rw [hcomp]
  constructor
  · omega
  · intro st hst
    have := (hself st hst).2
    omega
  · intro st hst
    rw [hmis, hrec]
    exact hi.recorded st (hself st hst).1
  · intro τ hτ hexp
    rw [hmis, hrec]
    refine hi.unrecorded τ (by omega) fun st hst => ?_
    have hentry := AuthRateLimiter.isBlocked_entry s.limiters.auth ip ip now
    rw [← hauth] at hentry
    rcases hentry with h | ⟨_, h⟩
    · rw [← expired_congr hsecs]
      exact hexp st (h ▸ hst)
    · exact expired_of_le (h st hst) (by omega)
  · intro c hc
    rw [hcomp] at hc
    have := hi.clocked c hc
    omega

/-- The entry that a failure of the address is counted in, with one recording
call less: its window is open, and it still bounds what is pending and what was
found wrong. -/
theorem Inv.counted {t : Readings} (hi : Inv cfg ip s) (hsecs0 : 0 ≤ s.limiters.auth.windowSecs)
    (h1 : s.clock ≤ t.now) (h2 : t.now ≤ t.fresh) {pend rec : Nat}
    (hpend : pend + 1 = pending cfg s ip) (hrec : rec + 1 = recording cfg s ip) :
    s.limiters.auth.expired t.now (s.limiters.auth.countFailure ip t) = false ∧
    (s.limiters.auth.countFailure ip t).failures + pend ≤ s.limiters.auth.maxFailures + 1 ∧
    mismatchesSince cfg s ip (s.limiters.auth.countFailure ip t).windowStart ≤
      (s.limiters.auth.countFailure ip t).failures + rec := by
  have hpending := hi.pending_le
  rcases AuthRateLimiter.countFailure_cases s.limiters.auth _ h2 with
    ⟨st, hst, hopen, hcount⟩ | ⟨hexp, w, hcount, hw⟩
  · -- the failure joins the open window
    have hf := hi.failures_le st hst
    have hr := hi.recorded st hst
    rw [hcount]
    refine ⟨hopen, ?_, ?_⟩ <;> dsimp only <;> omega
  · -- it opens a new one
    have hr := hi.unrecorded w (by omega) fun st hst => expired_of_le (hexp st hst) hw
    rw [hcount]
    refine ⟨?_, ?_, ?_⟩
    · rw [AuthRateLimiter.expired_eq_false]
      simp only [seconds]
      omega
    · dsimp only
      omega
    · dsimp only
      omega

/-- A failure of the address is recorded, and its entry survives. -/
theorem Inv.record {t : Readings} (hi : Inv cfg ip s) (hsecs0 : 0 ≤ s.limiters.auth.windowSecs)
    (h1 : s.clock ≤ t.now) (h2 : t.now ≤ t.fresh) (hclock : s'.clock = t.fresh)
    (hmax : s'.limiters.auth.maxFailures = s.limiters.auth.maxFailures)
    (hsecs : s'.limiters.auth.windowSecs = s.limiters.auth.windowSecs)
    (hself : s'.limiters.auth.ipStates.lookup ip = some (s.limiters.auth.countFailure ip t))
    (hpend : pending cfg s' ip + 1 = pending cfg s ip)
    (hrec : recording cfg s' ip + 1 = recording cfg s ip) (hcomp : s'.compared = s.compared) :
    Inv cfg ip s' := by
  have hmis : ∀ w, mismatchesSince cfg s' ip w = mismatchesSince cfg s ip w := fun w => by
    unfold mismatchesSince
    rw [hcomp]
  have hpending := hi.pending_le
  obtain ⟨hopen, hfail, hrecorded⟩ := hi.counted hsecs0 h1 h2 hpend hrec
  constructor
  · omega
  · intro st hst
    rw [hself] at hst
    cases hst
    omega
  · intro st hst
    rw [hself] at hst
    cases hst
    rw [hmis]
    exact hrecorded
  · -- its window is still open at any time of a comparison so far
    intro τ hτ hexp
    rw [hmis, mismatchesSince_eq_zero]
    · exact Nat.zero_le _
    · intro c hc
      have hle := hi.clocked c hc
      have hτexp := hexp _ hself
      rw [expired_congr hsecs] at hτexp
      rw [AuthRateLimiter.expired_eq_false] at hopen
      simp only [AuthRateLimiter.expired, decide_eq_true_eq] at hτexp
      omega
  · intro c hc
    rw [hcomp] at hc
    have := hi.clocked c hc
    omega

/-- How many tokens of the address the step of a call finds wrong. -/
def wrongFound (cfg : ServerConfig) (ip : Str) (req : HttpRequest) : Phase → Nat
  | .atCompare => (decide (clientIp cfg req = ip) && authFails cfg req).toNat
  | _ => 0

theorem comparison_count (cfg : ServerConfig) (ip : Str) (req : HttpRequest) (now w : Int)
    (phase : Phase) :
    ((comparison cfg req now phase).countP fun c =>
      decide (c.ip = ip) && mismatch cfg c.token && decide (w ≤ c.now)) ≤
    wrongFound cfg ip req phase := by
  cases phase with
  | atCompare =>
    simp only [comparison, wrongFound]
    cases ht : presentedToken (req.header (utf8 "authorization")) with
    | none => simp
    | some token =>
      rw [presentedToken_fails ht, Option.map_some, Option.toList_some,
        List.countP_singleton]
      cases decide (clientIp cfg req = ip) <;> cases mismatch cfg token <;>
        cases decide (w ≤ now) <;> decide
  | _ => exact Nat.zero_le _

theorem comparison_now {req : HttpRequest} {now : Int} {phase : Phase} :
    ∀ c ∈ comparison cfg req now phase, c.now = now := by
  intro c hc
  cases phase with
  | atCompare =>
    simp only [comparison, Option.mem_toList, Option.map_eq_some_iff] at hc
    obtain ⟨token, _, rfl⟩ := hc
    rfl
  | _ => cases hc

/-- How a step that takes a call from `phase` to `phase'` moves the clock and
the counts of the address. -/
structure Advanced (cfg : ServerConfig) (ip : Str) (s s' : State) (req : HttpRequest)
    (phase phase' : Phase) (t : Readings) : Prop where
  now_ge : s.clock ≤ t.now
  fresh_ge : t.now ≤ t.fresh
  clock_eq : s'.clock = t.fresh
  pending_eq : pending cfg s' ip + (pendingCall cfg ip ⟨req, phase⟩).toNat =
    pending cfg s ip + (pendingCall cfg ip ⟨req, phase'⟩).toNat
  recording_eq : recording cfg s' ip + (recordingCall cfg ip ⟨req, phase⟩).toNat =
    recording cfg s ip + (recordingCall cfg ip ⟨req, phase'⟩).toNat
  compared_eq : s'.compared = comparison cfg req t.now phase ++ s.compared

variable {req : HttpRequest} {phase phase' : Phase} {t : Readings}

theorem Advanced.mismatches (h : Advanced cfg ip s s' req phase phase' t) (w : Int) :
    mismatchesSince cfg s' ip w ≤ mismatchesSince cfg s ip w + wrongFound cfg ip req phase := by
  have := comparison_count cfg ip req t.now w phase
  simp only [mismatchesSince, h.compared_eq, List.countP_append]
  omega

theorem Advanced.clocked (h : Advanced cfg ip s s' req phase phase' t)
    (hs : ∀ c ∈ s.compared, c.now ≤ s.clock) : ∀ c ∈ s'.compared, c.now ≤ s'.clock := by
  have h1 := h.now_ge
  have h2 := h.fresh_ge
  rw [h.compared_eq, h.clock_eq]
  intro c hc
  rcases List.mem_append.mp hc with hc | hc
  · rw [comparison_now c hc]
    exact h2
  · have := hs c hc
    omega

/-- A step that leaves the failure limiter alone keeps the invariant, when it
adds to the pending calls no more than it takes away. -/
theorem Inv.unchanged (hi : Inv cfg ip s) (h : Advanced cfg ip s s' req phase phase' t)
    (hauth : s'.limiters.auth = s.limiters.auth)
    (hpend : (pendingCall cfg ip ⟨req, phase'⟩).toNat ≤ (pendingCall cfg ip ⟨req, phase⟩).toNat)
    (hrec : (recordingCall cfg ip ⟨req, phase'⟩).toNat =
      (recordingCall cfg ip ⟨req, phase⟩).toNat + wrongFound cfg ip req phase) :
    Inv cfg ip s' := by
  have h1 := h.fresh_ge
  have h2 := h.clock_eq
  have h3 := h.pending_eq
  have h4 := h.recording_eq
  exact hi.quiet (by rw [hauth]) (by rw [hauth]) h.now_ge (by omega) (.inl (by rw [hauth]))
    (by omega) (by omega) h.mismatches (h.clocked hi.clocked)

/-- A step that asks the failure limiter keeps the invariant when the call is
not pending after it. -/
theorem Inv.asked (hi : Inv cfg ip s) (h : Advanced cfg ip s s' req .start phase' t)
    (hauth : s'.limiters.auth = (s.limiters.auth.isBlocked (clientIp cfg req) t.now).2)
    (hpend : pendingCall cfg ip ⟨req, phase'⟩ = false)
    (hrec : recordingCall cfg ip ⟨req, phase'⟩ = false) : Inv cfg ip s' := by
  have h1 := h.fresh_ge
  have h2 := h.clock_eq
  have h3 := h.pending_eq
  have h4 := h.recording_eq
  simp only [hpend, hrec, Bool.toNat_false] at h3 h4
  simp only [pendingCall, recordingCall, Bool.and_false, Bool.toNat_false] at h3 h4
  refine hi.quiet (k := 0) (by rw [hauth, AuthRateLimiter.isBlocked_params.1])
    (by rw [hauth, AuthRateLimiter.isBlocked_params.2.1]) h.now_ge (by omega) ?_ (by omega)
    (by omega) h.mismatches (h.clocked hi.clocked)
  rw [hauth]
  exact AuthRateLimiter.isBlocked_entry ..

/-- A step past the failure limiter keeps the invariant. -/
theorem Inv.passed (hi : Inv cfg ip s) (h : Advanced cfg ip s s' req .start .atRequest t)
    (hreq : cfg.requireAuth = true)
    (hnot : (s.limiters.auth.isBlocked (clientIp cfg req) t.now).1 = false)
    (hauth : s'.limiters.auth = (s.limiters.auth.isBlocked (clientIp cfg req) t.now).2)
    (hroom : clientIp cfg req = ip → authFails cfg req = true →
      (s.limiters.auth.isBlocked ip t.now).1 = true ∨
      s.limiters.auth.openFailures ip t.now + pending cfg s ip ≤ s.limiters.auth.maxFailures) :
    Inv cfg ip s' := by
  by_cases hfails : clientIp cfg req = ip ∧ authFails cfg req = true
  · obtain ⟨rfl, hfails⟩ := hfails
    have h1 := h.fresh_ge
    have h2 := h.clock_eq
    have h3 := h.pending_eq
    have h4 := h.recording_eq
    simp only [pendingCall, recordingCall, hfails, hreq, decide_true, Bool.and_true,
      Bool.toNat_true, Bool.and_false, Bool.toNat_false] at h3 h4
    have hr := (hroom rfl hfails).resolve_left (by simp [hnot])
    exact hi.pass h.now_ge (by omega) hauth hr (by omega) (by omega) h.compared_eq
  · -- the call will not fail, or it is of another address
    refine hi.asked h hauth ?_ (by simp [recordingCall])
    rw [not_and, Bool.not_eq_true] at hfails
    simpa [pendingCall, hreq] using hfails

/-- The step that records a failure keeps the invariant. -/
theorem Inv.recorded_step {ord : IterOrder Str AuthRateLimiter.IpState} {r : AuthResult}
    {r' : Except JsonError (Option HttpResponse)} (hi : Inv cfg ip s)
    (h : Advanced cfg ip s s' req (.atRecord r) (.done r') t)
    (hsecs0 : 0 ≤ s.limiters.auth.windowSecs)
    (hauth : s'.limiters.auth =
      (s.limiters.auth.checkAndRecordFailure ord (clientIp cfg req) t).2)
    (hkept : s.limiters.auth.evicts ord (clientIp cfg req) t ip = false) : Inv cfg ip s' := by
  have h1 := h.fresh_ge
  have h2 := h.clock_eq
  have h3 := h.pending_eq
  have h4 := h.recording_eq
  have hparams := AuthRateLimiter.recordFailure_params s.limiters.auth ord (clientIp cfg req) t
  have hentry := AuthRateLimiter.recordFailure_entry hkept
  rw [← hauth] at hparams hentry
  by_cases hip : clientIp cfg req = ip
  · subst hip
    simp only [pendingCall, recordingCall, decide_true, Bool.and_true, Bool.toNat_true,
      Bool.and_false, Bool.toNat_false] at h3 h4
    have hcount := AuthRateLimiter.countFailure_open_now (l := s.limiters.auth)
      (clientIp cfg req) h1 hsecs0
    refine hi.record hsecs0 h.now_ge h1 h2 hparams.1 hparams.2.1 ?_ (by omega) (by omega)
      h.compared_eq
    rw [AuthRateLimiter.written_lookup_self] at hentry
    rcases hentry with he | ⟨_, he⟩
    · exact he
    · rw [he _ rfl] at hcount
      cases hcount
  · simp only [pendingCall, recordingCall, hip, decide_false, Bool.false_and, Bool.toNat_false]
      at h3 h4
    rw [AuthRateLimiter.written_lookup_of_ne (Ne.symm hip)] at hentry
    exact hi.quiet (k := 0) hparams.1 hparams.2.1 h.now_ge (by omega) hentry (by omega) (by omega)
      h.mismatches (h.clocked hi.clocked)

/-- Every step that keeps the entry and leaves headroom keeps the invariant. -/
theorem step_inv (hsecs0 : 0 ≤ s.limiters.auth.windowSecs) (hi : Inv cfg ip s)
    (hkept : Kept cfg ip s a) (hroom : Headroom cfg ip s a)
    (hst : (system lib cfg).step s a = some s') : Inv cfg ip s' := by
  obtain ⟨req, rfl, rfl⟩ | ⟨i, m, ⟨req, phase₀⟩, phase, lim, ops, rfl, hcall, h1, h2, hstep, rfl⟩ :=
    step_cases hst
  · refine hi.quiet (k := 0) rfl rfl (Int.le_refl _) (Int.le_refl _) (.inl rfl) ?_ ?_
      (fun _ => Nat.le_refl _) hi.clocked
    · simp [pending, pendingCall]
    · simp [recording, recordingCall]
  simp only [Kept, Headroom, hcall] at hkept hroom
  have hadv : Advanced cfg ip s { limiters := lim
                                  clock := m.t.fresh
                                  calls := s.calls.set i ⟨req, phase⟩
                                  compared := comparison cfg req m.t.now phase₀ ++ s.compared
                                  metrics := s.metrics ++ ops } req phase₀ phase m.t :=
    ⟨h1, h2, rfl, countP_set_add _ hcall, countP_set_add _ hcall, rfl⟩
  cases phase_moves hstep with
  | internal _ ha =>
    exact hi.unchanged hadv ha (by simp [pendingCall]) (by simp [recordingCall, wrongFound])
  | blocked _ ha => exact hi.asked hadv ha (by simp [pendingCall]) (by simp [recordingCall])
  | passed hpath hauth hnot ha => exact hi.passed hadv hauth hnot ha (hroom hpath)
  | unchecked _ hauth ha =>
    exact hi.unchanged hadv ha (by simp [pendingCall, hauth]) (by simp [recordingCall, wrongFound])
  | answered ha =>
    exact hi.unchanged hadv ha (by simp [pendingCall]) (by simp [recordingCall, wrongFound])
  | allowed hauth ha =>
    exact hi.unchanged hadv ha (by simp [pendingCall, hauth]) (by simp [recordingCall, wrongFound])
  | wrong hfails ha =>
    exact hi.unchanged hadv ha (by simp [pendingCall, hfails])
      (by simp [recordingCall, wrongFound, hfails])
  | right hfails ha =>
    exact hi.unchanged hadv ha (by simp [pendingCall])
      (by simp [recordingCall, wrongFound, hfails])
  | recorded ha => exact hi.recorded_step hadv hsecs0 ha hkept

/-- No step changes the parameters of the failure limiter. -/
theorem step_params (h : (system lib cfg).step s a = some s') :
    s'.limiters.auth.maxFailures = s.limiters.auth.maxFailures ∧
    s'.limiters.auth.windowSecs = s.limiters.auth.windowSecs := by
  obtain ⟨req, rfl, rfl⟩ | ⟨i, m, call, phase, lim, ops, rfl, _, _, _, hstep, rfl⟩ := step_cases h
  · exact ⟨rfl, rfl⟩
  · obtain ⟨hmax, hsecs, _⟩ := phase_params hstep
    exact ⟨hmax, hsecs⟩

/-- A step keeps the window of the address, or finds it over. -/
theorem step_window {st : AuthRateLimiter.IpState} (hkept : Kept cfg ip s a)
    (hst : (system lib cfg).step s a = some s')
    (hl : s.limiters.auth.ipStates.lookup ip = some st) :
    (∃ st', s'.limiters.auth.ipStates.lookup ip = some st' ∧ st'.windowStart = st.windowStart) ∨
    ∃ now, s.limiters.auth.expired now st = true ∧ now ≤ s'.clock ∧ s'.compared = s.compared := by
  obtain ⟨req, rfl, rfl⟩ | ⟨i, m, ⟨req, phase₀⟩, phase, lim, ops, rfl, hcall, _, h2, hstep, rfl⟩ :=
    step_cases hst
  · exact .inl ⟨st, hl, rfl⟩
  simp only [Kept, hcall] at hkept
  have hsame (ha : lim.auth = s.limiters.auth) : ∃ st',
      lim.auth.ipStates.lookup ip = some st' ∧ st'.windowStart = st.windowStart :=
    ⟨st, by rw [ha, hl], rfl⟩
  have hasked (ha : lim.auth = (s.limiters.auth.isBlocked (clientIp cfg req) m.t.now).2) :
      (∃ st', lim.auth.ipStates.lookup ip = some st' ∧ st'.windowStart = st.windowStart) ∨
      s.limiters.auth.expired m.t.now st = true := by
    rcases AuthRateLimiter.isBlocked_entry s.limiters.auth ip (clientIp cfg req) m.t.now with
      he | ⟨_, he⟩
    · exact .inl ⟨st, by rw [ha, he, hl], rfl⟩
    · exact .inr (he st hl)
  cases phase_moves hstep with
  | blocked _ ha => exact (hasked ha).imp id fun hexp => ⟨m.t.now, hexp, h2, rfl⟩
  | passed _ _ _ ha => exact (hasked ha).imp id fun hexp => ⟨m.t.now, hexp, h2, rfl⟩
  | recorded ha =>
    by_cases hopen : s.limiters.auth.expired m.t.now st = true
    · exact .inr ⟨m.t.now, hopen, h2, rfl⟩
    · -- an open window is in the table that the failure is written to, and survives
      rw [Bool.not_eq_true] at hopen
      obtain ⟨st', hw, hstart, hopen'⟩ : ∃ st',
          (s.limiters.auth.written (clientIp cfg req) m.t).ipStates.lookup ip = some st' ∧
          st'.windowStart = st.windowStart ∧ s.limiters.auth.expired m.t.now st' = false := by
        by_cases hip : ip = clientIp cfg req
        · subst hip
          rw [AuthRateLimiter.written_lookup_self, AuthRateLimiter.countFailure_open hl hopen]
          exact ⟨_, rfl, rfl, hopen⟩
        · rw [AuthRateLimiter.written_lookup_of_ne hip]
          exact ⟨st, hl, rfl, hopen⟩
      rcases AuthRateLimiter.recordFailure_entry hkept with he | ⟨_, he⟩
      · exact .inl ⟨st', by rw [ha, he, hw], hstart⟩
      · rw [he st' hw] at hopen'
        cases hopen'
  | internal _ ha => exact .inl (hsame ha)
  | unchecked _ _ ha => exact .inl (hsame ha)
  | answered ha => exact .inl (hsame ha)
  | allowed _ ha => exact .inl (hsame ha)
  | wrong _ ha => exact .inl (hsame ha)
  | right _ ha => exact .inl (hsame ha)

theorem recording_le_pending (cfg : ServerConfig) (ip : Str) (s : State) :
    recording cfg s ip ≤ pending cfg s ip := by
  refine List.countP_mono_left fun c _ h => ?_
  obtain ⟨req, phase⟩ := c
  cases phase <;> simp [recordingCall, pendingCall] at h ⊢
  exact h

theorem comparedIn_le_since (cfg : ServerConfig) (ip : Str) (s : State) (w : Int) :
    comparedIn s ip (mismatch cfg) w ≤ mismatchesSince cfg s ip w := by
  refine List.countP_mono_left fun c _ h => ?_
  simp only [Bool.and_eq_true, decide_eq_true_eq] at h ⊢
  exact ⟨h.1, h.2.1⟩

/-- A step at or after `now` compares no token in a window that is over then. -/
theorem step_comparedIn {p : Str → Bool} {w : Int}
    (hst : (system lib cfg).step s a = some s')
    (hover : seconds s.limiters.auth.windowSecs < s.clock - w) :
    comparedIn s' ip p w = comparedIn s ip p w ∧ s.clock ≤ s'.clock := by
  have hsecs := (step_params hst).2
  obtain ⟨req, rfl, rfl⟩ | ⟨i, m, call, phase, lim, ops, rfl, _, h1, h2, _, rfl⟩ := step_cases hst
  · exact ⟨rfl, Int.le_refl _⟩
  · refine ⟨?_, by dsimp only; omega⟩
    simp only [comparedIn] at hsecs ⊢
    rw [hsecs, List.countP_append, Nat.add_eq_right, List.countP_eq_zero]
    intro c hc
    rw [comparison_now c hc]
    simp only [Bool.and_eq_true, decide_eq_true_eq, not_and, not_le]
    intro _ _
    omega

/-- The guesses in the window that opened at `w` are within the bound, and it is
over or still the window of the address. -/
def Watched (cfg : ServerConfig) (ip : Str) (w : Int) (s : State) : Prop :=
  comparedIn s ip (mismatch cfg) w ≤ s.limiters.auth.maxFailures + 1 ∧
  (seconds s.limiters.auth.windowSecs < s.clock - w ∨
    ∃ st, s.limiters.auth.ipStates.lookup ip = some st ∧ st.windowStart = w)

theorem Inv.watched {st : AuthRateLimiter.IpState} (hi : Inv cfg ip s)
    (hl : s.limiters.auth.ipStates.lookup ip = some st) : Watched cfg ip st.windowStart s := by
  have h1 := comparedIn_le_since cfg ip s st.windowStart
  have h2 := hi.recorded st hl
  have h3 := recording_le_pending cfg ip s
  have h4 := hi.failures_le st hl
  exact ⟨by omega, .inr ⟨st, hl, rfl⟩⟩

theorem step_watched {w : Int} (hi' : Inv cfg ip s') (hw : Watched cfg ip w s)
    (hkept : Kept cfg ip s a) (hst : (system lib cfg).step s a = some s') :
    Watched cfg ip w s' := by
  obtain ⟨hmax, hsecs⟩ := step_params hst
  obtain ⟨hbound, hover | ⟨st, hl, rfl⟩⟩ := hw
  · obtain ⟨hsame, hclock⟩ := step_comparedIn (p := mismatch cfg) hst hover
    unfold Watched
    rw [hsame, hmax, hsecs]
    exact ⟨hbound, .inl (by omega)⟩
  · rcases step_window hkept hst hl with ⟨st', hl', hstart⟩ | ⟨now, hexp, hnow, hcomp⟩
    · rw [← hstart]
      exact hi'.watched hl'
    · unfold Watched comparedIn
      rw [hcomp, hmax, hsecs]
      simp only [AuthRateLimiter.expired, decide_eq_true_eq] at hexp
      exact ⟨hbound, .inl (by omega)⟩

/-- The step of the address keeps its entry and leaves headroom. -/
def Sound (cfg : ServerConfig) (ip : Str) (s : State) (a : Act) : Prop :=
  Kept cfg ip s a ∧ Headroom cfg ip s a

instance (s : State) (a : Act) : Decidable (Sound cfg ip s a) :=
  inferInstanceAs (Decidable (_ ∧ _))

theorem reachable_inv (h : (system lib cfg).Reachable (Sound cfg ip) s) :
    0 ≤ s.limiters.auth.windowSecs → Inv cfg ip s := by
  refine System.reachable_inv (I := fun s => 0 ≤ s.limiters.auth.windowSecs → Inv cfg ip s)
    ?_ ?_ h
  · rintro s ⟨hempty, hcalls, hcompared⟩ _
    constructor
    · simp [pending, hcalls]
    · intro st hl
      rw [hempty] at hl
      cases hl
    · intro st hl
      rw [hempty] at hl
      cases hl
    · intro τ _ _
      simp [mismatchesSince, hcompared]
    · simp [hcompared]
  · intro s a s' ih hg hst hsecs
    rw [(step_params hst).2] at hsecs
    exact step_inv hsecs (ih hsecs) hg.1 hg.2 hst

/-- Every run of sound steps keeps the guesses of each window within the
bound. -/
theorem reaches_comparedIn {st : AuthRateLimiter.IpState}
    (hr : (system lib cfg).Reachable (Sound cfg ip) s)
    (hl : s.limiters.auth.ipStates.lookup ip = some st)
    (hrun : (system lib cfg).Reaches (Sound cfg ip) s s') :
    comparedIn s' ip (mismatch cfg) st.windowStart ≤ s'.limiters.auth.maxFailures + 1 := by
  by_cases hsecs : 0 ≤ s'.limiters.auth.windowSecs
  · have hkeep := System.reaches_inv
      (I := fun u => (system lib cfg).Reachable (Sound cfg ip) u ∧
        (0 ≤ u.limiters.auth.windowSecs → Watched cfg ip st.windowStart u)) ?_ hrun
      ⟨hr, fun h => (reachable_inv hr h).watched hl⟩
    · exact (hkeep.2 hsecs).1
    · rintro u a v ⟨hu, hw⟩ hg hst
      have hv := hu.step hg hst
      refine ⟨hv, fun h => ?_⟩
      have hu0 := (step_params hst).2 ▸ h
      exact step_watched (reachable_inv hv h) (hw hu0) hg.1 hst
  · -- a window of negative length holds nothing
    have hzero : comparedIn s' ip (mismatch cfg) st.windowStart = 0 := by
      unfold comparedIn
      rw [List.countP_eq_zero]
      intro c _
      simp only [Bool.and_eq_true, decide_eq_true_eq, not_and, not_le]
      intro _ _
      simp only [seconds]
      omega
    omega

/-- The step compares no token of the address that is confusable with the key. -/
def NotConfused (cfg : ServerConfig) (ip : Str) (s : State) : Act → Prop
  | .arrive _ => True
  | .advance i _ =>
    match s.calls[i]? with
    | some ⟨req, .atCompare⟩ => clientIp cfg req = ip → ∀ token,
        presentedToken (req.header (utf8 "authorization")) = some token →
          ¬ Confusable token cfg.apiKey
    | _ => True

instance (s : State) (a : Act) : Decidable (NotConfused cfg ip s a) := by
  unfold NotConfused
  split
  · infer_instance
  · split
    · exact inferInstanceAs (Decidable (_ → ∀ token ∈ presentedToken _, _))
    · infer_instance

theorem reachable_not_confused
    (h : (system lib cfg).Reachable (NotConfused cfg ip) s) :
    ∀ c ∈ s.compared, c.ip = ip → ¬ Confusable c.token cfg.apiKey := by
  refine System.reachable_inv
    (I := fun s => ∀ c ∈ s.compared, c.ip = ip → ¬ Confusable c.token cfg.apiKey) ?_ ?_ h
  · rintro s ⟨_, _, hcompared⟩
    simp [hcompared]
  · intro s a s' ih hg hst
    obtain ⟨req, rfl, rfl⟩ | ⟨i, m, ⟨req, phase₀⟩, phase, lim, ops, rfl, hcall, _, _, _, rfl⟩ :=
      step_cases hst
    · exact ih
    · intro c hc hip
      rcases List.mem_append.mp hc with hc | hc
      · cases phase₀ with
        | atCompare =>
          simp only [NotConfused, hcall] at hg
          simp only [comparison, Option.mem_toList, Option.map_eq_some_iff] at hc
          obtain ⟨token, ht, rfl⟩ := hc
          exact hg hip token ht
        | _ => cases hc
      · exact ih c hc hip

/-- **Bounded guessing.** In every run in which no unexpired entry of the
address is evicted and every request that will fail passes the first check with
headroom, at most `max_failures + 1` comparisons of the address in one of its
failure windows find a wrong token. When no token is confusable with the key
either, those are all the wrong tokens compared. -/
theorem guesses_bounded (lib : JsonLib) (cfg : ServerConfig) (ip : Str) :
    (∀ s s' st, (system lib cfg).Reachable (Sound cfg ip) s →
      s.limiters.auth.ipStates.lookup ip = some st →
      (system lib cfg).Reaches (Sound cfg ip) s s' →
      comparedIn s' ip (mismatch cfg) st.windowStart ≤ s'.limiters.auth.maxFailures + 1) ∧
    ∀ s s' st, (system lib cfg).Reachable (fun s a => Sound cfg ip s a ∧ NotConfused cfg ip s a) s →
      s.limiters.auth.ipStates.lookup ip = some st →
      (system lib cfg).Reaches (fun s a => Sound cfg ip s a ∧ NotConfused cfg ip s a) s s' →
      comparedIn s' ip (fun token => decide (token ≠ cfg.apiKey)) st.windowStart ≤
        s'.limiters.auth.maxFailures + 1 := by
  refine ⟨fun s s' st hr hl hrun => reaches_comparedIn hr hl hrun, ?_⟩
  intro s s' st hr hl hrun
  have hbound := reaches_comparedIn (hr.mono fun _ _ h => h.1) hl (hrun.mono fun _ _ h => h.1)
  have hclear := reachable_not_confused ((hr.trans hrun).mono fun _ _ h => h.2)
  have hsame : comparedIn s' ip (fun token => decide (token ≠ cfg.apiKey)) st.windowStart =
      comparedIn s' ip (mismatch cfg) st.windowStart := by
    refine List.countP_congr fun c hc => ?_
    by_cases hip : c.ip = ip
    · have hequal := constantTimeEquals_iff c.token cfg.apiKey
      have hnot := hclear c hc hip
      simp only [hnot, or_false] at hequal
      simp only [mismatch, Bool.and_eq_true, decide_eq_true_eq, Bool.not_eq_true', ne_eq, ← hequal,
        Bool.not_eq_true]
    · simp [hip]
  rw [hsame]
  exact hbound

/-- Authentication on, with a short key. -/
def exKeyConfig : ServerConfig := { requireAuth := true, apiKey := utf8 "secret" }

/-- No calls yet, and a failure limiter that blocks at the second failure. -/
def exIdle : State where
  limiters := { auth := { maxFailures := 1 }, request := {} }
  clock := 0

/-- No calls yet, and a failure limiter that blocks at the third failure. -/
def exRoomy : State where
  limiters := { auth := { maxFailures := 2 }, request := {} }
  clock := 0

/-- Four requests with a wrong token, of which two go on side by side. -/
def exSideBySide : List Act :=
  (List.replicate 4 (.arrive (exRequest (utf8 "Bearer guess")))) ++
    [0, 1, 0, 1, 0, 1, 0, 1].map fun i => .advance i exMoment

/-- They leave room for the third one, and the fourth one is blocked. -/
theorem guesses_bounded_pair : ∃ s s' st,
    s.limiters.auth.ipStates.lookup (utf8 "127.0.0.1") = some st ∧
    (system (exJson []) exKeyConfig).Reaches (fun s a =>
      Sound exKeyConfig (utf8 "127.0.0.1") s a ∧ NotConfused exKeyConfig (utf8 "127.0.0.1") s a)
      s s' ∧
    s'.compared.length = 3 ∧ comparedIn s' (utf8 "127.0.0.1")
      (fun token => decide (token ≠ exKeyConfig.apiKey)) st.windowStart ≤ 2 + 1 := by
  obtain ⟨s, hrun, hreach⟩ :=
    System.exists_reachable (S := system (exJson []) exKeyConfig)
      (G := fun s a => Sound exKeyConfig (utf8 "127.0.0.1") s a ∧
        NotConfused exKeyConfig (utf8 "127.0.0.1") s a)
      (s := exRoomy) exSideBySide ⟨rfl, rfl, rfl⟩ (by decide)
  obtain ⟨s', hrun', hreaches⟩ :=
    System.exists_reaches (S := system (exJson []) exKeyConfig)
      (G := fun s a => Sound exKeyConfig (utf8 "127.0.0.1") s a ∧
        NotConfused exKeyConfig (utf8 "127.0.0.1") s a)
      (s := s) ([2, 2, 2, 2, 3].map fun i => .advance i exMoment) (by cases hrun; decide)
  have hentry : s.limiters.auth.ipStates.lookup (utf8 "127.0.0.1") = some ⟨2, 0⟩ := by
    cases hrun
    decide
  have hstate : s'.limiters.auth.maxFailures = 2 ∧ s'.compared.length = 3 := by
    cases hrun
    cases hrun'
    decide
  have hbound := (guesses_bounded (exJson []) exKeyConfig (utf8 "127.0.0.1")).2 s s' _ hreach hentry
    hreaches
  rw [hstate.1] at hbound
  exact ⟨s, s', _, hentry, hreaches, hstate.2, hbound⟩

/-- Three requests with a wrong token pass both limiters. Then the first one
compares its token and records the failure. -/
def exFirstFailure : List Act :=
  (List.replicate 3 (.arrive (exRequest (utf8 "Bearer guess")))) ++
    [0, 1, 2, 0, 1, 2, 0, 0].map fun i => .advance i exMoment

/-- The other two compare theirs. -/
def exOtherGuesses : List Act := [1, 2].map fun i => .advance i exMoment

/-- Three wrong tokens are compared in a window that should allow two. Nothing
is evicted in the run. -/
theorem guesses_unbounded : ∃ s s' st,
    (system (exJson []) exKeyConfig).Reachable (Kept exKeyConfig (utf8 "127.0.0.1")) s ∧
    s.limiters.auth.ipStates.lookup (utf8 "127.0.0.1") = some st ∧
    (system (exJson []) exKeyConfig).Reaches (Kept exKeyConfig (utf8 "127.0.0.1")) s s' ∧
    s'.limiters.auth.maxFailures + 1 < comparedIn s' (utf8 "127.0.0.1")
      (fun token => decide (token ≠ exKeyConfig.apiKey)) st.windowStart := by
  obtain ⟨s, hrun, hreach⟩ :=
    System.exists_reachable (S := system (exJson []) exKeyConfig)
      (G := Kept exKeyConfig (utf8 "127.0.0.1")) (s := exIdle) exFirstFailure ⟨rfl, rfl, rfl⟩
      (by decide)
  obtain ⟨s', hrun', hreaches⟩ :=
    System.exists_reaches (S := system (exJson []) exKeyConfig)
      (G := Kept exKeyConfig (utf8 "127.0.0.1")) (s := s) exOtherGuesses (by cases hrun; decide)
  refine ⟨s, s', ⟨1, 0⟩, hreach, ?_, hreaches, ?_⟩
  · cases hrun
    decide
  · cases hrun
    cases hrun'
    decide

end Race
end VoxtralServer
