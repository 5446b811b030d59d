import VoxtralServer.Auth.RequestLoad
import VoxtralServer.Server.Service

/-!
# Who gets to the backend

What the middleware promises about the work behind it, over all interleavings of
requests, handlers, worker and shutdown.

* `backend_authorized`: the backend is called for no request that the middleware
  has not let through, and with what that request asks for.
* `handlers_limited`: no 60 seconds admit more than `2 * max_rpm - 1` requests of
  an address, and only admitted ones get to their handlers.
-/

namespace VoxtralServer
namespace Service

variable {lib : JsonLib} {cfg : ServerConfig} {deps : HandlerDeps} {p : InferencePool.Params}
  {s s' : Service} {a : Act} {moments : List (Service × Act)} {i : Nat} {ip : Str}

/-! ## Authentication -/

/-- The header of the request is the exact one, or its token is one that the
comparison confuses with the key. -/
def Authorized (cfg : ServerConfig) (req : HttpRequest) : Prop :=
  req.header (utf8 "authorization") = bearerPrefix ++ cfg.apiKey ∨
    ∃ token, token ≠ [] ∧ req.header (utf8 "authorization") = bearerPrefix ++ token ∧
      Confusable token cfg.apiKey

/-- What the middleware call of a request that was let through has found out. -/
theorem letThrough_found (h : (system lib cfg deps p).History System.Any moments s)
    (hi : s.letThrough i = true) :
    ∃ req lim ms, s.requests[i]? = some req ∧ IsApi req ∧
      Met cfg moments i (adaptRequest req) lim ms ∧
      (runMiddleware lib cfg ms lim (adaptRequest req)).result = .ok none := by
  obtain ⟨call, hcall, hphase⟩ := Option.map_eq_some_iff.mp (letThrough_phase.mp hi)
  obtain ⟨req, hreq, hcallReq, happ⟩ := (reachable_aligned h.reachable).call hcall
  obtain ⟨lim, ms, hfound⟩ := history_found h i call hcall (by rw [hphase]; nofun)
  rw [hphase, hcallReq] at hfound
  exact ⟨req, lim, ms, hreq, happ, hfound⟩

/-- With authentication on, a request that was let through is authorized. -/
theorem letThrough_authorized (h : (system lib cfg deps p).History System.Any moments s)
    (hrequire : cfg.requireAuth = true) (hi : s.letThrough i = true) :
    Authorized cfg (s.own i) := by
  obtain ⟨req, lim, ms, hreq, happ, _, hrun⟩ := letThrough_found h hi
  have hauth := ((runMiddleware_pass hrequire happ.path).mp hrun).2
  have hown : s.own i = adaptRequest req := by simp only [own, hreq, Option.getD_some]
  rw [hown]
  exact authenticated_only hauth

/-- A job in the pool belongs to a speech request that was let through and read. -/
theorem pushed_own (h : (system lib cfg deps p).Reachable System.Any s) {job : InferenceJob Nat}
    (hjob : (i, .pushed job) ∈ s.speech.pool.trace) :
    s.letThrough i = true ∧
      (∃ req, s.requests[i]? = some req ∧ routeOf req = some .speech) ∧
      ∃ fields, readSpeech lib deps (s.own i) = .ok fields ∧ job.request = synthRequest fields := by
  have hspeech := reachable_speech h
  have ha := InferencePool.pushed_accepted (SpeechServer.reachable_pool hspeech) hjob
  have hsubmit : s.speech.pool.submits i ≠ .idle := by
    intro hidle
    simp [InferencePool.Accepted, InferencePool.Submit.Accepted, hidle] at ha
  have hpc : (s.speech.calls i).pc ≠ .idle := by
    intro hidle
    have hlinked := SpeechServer.reachable_linked hspeech i
    rw [hidle] at hlinked
    exact hsubmit hlinked
  obtain ⟨hpass, hreq⟩ := (reachable_aligned h).started i hpc
  exact ⟨hpass, hreq, _, (reachable_serves h i).read hsubmit,
    ((SpeechServer.reachable_owned hspeech i).pushed hjob).request⟩

/-- The job of a call of the backend. -/
theorem called_pushed (h : (system lib cfg deps p).Reachable System.Any s)
    {request : SynthesisRequest}
    (hcall : (i, .worked (.called request)) ∈ s.speech.pool.trace) :
    ∃ job, (i, .pushed job) ∈ s.speech.pool.trace ∧ job.request = request ∧
      (s.speech.pool.history i).countP JobEvent.isCall = 1 := by
  obtain ⟨st, hlife⟩ :=
    InferencePool.exists_life (SpeechServer.reachable_pool (reachable_speech h)) i
  obtain ⟨job, hjob, hrequest⟩ := hlife.called_mem (InferencePool.mem_history.mpr hcall)
  refine ⟨job, InferencePool.mem_history.mp hjob, hrequest, Nat.le_antisymm hlife.calls_le ?_⟩
  exact List.countP_pos_iff.mpr ⟨_, InferencePool.mem_history.mpr hcall, rfl⟩

/-- **The backend works for authorized requests only.** Whenever the backend has
been called for the `i`th request, that is a speech request that was let through,
with the exact header or a token confusable with the key when authentication is
on; the call was made once, with the fields that are read from this request. -/
theorem backend_authorized (h : (system lib cfg deps p).Reachable System.Any s)
    {request : SynthesisRequest}
    (hcall : (i, .worked (.called request)) ∈ s.speech.pool.trace) :
    s.letThrough i = true ∧
      (∃ req, s.requests[i]? = some req ∧ routeOf req = some .speech) ∧
      (cfg.requireAuth = true → Authorized cfg (s.own i)) ∧
      (∃ fields, readSpeech lib deps (s.own i) = .ok fields ∧ request = synthRequest fields) ∧
      (s.speech.pool.history i).countP JobEvent.isCall = 1 := by
  obtain ⟨job, hjob, rfl, hone⟩ := called_pushed h hcall
  obtain ⟨hpass, hreq, hfields⟩ := pushed_own h hjob
  obtain ⟨moments, hhistory⟩ := h.history
  exact ⟨hpass, hreq, fun hrequire => letThrough_authorized hhistory hrequire hpass,
    hfields, hone⟩

/-- A speech request with the right key. -/
def exHelloPost : HttplibRequest where
  method := utf8 "POST"
  path := utf8 "/v1/audio/speech"
  body := SpeechServer.exHelloBody
  headers := [(utf8 "Content-Type", utf8 "application/json"),
    (utf8 "Authorization", utf8 "Bearer secret")]
  remoteAddr := utf8 "127.0.0.1"

open SpeechServer (exHelloLib exHelloFields exHelloStart exHelloRun) in
theorem exHelloPost_read :
    readSpeech exHelloLib {} (adaptRequest exHelloPost) = .ok exHelloFields := by
  have hspeed : validateSpeed (.finite 1) = {} := by decide +kernel
  change (do
    require exHelloLib 400 (validateSpeed (.finite 1))
    return exHelloFields) = .ok exHelloFields
  rw [hspeed]
  rfl

/-- The service with a key, before any request. -/
def exKeyService : Service :=
  { gate := { limiters := .ofConfig Race.exKeyConfig, clock := 0 } }

/-- The request arrives and takes the three steps of its middleware call. -/
def exAdmitRun : List Act :=
  [.arrive exHelloPost, .gate 0 exMoment, .gate 0 exMoment, .gate 0 exMoment]

/-- The state after that. -/
def exAdmitted (p : InferencePool.Params) : Service :=
  ((system SpeechServer.exHelloLib Race.exKeyConfig {} p).run System.Any exKeyService
    exAdmitRun).getD exKeyService

theorem exAdmitted_receive :
    (system SpeechServer.exHelloLib Race.exKeyConfig {} {}).step (exAdmitted {}) (.receive 0 0) =
      some { exAdmitted {} with speech := SpeechServer.exHelloStart } := by
  have hreq : (exAdmitted {}).requests[0]? = some exHelloPost := rfl
  have hpass : routeOf exHelloPost = some .speech ∧ (exAdmitted {}).letThrough 0 = true := by decide
  have hspeech : SpeechServer.step SpeechServer.exHelloLib {} {} (exAdmitted {}).speech
      (.receive 0 (adaptRequest exHelloPost) 0) = some SpeechServer.exHelloStart := by
    simp only [SpeechServer.step, exHelloPost_read]
    rfl
  simp only [system, step, hreq, if_pos hpass, hspeech, Option.map_some]

/-- The handler of the request runs to its answer. -/
theorem exHello_history : ∃ s moments result,
    (system SpeechServer.exHelloLib Race.exKeyConfig {} {}).History System.Any moments s ∧
    answer SpeechServer.exHelloLib {} s 0 = some result ∧ SpeechServer.AnsweredWith result 200 ∧
    s.letThrough 0 = true ∧
    (0, .worked (.called (synthRequest SpeechServer.exHelloFields))) ∈ s.speech.pool.trace := by
  let S := system SpeechServer.exHelloLib Race.exKeyConfig {} {}
  obtain ⟨s₁, hrun₁, hreaches₁⟩ :=
    System.exists_reaches (S := S) (G := System.Any) (s := exKeyService) exAdmitRun (by decide)
  have hinit : S.init exKeyService := ⟨0, 0, rfl⟩
  have hadmitted : S.Reachable System.Any (exAdmitted {}) := by
    have hs₁ : exAdmitted {} = s₁ := by simp only [exAdmitted, S, hrun₁, Option.getD_some]
    rw [hs₁]
    exact ⟨_, hinit, hreaches₁⟩
  obtain ⟨s₂, hrun₂, hreaches₂⟩ :=
    System.exists_reaches (S := S) (G := System.Any)
      (s := { exAdmitted {} with speech := SpeechServer.exHelloStart })
      (SpeechServer.exHelloRun.map .speech) (by decide)
  have hreceived := hadmitted.step trivial exAdmitted_receive
  obtain ⟨moments, hhistory⟩ := (hreceived.trans hreaches₂).history
  cases hrun₂
  exact ⟨_, moments, _, hhistory, rfl, ⟨_, rfl, rfl⟩, by decide, by decide⟩

/-- In this run the backend is called for an authorized request. -/
theorem backend_authorized_hello : ∃ s,
    (system SpeechServer.exHelloLib Race.exKeyConfig {} {}).Reachable System.Any s ∧
    Authorized Race.exKeyConfig (s.own 0) ∧
    (s.speech.pool.history 0).countP JobEvent.isCall = 1 := by
  obtain ⟨s, moments, _, hhistory, _, _, _, hcall⟩ := exHello_history
  obtain ⟨_, _, hauth, _, hone⟩ := backend_authorized hhistory.reachable hcall
  exact ⟨s, hhistory.reachable, hauth rfl, hone⟩

/-! ## Admissions -/

/-- What one step admits: the request of an address that asks the request limiter
and is not refused, with the clock reading of the call. -/
def admission (cfg : ServerConfig) (ip : Str) (m : Service × Act) : Option (Nat × Int) :=
  match m.2 with
  | .gate i moment =>
    match m.1.gate.calls[i]? with
    | some ⟨req, .atRequest⟩ =>
      if clientIp cfg req = ip ∧
          (m.1.gate.limiters.request.checkRequest moment.requestOrd ip moment.t).1 = 0 then
        some (i, moment.t.now)
      else none
    | _ => none
  | _ => none

/-- The requests of an address that were admitted in a run. -/
def admitted (cfg : ServerConfig) (ip : Str) (moments : List (Service × Act)) : List (Nat × Int) :=
  moments.filterMap (admission cfg ip)

theorem admitted_append (m : Service × Act) : admitted cfg ip (moments ++ [m]) =
    admitted cfg ip moments ++ (admission cfg ip m).toList := by
  simp only [admitted, List.filterMap_append, List.filterMap_cons, List.filterMap_nil]
  cases admission cfg ip m <;> rfl

/-- The moment is one in which a request of the address asks the request limiter,
and it returns at `since` or later. -/
def asks (cfg : ServerConfig) (ip : Str) (since : Int) (m : Service × Act) : Bool :=
  match m.2 with
  | .gate i moment =>
    match m.1.gate.calls[i]? with
    | some ⟨req, .atRequest⟩ => decide (clientIp cfg req = ip ∧ since ≤ moment.t.fresh)
    | _ => false
  | _ => false

/-- How many requests of the address have asked the limiter since. -/
def askedSince (cfg : ServerConfig) (moments : List (Service × Act)) (ip : Str) (since : Int) :
    Nat :=
  moments.countP (asks cfg ip since)

theorem askedSince_append (m : Service × Act) (since : Int) :
    askedSince cfg (moments ++ [m]) ip since =
      askedSince cfg moments ip since + if asks cfg ip since m then 1 else 0 := by
  simp only [askedSince, List.countP_append, List.countP_singleton]

/-- The request limiter of the service is one in a run of its own, whose calls and
admitted requests are those of the service. -/
structure Limited (cfg : ServerConfig) (moments : List (Service × Act)) (s : Service)
    (calls : List (RequestRateLimiter.Run × RequestRateLimiter.Call))
    (run : RequestRateLimiter.Run) : Prop where
  history : RequestRateLimiter.runs.History System.Any calls run
  limiter : run.limiter = s.gate.limiters.request
  clock : run.clock ≤ s.gate.clock
  maxRpm : run.limiter.maxRpm = sizeOfInt cfg.requestRateLimitRpm
  admitted : ∀ ip, run.admitted ip = ((admitted cfg ip moments).map Prod.snd).reverse
  asked : ∀ ip since,
    RequestRateLimiter.returnedSince calls ip since = askedSince cfg moments ip since

variable {calls : List (RequestRateLimiter.Run × RequestRateLimiter.Call)}
  {run : RequestRateLimiter.Run}

/-- A step that does not ask the limiter. -/
theorem Limited.stays (h : Limited cfg moments s calls run)
    (hlimiter : s'.gate.limiters.request = s.gate.limiters.request)
    (hclock : s.gate.clock ≤ s'.gate.clock) (hnone : ∀ ip, admission cfg ip (s, a) = none)
    (hasks : ∀ ip since, asks cfg ip since (s, a) = false) :
    Limited cfg (moments ++ [(s, a)]) s' calls run where
  history := h.history
  limiter := h.limiter.trans hlimiter.symm
  clock := Int.le_trans h.clock hclock
  maxRpm := h.maxRpm
  admitted ip := by rw [admitted_append, hnone, Option.toList_none, List.append_nil, h.admitted]
  asked ip since := by
    rw [askedSince_append, hasks, if_neg Bool.false_ne_true, add_zero, h.asked]

/-- A step that asks it. -/
theorem Limited.asks {m : Moment} {req : HttpRequest}
    (h : Limited cfg moments s calls run) (hcall : s.gate.calls[i]? = some ⟨req, .atRequest⟩)
    (hnow : s.gate.clock ≤ m.t.now) (hfresh : m.t.now ≤ m.t.fresh)
    (hclock : s'.gate.clock = m.t.fresh)
    (hlimiter : s'.gate.limiters.request =
      (s.gate.limiters.request.checkRequest m.requestOrd (clientIp cfg req) m.t).2) :
    ∃ calls' run', Limited cfg (moments ++ [(s, .gate i m)]) s' calls' run' := by
  let c : RequestRateLimiter.Call := ⟨clientIp cfg req, m.t, m.requestOrd⟩
  have hst := RequestRateLimiter.step_of (s := run) (c := c) (Int.le_trans h.clock hnow) hfresh
  refine ⟨calls ++ [(run, c)], _, h.history.step trivial hst, ?_, Int.le_of_eq hclock.symm,
    (RequestRateLimiter.step_maxRpm hst).trans h.maxRpm, fun ip => ?_, fun ip since => ?_⟩
  · rw [hlimiter, ← h.limiter]
  · rw [RequestRateLimiter.step_admitted hst, admitted_append, h.admitted]
    have hsame : (c.ip = ip ∧ (run.limiter.countRequest c.ip c.t).requests ≤ run.limiter.maxRpm) ↔
        clientIp cfg req = ip ∧
          (s.gate.limiters.request.checkRequest m.requestOrd ip m.t).1 = 0 := by
      refine and_congr_right fun heq => ?_
      rw [← RequestRateLimiter.checkRequest_allowed m.requestOrd, h.limiter, ← heq]
    simp only [admission, hcall]
    by_cases hyes : clientIp cfg req = ip ∧
        (s.gate.limiters.request.checkRequest m.requestOrd ip m.t).1 = 0
    · rw [if_pos (hsame.mpr hyes), if_pos hyes]
      simp [c]
    · rw [if_neg fun hc => hyes (hsame.mp hc), if_neg hyes]
      simp
  · rw [RequestRateLimiter.returnedSince_append, askedSince_append, h.asked]
    simp only [Service.asks, hcall, c, decide_eq_true_eq]

theorem history_limited (h : (system lib cfg deps p).History System.Any moments s) :
    ∃ calls run, Limited cfg moments s calls run := by
  refine System.history_inv (I := fun moments s => ∃ calls run, Limited cfg moments s calls run)
    ?_ ?_ h
  · rintro s ⟨now, now', rfl⟩
    exact ⟨[], ⟨(Limiters.ofConfig cfg).request, now, []⟩, ⟨_, ⟨rfl, rfl⟩, .refl⟩, rfl,
      Int.le_refl _, rfl, fun ip => rfl, fun ip since => rfl⟩
  · rintro moments s a t _ ⟨calls, run, hrun⟩ _ hst
    cases step_moves hst with
    | arrive => exact ⟨calls, run, hrun.stays rfl (Int.le_refl _) (fun _ => rfl) fun _ _ => rfl⟩
    | receive => exact ⟨calls, run, hrun.stays rfl (Int.le_refl _) (fun _ => rfl) fun _ _ => rfl⟩
    | speech => exact ⟨calls, run, hrun.stays rfl (Int.le_refl _) (fun _ => rfl) fun _ _ => rfl⟩
    | @gate i m gate hgate =>
      rcases Race.step_cases hgate with ⟨_, ha, _⟩ | ⟨i', m', ⟨req, phase⟩, phase', lim, ops, ha,
        hcall, hnow, hfresh, hstep, rfl⟩
      · cases ha
      · cases ha
        rcases Race.phase_request hstep with ⟨rfl, _, hlimiter⟩ | ⟨hphase, _, hlimiter⟩
        · exact hrun.asks hcall hnow hfresh rfl hlimiter
        · refine ⟨calls, run, hrun.stays hlimiter (Int.le_trans hnow hfresh) (fun ip => ?_)
            fun ip since => ?_⟩
          all_goals
            simp only [admission, asks, hcall]
            split
            · next heq =>
              cases heq
              exact absurd rfl hphase
            · rfl

/-! ## Admitted requests and their handlers -/

/-- The middleware call has passed the request limiter and was not refused since. -/
def Passes : Phase → Prop
  | .atCompare | .atRecord _ | .done (.ok none) => True
  | _ => False

/-- A call passes the limiter by asking it. -/
theorem phase_passes {req : HttpRequest} {m : Moment} {phase phase' : Phase}
    {lim lim' : Limiters} {ops : List MetricOp} (hpath : isInternalEndpoint req.path = false)
    (h : phase.step lib cfg req m lim = some (phase', lim', ops)) (hpass : Passes phase') :
    Passes phase ∨ phase = .atRequest ∧
      (lim.request.checkRequest m.requestOrd (clientIp cfg req) m.t).1 = 0 := by
  have hrefused {mw : Except JsonError (Option HttpResponse)} (hne : mw ≠ .ok none)
      (hpass : Passes (.done mw)) : False := by
    unfold Passes at hpass
    split at hpass <;> simp_all
  cases phase with
  | start =>
    simp only [Phase.step, hpath, Bool.false_eq_true, if_false] at h
    split at h
    · split at h <;> cases h
      · exact absurd hpass fun hpass => hrefused tooManyRequests_ne hpass
      · cases hpass
    · cases h
      cases hpass
  | atRequest =>
    refine .inr ⟨rfl, ?_⟩
    have hnonneg := lim.request.checkRequest_nonneg m.requestOrd (clientIp cfg req) m.t
    simp only [Phase.step] at h
    split at h
    · cases h
      exact absurd hpass fun hpass => hrefused tooManyRequests_ne hpass
    · omega
  | atCompare => exact .inl trivial
  | atRecord r => exact .inl trivial
  | done r => cases h

/-- The phases after a step of the `i`th middleware call. -/
theorem gate_calls {j : Nat} {m : Moment} {gate : Race.State} {call : Race.Call}
    (hgate : (Race.system lib cfg).step s.gate (.advance i m) = some gate)
    (hcall : gate.calls[j]? = some call) :
    (i ≠ j ∧ s.gate.calls[j]? = some call) ∨
      ∃ phase lim ops, i = j ∧ s.gate.calls[j]? = some ⟨call.req, phase⟩ ∧
        phase.step lib cfg call.req m s.gate.limiters = some (call.phase, lim, ops) := by
  rcases Race.step_cases hgate with ⟨_, ha, _⟩ | ⟨i', m', call', phase, lim, ops, ha, hcall', _, _,
    hstep, rfl⟩
  · cases ha
  · cases ha
    by_cases hne : i = j
    · subst hne
      obtain ⟨hlt, _⟩ := List.getElem?_eq_some_iff.mp hcall'
      rw [List.getElem?_set_self hlt] at hcall
      cases hcall
      exact .inr ⟨_, lim, ops, rfl, hcall', hstep⟩
    · rw [List.getElem?_set_ne hne] at hcall
      exact .inl ⟨hne, hcall⟩

/-- A call that has passed the request limiter was admitted. -/
theorem history_passes (h : (system lib cfg deps p).History System.Any moments s) :
    ∀ i call, s.gate.calls[i]? = some call → Passes call.phase →
      ∃ now, (i, now) ∈ admitted cfg (clientIp cfg call.req) moments := by
  refine System.history_inv (I := fun moments s => ∀ i call, s.gate.calls[i]? = some call →
    Passes call.phase → ∃ now, (i, now) ∈ admitted cfg (clientIp cfg call.req) moments) ?_ ?_ h
  · rintro s ⟨now, now', rfl⟩ i call hcall
    cases hcall
  · intro moments s a t hr hi _ hst i call hcall hpass
    have hkeep {phase : Phase} (hold : s.gate.calls[i]? = some ⟨call.req, phase⟩)
        (hpass : Passes phase) :
        ∃ now, (i, now) ∈ admitted cfg (clientIp cfg call.req) (moments ++ [(s, a)]) := by
      obtain ⟨now, hmem⟩ := hi i _ hold hpass
      exact ⟨now, by rw [admitted_append]; exact List.mem_append_left _ hmem⟩
    cases step_moves hst with
    | arrive =>
      by_cases hlt : i < s.gate.calls.length
      · exact hkeep (by rwa [List.getElem?_append_left hlt] at hcall) hpass
      · rw [List.getElem?_append_right (Nat.not_lt.mp hlt)] at hcall
        obtain ⟨_, rfl⟩ := List.getElem?_eq_some_iff.mp hcall
        simp [Passes] at hpass
    | @gate j m gate hgate =>
      rcases gate_calls hgate hcall with ⟨_, hold⟩ | ⟨phase, lim, ops, rfl, hold, hstep⟩
      · exact hkeep hold hpass
      · obtain ⟨req, _, hreq, happ⟩ := (reachable_aligned hr).call hold
        have hpath : isInternalEndpoint call.req.path = false := by
          have hreq : call.req = adaptRequest req := hreq
          rw [hreq]
          exact happ.path
        rcases phase_passes hpath hstep hpass with hold' | ⟨rfl, hzero⟩
        · exact hkeep hold hold'
        · refine ⟨m.t.now, ?_⟩
          rw [admitted_append]
          refine List.mem_append_right _ ?_
          simp [admission, hold, hzero]
    | receive => exact hkeep hcall hpass
    | speech => exact hkeep hcall hpass

/-- The `i`th middleware call has asked the request limiter. -/
def Asked (s : Service) (i : Nat) : Prop :=
  ∃ call : Race.Call, s.gate.calls[i]? = some call ∧ Race.AskedRequest call.phase

/-- Each request is admitted once, and has asked the limiter then. -/
def Once (cfg : ServerConfig) (ip : Str) (moments : List (Service × Act)) (s : Service) : Prop :=
  ((admitted cfg ip moments).map Prod.fst).Nodup ∧
    ∀ i ∈ (admitted cfg ip moments).map Prod.fst, s.Asked i

theorem Once.step (h : Once cfg ip moments s) (hold : ∀ i, s.Asked i → s'.Asked i)
    (hnew : ∀ i now, admission cfg ip (s, a) = some (i, now) → ¬ s.Asked i ∧ s'.Asked i) :
    Once cfg ip (moments ++ [(s, a)]) s' := by
  unfold Once
  rw [admitted_append]
  cases hadm : admission cfg ip (s, a) with
  | none =>
    rw [Option.toList_none, List.append_nil]
    exact ⟨h.1, fun i hi => hold i (h.2 i hi)⟩
  | some entry =>
    obtain ⟨i, now⟩ := entry
    obtain ⟨hbefore, hafter⟩ := hnew i now hadm
    rw [Option.toList_some, List.map_append, List.map_singleton, List.nodup_append]
    refine ⟨⟨h.1, List.nodup_singleton _, ?_⟩, ?_⟩
    · rintro j hj _ hmem rfl
      cases List.mem_singleton.mp hmem
      exact hbefore (h.2 _ hj)
    · intro j hj
      rcases List.mem_append.mp hj with hj | hj
      · exact hold j (h.2 j hj)
      · rw [List.mem_singleton.mp hj]
        exact hafter

/-- A step of a middleware call, as far as asking the request limiter goes. -/
theorem gate_asked {m : Moment} {gate : Race.State}
    (hgate : (Race.system lib cfg).step s.gate (.advance i m) = some gate) :
    (∀ j, s.Asked j → ({ s with gate := gate } : Service).Asked j) ∧
    ∀ j now, admission cfg ip (s, .gate i m) = some (j, now) →
      ¬ s.Asked j ∧ ({ s with gate := gate } : Service).Asked j := by
  rcases Race.step_cases hgate with ⟨_, ha, _⟩ | ⟨i', m', ⟨req, phase⟩, phase', lim, ops, ha, hcall,
    _, _, hstep, rfl⟩
  · cases ha
  cases ha
  obtain ⟨hlt, _⟩ := List.getElem?_eq_some_iff.mp hcall
  have hphase := Race.phase_request hstep
  constructor
  · rintro j ⟨call, hj, hasked⟩
    by_cases hne : i = j
    · subst hne
      rw [hcall] at hj
      cases hj
      rcases hphase with ⟨_, hasks, _⟩ | ⟨_, hkeeps, _⟩
      · exact ⟨_, List.getElem?_set_self hlt, hasks⟩
      · exact ⟨_, List.getElem?_set_self hlt, hkeeps hasked⟩
    · exact ⟨call, by rw [← hj]; exact List.getElem?_set_ne hne, hasked⟩
  · intro j now hadm
    simp only [admission, hcall] at hadm
    split at hadm
    · next heq =>
      cases heq
      split at hadm
      · cases hadm
        rcases hphase with ⟨_, hasks, _⟩ | ⟨hnot, _⟩
        · refine ⟨?_, _, List.getElem?_set_self hlt, hasks⟩
          rintro ⟨call, hi, hasked⟩
          rw [hcall] at hi
          cases hi
          exact hasked
        · exact absurd rfl hnot
      · cases hadm
    · cases hadm

/-- A request is admitted at most once, by its own step. -/
theorem history_once (h : (system lib cfg deps p).History System.Any moments s) (ip : Str) :
    Once cfg ip moments s := by
  refine System.history_inv (I := Once cfg ip) ?_ ?_ h
  · rintro s ⟨now, now', rfl⟩
    exact ⟨List.nodup_nil, nofun⟩
  · intro moments s a t _ hi _ hst
    cases step_moves hst with
    | arrive =>
      refine hi.step (fun i hasked => ?_) nofun
      obtain ⟨call, hcall, hphase⟩ := hasked
      obtain ⟨hlt, _⟩ := List.getElem?_eq_some_iff.mp hcall
      exact ⟨call, by rw [← hcall]; exact List.getElem?_append_left hlt, hphase⟩
    | gate hgate =>
      obtain ⟨hold, hnew⟩ := gate_asked hgate
      exact hi.step hold hnew
    | receive => exact hi.step (fun i hasked => hasked) nofun
    | speech => exact hi.step (fun i hasked => hasked) nofun

/-- No 60 seconds admit more requests of an address than the limiter allows. -/
theorem history_load (h : (system lib cfg deps p).History System.Any moments s) (ip : Str)
    (a : Int) : Window.within (seconds 60) ((admitted cfg ip moments).map Prod.snd) a ≤
      2 * sizeOfInt cfg.requestRateLimitRpm - 1 := by
  obtain ⟨calls, run, hrun⟩ := history_limited h
  have hbound := RequestRateLimiter.reachable_load hrun.history.reachable ip a
  rw [hrun.admitted ip, hrun.maxRpm] at hbound
  simpa only [Window.within, List.countP_reverse] using hbound

/-- **The load of an address on the service.** In every run, no 60 seconds admit
more than `2 * max_rpm - 1` requests of an address. Each is admitted at most once,
every request that gets to a handler was admitted as one of its own address, and
the pool holds jobs of such requests only. -/
theorem handlers_limited (h : (system lib cfg deps p).History System.Any moments s) :
    (∀ ip a, Window.within (seconds 60) ((admitted cfg ip moments).map Prod.snd) a ≤
      2 * sizeOfInt cfg.requestRateLimitRpm - 1) ∧
    (∀ ip, ((admitted cfg ip moments).map Prod.fst).Nodup) ∧
    (∀ i, s.letThrough i = true →
      ∃ now, (i, now) ∈ admitted cfg (clientIp cfg (s.own i)) moments) ∧
    ∀ i job, (i, .pushed job) ∈ s.speech.pool.trace →
      ∃ now, (i, now) ∈ admitted cfg (clientIp cfg (s.own i)) moments := by
  have hpass (i : Nat) (hi : s.letThrough i = true) :
      ∃ now, (i, now) ∈ admitted cfg (clientIp cfg (s.own i)) moments := by
    obtain ⟨call, hcall, hphase⟩ := Option.map_eq_some_iff.mp (letThrough_phase.mp hi)
    obtain ⟨req, hreq, hcallReq, _⟩ := (reachable_aligned h.reachable).call hcall
    have hown : s.own i = call.req := by simp only [own, hreq, Option.getD_some, hcallReq]
    rw [hown]
    exact history_passes h i call hcall (by rw [hphase]; trivial)
  exact ⟨history_load h, fun ip => (history_once h ip).1, hpass,
    fun i job hjob => hpass i (pushed_own h.reachable hjob).1⟩

/-- In the run of the example one request is admitted and gets to its handler. -/
theorem handlers_limited_hello : ∃ s moments,
    (system SpeechServer.exHelloLib Race.exKeyConfig {} {}).History System.Any moments s ∧
    s.letThrough 0 = true ∧
    ∃ now, (0, now) ∈ admitted Race.exKeyConfig (clientIp Race.exKeyConfig (s.own 0)) moments := by
  obtain ⟨s, moments, _, hhistory, _, _, hpass, _⟩ := exHello_history
  obtain ⟨_, _, hadmitted, _⟩ := handlers_limited hhistory
  exact ⟨s, moments, hhistory, hpass, hadmitted 0 hpass⟩

end Service
end VoxtralServer
