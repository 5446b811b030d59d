import VoxtralServer.Server.MiddlewareRace

/-!
# When to retry

A request that is answered with status 429 is told in `Retry-After` how many
seconds to wait. Calls of the middleware interleave, so other requests of the same
address may still be under way when it is told so.

* `Clear`: what keeps both limiters from refusing an address after an instant,
  whatever its requests under way do.
* `clear_truthful`, `truthful_clear`: an answer is true exactly when it leaves its
  address clear. Otherwise the requests under way can fill one of its windows.
* `retry_exact`: which seconds are announced, and when the answer is true.
* `retry_too_early`: a window of an hour, and a client that trusts the header. It
  says 60 whatever the window is.
-/

namespace VoxtralServer

/-! ## Texts of numbers -/

theorem utf8_injective {s t : String} (h : utf8 s = utf8 t) : s = t := by
  have hs : (String.ofList s.toList).toByteArray = (utf8 s).toByteArray := rfl
  have ht : (String.ofList t.toList).toByteArray = (utf8 t).toByteArray := rfl
  rw [← String.toByteArray_inj, ← String.ofList_toList (s := s), ← String.ofList_toList (s := t),
    hs, ht, h]

/-- The text of a natural number determines it. -/
theorem toStr_natCast_inj {m n : Nat} (h : toStr m = toStr n) : m = n := by
  have hdigits : Nat.toDigits 10 m = Nat.toDigits 10 n := by
    have hchars := congrArg String.toList (utf8_injective h)
    simpa [Int.repr, Nat.repr] using hchars
  calc
    m = Nat.ofDigitChars 10 (Nat.toDigits 10 m) 0 := Nat.ofDigitChars_ten_toDigits.symm
    _ = Nat.ofDigitChars 10 (Nat.toDigits 10 n) 0 := by rw [hdigits]
    _ = n := Nat.ofDigitChars_ten_toDigits

/-! ## Answers -/

/-- The result of a call is an answer with status 429. -/
def Refuses (result : Except JsonError (Option HttpResponse)) : Prop :=
  ∃ resp, result = .ok (some resp) ∧ resp.status = 429

/-- It announces `r` seconds. -/
def Announces (result : Except JsonError (Option HttpResponse)) (r : Nat) : Prop :=
  ∃ resp, result = .ok (some resp) ∧ resp.status = 429 ∧
    resp.headers.lookup (utf8 "Retry-After") = some (toStr r)

variable {lib : JsonLib} {result : Except JsonError (Option HttpResponse)} {r : Nat}

theorem Announces.refuses (h : Announces result r) : Refuses result :=
  let ⟨resp, hresp, hstatus, _⟩ := h
  ⟨resp, hresp, hstatus⟩

theorem Announces.unique {r' : Nat} (h : Announces result r) (h' : Announces result r') :
    r = r' := by
  obtain ⟨resp, hresp, -, hheader⟩ := h
  obtain ⟨resp', hresp', -, hheader'⟩ := h'
  rw [hresp] at hresp'
  cases hresp'
  rw [hheader] at hheader'
  exact toStr_natCast_inj (Option.some.inj hheader')

theorem passed_not_refused : ¬ Refuses (.ok none) := by
  rintro ⟨resp, hresp, _⟩
  cases hresp

theorem unauthorized_not_refused {authResult : AuthResult} :
    ¬ Refuses (unauthorized lib authResult) := by
  rintro ⟨resp, hresp, hstatus⟩
  rw [unauthorized_status hresp] at hstatus
  cases hstatus

/-- With the documented library every refusal is an answer that announces its seconds. -/
theorem tooManyRequests_announced (hlib : lib.Documented) {errorCode message : String} (r : Nat) :
    Announces (tooManyRequests lib (utf8 errorCode) (utf8 message) (toStr r)) r := by
  obtain ⟨resp, hmade⟩ := makeErrorResponse_ok 429 hlib (validUtf8_utf8 "rate_limit_error")
    (validUtf8_utf8 errorCode) (validUtf8_utf8 message) validUtf8_nil
  have hanswer : tooManyRequests lib (utf8 errorCode) (utf8 message) (toStr r) =
      .ok (some { resp with headers := resp.headers.insert (utf8 "Retry-After") (toStr r) }) := by
    simp only [tooManyRequests, hmade, Except.map]
  obtain ⟨hstatus, hheader⟩ := tooManyRequests_eq hanswer
  exact ⟨_, hanswer, hstatus, hheader⟩

namespace Race

variable {cfg : ServerConfig} {ip : Str} {s s' : State} {a : Act} {i : Nat} {t : Int} {n : Nat}

/-- The calls of a `TtsServer`, whose limiters are set up from the configuration. -/
def configured (lib : JsonLib) (cfg : ServerConfig) : System State Act where
  init s := ∃ now, s = { limiters := .ofConfig cfg, clock := now }
  step := step lib cfg

/-! ## Entries -/

/-- What a step of a call leaves of the entries of the failure limiter. -/
theorem phase_authEntry {req : HttpRequest} {m : Moment} {phase phase' : Phase}
    {lim lim' : Limiters} {ops : List MetricOp}
    (h : phase.step lib cfg req m lim = some (phase', lim', ops)) {k : Str}
    {st : AuthRateLimiter.IpState} (hst : lim'.auth.ipStates.lookup k = some st) :
    lim.auth.ipStates.lookup k = some st ∨
      (∃ authResult, phase = .atRecord authResult) ∧ k = clientIp cfg req ∧
        st = lim.auth.countFailure (clientIp cfg req) m.t := by
  have hquery (heq : lim'.auth = (lim.auth.isBlocked (clientIp cfg req) m.t.now).2) :
      lim.auth.ipStates.lookup k = some st := by
    rw [heq] at hst
    rcases AuthRateLimiter.isBlocked_entry lim.auth k (clientIp cfg req) m.t.now with
      hsame | ⟨hnone, _⟩
    · rwa [hsame] at hst
    · rw [hnone] at hst
      cases hst
  cases phase_moves h with
  | blocked _ heq => exact .inl (hquery heq)
  | passed _ _ _ heq => exact .inl (hquery heq)
  | recorded heq =>
    rw [heq] at hst
    have hwritten := AuthRateLimiter.recordFailure_kept hst
    by_cases hk : k = clientIp cfg req
    · subst hk
      rw [AuthRateLimiter.written_lookup_self] at hwritten
      exact .inr ⟨⟨_, rfl⟩, rfl, (Option.some.inj hwritten).symm⟩
    · rw [AuthRateLimiter.written_lookup_of_ne hk] at hwritten
      exact .inl hwritten
  | internal _ heq => exact .inl (heq ▸ hst)
  | unchecked _ _ heq => exact .inl (heq ▸ hst)
  | answered heq => exact .inl (heq ▸ hst)
  | allowed _ heq => exact .inl (heq ▸ hst)
  | wrong _ heq => exact .inl (heq ▸ hst)
  | right _ heq => exact .inl (heq ▸ hst)

/-- What it leaves of the entries of the request limiter. -/
theorem phase_requestEntry {req : HttpRequest} {m : Moment} {phase phase' : Phase}
    {lim lim' : Limiters} {ops : List MetricOp}
    (h : phase.step lib cfg req m lim = some (phase', lim', ops)) {k : Str}
    {st : RequestRateLimiter.IpState} (hst : lim'.request.ipStates.lookup k = some st) :
    lim.request.ipStates.lookup k = some st ∨ phase = .atRequest ∧ k = clientIp cfg req := by
  rcases phase_request h with ⟨rfl, _, heq⟩ | ⟨_, _, heq⟩
  · rw [heq] at hst
    by_cases hk : k = clientIp cfg req
    · exact .inr ⟨rfl, hk⟩
    · rcases RequestRateLimiter.checkRequest_other (l := lim.request) (t := m.t) hk with
        hsame | hnone
      · rw [hsame] at hst
        exact .inl hst
      · rw [hnone] at hst
        cases hst
  · exact .inl (heq ▸ hst)

/-! ## Requests under way -/

/-- The call of the address has not asked the request limiter yet. -/
def unaskedCall (cfg : ServerConfig) (ip : Str) (c : Call) : Bool :=
  decide (clientIp cfg c.req = ip) &&
    match c.phase with
    | .start => !isInternalEndpoint c.req.path
    | .atRequest => true
    | _ => false

/-- The call of the address may still record a failure. -/
def failingCall (cfg : ServerConfig) (ip : Str) (c : Call) : Bool :=
  decide (clientIp cfg c.req = ip) &&
    match c.phase with
    | .start => !isInternalEndpoint c.req.path && cfg.requireAuth && authFails cfg c.req
    | .atRequest => cfg.requireAuth && authFails cfg c.req
    | .atCompare => authFails cfg c.req
    | .atRecord _ => true
    | .done _ => false

theorem unaskedCall_ip {c : Call} (h : unaskedCall cfg ip c = true) : clientIp cfg c.req = ip := by
  simp only [unaskedCall, Bool.and_eq_true, decide_eq_true_eq] at h
  exact h.1

theorem failingCall_ip {c : Call} (h : failingCall cfg ip c = true) : clientIp cfg c.req = ip := by
  simp only [failingCall, Bool.and_eq_true, decide_eq_true_eq] at h
  exact h.1

def unasked (cfg : ServerConfig) (s : State) (ip : Str) : Nat :=
  s.calls.countP (unaskedCall cfg ip)

def failing (cfg : ServerConfig) (s : State) (ip : Str) : Nat :=
  s.calls.countP (failingCall cfg ip)

/-- With what it has left to do, a call adds no more to the requests of the open window
than it takes from the calls that have not asked. -/
theorem phase_unasked {call : Call} {m : Moment} {phase' : Phase}
    {lim lim' : Limiters} {ops : List MetricOp} (hfresh : m.t.now ≤ m.t.fresh)
    (h : call.phase.step lib cfg call.req m lim = some (phase', lim', ops)) (ip : Str) (τ : Int) :
    (unaskedCall cfg ip ⟨call.req, phase'⟩).toNat + lim'.request.openRequests ip τ ≤
      (unaskedCall cfg ip call).toNat + lim.request.openRequests ip τ := by
  obtain ⟨req, phase⟩ := call
  dsimp only at h ⊢
  by_cases hasks : phase = .atRequest ∧ clientIp cfg req = ip
  · obtain ⟨rfl, rfl⟩ := hasks
    rcases phase_request h with ⟨_, hasked, heq⟩ | ⟨hne, _⟩
    · have hzero : unaskedCall cfg (clientIp cfg req) ⟨req, phase'⟩ = false := by
        cases phase' <;> simp_all [unaskedCall, AskedRequest]
      have hone : unaskedCall cfg (clientIp cfg req) ⟨req, .atRequest⟩ = true := by
        simp [unaskedCall]
      have hle : (lim.request.checkRequest m.requestOrd (clientIp cfg req) m.t).2.openRequests
          (clientIp cfg req) τ ≤ lim.request.openRequests (clientIp cfg req) τ + 1 :=
        RequestRateLimiter.checkRequest_openRequests hfresh τ
      rw [hzero, hone, heq, Bool.toNat_false, Bool.toNat_true]
      omega
    · exact absurd rfl hne
  · have hopen : lim'.request.openRequests ip τ ≤ lim.request.openRequests ip τ := by
      refine RequestRateLimiter.openRequests_le (Int.le_refl _) fun st hst => ?_
      rcases phase_requestEntry h hst with hold | ⟨hphase, hip⟩
      · exact hold
      · exact absurd ⟨hphase, hip.symm⟩ hasks
    have hcall : (unaskedCall cfg ip ⟨req, phase'⟩).toNat ≤
        (unaskedCall cfg ip ⟨req, phase⟩).toNat := by
      cases phase_moves h with
      | passed hpath => simp [unaskedCall, hpath]
      | unchecked hpath => simp [unaskedCall, hpath]
      | _ => simp [unaskedCall]
    omega

/-- It adds no more to the failures of the open window than it takes from the calls that
may record one. -/
theorem phase_failing {call : Call} {m : Moment} {phase' : Phase}
    {lim lim' : Limiters} {ops : List MetricOp} (hfresh : m.t.now ≤ m.t.fresh)
    (h : call.phase.step lib cfg call.req m lim = some (phase', lim', ops)) (ip : Str) (τ : Int) :
    (failingCall cfg ip ⟨call.req, phase'⟩).toNat + lim'.auth.openFailures ip τ ≤
      (failingCall cfg ip call).toNat + lim.auth.openFailures ip τ := by
  obtain ⟨req, phase⟩ := call
  dsimp only at h ⊢
  have hsecs := (phase_params h).2.1
  by_cases hrecords : (∃ authResult, phase = .atRecord authResult) ∧ clientIp cfg req = ip
  · obtain ⟨⟨authResult, rfl⟩, rfl⟩ := hrecords
    cases phase_moves h with
    | recorded heq =>
      have hle : (lim.auth.checkAndRecordFailure m.authOrd (clientIp cfg req) m.t).2.openFailures
          (clientIp cfg req) τ ≤ lim.auth.openFailures (clientIp cfg req) τ + 1 :=
        AuthRateLimiter.recordFailure_openFailures hfresh τ
      rw [heq]
      simp only [failingCall, decide_true, Bool.and_true, Bool.and_false, Bool.toNat_true,
        Bool.toNat_false]
      omega
  · have hopen : lim'.auth.openFailures ip τ ≤ lim.auth.openFailures ip τ := by
      refine AuthRateLimiter.openFailures_le (Int.le_refl _) hsecs fun st hst => ?_
      rcases phase_authEntry h hst with hold | ⟨hphase, hip, _⟩
      · exact hold
      · exact absurd ⟨hphase, hip.symm⟩ hrecords
    have hcall : (failingCall cfg ip ⟨req, phase'⟩).toNat ≤
        (failingCall cfg ip ⟨req, phase⟩).toNat := by
      cases phase_moves h with
      | passed hpath => simp [failingCall, hpath]
      | unchecked _ hrequire => simp [failingCall, hrequire]
      | allowed hrequire => simp [failingCall, hrequire]
      | wrong hfails => simp [failingCall, hfails]
      | _ => simp [failingCall]
    omega

/-! ## An address that is refused no more -/

/-- After the instant `t`, the open windows of the address leave room in both limiters for
what its calls under way may add to them. `room` requests are within the limit. -/
structure Clear (cfg : ServerConfig) (s : State) (ip : Str) (t : Int) (room : Nat) : Prop where
  auth : cfg.requireAuth = true →
    failing cfg s ip + s.limiters.auth.openFailures ip (t + 1) ≤ s.limiters.auth.maxFailures
  request : unasked cfg s ip + s.limiters.request.openRequests ip (t + 1) ≤ room

/-- No request of the address arrives. -/
def Waits (cfg : ServerConfig) (ip : Str) (_ : State) (a : Act) : Prop :=
  ∀ req, a = .arrive req → clientIp cfg req ≠ ip

theorem unaskedCall_other {c : Call} (h : clientIp cfg c.req ≠ ip) :
    unaskedCall cfg ip c = false :=
  Bool.eq_false_iff.mpr (mt unaskedCall_ip h)

theorem failingCall_other {c : Call} (h : clientIp cfg c.req ≠ ip) :
    failingCall cfg ip c = false :=
  Bool.eq_false_iff.mpr (mt failingCall_ip h)

/-- While no further request of it arrives, an address stays clear. -/
theorem Clear.step {room : Nat} (h : Clear cfg s ip t room) (hwaits : Waits cfg ip s a)
    (hst : (system lib cfg).step s a = some s') : Clear cfg s' ip t room := by
  obtain ⟨hmax, _⟩ := step_params hst
  obtain ⟨req, rfl, rfl⟩ | ⟨i, m, call, phase, lim, ops, rfl, hcall, _, hfresh, hstep, rfl⟩ :=
    step_cases hst
  · have hother := hwaits req rfl
    have hnotfailing : failingCall cfg ip ⟨req, .start⟩ = false := failingCall_other hother
    have hnotunasked : unaskedCall cfg ip ⟨req, .start⟩ = false := unaskedCall_other hother
    constructor
    · intro hrequire
      simpa [failing, hnotfailing] using h.auth hrequire
    · simpa [unasked, hnotunasked] using h.request
  · have hfailing := phase_failing hfresh hstep ip (t + 1)
    have hunasked := phase_unasked hfresh hstep ip (t + 1)
    have hfailings := RaceLemmas.countP_set_add (p := failingCall cfg ip) ⟨call.req, phase⟩ hcall
    have hunaskeds := RaceLemmas.countP_set_add (p := unaskedCall cfg ip) ⟨call.req, phase⟩ hcall
    constructor
    · intro hrequire
      have hroom := h.auth hrequire
      simp only [failing] at hroom hmax ⊢
      rw [hmax]
      omega
    · have hroom := h.request
      simp only [unasked] at hroom ⊢
      omega

/-- Where the call of a client that is not refused can be. -/
def Unrefused (cfg : ServerConfig) : Phase → Prop
  | .start | .atRequest => True
  | .atCompare => cfg.requireAuth = true
  | .atRecord _ => False
  | .done result => ¬ Refuses result

/-- A call with the right token is not refused by limiters that have room for it. -/
theorem phase_unrefused {req : HttpRequest} {m : Moment} {phase phase' : Phase}
    {lim lim' : Limiters} {ops : List MetricOp} (hright : cfg.requireAuth = true →
      authFails cfg req = false)
    (hauth : cfg.requireAuth = true →
      lim.auth.openFailures (clientIp cfg req) m.t.now ≤ lim.auth.maxFailures)
    (hrequest : phase = .atRequest →
      (lim.request.countRequest (clientIp cfg req) m.t).requests ≤ lim.request.maxRpm)
    (hphase : Unrefused cfg phase)
    (h : phase.step lib cfg req m lim = some (phase', lim', ops)) : Unrefused cfg phase' := by
  cases phase with
  | start =>
    simp only [Phase.step] at h
    split at h
    · cases h
      exact passed_not_refused
    · split at h
      · next hrequire =>
        have hunblocked : (lim.auth.isBlocked (clientIp cfg req) m.t.now).1 = false := by
          rw [← Bool.not_eq_true, AuthRateLimiter.isBlocked_iff]
          exact Nat.not_lt.mpr (hauth hrequire)
        simp only [hunblocked, Bool.false_eq_true, if_false] at h
        cases h
        trivial
      · cases h
        trivial
  | atRequest =>
    have hallowed := (RequestRateLimiter.checkRequest_allowed m.requestOrd).mpr (hrequest rfl)
    simp only [Phase.step, hallowed, gt_iff_lt, Int.lt_irrefl, if_false] at h
    split at h
    · next hrequire =>
      cases h
      exact hrequire
    · cases h
      exact passed_not_refused
  | atCompare =>
    have hfails := hright hphase
    rw [authFails] at hfails
    simp only [Phase.step, hfails, Bool.false_eq_true, if_false] at h
    cases h
    exact passed_not_refused
  | atRecord => exact hphase.elim
  | done => cases h

/-- No further request of the address arrives, and the `k`th call takes its steps after the
instant. -/
def Retries (cfg : ServerConfig) (ip : Str) (k : Nat) (t : Int) (s : State) (a : Act) : Prop :=
  Waits cfg ip s a ∧ ∀ m, a = .advance k m → t < m.t.now

/-- The `k`th call, of a client with the right token, is not refused so far, and will not
be. -/
structure Retrying (cfg : ServerConfig) (ip : Str) (k : Nat) (t : Int) (s : State) : Prop where
  clear : Clear cfg s ip t s.limiters.request.maxRpm
  call : ∃ call, s.calls[k]? = some call ∧ clientIp cfg call.req = ip ∧
    (cfg.requireAuth = true → authFails cfg call.req = false) ∧ Unrefused cfg call.phase

theorem Retrying.step {k : Nat} (h : Retrying cfg ip k t s) (hretries : Retries cfg ip k t s a)
    (hst : (system lib cfg).step s a = some s') : Retrying cfg ip k t s' := by
  refine ⟨?_, ?_⟩
  · rw [step_maxRpm hst]
    exact h.clear.step hretries.1 hst
  · obtain ⟨call, hcall, hip, hright, hphase⟩ := h.call
    obtain ⟨hlt, _⟩ := List.getElem?_eq_some_iff.mp hcall
    obtain ⟨req, rfl, rfl⟩ | ⟨i, m, call', phase, lim, ops, rfl, hcall', _, hfresh, hstep, rfl⟩ :=
      step_cases hst
    · exact ⟨call, (List.getElem?_append_left hlt).trans hcall, hip, hright, hphase⟩
    · by_cases hne : i = k
      · subst hne
        rw [hcall] at hcall'
        cases hcall'
        have hlate := hretries.2 m rfl
        refine ⟨⟨call.req, phase⟩, List.getElem?_set_self hlt, hip, hright, ?_⟩
        refine phase_unrefused hright (fun hrequire => ?_) (fun hask => ?_) hphase hstep
        · have hroom := h.clear.auth hrequire
          have hle : s.limiters.auth.openFailures ip m.t.now ≤
              s.limiters.auth.openFailures ip (t + 1) :=
            AuthRateLimiter.openFailures_le (by omega) rfl fun _ hst => hst
          rw [hip]
          omega
        · -- the call itself is among those that have not asked
          have hroom := h.clear.request
          have hself : 0 < unasked cfg s ip := by
            refine List.countP_pos_iff.mpr ⟨call, List.mem_of_getElem? hcall, ?_⟩
            simp [unaskedCall, hip, hask]
          have hle : s.limiters.request.openRequests ip m.t.now ≤
              s.limiters.request.openRequests ip (t + 1) :=
            RequestRateLimiter.openRequests_le (by omega) fun _ hst => hst
          rw [RequestRateLimiter.countRequest_requests hfresh, hip]
          omega
      · exact ⟨call, (List.getElem?_set_ne hne).trans hcall, hip, hright, hphase⟩

/-- The answer in the state is true: when no further request of the address arrives for
`r` seconds and more, the next one, with the right token, is not refused as long as no
other one arrives. -/
def Truthful (lib : JsonLib) (cfg : ServerConfig) (s : State) (ip : Str) (r : Nat) : Prop :=
  ∀ s₁, (system lib cfg).Reaches (Waits cfg ip) s s₁ → ∀ req, clientIp cfg req = ip →
    req.header (utf8 "authorization") = bearerPrefix ++ cfg.apiKey →
    ∀ s₂ s₃, (system lib cfg).step s₁ (.arrive req) = some s₂ →
      (system lib cfg).Reaches (Retries cfg ip s₁.calls.length (s.clock + seconds r)) s₂ s₃ →
      ∀ result, s₃.calls[s₁.calls.length]? = some ⟨req, .done result⟩ → ¬ Refuses result

theorem clear_truthful {r : Nat} (hkey : cfg.requireAuth = true → cfg.apiKey ≠ [])
    (hrpm : 1 ≤ s.limiters.request.maxRpm)
    (hclear : Clear cfg s ip (s.clock + seconds r) (s.limiters.request.maxRpm - 1)) :
    Truthful lib cfg s ip r := by
  rintro s₁ hwaits req rfl hheader s₂ s₃ harrive hretries result hdone
  have hright (hrequire : cfg.requireAuth = true) : authFails cfg req = false := by
    rw [authFails, hheader, authenticated_exact (hkey hrequire)]
    rfl
  -- along the run without it the address stays clear, with room for one request more
  obtain ⟨hclear₁, hsame⟩ : Clear cfg s₁ (clientIp cfg req) (s.clock + seconds r)
      (s.limiters.request.maxRpm - 1) ∧
      s₁.limiters.request.maxRpm = s.limiters.request.maxRpm := by
    refine System.reaches_inv (I := fun u : State => Clear cfg u (clientIp cfg req)
      (s.clock + seconds r) (s.limiters.request.maxRpm - 1) ∧
      u.limiters.request.maxRpm = s.limiters.request.maxRpm) ?_ hwaits ⟨hclear, rfl⟩
    rintro u a u' ⟨hclear, hsame⟩ hwaits hst
    exact ⟨hclear.step hwaits hst, (step_maxRpm hst).trans hsame⟩
  have hretrying : Retrying cfg (clientIp cfg req) s₁.calls.length (s.clock + seconds r) s₂ := by
    cases harrive
    refine ⟨⟨fun hrequire => ?_, ?_⟩, ⟨req, .start⟩, List.getElem?_concat_length, rfl, hright,
      trivial⟩
    · simpa [failing, failingCall, hrequire, hright hrequire] using hclear₁.auth hrequire
    · have hle := hclear₁.request
      have hone := Bool.toNat_le (unaskedCall cfg (clientIp cfg req) ⟨req, .start⟩)
      simp only [unasked, List.countP_append, List.countP_singleton] at hle ⊢
      rw [hsame]
      split <;> omega
  have hended : Retrying cfg (clientIp cfg req) s₁.calls.length (s.clock + seconds r) s₃ :=
    System.reaches_inv (fun _ _ _ hi hg hst => hi.step hg hst) hretries hretrying
  obtain ⟨call, hcall, -, -, hphase⟩ := hended.call
  rw [hdone] at hcall
  cases hcall
  exact hphase

/-! ## Every run -/

/-- What holds in every run: the limiters have the limits of the configuration, the failure
limiter is within its cap, and no window opened after the last clock reading. -/
structure Regular (cfg : ServerConfig) (s : State) : Prop where
  windowSecs : s.limiters.auth.windowSecs = cfg.authRateLimitWindow
  maxTrackedIps : s.limiters.auth.maxTrackedIps = 10000
  maxRpm : s.limiters.request.maxRpm = sizeOfInt cfg.requestRateLimitRpm
  size : s.limiters.auth.size ≤ s.limiters.auth.maxTrackedIps
  auth {k : Str} {st : AuthRateLimiter.IpState} :
    s.limiters.auth.ipStates.lookup k = some st → st.windowStart ≤ s.clock
  request {k : Str} {st : RequestRateLimiter.IpState} :
    s.limiters.request.ipStates.lookup k = some st → st.windowStart ≤ s.clock

/-- A step of a call keeps the failure limiter within its cap. -/
theorem phase_authSize {req : HttpRequest} {m : Moment} {phase phase' : Phase}
    {lim lim' : Limiters} {ops : List MetricOp}
    (h : phase.step lib cfg req m lim = some (phase', lim', ops))
    (hcap : 0 < lim.auth.maxTrackedIps) (hsize : lim.auth.size ≤ lim.auth.maxTrackedIps) :
    lim'.auth.size ≤ lim'.auth.maxTrackedIps := by
  rw [(phase_params h).2.2]
  cases phase_moves h with
  | blocked _ heq => exact heq ▸ Nat.le_trans AuthRateLimiter.isBlocked_size hsize
  | passed _ _ _ heq => exact heq ▸ Nat.le_trans AuthRateLimiter.isBlocked_size hsize
  | recorded heq => exact heq ▸ AuthRateLimiter.recordFailure_size hcap
  | internal _ heq => exact heq ▸ hsize
  | unchecked _ _ heq => exact heq ▸ hsize
  | answered heq => exact heq ▸ hsize
  | allowed _ heq => exact heq ▸ hsize
  | wrong _ heq => exact heq ▸ hsize
  | right _ heq => exact heq ▸ hsize

theorem Regular.step (h : Regular cfg s) (hst : (system lib cfg).step s a = some s') :
    Regular cfg s' := by
  have hrpm := step_maxRpm hst
  obtain ⟨req, rfl, rfl⟩ | ⟨i, m, call, phase, lim, ops, rfl, _, hnow, hfresh, hstep, rfl⟩ :=
    step_cases hst
  · exact ⟨h.windowSecs, h.maxTrackedIps, h.maxRpm, h.size, h.auth, h.request⟩
  · obtain ⟨_, hsecs, hcap⟩ := phase_params hstep
    have hpositive : 0 < s.limiters.auth.maxTrackedIps := by simp [h.maxTrackedIps]
    have hauth {k : Str} {st : AuthRateLimiter.IpState}
        (hst : s.limiters.auth.ipStates.lookup k = some st) : st.windowStart ≤ m.t.fresh := by
      have := h.auth hst
      omega
    have hrequest {k : Str} {st : RequestRateLimiter.IpState}
        (hst : s.limiters.request.ipStates.lookup k = some st) : st.windowStart ≤ m.t.fresh := by
      have := h.request hst
      omega
    refine ⟨hsecs.trans h.windowSecs, hcap.trans h.maxTrackedIps, hrpm.trans h.maxRpm,
      phase_authSize hstep hpositive h.size, fun {k st} hst => ?_, fun {k st} hst => ?_⟩
    · rcases phase_authEntry hstep hst with hold | ⟨_, rfl, rfl⟩
      · exact hauth hold
      · exact AuthRateLimiter.countFailure_start hfresh fun _ => hauth
    · rcases phase_request hstep with ⟨_, _, heq⟩ | ⟨_, _, heq⟩
      · rw [heq] at hst
        exact RequestRateLimiter.checkRequest_start hfresh (fun _ _ => hrequest) hst
      · exact hrequest (heq ▸ hst)

theorem reachable_regular (h : (configured lib cfg).Reachable System.Any s) : Regular cfg s := by
  refine System.reachable_inv (S := configured lib cfg) (I := Regular cfg) ?_ ?_ h
  · rintro s ⟨now, rfl⟩
    exact ⟨rfl, rfl, rfl, Nat.zero_le _, nofun, nofun⟩
  · intro s a s' hi _ hst
    exact hi.step hst

/-! ## What a refusal announces -/

/-- The seconds that a refusal announces: a minute to a blocked address, else the rest of
its request window. -/
def secondsLeft (lim : Limiters) (ip : Str) (t : Readings) : Phase → Int
  | .start => 60
  | _ => 60 - RequestRateLimiter.elapsed t.now (lim.request.entry ip t)

/-- How a call comes to be refused. -/
theorem phase_refused {req : HttpRequest} {m : Moment} {phase : Phase} {lim lim' : Limiters}
    {ops : List MetricOp}
    (h : phase.step lib cfg req m lim = some (.done result, lim', ops))
    (hrefuses : Refuses result) :
    phase = .start ∧ result = authRateLimited lib ∧ lim' = lim ∨
    phase = .atRequest ∧
      (lim.request.checkRequest m.requestOrd (clientIp cfg req) m.t).1 > 0 ∧
      result = rateLimited lib (lim.request.checkRequest m.requestOrd (clientIp cfg req) m.t).1 ∧
      lim' = { lim with
        request := (lim.request.checkRequest m.requestOrd (clientIp cfg req) m.t).2 } := by
  cases phase with
  | start =>
    simp only [Phase.step] at h
    split at h
    · cases h
      exact absurd hrefuses passed_not_refused
    · split at h
      · split at h
        · next hblocked =>
          cases h
          rw [AuthRateLimiter.isBlocked_same hblocked]
          exact .inl ⟨rfl, rfl, rfl⟩
        · cases h
      · cases h
  | atRequest =>
    simp only [Phase.step] at h
    split at h
    · next hpos =>
      cases h
      exact .inr ⟨rfl, hpos, rfl, rfl⟩
    · split at h
      · cases h
      · cases h
        exact absurd hrefuses passed_not_refused
  | atCompare =>
    simp only [Phase.step] at h
    split at h
    · cases h
    · cases h
      exact absurd hrefuses passed_not_refused
  | atRecord authResult =>
    cases h
    exact absurd hrefuses unauthorized_not_refused
  | done => cases h

/-- Every refusal announces its seconds. -/
theorem phase_announces {req : HttpRequest} {m : Moment} {phase : Phase} {lim lim' : Limiters}
    {ops : List MetricOp} (hrpm : 1 ≤ lim.request.maxRpm) (hfresh : m.t.now ≤ m.t.fresh)
    (h : phase.step lib cfg req m lim = some (.done result, lim', ops))
    (hrefuses : Refuses result) :
    ∃ r : Nat, Announces result r ∧ (r : Int) = secondsLeft lim (clientIp cfg req) m.t phase := by
  rcases phase_refused h hrefuses with ⟨rfl, rfl, _⟩ | ⟨rfl, hpos, rfl, _⟩
  · obtain ⟨resp, hresp, hstatus⟩ := hrefuses
    exact ⟨60, ⟨resp, hresp, hstatus, (tooManyRequests_eq hresp).2⟩, rfl⟩
  · obtain ⟨st, hst, _, _, _, hanswer⟩ :=
      RequestRateLimiter.checkRequest_rejected hfresh hrpm (Int.ne_of_gt hpos)
    obtain ⟨r, hr⟩ := Int.eq_ofNat_of_zero_le (Int.le_of_lt hpos)
    obtain ⟨resp, hresp, hstatus⟩ := hrefuses
    rw [hr] at hresp
    refine ⟨r, ⟨resp, ?_, hstatus, (tooManyRequests_eq hresp).2⟩, ?_⟩
    · rw [hr]
      exact hresp
    · simp only [secondsLeft, RequestRateLimiter.entry, hst, Option.getD_some]
      rw [← hanswer, hr]

/-- The request window of the address is over after the announced seconds. -/
theorem phase_over {req : HttpRequest} {m : Moment} {phase : Phase} {lim lim' : Limiters}
    {ops : List MetricOp} (hrpm : 1 ≤ lim.request.maxRpm) (hfresh : m.t.now ≤ m.t.fresh)
    (hstarted : ∀ st, lim.request.ipStates.lookup (clientIp cfg req) = some st →
      st.windowStart ≤ m.t.now)
    (h : phase.step lib cfg req m lim = some (.done result, lim', ops))
    (hrefuses : Refuses result) : lim'.request.openRequests (clientIp cfg req)
      (m.t.fresh + seconds (secondsLeft lim (clientIp cfg req) m.t phase) + 1) = 0 := by
  rcases phase_refused h hrefuses with ⟨rfl, -, rfl⟩ | ⟨rfl, hpos, -, rfl⟩
  · cases hst : lim'.request.ipStates.lookup (clientIp cfg req) with
    | none => simp [RequestRateLimiter.openRequests, hst]
    | some st =>
      have hpast := hstarted st hst
      rw [RequestRateLimiter.openRequests_some hst, if_pos]
      simp only [RequestRateLimiter.Stale, secondsLeft, seconds]
      omega
  · obtain ⟨st, hst, _, _, hcount, _⟩ :=
      RequestRateLimiter.checkRequest_rejected hfresh hrpm (Int.ne_of_gt hpos)
    have hpast := hstarted st hst
    have htrunc : seconds (RequestRateLimiter.elapsed m.t.now st) ≤ m.t.now - st.windowStart :=
      (toSeconds_bounds (by omega)).2.1
    rw [RequestRateLimiter.openRequests_some (RequestRateLimiter.checkRequest_self hfresh), hcount,
      if_pos]
    simp only [RequestRateLimiter.Stale, secondsLeft, RequestRateLimiter.entry, hst,
      Option.getD_some, seconds] at htrunc ⊢
    omega

/-! ## When the announcement is true -/

/-- The state without its `i`th call. -/
def State.without (s : State) (i : Nat) : State := { s with calls := s.calls.eraseIdx i }

/-- What the other calls of the address may still do leaves room for one request more after
the instant. -/
structure Settles (cfg : ServerConfig) (s : State) (i : Nat) (ip : Str) (t : Int) : Prop where
  slots : unasked cfg (s.without i) ip < s.limiters.request.maxRpm
  failures : cfg.requireAuth = true → failing cfg (s.without i) ip +
    s.limiters.auth.openFailures ip (t + 1) ≤ s.limiters.auth.maxFailures

theorem countP_set_false {α : Type} {p : α → Bool} {l : List α} {i : Nat} {y : α}
    (hi : i < l.length) (hy : p y = false) : (l.set i y).countP p = (l.eraseIdx i).countP p := by
  rw [(List.set_perm_cons_eraseIdx hi y).countP_eq, List.countP_cons_of_neg (by simp [hy])]

/-- What the step of a call is that ends it. -/
theorem advance_done {m : Moment} {call : Call} (hcall : s.calls[i]? = some call)
    (hst : (system lib cfg).step s (.advance i m) = some s')
    (hdone : s'.calls[i]? = some ⟨call.req, .done result⟩) :
    s.clock ≤ m.t.now ∧ m.t.now ≤ m.t.fresh ∧ s'.clock = m.t.fresh ∧
      s'.calls = s.calls.set i ⟨call.req, .done result⟩ ∧
      ∃ ops, call.phase.step lib cfg call.req m s.limiters =
        some (.done result, s'.limiters, ops) := by
  obtain ⟨req, hact, _⟩ | ⟨j, m', call', phase, lim, ops, hact, hcall', hnow, hfresh, hstep,
    rfl⟩ := step_cases hst
  · cases hact
  · cases hact
    rw [hcall] at hcall'
    cases hcall'
    dsimp only at hdone ⊢
    rw [List.getElem?_set_self (List.getElem?_eq_some_iff.mp hcall).1] at hdone
    cases hdone
    exact ⟨hnow, hfresh, rfl, rfl, ops, hstep⟩

/-- A refusal settles exactly when it leaves its address clear. -/
theorem settles_iff_clear {call : Call} (hrpm : 1 ≤ s.limiters.request.maxRpm)
    (hsame : s'.limiters.request.maxRpm = s.limiters.request.maxRpm)
    (hauth : s'.limiters.auth = s.limiters.auth) (hcall : s.calls[i]? = some call)
    (hcalls : s'.calls = s.calls.set i ⟨call.req, .done result⟩)
    (hover : s'.limiters.request.openRequests ip (t + 1) = 0) :
    Settles cfg s i ip t ↔ Clear cfg s' ip t (s'.limiters.request.maxRpm - 1) := by
  obtain ⟨hi, -⟩ := List.getElem?_eq_some_iff.mp hcall
  have hunasked : unasked cfg s' ip = unasked cfg (s.without i) ip := by
    rw [unasked, hcalls]
    exact countP_set_false hi (by simp [unaskedCall])
  have hfailing : failing cfg s' ip = failing cfg (s.without i) ip := by
    rw [failing, hcalls]
    exact countP_set_false hi (by simp [failingCall])
  constructor
  · rintro ⟨hslots, hfailures⟩
    constructor
    · rw [hfailing, hauth]
      exact hfailures
    · rw [hunasked, hover]
      omega
  · rintro ⟨hfailures, hslots⟩
    constructor
    · rw [hunasked, hover] at hslots
      omega
    · rw [hfailing, hauth] at hfailures
      exact hfailures

/-! ## What the calls under way can do -/

/-- How many steps the calls have left at most. -/
def callsLeft (s : State) : Nat := (s.calls.map fun c => phaseLeft c.phase).sum

theorem callsLeft_set {call call' : Call} (h : s.calls[i]? = some call)
    (hlt : phaseLeft call'.phase < phaseLeft call.phase) :
    ((s.calls.set i call').map fun c => phaseLeft c.phase).sum < callsLeft s := by
  obtain ⟨hi, rfl⟩ := List.getElem?_eq_some_iff.mp h
  have hbefore := ((List.getElem_cons_eraseIdx_perm hi).map fun c : Call =>
    phaseLeft c.phase).sum_nat
  have hafter := ((List.set_perm_cons_eraseIdx hi call').map fun c : Call =>
    phaseLeft c.phase).sum_nat
  simp only [List.map_cons, List.sum_cons] at hbefore hafter
  rw [callsLeft]
  omega

/-- A call takes its step at an instant from now on. -/
theorem advance_call {z : Int} {call : Call} {phase : Phase} {lim : Limiters} {ops : List MetricOp}
    (hclock : s.clock ≤ z) (hi : s.calls[i]? = some call)
    (hstep : call.phase.step lib cfg call.req (momentAt z) s.limiters = some (phase, lim, ops)) :
    ∃ s', (system lib cfg).step s (.advance i (momentAt z)) = some s' ∧
      s'.calls = s.calls.set i ⟨call.req, phase⟩ ∧ s'.limiters = lim ∧ s'.clock = z :=
  ⟨_, advance_step hclock (Int.le_refl z) hi hstep, rfl, rfl, rfl⟩

/-- While calls of some kind are under way, one of them takes its step. -/
theorem advance_some (lib : JsonLib) {z : Int} {p : Call → Bool} (hclock : s.clock ≤ z)
    (hpos : 0 < s.calls.countP p) (hbusy : ∀ req result, p ⟨req, .done result⟩ = false) :
    ∃ i call phase lim ops, s.calls[i]? = some call ∧ p call = true ∧
      call.phase.step lib cfg call.req (momentAt z) s.limiters = some (phase, lim, ops) ∧
      ∃ s', (system lib cfg).step s (.advance i (momentAt z)) = some s' ∧
        s'.calls = s.calls.set i ⟨call.req, phase⟩ ∧ s'.limiters = lim ∧ s'.clock = z ∧
        callsLeft s' < callsLeft s := by
  obtain ⟨call, hmem, hp⟩ := List.countP_pos_iff.mp hpos
  obtain ⟨i, hi⟩ := List.getElem?_of_mem hmem
  have hundone : ∀ result, call.phase ≠ .done result := by
    intro result hdone
    have hno := hbusy call.req result
    rw [← hdone] at hno
    exact absurd hp (by rw [hno]; exact Bool.false_ne_true)
  obtain ⟨phase, lim, ops, hstep, hlt⟩ :=
    phase_enabled lib cfg call.req (momentAt z) s.limiters hundone
  obtain ⟨s', hst, hcalls, hlim, hz⟩ := advance_call hclock hi hstep
  refine ⟨i, call, phase, lim, ops, hi, hp, hstep, s', hst, hcalls, hlim, hz, ?_⟩
  rw [callsLeft, hcalls]
  exact callsLeft_set hi hlt

/-- A call that has not asked yet goes on until it has taken a request of the window. -/
theorem phase_takes {call : Call} {z : Int} {phase' : Phase} {lim lim' : Limiters}
    {ops : List MetricOp} (hcall : unaskedCall cfg ip call = true)
    (hunblocked : lim.auth.openFailures ip z ≤ lim.auth.maxFailures)
    (h : call.phase.step lib cfg call.req (momentAt z) lim = some (phase', lim', ops)) :
    (unaskedCall cfg ip ⟨call.req, phase'⟩).toNat + lim'.request.openRequests ip z =
      lim.request.openRequests ip z + 1 ∧
    lim'.auth.openFailures ip z = lim.auth.openFailures ip z := by
  obtain ⟨req, phase⟩ := call
  dsimp only at h ⊢
  obtain rfl : clientIp cfg req = ip := unaskedCall_ip hcall
  rcases phase_request h with ⟨rfl, hasked, hrequest⟩ | ⟨hnotAsking, _, hrequest⟩
  · have hcounts : (lim.request.checkRequest (momentAt z).requestOrd (clientIp cfg req)
        ⟨z, z⟩).2.openRequests (clientIp cfg req) z =
        lim.request.openRequests (clientIp cfg req) z + 1 :=
      RequestRateLimiter.checkRequest_counts (Int.le_refl z)
    have hnone : unaskedCall cfg (clientIp cfg req) ⟨req, phase'⟩ = false := by
      cases phase' <;> simp_all [unaskedCall, AskedRequest]
    rw [hrequest, hnone, Bool.toNat_false, Nat.zero_add]
    refine ⟨hcounts, ?_⟩
    cases phase_moves h with
    | answered heq => rw [heq]
    | allowed _ heq => rw [heq]
  · rw [hrequest]
    cases phase_moves h with
    | internal hpath => simp [unaskedCall, hpath] at hcall
    | blocked hblocked =>
      rw [AuthRateLimiter.isBlocked_iff] at hblocked
      exact absurd hunblocked (Nat.not_le.mpr hblocked)
    | passed _ _ _ heq =>
      rw [heq]
      exact ⟨by simp [unaskedCall]; omega, AuthRateLimiter.isBlocked_openFailures ..⟩
    | unchecked _ _ heq =>
      rw [heq]
      exact ⟨by simp [unaskedCall]; omega, rfl⟩
    | answered => exact absurd rfl hnotAsking
    | allowed => exact absurd rfl hnotAsking
    | wrong => simp [unaskedCall] at hcall
    | right => simp [unaskedCall] at hcall
    | recorded => simp [unaskedCall] at hcall

/-- A call that may record a failure goes on until it has recorded one. -/
theorem phase_fails {call : Call} {z : Int} {phase' : Phase} {lim lim' : Limiters}
    {ops : List MetricOp} (hcall : failingCall cfg ip call = true)
    (hunblocked : lim.auth.openFailures ip z ≤ lim.auth.maxFailures)
    (hroom : call.phase = .atRequest → lim.request.openRequests ip z < lim.request.maxRpm)
    (hsecs : 0 ≤ lim.auth.windowSecs) (hcap : 0 < lim.auth.maxTrackedIps)
    (hsize : lim.auth.size ≤ lim.auth.maxTrackedIps)
    (hothers : ∀ k st, k ≠ ip → lim.auth.ipStates.lookup k = some st → st.windowStart < z)
    (h : call.phase.step lib cfg call.req (momentAt z) lim = some (phase', lim', ops)) :
    (failingCall cfg ip ⟨call.req, phase'⟩).toNat + lim'.auth.openFailures ip z =
      lim.auth.openFailures ip z + 1 := by
  obtain ⟨req, phase⟩ := call
  dsimp only at h hroom ⊢
  obtain rfl : clientIp cfg req = ip := failingCall_ip hcall
  -- the request limiter has room for the call
  have hnotAnswered (hphase : phase = .atRequest) : ∀ result, phase' ≠ .done result := by
    subst hphase
    have hallowed : (lim.request.checkRequest (momentAt z).requestOrd (clientIp cfg req)
        (momentAt z).t).1 = 0 := by
      rw [RequestRateLimiter.checkRequest_allowed,
        RequestRateLimiter.countRequest_requests (Int.le_refl z)]
      exact hroom rfl
    have hrequire : cfg.requireAuth = true := by
      simp only [failingCall, Bool.and_eq_true, decide_eq_true_eq] at hcall
      exact hcall.2.1
    simp only [Phase.step, hallowed, hrequire, gt_iff_lt, Int.lt_irrefl, if_false, if_true] at h
    cases h
    intro result hdone
    cases hdone
  cases phase_moves h with
  | internal hpath => simp [failingCall, hpath] at hcall
  | blocked hblocked =>
    rw [AuthRateLimiter.isBlocked_iff] at hblocked
    exact absurd hunblocked (Nat.not_le.mpr hblocked)
  | passed _ hrequire _ heq =>
    have hfails : failingCall cfg (clientIp cfg req) ⟨req, .atRequest⟩ = true := by
      simp_all [failingCall]
    have hsame := AuthRateLimiter.isBlocked_openFailures lim.auth (clientIp cfg req) z
    rw [hfails, heq, Bool.toNat_true]
    simp only [momentAt]
    omega
  | unchecked _ hrequire => simp [failingCall, hrequire] at hcall
  | answered => exact absurd rfl (hnotAnswered rfl _)
  | allowed _ heq =>
    have hfails : failingCall cfg (clientIp cfg req) ⟨req, .atCompare⟩ = true := by
      simp_all [failingCall]
    rw [hfails, heq, Bool.toNat_true]
    omega
  | wrong _ heq =>
    rw [heq]
    simp only [failingCall, decide_true, Bool.and_true, Bool.toNat_true]
    omega
  | right hright => simp [failingCall, hright] at hcall
  | recorded heq =>
    rw [heq]
    simp only [failingCall, decide_true, Bool.and_false, Bool.toNat_false, Nat.zero_add]
    exact AuthRateLimiter.recordFailure_counts hsecs hcap hsize hothers

/-- The calls under way can take all the requests of a window. -/
theorem slots_taken (lib : JsonLib) {z : Int} (hclock : s.clock ≤ z)
    (hunblocked : s.limiters.auth.openFailures ip z ≤ s.limiters.auth.maxFailures)
    (hslots : s.limiters.request.maxRpm ≤ unasked cfg s ip) :
    ∃ s₁, (system lib cfg).Reaches (Waits cfg ip) s s₁ ∧ s₁.clock ≤ z ∧
      s₁.limiters.request.maxRpm ≤ s₁.limiters.request.openRequests ip z := by
  refine System.reaches_goal
    (I := fun u : State => u.clock ≤ z ∧
      u.limiters.auth.openFailures ip z ≤ u.limiters.auth.maxFailures ∧
      u.limiters.request.maxRpm ≤ unasked cfg u ip + u.limiters.request.openRequests ip z)
    callsLeft ?_ ⟨hclock, hunblocked, by omega⟩
  rintro u ⟨hclock, hunblocked, htakes⟩ hgoal
  have hleft : 0 < u.calls.countP (unaskedCall cfg ip) := by
    simp only [unasked] at htakes
    omega
  obtain ⟨i, call, phase, lim, ops, hi, hcall, hstep, u', hst, hcalls, rfl, hz, hless⟩ :=
    advance_some lib hclock hleft fun _ _ => by simp [unaskedCall]
  obtain ⟨hcount, hsame⟩ := phase_takes hcall hunblocked hstep
  have hset := RaceLemmas.countP_set_add (p := unaskedCall cfg ip) ⟨call.req, phase⟩ hi
  refine ⟨_, u', by rintro req ⟨⟩, hst, ⟨Int.le_of_eq hz, ?_, ?_⟩, hless⟩
  · rw [hsame, (phase_params hstep).1]
    exact hunblocked
  · rw [step_maxRpm hst, unasked, hcalls]
    rw [hcall, Bool.toNat_true] at hset
    simp only [unasked] at htakes
    omega

/-- What a burst of failures at one instant needs: room in the request limiter for the calls
under way, and no eviction. -/
structure Failing (cfg : ServerConfig) (ip : Str) (z : Int) (s : State) : Prop where
  clock : s.clock ≤ z
  windowSecs : 0 ≤ s.limiters.auth.windowSecs
  cap : 0 < s.limiters.auth.maxTrackedIps
  size : s.limiters.auth.size ≤ s.limiters.auth.maxTrackedIps
  others : ∀ k st, k ≠ ip → s.limiters.auth.ipStates.lookup k = some st → st.windowStart < z
  room : unasked cfg s ip + s.limiters.request.openRequests ip z ≤ s.limiters.request.maxRpm
  failures : s.limiters.auth.maxFailures < failing cfg s ip + s.limiters.auth.openFailures ip z

/-- The calls under way can fill a failure window. -/
theorem Failing.recorded (lib : JsonLib) {z : Int} (h : Failing cfg ip z s) :
    ∃ s₁, (system lib cfg).Reaches (Waits cfg ip) s s₁ ∧ s₁.clock ≤ z ∧
      s₁.limiters.auth.maxFailures < s₁.limiters.auth.openFailures ip z := by
  refine System.reaches_goal (I := Failing cfg ip z) callsLeft ?_ h
  intro u hu hgoal
  have hunblocked : u.limiters.auth.openFailures ip z ≤ u.limiters.auth.maxFailures :=
    Nat.not_lt.mp fun hblocked => hgoal ⟨hu.clock, hblocked⟩
  have hleft : 0 < u.calls.countP (failingCall cfg ip) := by
    have := hu.failures
    simp only [failing] at this
    omega
  obtain ⟨i, call, phase, lim, ops, hi, hcall, hstep, u', hst, hcalls, rfl, hz, hless⟩ :=
    advance_some lib hu.clock hleft fun _ _ => by simp [failingCall]
  have hip : clientIp cfg call.req = ip := failingCall_ip hcall
  have hask (hphase : call.phase = .atRequest) :
      u.limiters.request.openRequests ip z < u.limiters.request.maxRpm := by
    -- the call itself is among those that have not asked
    have hself : 0 < unasked cfg u ip := by
      refine List.countP_pos_iff.mpr ⟨call, List.mem_of_getElem? hi, ?_⟩
      simp [unaskedCall, hip, hphase]
    have := hu.room
    omega
  have hcount := phase_fails hcall hunblocked hask hu.windowSecs hu.cap hu.size hu.others hstep
  have htaken := phase_unasked (Int.le_refl z) hstep ip z
  have hfailing := RaceLemmas.countP_set_add (p := failingCall cfg ip) ⟨call.req, phase⟩ hi
  have hunasked := RaceLemmas.countP_set_add (p := unaskedCall cfg ip) ⟨call.req, phase⟩ hi
  obtain ⟨hmax, hsecs, hcap⟩ := phase_params hstep
  refine ⟨_, u', by rintro req ⟨⟩, hst, ⟨Int.le_of_eq hz, ?_, ?_, ?_, ?_, ?_, ?_⟩, hless⟩
  · rw [hsecs]
    exact hu.windowSecs
  · rw [hcap]
    exact hu.cap
  · exact phase_authSize hstep hu.cap hu.size
  · intro k st hk hentry
    rcases phase_authEntry hstep hentry with hold | ⟨_, hself, _⟩
    · exact hu.others k st hk hold
    · exact absurd (hself.trans hip) hk
  · have := hu.room
    rw [step_maxRpm hst]
    simp only [unasked, hcalls] at this ⊢
    omega
  · have := hu.failures
    rw [hcall, Bool.toNat_true] at hfailing
    rw [hmax]
    simp only [failing, hcalls] at this ⊢
    omega

/-! ## An address that is refused -/

/-- A call is refused at its start when the failure window is full. -/
theorem start_blocked (lib : JsonLib) {req : HttpRequest} {z : Int} {lim : Limiters}
    (hpath : isInternalEndpoint req.path = false) (hrequire : cfg.requireAuth = true)
    (hfull : lim.auth.maxFailures < lim.auth.openFailures (clientIp cfg req) z) :
    ∃ lim' ops, Phase.start.step lib cfg req (momentAt z) lim =
      some (.done (authRateLimited lib), lim', ops) := by
  have hblocked := lim.auth.isBlocked_iff.mpr hfull
  exact ⟨{ lim with auth := (lim.auth.isBlocked (clientIp cfg req) z).2 },
    [.requestsRejectedAuth], by simp [Phase.step, hpath, hrequire, hblocked, momentAt]⟩

/-- Else it gets to the request limiter, which is as it was. -/
theorem start_passed (lib : JsonLib) {req : HttpRequest} {z : Int} {lim : Limiters}
    (hpath : isInternalEndpoint req.path = false)
    (hopen : ¬ (cfg.requireAuth = true ∧
      lim.auth.maxFailures < lim.auth.openFailures (clientIp cfg req) z)) :
    ∃ lim' ops, Phase.start.step lib cfg req (momentAt z) lim = some (.atRequest, lim', ops) ∧
      lim'.request = lim.request := by
  cases hrequire : cfg.requireAuth with
  | false => exact ⟨lim, [], by simp [Phase.step, hpath, hrequire], rfl⟩
  | true =>
    have hunblocked : (lim.auth.isBlocked (clientIp cfg req) z).1 = false := by
      rw [← Bool.not_eq_true, lim.auth.isBlocked_iff]
      exact fun hfull => hopen ⟨hrequire, hfull⟩
    exact ⟨{ lim with auth := (lim.auth.isBlocked (clientIp cfg req) z).2 }, [],
      by simp [Phase.step, hpath, hrequire, hunblocked, momentAt], rfl⟩

/-- It is refused there when the request window is full. -/
theorem request_full (lib : JsonLib) {req : HttpRequest} {z : Int} {lim : Limiters}
    (hfull : lim.request.maxRpm ≤ lim.request.openRequests (clientIp cfg req) z) :
    ∃ r : Nat, ∃ lim' ops, Phase.atRequest.step lib cfg req (momentAt z) lim =
      some (.done (rateLimited lib r), lim', ops) := by
  have hnonneg := lim.request.checkRequest_nonneg (.id _ _) (clientIp cfg req) ⟨z, z⟩
  have hrejected : (lim.request.checkRequest (.id _ _) (clientIp cfg req) ⟨z, z⟩).1 ≠ 0 := by
    rw [ne_eq, RequestRateLimiter.checkRequest_allowed,
      RequestRateLimiter.countRequest_requests (Int.le_refl z)]
    exact Nat.not_le.mpr (Nat.lt_succ_of_le hfull)
  have hpos : (lim.request.checkRequest (.id _ _) (clientIp cfg req) ⟨z, z⟩).1 > 0 :=
    lt_of_le_of_ne hnonneg hrejected.symm
  obtain ⟨r, hr⟩ := Int.eq_ofNat_of_zero_le hnonneg
  refine ⟨r, { lim with
    request := (lim.request.checkRequest (.id _ _) (clientIp cfg req) ⟨z, z⟩).2 },
    [.requestsRejectedRateLimit], ?_⟩
  rw [← hr]
  simp only [Phase.step, momentAt, hpos, if_true]

/-- An address whose failure window or request window is full is refused. -/
theorem full_refused (hlib : lib.Documented) {z : Int} {req : HttpRequest} (hclock : s.clock ≤ z)
    (ht : t < z) (hpath : isInternalEndpoint req.path = false)
    (hfull : cfg.requireAuth = true ∧ s.limiters.auth.maxFailures <
        s.limiters.auth.openFailures (clientIp cfg req) z ∨
      s.limiters.request.maxRpm ≤ s.limiters.request.openRequests (clientIp cfg req) z) :
    ∃ s₂ s₃ result, (system lib cfg).step s (.arrive req) = some s₂ ∧
      (system lib cfg).Reaches (Retries cfg (clientIp cfg req) s.calls.length t) s₂ s₃ ∧
      s₃.calls[s.calls.length]? = some ⟨req, .done result⟩ ∧ Refuses result := by
  have hretries (u : State) :
      Retries cfg (clientIp cfg req) s.calls.length t u (.advance s.calls.length (momentAt z)) :=
    ⟨by rintro req ⟨⟩, by rintro m ⟨⟩; exact ht⟩
  obtain ⟨s₂, harrive, hcalls, hlim, hclock₂⟩ : ∃ s₂, (system lib cfg).step s (.arrive req) =
      some s₂ ∧ s₂.calls = s.calls ++ [⟨req, .start⟩] ∧ s₂.limiters = s.limiters ∧ s₂.clock ≤ z :=
    ⟨_, rfl, rfl, rfl, hclock⟩
  rw [← hlim] at hfull
  have hnew : s₂.calls[s.calls.length]? = some ⟨req, .start⟩ := by
    rw [hcalls]
    exact List.getElem?_concat_length
  have hlength : s.calls.length < s₂.calls.length := by simp [hcalls]
  by_cases hblocked : cfg.requireAuth = true ∧ s₂.limiters.auth.maxFailures <
      s₂.limiters.auth.openFailures (clientIp cfg req) z
  · obtain ⟨_, _, hstep⟩ := start_blocked lib hpath hblocked.1 hblocked.2
    obtain ⟨s₃, hst, hcalls₃, -⟩ := advance_call hclock₂ hnew hstep
    refine ⟨s₂, s₃, authRateLimited lib, harrive, .one (hretries s₂) hst, ?_,
      (tooManyRequests_announced hlib 60).refuses⟩
    rw [hcalls₃]
    exact List.getElem?_set_self hlength
  · obtain ⟨_, _, hstep, hsame⟩ := start_passed lib hpath hblocked
    obtain ⟨s₃, hst, hcalls₃, hlim₃, hz⟩ := advance_call hclock₂ hnew hstep
    have hat : s₃.calls[s.calls.length]? = some ⟨req, .atRequest⟩ := by
      rw [hcalls₃]
      exact List.getElem?_set_self hlength
    have hwindow := hfull.resolve_left hblocked
    rw [← hsame, ← hlim₃] at hwindow
    obtain ⟨r, _, _, hask⟩ := request_full lib hwindow
    obtain ⟨s₄, hst', hcalls₄, -⟩ := advance_call (Int.le_of_eq hz) hat hask
    refine ⟨s₂, s₄, rateLimited lib r, harrive,
      .step (.one (hretries s₂) hst) (hretries s₃) hst', ?_,
      (tooManyRequests_announced hlib r).refuses⟩
    rw [hcalls₄, hcalls₃]
    exact List.getElem?_set_self (by simpa using hlength)

/-! ## Every answer -/

/-- The request again, to a route with the right token. -/
def retry (cfg : ServerConfig) (req : HttpRequest) : HttpRequest :=
  { req with
    path := utf8 "/v1/audio/speech"
    headers := req.headers.insert (utf8 "authorization") (bearerPrefix ++ cfg.apiKey) }

theorem retry_clientIp (req : HttpRequest) : clientIp cfg (retry cfg req) = clientIp cfg req := by
  have hne : utf8 "x-forwarded-for" ≠ utf8 "authorization" := by decide
  simp only [clientIp, retry, HttpRequest.header, AList.lookup_insert_ne hne]

theorem retry_header (req : HttpRequest) :
    (retry cfg req).header (utf8 "authorization") = bearerPrefix ++ cfg.apiKey := by
  rw [HttpRequest.header, retry, AList.lookup_insert, Option.getD_some]

/-- The announcement is false when a run fills a window of the address. -/
theorem full_not_truthful (hlib : lib.Documented) {r : Nat} {z : Int} {req : HttpRequest}
    (hreaches : (system lib cfg).Reaches (Waits cfg (clientIp cfg req)) s s')
    (hclock : s'.clock ≤ z) (ht : s.clock + seconds r < z)
    (hfull : cfg.requireAuth = true ∧ s'.limiters.auth.maxFailures <
        s'.limiters.auth.openFailures (clientIp cfg req) z ∨
      s'.limiters.request.maxRpm ≤ s'.limiters.request.openRequests (clientIp cfg req) z) :
    ¬ Truthful lib cfg s (clientIp cfg req) r := by
  intro htrue
  rw [← retry_clientIp] at hfull
  have hpath : isInternalEndpoint (retry cfg req).path = false :=
    show isInternalEndpoint (utf8 "/v1/audio/speech") = false by decide
  obtain ⟨s₂, s₃, result, harrive, hretries, hdone, hrefuses⟩ :=
    full_refused hlib hclock ht hpath hfull
  rw [retry_clientIp] at hretries
  exact htrue s' hreaches (retry cfg req) (retry_clientIp req) (retry_header req) s₂ s₃ harrive
    hretries result hdone hrefuses

/-- Where the address is not clear, the calls under way can fill one of its windows. -/
theorem truthful_clear (hlib : lib.Documented) {r : Nat} {req : HttpRequest} (hs : Regular cfg s)
    (hsecs : 0 ≤ cfg.authRateLimitWindow) (hrpm : 1 ≤ s.limiters.request.maxRpm)
    (hover : s.limiters.request.openRequests (clientIp cfg req) (s.clock + seconds r + 1) = 0)
    (htrue : Truthful lib cfg s (clientIp cfg req) r) :
    Clear cfg s (clientIp cfg req) (s.clock + seconds r) (s.limiters.request.maxRpm - 1) := by
  have hlater : s.clock ≤ s.clock + seconds r := by
    simp only [seconds]
    omega
  have hslots : unasked cfg s (clientIp cfg req) < s.limiters.request.maxRpm := by
    by_contra hfew
    obtain ⟨z, hz, hzero⟩ := s.limiters.auth.exists_openFailures_zero (clientIp cfg req)
      (s.clock + seconds r)
    obtain ⟨s₁, hreaches, hclock, hfull⟩ := slots_taken lib (z := z) (by omega)
      (by omega) (Nat.not_lt.mp hfew)
    exact full_not_truthful hlib hreaches hclock hz (.inr hfull) htrue
  refine ⟨fun hrequire => ?_, by omega⟩
  by_contra hmany
  have hfailing : Failing cfg (clientIp cfg req) (s.clock + seconds r + 1) s := by
    refine ⟨by omega, hs.windowSecs ▸ hsecs, by simp [hs.maxTrackedIps], hs.size, ?_, by omega,
      by omega⟩
    intro k st _ hst
    have := hs.auth hst
    omega
  obtain ⟨s₁, hreaches, hclock, hfull⟩ := hfailing.recorded lib
  exact full_not_truthful hlib hreaches hclock (by omega) (.inl ⟨hrequire, hfull⟩) htrue

/-- **When to retry.** In every run with a valid configuration every answer with status 429
announces some seconds: a minute to a blocked address, else the rest of its request window.
The announcement is true exactly when the other calls of the address under way, and the
failures counted in a window that is still open then, leave room for one request more. -/
theorem retry_exact (lib : JsonLib) (hlib : lib.Documented) (cfg : ServerConfig)
    (hvalid : cfg.validate = .ok ()) (hrpm : cfg.requestRateLimitRpm < 2 ^ 31) {s s' : State}
    {i : Nat} {m : Moment} {call : Call} {result : Except JsonError (Option HttpResponse)}
    (hr : (configured lib cfg).Reachable System.Any s) (hcall : s.calls[i]? = some call)
    (hst : (configured lib cfg).step s (.advance i m) = some s')
    (hdone : s'.calls[i]? = some ⟨call.req, .done result⟩) (hrefuses : Refuses result) :
    (∃ r, Announces result r) ∧
    ∀ r, Announces result r →
      (r : Int) = secondsLeft s.limiters (clientIp cfg call.req) m.t call.phase ∧
      (Truthful lib cfg s' (clientIp cfg call.req) r ↔
        Settles cfg s i (clientIp cfg call.req) (m.t.fresh +
          seconds (secondsLeft s.limiters (clientIp cfg call.req) m.t call.phase))) := by
  have hs : Regular cfg s := reachable_regular hr
  have hs' : Regular cfg s' := hs.step hst
  have hconfig := ServerConfig.validate_iff.mp hvalid
  have hmin : 1 ≤ s.limiters.request.maxRpm := by
    have := hconfig.requestRateLimitRpm
    rw [hs.maxRpm, sizeOfInt]
    omega
  have hsame := step_maxRpm hst
  obtain ⟨hnow, hfresh, hclock, hcalls, ops, hstep⟩ := advance_done hcall hst hdone
  obtain ⟨r₀, hann, hseconds⟩ := phase_announces hmin hfresh hstep hrefuses
  refine ⟨⟨r₀, hann⟩, fun r hannr => ?_⟩
  obtain rfl := hann.unique hannr
  refine ⟨hseconds, ?_⟩
  have hover := phase_over hmin hfresh (fun st hst => by
    have := hs.request hst
    omega) hstep hrefuses
  have hauth : s'.limiters.auth = s.limiters.auth := by
    rcases phase_refused hstep hrefuses with ⟨_, _, heq⟩ | ⟨_, _, _, heq⟩ <;> rw [heq]
  rw [settles_iff_clear hmin hsame hauth hcall hcalls hover, ← hseconds, ← hclock]
  rw [← hseconds, ← hclock] at hover
  constructor
  · intro htrue
    exact truthful_clear hlib hs' (Int.le_of_lt hconfig.authRateLimitWindow) (hsame ▸ hmin) hover
      htrue
  · intro hclear
    exact clear_truthful hconfig.apiKey (hsame ▸ hmin) hclear

/-- A window of an hour that is full after the second failure. -/
def exHourConfig : ServerConfig where
  modelPath := utf8 "model"
  requireAuth := true
  apiKey := utf8 "secret"
  authRateLimitMax := 1
  authRateLimitWindow := 3600

def exStart : State := { limiters := .ofConfig exHourConfig, clock := 0 }

def exGuess : HttpRequest := exRequest (utf8 "Bearer guess")

/-- `n` wrong tokens arrive at the start of the window. Two of them are recorded. -/
def exGuesses (n : Nat) : List Act :=
  List.replicate n (.arrive exGuess) ++
    (List.replicate 4 (.advance 0 exMoment) ++ List.replicate 4 (.advance 1 exMoment))

theorem exRefused : Announces (authRateLimited (exJson [])) 60 :=
  tooManyRequests_announced (exJson_documented (by simp)) 60

/-- A minute before the end of the window the answer is true, with another wrong token of
the address under way. -/
theorem retry_exact_last_minute : ∃ s s',
    (configured (exJson []) exHourConfig).Reachable System.Any s ∧
    (configured (exJson []) exHourConfig).step s (.advance 2 (momentAt (seconds 3540))) = some s' ∧
    s'.calls[2]? = some ⟨exGuess, .done (authRateLimited (exJson []))⟩ ∧
    Announces (authRateLimited (exJson [])) 60 ∧
    failing exHourConfig (s.without 2) (clientIp exHourConfig exGuess) = 1 ∧
    Truthful (exJson []) exHourConfig s' (clientIp exHourConfig exGuess) 60 := by
  obtain ⟨s, hrun, hreach⟩ :=
    System.exists_reachable (S := configured (exJson []) exHourConfig) (G := System.Any)
      (s := exStart) (exGuesses 4) ⟨0, rfl⟩ (by decide)
  have hcall : s.calls[2]? = some ⟨exGuess, .start⟩ := by
    cases hrun
    rfl
  obtain ⟨s', hst, hdone⟩ : ∃ s', (configured (exJson []) exHourConfig).step s
      (.advance 2 (momentAt (seconds 3540))) = some s' ∧
      s'.calls[2]? = some ⟨exGuess, .done (authRateLimited (exJson []))⟩ := by
    cases hrun
    exact ⟨_, rfl, rfl⟩
  have hother : failing exHourConfig (s.without 2) (clientIp exHourConfig exGuess) = 1 := by
    cases hrun
    decide
  obtain ⟨-, hexact⟩ := retry_exact (exJson []) (exJson_documented (by simp)) exHourConfig
    (by decide) (by decide) hreach hcall hst hdone exRefused.refuses
  refine ⟨s, s', hreach, hst, hdone, exRefused, hother, (hexact 60 exRefused).2.mpr ⟨?_, ?_⟩⟩
  · cases hrun
    decide
  · intro _
    cases hrun
    decide

/-- A client that waits for the announced minute of an hour's block is refused again. -/
theorem retry_too_early : ∃ s s',
    exHourConfig.validate = .ok () ∧
    (configured (exJson []) exHourConfig).Reachable System.Any s ∧
    (configured (exJson []) exHourConfig).step s (.advance 2 exMoment) = some s' ∧
    s'.calls[2]? = some ⟨exGuess, .done (authRateLimited (exJson []))⟩ ∧
    Announces (authRateLimited (exJson [])) 60 ∧
    ¬ Truthful (exJson []) exHourConfig s' (clientIp exHourConfig exGuess) 60 := by
  obtain ⟨s, hrun, hreach⟩ :=
    System.exists_reachable (S := configured (exJson []) exHourConfig) (G := System.Any)
      (s := exStart) (exGuesses 3) ⟨0, rfl⟩ (by decide)
  obtain ⟨s', hst, hdone, hfull, hclock⟩ : ∃ s', (configured (exJson []) exHourConfig).step s
      (.advance 2 exMoment) = some s' ∧
      s'.calls[2]? = some ⟨exGuess, .done (authRateLimited (exJson []))⟩ ∧
      s'.limiters.auth.maxFailures <
        s'.limiters.auth.openFailures (clientIp exHourConfig exGuess) (seconds 61) ∧
      s'.clock = 0 := by
    cases hrun
    exact ⟨_, rfl, rfl, by decide, rfl⟩
  refine ⟨s, s', by decide, hreach, hst, hdone, exRefused, ?_⟩
  refine full_not_truthful (z := seconds 61) (exJson_documented (by simp)) (.refl s') ?_ ?_
    (.inl ⟨rfl, hfull⟩)
  · rw [hclock]
    decide
  · rw [hclock]
    decide

end Race
end VoxtralServer
