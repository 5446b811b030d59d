import VoxtralServer.Server.ServiceLimits

/-!
# Clients with the right key

What the service does to an address whose requests all carry an accepted header,
while other addresses guess keys, flood it and evict entries.

* `phase_honest`: a step of a middleware call keeps such an address out of the
  failure limiter.
* `honest_served`: its requests are let through, unless the address itself has
  asked too often.
-/

namespace VoxtralServer
namespace Service

variable {lib : JsonLib} {cfg : ServerConfig} {deps : HandlerDeps} {p : InferencePool.Params}
  {s s' : Service} {a : Act} {moments : List (Service × Act)} {i : Nat} {ip : Str}

/-- The header of the request is accepted, when that matters. -/
def Accepted (cfg : ServerConfig) (req : HttpRequest) : Prop :=
  cfg.requireAuth = true →
    (checkBearerAuth (req.header (utf8 "authorization")) cfg.apiKey).authenticated = true

instance (req : HttpRequest) : Decidable (Accepted cfg req) := inferInstanceAs (Decidable (_ → _))

/-- Every request of the address that arrives carries an accepted header. -/
def Honest (cfg : ServerConfig) (ip : Str) (_ : Service) (a : Act) : Prop :=
  a.Arrives fun req => clientIp cfg req = ip → Accepted cfg req

instance (s : Service) (a : Act) : Decidable (Honest cfg ip s a) :=
  inferInstanceAs (Decidable (a.Arrives _))

/-- The `i`th request was refused by the request limiter when its address had asked
`max_rpm` times in the 60 seconds before. -/
def Busy (cfg : ServerConfig) (moments : List (Service × Act)) (i : Nat) (ip : Str) : Prop :=
  ∃ before t m after, moments = before ++ (t, .gate i m) :: after ∧
    t.phaseOf i = some .atRequest ∧
    sizeOfInt cfg.requestRateLimitRpm ≤ askedSince cfg before ip (m.t.now - seconds 60 + 1)

theorem Busy.append (h : Busy cfg moments i ip) (m : Service × Act) :
    Busy cfg (moments ++ [m]) i ip := by
  obtain ⟨before, t, moment, after, rfl, hphase, hbusy⟩ := h
  exact ⟨before, t, moment, after ++ [m], by simp, hphase, hbusy⟩

/-- Where a middleware call of such an address can be. -/
inductive Spared (lib : JsonLib) (cfg : ServerConfig) (moments : List (Service × Act)) (i : Nat)
    (ip : Str) : Phase → Prop
  | start : Spared lib cfg moments i ip .start
  | atRequest : Spared lib cfg moments i ip .atRequest
  | atCompare : cfg.requireAuth = true → Spared lib cfg moments i ip .atCompare
  | passed : Spared lib cfg moments i ip (.done (.ok none))
  | limited {retryAfter : Int} : 0 < retryAfter → Busy cfg moments i ip →
      Spared lib cfg moments i ip (.done (rateLimited lib retryAfter))

theorem Spared.append {phase : Phase} (h : Spared lib cfg moments i ip phase)
    (m : Service × Act) : Spared lib cfg (moments ++ [m]) i ip phase := by
  cases h with
  | start => exact .start
  | atRequest => exact .atRequest
  | atCompare hrequire => exact .atCompare hrequire
  | passed => exact .passed
  | limited hpos hbusy => exact .limited hpos (hbusy.append m)

/-- A call of another address leaves the entry of this one missing. -/
theorem phase_other {req : HttpRequest} {m : Moment} {phase phase' : Phase}
    {lim lim' : Limiters} {ops : List MetricOp}
    (h : phase.step lib cfg req m lim = some (phase', lim', ops)) (hne : clientIp cfg req ≠ ip)
    (hlookup : lim.auth.ipStates.lookup ip = none) : lim'.auth.ipStates.lookup ip = none := by
  have hsame (heq : lim'.auth = lim.auth) : lim'.auth.ipStates.lookup ip = none := heq ▸ hlookup
  have hquery (heq : lim'.auth = (lim.auth.isBlocked (clientIp cfg req) m.t.now).2) :
      lim'.auth.ipStates.lookup ip = none := by
    rw [heq, AuthRateLimiter.isBlocked_lookup_of_ne hne.symm]
    exact hlookup
  cases Race.phase_moves h with
  | internal _ heq => exact hsame heq
  | blocked _ heq => exact hquery heq
  | passed _ _ _ heq => exact hquery heq
  | unchecked _ _ heq => exact hsame heq
  | answered heq => exact hsame heq
  | allowed _ heq => exact hsame heq
  | wrong _ heq => exact hsame heq
  | right _ heq => exact hsame heq
  | recorded heq =>
    rw [heq, Option.eq_none_iff_forall_ne_some]
    intro st hst
    have hwritten := AuthRateLimiter.recordFailure_kept hst
    rw [AuthRateLimiter.written_lookup_of_ne hne.symm, hlookup] at hwritten
    cases hwritten

/-- A call of the address itself, with an accepted header. -/
theorem phase_honest {m : Moment} {req : HttpRequest} {phase phase' : Phase} {lim' : Limiters}
    {ops : List MetricOp} {calls : List (RequestRateLimiter.Run × RequestRateLimiter.Call)}
    {run : RequestRateLimiter.Run} (hlimited : Limited cfg moments s calls run)
    (hphase : s.phaseOf i = some phase) (hip : clientIp cfg req = ip) (haccepted : Accepted cfg req)
    (hpath : isInternalEndpoint req.path = false) (ht : m.t.now ≤ m.t.fresh)
    (hlookup : s.gate.limiters.auth.ipStates.lookup ip = none)
    (hspared : Spared lib cfg moments i ip phase)
    (h : phase.step lib cfg req m s.gate.limiters = some (phase', lim', ops)) :
    Spared lib cfg (moments ++ [(s, .gate i m)]) i ip phase' ∧
      lim'.auth.ipStates.lookup ip = none := by
  subst hip
  cases hspared with
  | start =>
    have hquery : s.gate.limiters.auth.isBlocked (clientIp cfg req) m.t.now =
        (false, s.gate.limiters.auth) := by
      simp only [AuthRateLimiter.isBlocked, hlookup]
    simp only [Phase.step, hpath, hquery, Bool.false_eq_true, if_false] at h
    split at h <;> cases h <;> exact ⟨.atRequest, hlookup⟩
  | atRequest =>
    simp only [Phase.step] at h
    split at h
    · next hlimits =>
      cases h
      refine ⟨.limited hlimits ⟨moments, s, m, [], rfl, hphase, ?_⟩, hlookup⟩
      rw [← hlimited.maxRpm, ← hlimited.asked]
      refine (RequestRateLimiter.history_counted hlimited.history).rejected ht m.requestOrd ?_
      rw [hlimited.limiter]
      omega
    · split at h
      · next hrequire =>
        cases h
        exact ⟨.atCompare hrequire, hlookup⟩
      · cases h
        exact ⟨.passed, hlookup⟩
  | atCompare hrequire =>
    simp only [Phase.step, haccepted hrequire, Bool.not_true, Bool.false_eq_true, if_false] at h
    cases h
    exact ⟨.passed, hlookup⟩
  | passed => cases h
  | limited => cases h

/-- What holds of the address: it has no entry in the failure limiter, its requests
carry accepted headers, and its middleware calls are spared. -/
structure Trusted (lib : JsonLib) (cfg : ServerConfig) (ip : Str)
    (moments : List (Service × Act)) (s : Service) : Prop where
  lookup : s.gate.limiters.auth.ipStates.lookup ip = none
  call {i : Nat} {call : Race.Call} : s.gate.calls[i]? = some call →
    clientIp cfg call.req = ip → Accepted cfg call.req ∧ Spared lib cfg moments i ip call.phase

/-- A step of a middleware call. -/
theorem Trusted.gate (hi : Trusted lib cfg ip moments s) {m : Moment} {gate : Race.State}
    (h : (system lib cfg deps p).History System.Any moments s)
    (hgate : (Race.system lib cfg).step s.gate (.advance i m) = some gate) :
    Trusted lib cfg ip (moments ++ [(s, .gate i m)]) { s with gate := gate } := by
  obtain ⟨calls, run, hlimited⟩ := history_limited h
  have haligned := reachable_aligned h.reachable
  rcases Race.step_cases hgate with ⟨_, ha, _⟩ | ⟨i', m', call, phase, lim, ops, ha, hcall, _,
    hfresh, hstep, rfl⟩
  · cases ha
  cases ha
  obtain ⟨hlt, _⟩ := List.getElem?_eq_some_iff.mp hcall
  obtain ⟨req, _, hreq, happ⟩ := haligned.call hcall
  have hphase : s.phaseOf i = some call.phase := by simp only [phaseOf, hcall, Option.map_some]
  have hmoved : lim.auth.ipStates.lookup ip = none ∧ (clientIp cfg call.req = ip →
      Spared lib cfg (moments ++ [(s, .gate i m)]) i ip phase) := by
    by_cases hip : clientIp cfg call.req = ip
    · obtain ⟨haccepted, hspared⟩ := hi.call hcall hip
      obtain ⟨hspared', hlookup⟩ := phase_honest hlimited hphase hip haccepted (hreq ▸ happ.path)
        hfresh hi.lookup hspared hstep
      exact ⟨hlookup, fun _ => hspared'⟩
    · exact ⟨phase_other hstep hip hi.lookup, fun h => absurd h hip⟩
  refine ⟨hmoved.1, fun {j call'} hcall' hip => ?_⟩
  by_cases hne : i = j
  · subst hne
    have hself : call' = ⟨call.req, phase⟩ := by
      simpa [List.getElem?_set_self hlt] using hcall'.symm
    subst hself
    exact ⟨(hi.call hcall hip).1, hmoved.2 hip⟩
  · have hold : s.gate.calls[j]? = some call' := by
      rw [← hcall']
      exact (List.getElem?_set_ne hne).symm
    obtain ⟨haccepted, hspared⟩ := hi.call hold hip
    exact ⟨haccepted, hspared.append _⟩

theorem history_trusted (h : (system lib cfg deps p).History (Honest cfg ip) moments s) :
    (system lib cfg deps p).History System.Any moments s ∧ Trusted lib cfg ip moments s := by
  refine System.history_inv (I := fun moments s =>
    (system lib cfg deps p).History System.Any moments s ∧ Trusted lib cfg ip moments s) ?_ ?_ h
  · rintro s ⟨now, now', rfl⟩
    exact ⟨⟨_, ⟨now, now', rfl⟩, .refl⟩, rfl, nofun⟩
  · rintro moments s a t _ ⟨hhistory, hi⟩ hhonest hst
    refine ⟨hhistory.step trivial hst, ?_⟩
    have hkeep {i : Nat} {call : Race.Call} (hcall : s.gate.calls[i]? = some call)
        (hip : clientIp cfg call.req = ip) : Accepted cfg call.req ∧
          Spared lib cfg (moments ++ [(s, a)]) i ip call.phase := by
      obtain ⟨haccepted, hspared⟩ := hi.call hcall hip
      exact ⟨haccepted, hspared.append _⟩
    cases step_moves hst with
    | @arrive req happ =>
      refine ⟨hi.lookup, fun {i call} hcall hip => ?_⟩
      by_cases hlt : i < s.gate.calls.length
      · exact hkeep (by rwa [List.getElem?_append_left hlt] at hcall) hip
      · rw [List.getElem?_append_right (Nat.not_lt.mp hlt)] at hcall
        obtain ⟨_, hself⟩ := List.getElem?_eq_some_iff.mp hcall
        rw [List.getElem_singleton] at hself
        subst hself
        exact ⟨hhonest hip, .start⟩
    | gate hgate => exact hi.gate hhistory hgate
    | receive => exact ⟨hi.lookup, hkeep⟩
    | speech => exact ⟨hi.lookup, hkeep⟩

/-- How the middleware decides on a request of such an address. -/
theorem honest_decided (h : (system lib cfg deps p).History (Honest cfg ip) moments s)
    {req : HttplibRequest} (hreq : s.requests[i]? = some req)
    (hip : clientIp cfg (adaptRequest req) = ip) {result : Except JsonError (Option HttpResponse)}
    (hdone : s.phaseOf i = some (.done result)) :
    result = .ok none ∨
      ∃ retryAfter > 0, result = rateLimited lib retryAfter ∧ Busy cfg moments i ip := by
  obtain ⟨hhistory, htrusted⟩ := history_trusted h
  obtain ⟨call, hcall, hphase⟩ := Option.map_eq_some_iff.mp hdone
  obtain ⟨req', hreq', hcallReq, _⟩ := (reachable_aligned hhistory.reachable).call hcall
  rw [hreq] at hreq'
  cases hreq'
  have hspared := (htrusted.call hcall (hcallReq ▸ hip)).2
  rw [hphase] at hspared
  cases hspared with
  | passed => exact .inl rfl
  | limited hpos hbusy => exact .inr ⟨_, hpos, rfl, hbusy⟩

/-- **A client with the right key answers for itself only.** When every request of an
address carries an accepted header, then, whatever other addresses do, the address
has no failures at any moment, and each of its requests that the middleware decides
on is let through, or refused by the request limiter after `max_rpm` requests of the
same address in the 60 seconds before. -/
theorem honest_served (h : (system lib cfg deps p).History (Honest cfg ip) moments s) :
    s.gate.limiters.auth.ipStates.lookup ip = none ∧
    ∀ {i : Nat} {req : HttplibRequest}, s.requests[i]? = some req →
      clientIp cfg (adaptRequest req) = ip →
      ∀ {result : Except JsonError (Option HttpResponse)},
      s.phaseOf i = some (.done result) →
      result = .ok none ∨
        ∃ retryAfter > 0, result = rateLimited lib retryAfter ∧ Busy cfg moments i ip :=
  ⟨(history_trusted h).2.lookup, fun hreq hip _ hdone => honest_decided h hreq hip hdone⟩

/-- The request of the example is decided on, and nothing is recorded of its address. -/
theorem honest_served_hello : ∃ s moments result,
    (system SpeechServer.exHelloLib Race.exKeyConfig {} {}).History
      (Honest Race.exKeyConfig (utf8 "127.0.0.1")) moments s ∧
    s.gate.limiters.auth.ipStates.lookup (utf8 "127.0.0.1") = none ∧
    s.phaseOf 0 = some (.done result) ∧
    (result = .ok none ∨ ∃ retryAfter > 0, result = rateLimited SpeechServer.exHelloLib retryAfter ∧
      Busy Race.exKeyConfig moments 0 (utf8 "127.0.0.1")) := by
  obtain ⟨s, hrun⟩ := Option.isSome_iff_exists.mp (show
    ((system SpeechServer.exHelloLib Race.exKeyConfig {} {}).run
      (Honest Race.exKeyConfig (utf8 "127.0.0.1")) exKeyService exAdmitRun).isSome = true by
    decide)
  have hhistory : (system SpeechServer.exHelloLib Race.exKeyConfig {} {}).History
      (Honest Race.exKeyConfig (utf8 "127.0.0.1")) _ s :=
    ⟨exKeyService, ⟨0, 0, rfl⟩, System.runs_of_run _ hrun⟩
  cases hrun
  obtain ⟨hlookup, hdecided⟩ := honest_served hhistory
  exact ⟨_, _, _, hhistory, hlookup, rfl,
    hdecided (show _ = some exHelloPost from rfl) (by decide) rfl⟩

end Service
end VoxtralServer
