import VoxtralServer.Server.Service

/-!
# What the service tells about its key

The key is compared with the token of a request, and nothing else is done with it.
Two servers that differ in their keys only can be told apart by a request whose
header one of them accepts and the other does not, and by nothing else.

* `step_withKey`: one step of the service, with either key.
* `key_secret`: every run whose requests are judged alike is a run with the other key,
  with the same states, answers, responses and log lines.
-/

namespace VoxtralServer

/-- The configuration with another key. -/
def ServerConfig.withKey (cfg : ServerConfig) (key : Str) : ServerConfig :=
  { cfg with apiKey := key }

/-- What `make_deps` hands to the handlers. -/
def HandlerDeps.of (catalog : Option VoiceCatalog) (cfg : ServerConfig) : HandlerDeps where
  voiceCatalog := catalog
  config := some cfg

/-- Both keys accept the header of the request, or neither does. -/
def Alike (cfg : ServerConfig) (key : Str) (req : HttpRequest) : Prop :=
  (checkBearerAuth (req.header (utf8 "authorization")) key).authenticated =
    (checkBearerAuth (req.header (utf8 "authorization")) cfg.apiKey).authenticated

instance (cfg : ServerConfig) (key : Str) (req : HttpRequest) : Decidable (Alike cfg key req) :=
  inferInstanceAs (Decidable (_ = _))

variable {lib : JsonLib} {cfg : ServerConfig} {catalog : Option VoiceCatalog}
  {p : InferencePool.Params} {key : Str} {req : HttpRequest}

/-! ## One call -/

/-- The texts of a failed comparison do not depend on the key. -/
theorem checkBearerAuth_congr {authHeader apiKey : Str}
    (h : (checkBearerAuth authHeader key).authenticated =
      (checkBearerAuth authHeader apiKey).authenticated) :
    checkBearerAuth authHeader key = checkBearerAuth authHeader apiKey := by
  unfold checkBearerAuth at h ⊢
  split
  · rfl
  · next hempty =>
    split
    · rfl
    · next hformat =>
      rw [if_neg hempty, if_neg hformat, if_neg hempty, if_neg hformat] at h
      -- the header has a token
      cases hkey : constantTimeEquals (authHeader.drop bearerPrefix.length) key <;>
        cases hother : constantTimeEquals (authHeader.drop bearerPrefix.length) apiKey <;>
        simp_all

theorem Phase.step_withKey (h : Alike cfg key req) (m : Moment) (lim : Limiters) (phase : Phase) :
    phase.step lib (cfg.withKey key) req m lim = phase.step lib cfg req m lim := by
  cases phase with
  | atCompare =>
    have hcheck := checkBearerAuth_congr h
    simp only [Phase.step, ServerConfig.withKey, hcheck]
  | _ => rfl

theorem runMiddleware_withKey (h : Alike cfg key req) (ms : Moments) (lim : Limiters) :
    runMiddleware lib (cfg.withKey key) ms lim req = runMiddleware lib cfg ms lim req := by
  have hcheck : checkBearerAuth (req.header (utf8 "authorization")) (cfg.withKey key).apiKey =
      checkBearerAuth (req.header (utf8 "authorization")) cfg.apiKey := checkBearerAuth_congr h
  unfold runMiddleware
  rw [hcheck]
  rfl

/-- The handlers do not look at the key. -/
theorem readSpeech_withKey (catalog : Option VoiceCatalog) (req : HttpRequest) :
    readSpeech lib (.of catalog (cfg.withKey key)) req = readSpeech lib (.of catalog cfg) req :=
  rfl

/-- A route answers and logs the same with either key. -/
theorem runRoute_withKey {req : HttplibRequest} (h : Alike cfg key (adaptRequest req))
    (listener : Listener) (rng : Nat → UInt32) (t : Thread) (scene : Scene) (route : Route) :
    runRoute lib listener rng (cfg.withKey key) (.of catalog (cfg.withKey key)) t req scene route =
      runRoute lib listener rng cfg (.of catalog cfg) t req scene route := by
  have hmiddleware :
      middlewareOf lib (cfg.withKey key) req scene = middlewareOf lib cfg req scene :=
    congrArg MiddlewareOutcome.result (runMiddleware_withKey h scene.moments scene.limiters)
  cases route with
  | voices =>
    simp only [runRoute, voicesRoute, hmiddleware]
    rfl
  | speech =>
    simp only [runRoute, speechRoute, hmiddleware]
    rfl
  | _ => rfl

/-! ## The service -/

namespace Race

theorem step_withKey {s : State} (h : ∀ req ∈ s.calls.map Call.req, Alike cfg key req) (a : Act) :
    step lib (cfg.withKey key) s a = step lib cfg s a := by
  cases a with
  | arrive req => rfl
  | advance i m =>
    cases hcall : s.calls[i]? with
    | none => simp only [step, hcall, Option.bind_none]
    | some call =>
      have hmem : call.req ∈ s.calls.map Call.req :=
        List.mem_map_of_mem (List.mem_of_getElem? hcall)
      simp only [step, hcall, Option.bind_some, Phase.step_withKey (h _ hmem)]
      rfl

end Race

theorem SpeechServer.step_withKey (s : SpeechServer) (a : Act) :
    step lib (.of catalog (cfg.withKey key)) p s a = step lib (.of catalog cfg) p s a := by
  cases a with
  | receive i req now =>
    unfold step
    simp only [readSpeech_withKey]
  | _ => rfl

namespace Service

variable {s s' : Service} {a : Act} {moments : List (Service × Act)} {i : Nat}

theorem step_withKey (h : ∀ req ∈ s.gate.calls.map Race.Call.req, Alike cfg key req) (a : Act) :
    step lib (cfg.withKey key) (.of catalog (cfg.withKey key)) p s a =
      step lib cfg (.of catalog cfg) p s a := by
  unfold step
  simp only [Race.step_withKey h, SpeechServer.step_withKey]

/-- The requests that arrive are judged alike. -/
def ArrivesAlike (cfg : ServerConfig) (key : Str) (_ : Service) (a : Act) : Prop :=
  a.Arrives (Alike cfg key)

instance (s : Service) (a : Act) : Decidable (ArrivesAlike cfg key s a) :=
  inferInstanceAs (Decidable (a.Arrives _))

theorem step_alike (hi : ∀ req ∈ s.gate.calls.map Race.Call.req, Alike cfg key req)
    (ha : ArrivesAlike cfg key s a)
    (hst : (system lib cfg (.of catalog cfg) p).step s a = some s') :
    ∀ req ∈ s'.gate.calls.map Race.Call.req, Alike cfg key req := by
  cases step_moves hst with
  | arrive =>
    intro req hreq
    rw [List.map_append, List.mem_append] at hreq
    rcases hreq with hreq | hreq
    · exact hi req hreq
    · rw [List.mem_singleton.mp hreq]
      exact ha
  | gate hgate =>
    rw [gate_requests hgate]
    exact hi
  | receive => exact hi
  | speech => exact hi

/-- A run is one with the other key. -/
theorem history_withKey
    (h : (system lib cfg (.of catalog cfg) p).History (ArrivesAlike cfg key) moments s) :
    (∀ req ∈ s.gate.calls.map Race.Call.req, Alike cfg key req) ∧
      (system lib (cfg.withKey key) (.of catalog (cfg.withKey key)) p).History
        System.Any moments s := by
  refine System.history_inv
    (I := fun moments s => (∀ req ∈ s.gate.calls.map Race.Call.req, Alike cfg key req) ∧
      (system lib (cfg.withKey key) (.of catalog (cfg.withKey key)) p).History
        System.Any moments s) ?_ ?_ h
  · rintro s ⟨now, now', rfl⟩
    exact ⟨by simp, _, ⟨now, now', rfl⟩, .refl⟩
  · intro moments s a t _ hi ha hst
    have hother : (system lib (cfg.withKey key) (.of catalog (cfg.withKey key)) p).step s a =
        some t := (step_withKey hi.1 a).trans hst
    exact ⟨step_alike hi.1 ha hst, hi.2.step trivial hother⟩

/-- **The key stays secret.** Every run in which another key would judge the header of
each request alike is a run with that key as well: the limiters, the metrics and the
answers are the same, and so are the log lines and the response of each route. -/
theorem key_secret
    (h : (system lib cfg (.of catalog cfg) p).History (ArrivesAlike cfg key) moments s) :
    (system lib (cfg.withKey key) (.of catalog (cfg.withKey key)) p).History
      System.Any moments s ∧
    (∀ i, answer lib (.of catalog (cfg.withKey key)) s i = answer lib (.of catalog cfg) s i) ∧
    ∀ req ∈ s.requests, ∀ listener rng t scene route,
      runRoute lib listener rng (cfg.withKey key) (.of catalog (cfg.withKey key)) t req scene
        route = runRoute lib listener rng cfg (.of catalog cfg) t req scene route := by
  obtain ⟨halike, hother⟩ := history_withKey h
  refine ⟨hother, fun i => rfl, fun req hreq listener rng t scene route => ?_⟩
  rw [(reachable_aligned h.reachable.any).calls] at halike
  exact runRoute_withKey (halike _ (List.mem_map_of_mem hreq)) listener rng t scene route

/-- A request without a key is refused, whatever the key is. -/
def exRefusedRun : List Act :=
  [.arrive (exGet "/v1/voices"), .gate 0 exMoment, .gate 0 exMoment, .gate 0 exMoment,
   .gate 0 exMoment]

theorem key_secret_refused : ∃ moments s result,
    (system exSpeechLib Race.exKeyConfig (.of none Race.exKeyConfig) {}).History System.Any
      moments s ∧
    answer exSpeechLib (.of none Race.exKeyConfig) s 0 = some result ∧
    (system exSpeechLib (Race.exKeyConfig.withKey (utf8 "other"))
      (.of none (Race.exKeyConfig.withKey (utf8 "other"))) {}).History System.Any moments s ∧
    answer exSpeechLib (.of none (Race.exKeyConfig.withKey (utf8 "other"))) s 0 = some result := by
  let start : Service := { gate := { limiters := .ofConfig Race.exKeyConfig, clock := 0 } }
  obtain ⟨s, hrun, _⟩ :=
    System.exists_reaches (S := system exSpeechLib Race.exKeyConfig (.of none Race.exKeyConfig) {})
      (G := ArrivesAlike Race.exKeyConfig (utf8 "other")) (s := start) exRefusedRun (by decide)
  have hhistory : (system exSpeechLib Race.exKeyConfig (.of none Race.exKeyConfig) {}).History
      (ArrivesAlike Race.exKeyConfig (utf8 "other")) _ s :=
    ⟨start, ⟨0, 0, rfl⟩, System.runs_of_run _ hrun⟩
  have hanswer : ∃ result,
      answer exSpeechLib (.of none Race.exKeyConfig) s 0 = some result := by
    cases hrun
    exact ⟨_, rfl⟩
  obtain ⟨result, hanswer⟩ := hanswer
  obtain ⟨hother, hsame, _⟩ := key_secret hhistory
  exact ⟨_, s, result, hhistory.any, hanswer, hother, (hsame 0).trans hanswer⟩

end Service
end VoxtralServer
