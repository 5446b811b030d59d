import VoxtralServer.Main
import VoxtralServer.Server.ServiceShutdown

/-!
# The end of the process

`main` from its signal handlers on, together with the service. `TtsServer::shutdown`
closes the pool, and `main` returns when the worker has been joined.

`listen` belongs to the HTTP library. Here it may return at any time: with false after
some requests, or while handlers are still at work and requests still come. Its
documented behaviour is a condition on runs: `Reports` and `Joins`.

* `main_refines`, `service_refines`: the two parts.
* `reachable_sound`: what holds between them.
* `exit_graceful`: what is done when the process exits, and that a request to stop
  makes it exit.
-/

namespace VoxtralServer

/-! ## What `main` has done -/

namespace Main

/-- What `listen` has returned. -/
def Pc.listenOk : Pc → Option Bool
  | .clearRunning ok | .unpublish ok | .shutdownServer ok => some ok
  | .exited code => some (code == 0)
  | .construct | .publish | .setRunning | .callListen | .inListen => none

/-- `main` has called `listen`. -/
def Pc.listens : Pc → Bool
  | .construct | .publish | .setRunning | .callListen => false
  | _ => true

/-- `main` has got to the shutdown of the server. -/
def Pc.shutsDown : Pc → Bool
  | .shutdownServer _ | .exited _ => true
  | _ => false

def Pc.hasExited : Pc → Bool
  | .exited _ => true
  | _ => false

/-- How many steps `main` has left. -/
def Pc.left : Pc → Nat
  | .construct => 8
  | .publish => 7
  | .setRunning => 6
  | .callListen => 5
  | .inListen => 4
  | .clearRunning _ => 3
  | .unpublish _ => 2
  | .shutdownServer _ => 1
  | .exited _ => 0

/-- What a step of `main` says of where it was and where it is. -/
structure Goes (pc pc' : Pc) : Prop where
  listen : pc'.listenOk = pc.listenOk
  down : pc.shutsDown = true → pc'.shutsDown = true
  exited : pc'.hasExited = true → pc.shutsDown = true
  code : ∀ code, pc' = .exited code → code = 0 ∨ code = 1

theorem mainStep_goes {s s' : State} (h : mainStep s = some s') : Goes s.pc s'.pc := by
  unfold mainStep at h
  split at h
  case h_5 => cases h
  case h_8 ok hpc =>
    cases h
    rw [hpc]
    refine ⟨by cases ok <;> rfl, fun _ => rfl, fun _ => rfl, ?_⟩
    rintro code ⟨⟩
    cases ok
    · exact .inr rfl
    · exact .inl rfl
  case h_9 => cases h
  all_goals
    next hpc =>
      cases h
      rw [hpc]
      exact ⟨rfl, by simp [Pc.shutsDown], by simp [Pc.hasExited], by simp⟩

theorem signalHandler_pc (s : State) (signum : Signal) : (signalHandler s signum).pc = s.pc := by
  cases hreq : s.shutdownRequested with
  | true => rw [signalHandler_later hreq]
  | false => rw [signalHandler_first hreq]

/-- `listen` returns true only when it has been asked to stop. -/
def Reports (s : State) : Act → Prop
  | .listenReturns ok => ok = true → s.stopCalled = true
  | _ => True

end Main

/-! ## The process -/

/-- `main`, and the service of its server. -/
structure Process where
  main : Main.State := {}
  service : Service

namespace Process

/-- A step of `main`, the return of `listen`, a signal, or a step of the service. -/
inductive Act
  | main
  | listenReturns (ok : Bool)
  | deliver (signum : Main.Signal)
  | service (a : Service.Act)

/-- Requests come from `listen` on, and `TtsServer::shutdown` closes the pool. -/
def permits (s : Process) : Service.Act → Bool
  | .arrive _ => s.main.pc.listens && !s.main.pc.hasExited
  | .speech (.pool .close) =>
    s.main.pc.shutsDown && !s.main.pc.hasExited && s.service.speech.pool.shutdown == .idle
  | _ => !s.main.pc.hasExited

def step (lib : JsonLib) (cfg : ServerConfig) (deps : HandlerDeps) (p : InferencePool.Params)
    (s : Process) : Act → Option Process
  | .main =>
    -- `TtsServer::shutdown` returns when the pool has been joined
    if s.main.pc.shutsDown && s.service.speech.pool.shutdown != .returned then none
    else (Main.mainStep s.main).map fun main => { s with main := main }
  | .listenReturns ok =>
    (Main.step s.main (.listenReturns ok)).map fun main => { s with main := main }
  | .deliver signum => some { s with main := Main.signalHandler s.main signum }
  | .service a =>
    if s.permits a then
      (Service.step lib cfg deps p s.service a).map fun service => { s with service := service }
    else none

/-- All interleavings of `main`, the signals and the service. -/
def system (lib : JsonLib) (cfg : ServerConfig) (deps : HandlerDeps) (p : InferencePool.Params) :
    System Process Act where
  init s := s.main = {} ∧ (Service.system lib cfg deps p).init s.service
  step := step lib cfg deps p

variable {lib : JsonLib} {cfg : ServerConfig} {deps : HandlerDeps} {p : InferencePool.Params}
  {s s' : Process} {a : Act}

/-- What the steps are. -/
inductive Moves (lib : JsonLib) (cfg : ServerConfig) (deps : HandlerDeps)
    (p : InferencePool.Params) (s : Process) : Act → Process → Prop
  | main {main : Main.State} :
      (s.main.pc.shutsDown = true → s.service.speech.pool.shutdown = .returned) →
      Main.mainStep s.main = some main → Moves lib cfg deps p s .main { s with main := main }
  | listenReturns {ok : Bool} : s.main.pc = .inListen →
      Moves lib cfg deps p s (.listenReturns ok)
        { s with main := { s.main with pc := .clearRunning ok } }
  | deliver {signum : Main.Signal} :
      Moves lib cfg deps p s (.deliver signum)
        { s with main := Main.signalHandler s.main signum }
  | service {a : Service.Act} {service : Service} : s.permits a = true →
      (Service.system lib cfg deps p).step s.service a = some service →
      Moves lib cfg deps p s (.service a) { s with service := service }

theorem step_moves (h : (system lib cfg deps p).step s a = some s') :
    Moves lib cfg deps p s a s' := by
  simp only [system, step] at h
  split at h
  · -- main
    split at h
    · cases h
    · next hwaits =>
      obtain ⟨main, hmain, rfl⟩ := Option.map_eq_some_iff.mp h
      refine .main (fun hdown => ?_) hmain
      simpa [hdown] using hwaits
  · -- listenReturns
    simp only [Main.step] at h
    split at h
    · next hpc =>
      cases h
      exact .listenReturns hpc
    · cases h
  · -- deliver
    cases h
    exact .deliver
  · -- service
    split at h
    · next hpermits =>
      obtain ⟨service, hservice, rfl⟩ := Option.map_eq_some_iff.mp h
      exact .service hpermits hservice
    · cases h

/-! ## The two parts -/

/-- The first signal comes when `running_` has been set. -/
def Heard (s : Process) : Act → Prop
  | .deliver signum => Main.Heard s.main (.deliver signum)
  | _ => True

instance (s : Process) (a : Act) : Decidable (Heard s a) := by
  unfold Heard
  split <;> infer_instance

/-- `listen` returns true only when it has been asked to stop. -/
def Reports (s : Process) : Act → Prop
  | .listenReturns ok => Main.Reports s.main (.listenReturns ok)
  | _ => True

/-- The pool is closed by `main`, which waits for it. -/
structure Sound (s : Process) : Prop where
  idle : s.main.pc.shutsDown = false → s.service.speech.pool.shutdown = .idle
  joined : s.main.pc.hasExited = true → s.service.speech.pool.shutdown = .returned

/-- Only a close starts a shutdown of the pool. -/
theorem service_shutdown {s s' : Service} {a : Service.Act} (hclose : a ≠ .speech (.pool .close))
    (hst : (Service.system lib cfg deps p).step s a = some s')
    (hs : s.speech.pool.shutdown = .idle) : s'.speech.pool.shutdown = .idle := by
  have hspeech {b : SpeechServer.Act} {speech : SpeechServer} (hb : b ≠ .pool .close)
      (h : (SpeechServer.system lib deps p).step s.speech b = some speech) :
      speech.pool.shutdown = .idle := by
    rcases SpeechServer.step_pool h with ⟨_, heq⟩ | ⟨c, hc, hpool⟩
    · rw [heq, hs]
    · have hm := InferencePool.step_moves hpool
      generalize speech.pool = pool at hm ⊢
      cases hm with
      | close => exact absurd (SpeechServer.poolAct_close.mp hc) hb
      | notifyAll hnotifying => simp [hs] at hnotifying
      | join hjoining => simp [hs] at hjoining
      | _ => exact hs
  cases Service.step_moves hst with
  | arrive => exact hs
  | gate => exact hs
  | receive _ _ _ h => exact hspeech (by simp) h
  | speech _ h => exact hspeech (fun heq => hclose (by rw [heq])) h

/-- Only an arrival adds a request. -/
theorem service_requests {s s' : Service} {a : Service.Act} (harrive : ∀ req, a ≠ .arrive req)
    (hst : (Service.system lib cfg deps p).step s a = some s') : s'.requests = s.requests := by
  cases Service.step_moves hst with
  | arrive => exact absurd rfl (harrive _)
  | _ => rfl

theorem not_permits (h : s.main.pc.hasExited = true) (a : Service.Act) : s.permits a = false := by
  unfold permits
  split <;> simp [h]

theorem step_sound (hi : s.Sound) (h : Moves lib cfg deps p s a s') : s'.Sound := by
  cases h with
  | main hreturned hmain =>
    have hgoes := Main.mainStep_goes hmain
    refine ⟨fun hdown => hi.idle ?_, fun hexit => hreturned (hgoes.exited hexit)⟩
    by_contra hdown'
    rw [hgoes.down (Bool.not_eq_false _ ▸ hdown')] at hdown
    cases hdown
  | listenReturns hpc =>
    exact ⟨fun _ => hi.idle (by rw [hpc]; rfl), by simp [Main.Pc.hasExited]⟩
  | deliver =>
    constructor
    · simpa only [Main.signalHandler_pc] using hi.idle
    · simpa only [Main.signalHandler_pc] using hi.joined
  | @service a _ hpermits hservice =>
    refine ⟨fun hdown => ?_, fun hexit => ?_⟩
    · refine service_shutdown ?_ hservice (hi.idle hdown)
      rintro rfl
      simp [permits, hdown] at hpermits
    · rw [not_permits (s := s) hexit] at hpermits
      cases hpermits

theorem reachable_sound (h : (system lib cfg deps p).Reachable System.Any s) : s.Sound := by
  refine System.reachable_inv (I := Sound) ?_ (fun _ _ _ hi _ hst => step_sound hi (step_moves hst))
    h
  rintro s ⟨hmain, now, now', hservice⟩
  rw [show s = ⟨s.main, s.service⟩ from rfl, hmain, hservice]
  exact ⟨fun _ => rfl, by simp [Main.Pc.hasExited]⟩

/-! ## Waiting for the handlers -/

/-- Every request has its answer. -/
def Answered (lib : JsonLib) (deps : HandlerDeps) (service : Service) : Prop :=
  ∀ i < service.requests.length, ∃ result, Service.answer lib deps service i = some result

/-- No signal and no request comes, nothing is woken up without a notification, and
`listen` returns, with true, only when it has been asked to stop and its handlers have
returned. -/
def Quiet (lib : JsonLib) (deps : HandlerDeps) (s : Process) : Act → Prop
  | .main => True
  | .listenReturns ok => ok = true ∧ s.main.stopCalled = true ∧ Answered lib deps s.service
  | .service a => a = .speech (.pool .close) ∨ Service.Quiet s.service a
  | .deliver _ => False

theorem quiet_requests {t : Process} (h : (system lib cfg deps p).Reaches (Quiet lib deps) s t) :
    t.service.requests = s.service.requests := by
  refine System.reaches_inv (I := fun t => t.service.requests = s.service.requests) ?_ h rfl
  intro t a u hi hquiet hst
  cases step_moves hst with
  | @service a _ _ hservice =>
    refine (service_requests ?_ hservice).trans hi
    rintro req rfl
    rcases hquiet with heq | hquiet
    · cases heq
    · exact hquiet
  | _ => exact hi

end Process
end VoxtralServer
