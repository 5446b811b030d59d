import VoxtralServer.Base
import VoxtralServer.Lib.System

/-!
# Start-up and shutdown signals

`main` from the installed signal handlers on: it constructs the adapter,
publishes it in `g_adapter`, and calls `start`, which sets `running_` and blocks
in `listen`. SIGTERM and SIGINT may be delivered at any point. The handler runs
to completion between two steps of `main`: a second signal inside it finds
`g_shutdown_requested` set or comes before the exchange.

`listen` belongs to the HTTP library. Here it may return at any time, with either
result: it fails to bind, or to accept a connection, or `Server::stop` has been called,
before or during it. In the runs of `Persists` it returns only in the last case.

* `signal_heeded`: no request to stop is lost, as long as the first signal does
  not come before `running_` is set. A first signal before that can be lost for
  good.
-/

namespace VoxtralServer.Main

/-- The next thing that `main` does. -/
inductive Pc
  | construct
  | publish
  | setRunning
  | callListen
  | inListen
  | clearRunning (listenOk : Bool)
  | unpublish (listenOk : Bool)
  | shutdownServer (listenOk : Bool)
  | exited (code : Int)
deriving DecidableEq, Repr

/-- The globals of `main.cpp`, the adapter's `running_`, whether `Server::stop`
has been called, and what the handler has written. -/
structure State where
  pc : Pc := .construct
  shutdownRequested : Bool := false
  adapter : Bool := false
  running : Bool := false
  stopCalled : Bool := false
  out : List Str := []
deriving DecidableEq, Repr

inductive Signal
  | sigterm
  | sigint
deriving DecidableEq, Repr

/-- `HttpAdapter::stop`. The adapter owns its `server_` from construction on. -/
def stop (s : State) : State :=
  if s.running then { s with stopCalled := true } else s

/-- `msg` in `signal_handler`. -/
def message : Signal → Str
  | .sigterm => utf8 "\nReceived SIGTERM, shutting down...\n"
  | .sigint => utf8 "\nReceived SIGINT, shutting down...\n"

/-- `signal_handler`. -/
def signalHandler (s : State) (signum : Signal) : State :=
  if s.shutdownRequested then s
  else
    let s := { s with shutdownRequested := true, out := s.out ++ [message signum] }
    if s.adapter then stop s else s

/-- A step of `main`, the return of `listen`, or a signal. -/
inductive Act
  | main
  | listenReturns (ok : Bool)
  | deliver (signum : Signal)
deriving DecidableEq, Repr

/-- A step of `main`: the rest of `main` after the handlers are installed, with
`HttpAdapter::start` inlined. Inside `listen` it has none. -/
def mainStep (s : State) : Option State :=
  match s.pc with
  | .construct => some { s with pc := .publish }
  | .publish => some { s with pc := .setRunning, adapter := true }
  | .setRunning => some { s with pc := .callListen, running := true }
  | .callListen => some { s with pc := .inListen }
  | .inListen => none
  | .clearRunning ok => some { s with pc := .unpublish ok, running := false }
  | .unpublish ok => some { s with pc := .shutdownServer ok, adapter := false }
  | .shutdownServer ok => some { s with pc := .exited (if ok then 0 else 1) }
  | .exited _ => none

def step (s : State) : Act → Option State
  | .main => mainStep s
  | .listenReturns ok => if s.pc = .inListen then some { s with pc := .clearRunning ok } else none
  | .deliver signum => some (signalHandler s signum)

/-- All interleavings of `main` with deliveries of the two signals. -/
def system : System State Act where
  init s := s = {}
  step := step

/-- `listen` goes on until it is asked to stop. -/
def Persists (s : State) : Act → Prop
  | .listenReturns _ => s.stopCalled = true
  | _ => True

instance (s : State) (a : Act) : Decidable (Persists s a) := by
  unfold Persists
  split <;> infer_instance

/-- `main` has not set `running_` yet. -/
def StartingUp : Pc → Prop
  | .construct => True
  | .publish => True
  | .setRunning => True
  | _ => False

instance (pc : Pc) : Decidable (StartingUp pc) := by
  unfold StartingUp
  split <;> infer_instance

/-- The listener is blocked although it was asked to stop. -/
def Lost (s : State) : Prop :=
  s.shutdownRequested = true ∧ s.pc = .inListen ∧ s.stopCalled = false

/-- The first signal comes when `running_` has been set. -/
def Heard (s : State) : Act → Prop
  | .deliver _ => s.shutdownRequested = false → ¬ StartingUp s.pc
  | _ => True

instance (s : State) (a : Act) : Decidable (Heard s a) := by
  unfold Heard
  split <;> infer_instance

/-- What the first signal does: it stops the listener when the adapter is
published and running. -/
theorem signalHandler_first {s : State} {signum : Signal} (h : s.shutdownRequested = false) :
    signalHandler s signum =
      { s with shutdownRequested := true
               out := s.out ++ [message signum]
               stopCalled := s.stopCalled || (s.adapter && s.running) } := by
  unfold signalHandler stop
  rw [h]
  cases s.adapter <;> cases s.running <;> cases s.stopCalled <;> rfl

/-- Later signals do nothing. -/
theorem signalHandler_later {s : State} {signum : Signal} (h : s.shutdownRequested = true) :
    signalHandler s signum = s := by
  simp [signalHandler, h]

/-- What holds of the globals at each point of `main`, and of a request to stop
made before `main` left `listen`. -/
structure Inv (s : State) : Prop where
  published : s.pc = .setRunning → s.adapter = true
  listening : s.pc = .callListen ∨ s.pc = .inListen → s.adapter = true ∧ s.running = true
  requested : s.shutdownRequested = true → ¬ StartingUp s.pc
  stopped : s.shutdownRequested = true → s.pc = .callListen ∨ s.pc = .inListen →
    s.stopCalled = true

/-- A signal that is heard keeps the invariant. -/
theorem signalHandler_inv {s : State} {signum : Signal} (hi : Inv s)
    (hg : Heard s (.deliver signum)) : Inv (signalHandler s signum) := by
  cases hreq : s.shutdownRequested with
  | true =>
    rw [signalHandler_later hreq]
    exact hi
  | false =>
    rw [signalHandler_first hreq]
    refine ⟨hi.published, hi.listening, fun _ => hg hreq, fun _ hlisten => ?_⟩
    obtain ⟨ha, hr⟩ := hi.listening hlisten
    simp [ha, hr]

/-- So does every step of `main`. -/
theorem mainStep_inv {s s' : State} (hi : Inv s) (h : mainStep s = some s') : Inv s' := by
  obtain ⟨hp, hl, hr, hs⟩ := hi
  unfold mainStep at h
  split at h
  case h_5 => cases h
  case h_9 => cases h
  all_goals
    next hpc =>
      cases h
      simp only [hpc, StartingUp] at hp hl hr hs
      constructor <;> simp_all [StartingUp]

theorem step_inv {s s' : State} {a : Act} (hi : Inv s) (hg : Heard s a)
    (h : system.step s a = some s') : Inv s' := by
  cases a with
  | main => exact mainStep_inv hi h
  | listenReturns ok =>
    simp only [system, step] at h
    split at h
    · cases h
      constructor <;> simp [StartingUp]
    · cases h
  | deliver signum =>
    cases h
    exact signalHandler_inv hi hg

theorem reachable_inv {s : State} (h : system.Reachable Heard s) : Inv s := by
  refine System.reachable_inv (I := Inv) ?_ (fun s a s' hi hg hst => step_inv hi hg hst) h
  rintro s rfl
  constructor <;> simp

/-- Before `running_` is set, nothing has asked the listener to stop. -/
theorem reachable_startingUp {s : State} (h : system.Reachable System.Any s) :
    StartingUp s.pc → s.running = false ∧ s.stopCalled = false := by
  refine System.reachable_inv
    (I := fun s => StartingUp s.pc → s.running = false ∧ s.stopCalled = false) ?_ ?_ h
  · rintro s rfl _
    exact ⟨rfl, rfl⟩
  · intro s a s' ih _ hst hstart
    cases a with
    | main =>
      simp only [system, step, mainStep] at hst
      split at hst
      case h_1 hpc =>
        cases hst
        exact ih (by rw [hpc]; trivial)
      case h_2 hpc =>
        cases hst
        exact ih (by rw [hpc]; trivial)
      case h_5 => cases hst
      case h_9 => cases hst
      all_goals
        cases hst
        cases hstart
    | listenReturns ok =>
      simp only [system, step] at hst
      split at hst <;> cases hst
      cases hstart
    | deliver signum =>
      cases hst
      cases hreq : s.shutdownRequested with
      | true =>
        rw [signalHandler_later hreq] at hstart ⊢
        exact ih hstart
      | false =>
        rw [signalHandler_first hreq] at hstart ⊢
        obtain ⟨hr, hs⟩ := ih hstart
        simp [hr, hs]

/-- From a request to stop that came before `running_` was set, `main` goes on
to block in `listen`. -/
theorem startingUp_lost {s : State} (hreq : s.shutdownRequested = true)
    (hstart : StartingUp s.pc) (hstop : s.stopCalled = false) :
    ∃ s', system.Reaches Persists s s' ∧ Lost s' := by
  obtain ⟨pc, req, adapter, running, stopCalled, out⟩ := s
  dsimp only at hreq hstart hstop
  subst hreq hstop
  cases pc with
  | construct =>
    exact ⟨_, System.reaches_of_run [.main, .main, .main, .main] rfl, rfl, rfl, rfl⟩
  | publish => exact ⟨_, System.reaches_of_run [.main, .main, .main] rfl, rfl, rfl, rfl⟩
  | setRunning => exact ⟨_, System.reaches_of_run [.main, .main] rfl, rfl, rfl, rfl⟩
  | _ => cases hstart

/-- Nothing gets a lost listener out of a `listen` that persists: no step of `main` is
enabled, and later signals are swallowed. -/
theorem lost_forever {s s' : State} (hlost : Lost s) (h : system.Reaches Persists s s') :
    s' = s := by
  refine System.reaches_inv (I := fun u => u = s) ?_ h rfl
  rintro u a v rfl hpersists hst
  obtain ⟨hreq, hpc, hstop⟩ := hlost
  cases a with
  | main => simp [system, step, mainStep, hpc] at hst
  | listenReturns ok =>
    have hstopped : u.stopCalled = true := hpersists
    rw [hstop] at hstopped
    cases hstopped
  | deliver signum =>
    cases hst
    exact signalHandler_later hreq

/-- **No request to stop is lost.** As long as the first signal comes when
`running_` has been set, the listener is never blocked without having been asked
to stop, whatever makes `listen` return. After a first signal that comes earlier, a
listener that goes on until it is asked to stop can block for good. -/
theorem signal_heeded (s : State) :
    (system.Reachable Heard s → ¬ Lost s) ∧
    ∀ signum, system.Reachable System.Any s → ¬ Heard s (.deliver signum) →
      ∃ s', system.Reaches Persists (signalHandler s signum) s' ∧ Lost s' ∧
        ∀ s'', system.Reaches Persists s' s'' → s'' = s' := by
  constructor
  · rintro h ⟨hreq, hpc, hstop⟩
    have hcalled := (reachable_inv h).stopped hreq (.inr hpc)
    rw [hcalled] at hstop
    cases hstop
  · intro signum h hearly
    simp only [Heard, Classical.not_imp, not_not] at hearly
    obtain ⟨hreq, hstart⟩ := hearly
    obtain ⟨hr, hs⟩ := reachable_startingUp h hstart
    obtain ⟨s', hreach, hlost⟩ := startingUp_lost (s := signalHandler s signum)
      (by rw [signalHandler_first hreq]) (by rw [signalHandler_first hreq]; exact hstart)
      (by rw [signalHandler_first hreq]; simp [hr, hs])
    exact ⟨s', hreach, hlost, fun s'' => lost_forever hlost⟩

/-- A SIGTERM just before the call of `listen`, and a SIGINT inside it. -/
theorem signal_heeded_sigterm : ∃ s, system.Reachable Heard s ∧ s.shutdownRequested = true ∧
    s.pc = .inListen ∧ s.out = [message .sigterm] ∧ ¬ Lost s := by
  obtain ⟨s, hrun, hreach⟩ :=
    System.exists_reachable (S := system) (G := Heard)
      [.main, .main, .main, .deliver .sigterm, .main, .deliver .sigint] rfl (by decide)
  have hlost := (signal_heeded s).1 hreach
  refine ⟨s, hreach, ?_, ?_, ?_, hlost⟩
  all_goals
    cases hrun
    rfl

/-- A SIGTERM between the publication of the adapter and the start of the
listener: `stop` finds `running_` not set. -/
theorem signal_lost : ∃ s, system.Reachable System.Any s ∧ s.shutdownRequested = true ∧
    s.pc = .inListen ∧ s.stopCalled = false := by
  obtain ⟨s, hrun, hreach⟩ :=
    System.exists_reachable (S := system) (G := System.Any)
      [.main, .main, .deliver .sigterm, .main, .main] rfl (by decide)
  refine ⟨s, hreach, ?_⟩
  cases hrun
  decide

end VoxtralServer.Main
