import Mathlib.Logic.Function.Basic
import VoxtralServer.Lib.System
import VoxtralServer.Pool.Life

/-!
# The inference pool

`InferencePool` as a transition system: any number of threads that call
`submit`, the worker thread, and a thread that calls `shutdown`. A step is one
critical section, one atomic operation, one clock reading, or one call into the
backend or a callback.

The condition variable is modelled as it is: a notification wakes the worker
only when it is asleep, and the worker may wake up without one.

* `step_moves`: what each step does. The steps of the worker on a job it has
  taken are the steps of the life of that job.
-/

namespace VoxtralServer

/-! ## The state -/

/-- The parameters of an `InferencePool`. The constructor throws when one of
them is below one. -/
structure InferencePool.Params where
  maxQueueDepth : Int := 10
  requestTimeoutSeconds : Int := 300
  depth_pos : 1 ≤ maxQueueDepth := by decide
  timeout_pos : 1 ≤ requestTimeoutSeconds := by decide

/-- Where the worker is. `polling` is before the test of the wait's predicate,
`asleep` is blocked in the wait. -/
inductive InferencePool.Worker (κ : Type)
  | polling
  | asleep
  | busy (id : Nat) (st : Stage κ)
  | exited

/-- Where a call of `submit` is: its deadline is filled in, its job is queued
and the worker is still to be notified, or it has returned. -/
inductive InferencePool.Submit (κ : Type)
  | idle
  | stamped (job : InferenceJob κ)
  | notifying
  | returned (accepted : Bool)

/-- Where the call of `shutdown` is. It may be called again after it returned. -/
inductive InferencePool.Shutdown
  | idle
  | notifying
  | joining
  | returned
deriving DecidableEq

/-- An `InferencePool` with the threads at work on it. A job in the queue
carries the number of the call of `submit` that pushed it. The trace records
what happened to each job. -/
structure InferencePool (κ : Type) where
  accepting : Bool := true
  queue : List (Nat × InferenceJob κ) := []
  worker : InferencePool.Worker κ := .polling
  active : Int := 0
  expired : Int := 0
  clock : Int := 0
  submits : Nat → InferencePool.Submit κ := fun _ => .idle
  shutdown : InferencePool.Shutdown := .idle
  trace : List (Nat × JobEvent κ) := []

namespace InferencePool

variable {κ : Type}

/-! ## The steps -/

/-- The steps of the threads. `lock` and `notifyOne` belong to a call of
`submit` under way, `close`, `notifyAll` and `join` to the call of `shutdown`,
and the ones from `poll` on to the worker. -/
inductive Act (κ : Type)
  | stamp (id : Nat) (job : InferenceJob κ) (now : Int)
  | lock (id : Nat)
  | notifyOne (id : Nat)
  | close
  | notifyAll
  | join
  | poll
  | wake
  | check (now : Int)
  | enter
  | backendReturns (result : SynthesisResult)
  | backendThrows (what : Str)
  | recheck (now : Int)
  | deliver
  | callbackEnds (thrown : Option Str)
  | finish

/-- The deadline that `submit` fills in. -/
def stampJob (p : Params) (job : InferenceJob κ) (now : Int) : InferenceJob κ :=
  if job.deadline = 0 then { job with deadline := now + seconds p.requestTimeoutSeconds } else job

/-- The notification of the worker, if it is asleep. -/
def Worker.notified : Worker κ → Worker κ
  | .asleep => .polling
  | w => w

/-- The worker goes on with its job, and the event is recorded. -/
def advance (s : InferencePool κ) (id : Nat) (e : WorkEvent κ) (st : Stage κ) : InferencePool κ :=
  { s with worker := .busy id st, trace := s.trace ++ [(id, .worked e)] }

/-- The step of the worker on the job it has taken. A callback that throws is
caught, like one that returns. -/
def workStep (s : InferencePool κ) (id : Nat) : Stage κ → Act κ → Option (InferencePool κ)
  | .checking job, .check now =>
    if s.clock ≤ now then
      if now ≥ job.deadline then
        some { s.advance id (.checked now) (.delivering job (.error timedOutText) false) with
          clock := now, expired := fetchAdd s.expired 1 }
      else
        some { s.advance id (.checked now) (.entering job) with clock := now }
    else none
  | .entering job, .enter =>
    some { s.advance id (.called job.request) (.synthesizing job) with
      active := fetchAdd s.active 1 }
  | .synthesizing job, .backendReturns result =>
    some (s.advance id (.returned result) (.rechecking job result))
  | .synthesizing job, .backendThrows what =>
    some (s.advance id (.threw what) (.delivering job (.error (failedText what)) true))
  | .rechecking job result, .recheck now =>
    if s.clock ≤ now then
      if now ≥ job.deadline then
        some { s.advance id (.rechecked now) (.delivering job (.error lateText) true) with
          clock := now }
      else
        some { s.advance id (.rechecked now) (.delivering job (.success result) true) with
          clock := now }
    else none
  | .delivering job d guarded, .deliver =>
    match job.callback d with
    | some k => some (s.advance id (.invoked k d) (.calling job d guarded))
    | none => some (s.advance id .skipped (.leaving job d guarded))
  | .calling job d guarded, .callbackEnds _ =>
    some (s.advance id .completed (.leaving job d guarded))
  | .leaving _ _ guarded, .finish =>
    some { s with worker := .polling
                  active := if guarded then fetchAdd s.active (-1) else s.active
                  trace := s.trace ++ [(id, .finished)] }
  | _, _ => none

def step (p : Params) (s : InferencePool κ) : Act κ → Option (InferencePool κ)
  | .stamp id job now =>
    match s.submits id with
    | .idle =>
      if s.clock ≤ now then
        some { s with submits := Function.update s.submits id (.stamped (stampJob p job now))
                      clock := now }
      else none
    | _ => none
  | .lock id =>
    match s.submits id with
    | .stamped job =>
      if !s.accepting ∨ intOfSize s.queue.length ≥ p.maxQueueDepth then
        some { s with submits := Function.update s.submits id (.returned false)
                      trace := s.trace ++ [(id, .refused)] }
      else
        some { s with submits := Function.update s.submits id .notifying
                      queue := s.queue ++ [(id, job)]
                      trace := s.trace ++ [(id, .pushed job)] }
    | _ => none
  | .notifyOne id =>
    match s.submits id with
    | .notifying =>
      some { s with submits := Function.update s.submits id (.returned true)
                    worker := s.worker.notified }
    | _ => none
  | .close =>
    if s.shutdown = .idle ∨ s.shutdown = .returned then
      some { s with accepting := false, shutdown := .notifying }
    else none
  | .notifyAll =>
    if s.shutdown = .notifying then
      some { s with worker := s.worker.notified, shutdown := .joining }
    else none
  | .join =>
    match s.shutdown, s.worker with
    | .joining, .exited => some { s with shutdown := .returned }
    | _, _ => none
  | .poll =>
    match s.worker with
    | .polling =>
      if s.accepting && s.queue.isEmpty then some { s with worker := .asleep }
      else
        match s.queue with
        | [] => some { s with worker := .exited }
        | (id, job) :: rest =>
          some { s with queue := rest
                        worker := .busy id (.checking job)
                        trace := s.trace ++ [(id, .dequeued)] }
    | _ => none
  | .wake =>
    match s.worker with
    | .asleep => some { s with worker := .polling }
    | _ => none
  | a =>
    match s.worker with
    | .busy id st => workStep s id st a
    | _ => none

/-- All interleavings of the threads of a pool, with any backend and any
callbacks. -/
def system (p : Params) (κ : Type) : System (InferencePool κ) (Act κ) where
  init s := ∃ now, s = { clock := now }
  step := step p

/-! ## What a step does -/

variable {p : Params} {s s' : InferencePool κ}

/-- What the steps are. `work` stands for all steps of the worker on its job but
the last; what they do to the two counters is left out. -/
inductive Moves (p : Params) (s : InferencePool κ) : Act κ → InferencePool κ → Prop
  | stamp {id : Nat} {job : InferenceJob κ} {now : Int} : s.submits id = .idle → s.clock ≤ now →
      Moves p s (.stamp id job now)
        { s with submits := Function.update s.submits id (.stamped (stampJob p job now))
                 clock := now }
  | refuse {id : Nat} {job : InferenceJob κ} : s.submits id = .stamped job →
      s.accepting = false ∨ p.maxQueueDepth ≤ intOfSize s.queue.length →
      Moves p s (.lock id)
        { s with submits := Function.update s.submits id (.returned false)
                 trace := s.trace ++ [(id, .refused)] }
  | push {id : Nat} {job : InferenceJob κ} : s.submits id = .stamped job → s.accepting = true →
      intOfSize s.queue.length < p.maxQueueDepth →
      Moves p s (.lock id)
        { s with submits := Function.update s.submits id .notifying
                 queue := s.queue ++ [(id, job)]
                 trace := s.trace ++ [(id, .pushed job)] }
  | notifyOne {id : Nat} : s.submits id = .notifying →
      Moves p s (.notifyOne id)
        { s with submits := Function.update s.submits id (.returned true)
                 worker := s.worker.notified }
  | close : s.shutdown = .idle ∨ s.shutdown = .returned →
      Moves p s .close { s with accepting := false, shutdown := .notifying }
  | notifyAll : s.shutdown = .notifying →
      Moves p s .notifyAll { s with worker := s.worker.notified, shutdown := .joining }
  | join : s.shutdown = .joining → s.worker = .exited →
      Moves p s .join { s with shutdown := .returned }
  | sleep : s.worker = .polling → s.accepting = true → s.queue = [] →
      Moves p s .poll { s with worker := .asleep }
  | exit : s.worker = .polling → s.accepting = false → s.queue = [] →
      Moves p s .poll { s with worker := .exited }
  | dequeue {id : Nat} {job : InferenceJob κ} {rest : List (Nat × InferenceJob κ)} :
      s.worker = .polling → s.queue = (id, job) :: rest →
      Moves p s .poll
        { s with queue := rest
                 worker := .busy id (.checking job)
                 trace := s.trace ++ [(id, .dequeued)] }
  | wake : s.worker = .asleep → Moves p s .wake { s with worker := .polling }
  | work {id : Nat} {st st' : Stage κ} {a : Act κ} {e : WorkEvent κ}
      {clock active expired : Int} : s.worker = .busy id st → Work st e st' →
      (e = .completed → ∃ thrown, a = .callbackEnds thrown) → s.clock ≤ clock →
      Moves p s a
        { s with worker := .busy id st'
                 clock := clock
                 active := active
                 expired := expired
                 trace := s.trace ++ [(id, .worked e)] }
  | finish {id : Nat} {job : InferenceJob κ} {d : Delivery} {guarded : Bool} {active : Int} :
      s.worker = .busy id (.leaving job d guarded) →
      Moves p s .finish
        { s with worker := .polling
                 active := active
                 trace := s.trace ++ [(id, .finished)] }

/-- A step of the worker on its job is a step of the job's life, or the last
one. -/
theorem workStep_moves {id : Nat} {st : Stage κ} {a : Act κ} (hw : s.worker = .busy id st)
    (h : workStep s id st a = some s') : Moves p s a s' := by
  unfold workStep at h
  split at h
  · split at h
    · next ht =>
      split at h
      · next hd =>
        cases h
        exact .work hw (.expire hd) nofun ht
      · next hd =>
        cases h
        exact .work hw (.proceed (Int.not_le.mp hd)) nofun ht
    · cases h
  · cases h
    exact .work hw .enter nofun (Int.le_refl _)
  · cases h
    exact .work hw .returns nofun (Int.le_refl _)
  · cases h
    exact .work hw .throws nofun (Int.le_refl _)
  · split at h
    · next ht =>
      split at h
      · next hd =>
        cases h
        exact .work hw (.late hd) nofun ht
      · next hd =>
        cases h
        exact .work hw (.inTime (Int.not_le.mp hd)) nofun ht
    · cases h
  · split at h
    · next hk =>
      cases h
      exact .work hw (.invoke hk) nofun (Int.le_refl _)
    · next hk =>
      cases h
      exact .work hw (.skip hk) nofun (Int.le_refl _)
  · cases h
    exact .work hw .complete (fun _ => ⟨_, rfl⟩) (Int.le_refl _)
  · cases h
    exact .finish hw
  · cases h

theorem step_moves {a : Act κ} (h : (system p κ).step s a = some s') : Moves p s a s' := by
  simp only [system, step] at h
  split at h
  · -- stamp
    split at h
    · next hidle =>
      split at h
      · next ht =>
        cases h
        exact .stamp hidle ht
      · cases h
    · cases h
  · -- lock
    split at h
    · next hst =>
      split at h
      · next hno =>
        cases h
        exact .refuse hst (by simpa using hno)
      · next hyes =>
        cases h
        simp only [Bool.not_eq_true', not_or, Bool.not_eq_false, ge_iff_le, Int.not_le] at hyes
        exact .push hst hyes.1 hyes.2
    · cases h
  · -- notifyOne
    split at h
    · next hn =>
      cases h
      exact .notifyOne hn
    · cases h
  · -- close
    split at h
    · next hs =>
      cases h
      exact .close hs
    · cases h
  · -- notifyAll
    split at h
    · next hs =>
      cases h
      exact .notifyAll hs
    · cases h
  · -- join
    split at h
    · next hs hw =>
      cases h
      exact .join hs hw
    · cases h
  · -- poll
    split at h
    · next hw =>
      split at h
      · next hempty =>
        cases h
        simp only [Bool.and_eq_true, List.isEmpty_iff] at hempty
        exact .sleep hw hempty.1 hempty.2
      · next hready =>
        split at h
        · next hq =>
          cases h
          exact .exit hw (by simpa [hq] using hready) hq
        · next hq =>
          cases h
          exact .dequeue hw hq
    · cases h
  · -- wake
    split at h
    · next hw =>
      cases h
      exact .wake hw
    · cases h
  · -- the worker on its job
    split at h
    · next hw => exact workStep_moves hw h
    · cases h

end InferencePool
end VoxtralServer
