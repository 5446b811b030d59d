import VoxtralServer.Pool.Delivery
import VoxtralServer.Server.SpeechHandler

/-!
# Concurrent speech calls on one pool

Any number of calls of `handle_speech`, the inference pool they submit to, its
worker, and a shutdown. A call shares its frame with its callbacks, which the
worker runs: they lock the mutex of the frame, store, notify, and unlock.

* `step_moves`: what each step does.
* `reachable_pool`: the pool in a reachable state is a reachable pool.
-/

namespace VoxtralServer

/-! ## Calls and their frames -/

/-- Where a call of `handle_speech` is: before each of its steps that touch the
pool or the frame, blocked in the wait, or at its end. -/
inductive SpeechPc
  | idle
  | checkPool
  | readBefore
  | submit
  | submitting
  | readAfter
  | waiting
  | asleep
  | readDone
  | respond
  | ended (result : Except JsonError HttpResponse)

/-- How far the body of a callback is. It holds the mutex of the frame from
`locked` to `notified`. -/
inductive CallbackPc
  | idle
  | locked
  | stored
  | notified
  | unlocked
deriving DecidableEq

def CallbackPc.holdsMutex : CallbackPc → Bool
  | .locked | .stored | .notified => true
  | .idle | .unlocked => false

/-- The variables of a call that its callbacks use. -/
structure SpeechFrame where
  resultReady : Bool := false
  synthError : Str := []
  synthResult : SynthesisResult := {}
  callback : CallbackPc := .idle

/-- A call of `handle_speech`. -/
structure SpeechCall where
  pc : SpeechPc := .idle
  start : Int := 0
  fields : SpeechFields := { model := [], input := [], voice := [], responseFormat := [],
                             speed := .finite 1 }
  metrics : List MetricOp := []
  frame : SpeechFrame := {}

/-- The job that the `i`th call submits. Both its callbacks are named after the
call. -/
def speechJob (i : Nat) (fields : SpeechFields) : InferenceJob Nat where
  request := synthRequest fields
  onSuccess := some i
  onError := some i

/-- `result_cv.notify_one`. -/
def SpeechPc.notified : SpeechPc → SpeechPc
  | .asleep => .waiting
  | pc => pc

/-- What a callback stores in the frame. -/
def SpeechFrame.store (f : SpeechFrame) : Delivery → SpeechFrame
  | .success result => { f with synthResult := result, resultReady := true }
  | .error text => { f with synthError := text, resultReady := true }

/-- The step of a callback. -/
def SpeechCall.callbackStep (c : SpeechCall) (d : Delivery) : Option SpeechCall :=
  match c.frame.callback with
  | .idle => some { c with frame := { c.frame with callback := .locked } }
  | .locked => some { c with frame := { c.frame.store d with callback := .stored } }
  | .stored =>
    some { c with pc := c.pc.notified, frame := { c.frame with callback := .notified } }
  | .notified => some { c with frame := { c.frame with callback := .unlocked } }
  | .unlocked => none

/-- The callback has returned. -/
def SpeechCall.callbackReturned (c : SpeechCall) : SpeechCall :=
  { c with frame := { c.frame with callback := .idle } }

/-! ## The system -/

/-- The calls, numbered like their calls of `submit`, and the pool. -/
structure SpeechServer where
  pool : InferencePool Nat := {}
  calls : Nat → SpeechCall := fun _ => {}

namespace SpeechServer

/-- The steps. The ones up to `respond` belong to a call. `callback` and
`callbackReturns` are the worker in a callback, and `pool` is any other step in
the pool. -/
inductive Act
  | receive (i : Nat) (req : HttpRequest) (now : Int)
  | checkPool (i : Nat)
  | readBefore (i : Nat)
  | submit (i : Nat) (now : Int)
  | submitReturns (i : Nat)
  | readAfter (i : Nat)
  | test (i : Nat)
  | wake (i : Nat)
  | readDone (i : Nat)
  | respond (i : Nat) (now : Int)
  | callback
  | callbackReturns
  | pool (a : InferencePool.Act Nat)

def setCall (s : SpeechServer) (i : Nat) (c : SpeechCall) : SpeechServer :=
  { s with calls := Function.update s.calls i c }

/-- `pool->queue_depth()`. -/
def queueDepth (s : SpeechServer) : Int := intOfSize s.pool.queue.length

/-- The call ends. -/
def finishCall (s : SpeechServer) (i : Nat) (ending : Ending) : SpeechServer :=
  s.setCall i { s.calls i with pc := .ended ending.result
                               metrics := (s.calls i).metrics ++ ending.metrics }

/-- The call goes on to `pc` after updating some metrics. -/
def moveCall (s : SpeechServer) (i : Nat) (pc : SpeechPc) (metrics : List MetricOp := []) :
    SpeechServer :=
  s.setCall i { s.calls i with pc := pc, metrics := (s.calls i).metrics ++ metrics }

/-- The frame whose callback the worker runs, and what it was called with. -/
def callee (pool : InferencePool Nat) : Option (Nat × Delivery) :=
  match pool.worker with
  | .busy _ (.calling job d _) => (job.callback d).map fun k => (k, d)
  | _ => none

/-- The step of the pool alone. A call of `submit` starts with a call's own step,
and a callback ends with one of its own. -/
def poolStep (p : InferencePool.Params) (s : SpeechServer) :
    InferencePool.Act Nat → Option SpeechServer
  | .stamp _ _ _ => none
  | .callbackEnds _ => none
  | a => (InferencePool.step p s.pool a).map fun pool => { s with pool := pool }

def step (lib : JsonLib) (deps : HandlerDeps) (p : InferencePool.Params) (s : SpeechServer) :
    Act → Option SpeechServer
  | .receive i req now =>
    match (s.calls i).pc with
    | .idle =>
      match readSpeech lib deps req with
      | .error ending => some (s.finishCall i ending)
      | .ok fields =>
        some (s.setCall i { s.calls i with pc := .checkPool, start := now, fields := fields })
    | _ => none
  | .checkPool i =>
    match (s.calls i).pc with
    | .checkPool =>
      if !s.pool.accepting then some (s.finishCall i (poolNotReady lib))
      else
        some (s.moveCall i .readBefore
          (requestMetrics (s.calls i).fields ++ [.activeJobsIncrement]))
    | _ => none
  | .readBefore i =>
    match (s.calls i).pc with
    | .readBefore => some (s.moveCall i .submit [.queueDepthSet s.queueDepth])
    | _ => none
  | .submit i now =>
    match (s.calls i).pc with
    | .submit =>
      (InferencePool.step p s.pool (.stamp i (speechJob i (s.calls i).fields) now)).map fun pool =>
        { s.moveCall i .submitting with pool := pool }
    | _ => none
  | .submitReturns i =>
    match (s.calls i).pc, s.pool.submits i with
    | .submitting, .returned accepted =>
      if !accepted then some (s.finishCall i (queueFull lib)) else some (s.moveCall i .readAfter)
    | _, _ => none
  | .readAfter i =>
    match (s.calls i).pc with
    | .readAfter => some (s.moveCall i .waiting [.queueDepthSet s.queueDepth])
    | _ => none
  | .test i =>
    match (s.calls i).pc with
    | .waiting =>
      if (s.calls i).frame.callback.holdsMutex then none
      else if (s.calls i).frame.resultReady then some (s.moveCall i .readDone)
      else some (s.moveCall i .asleep)
    | _ => none
  | .wake i =>
    match (s.calls i).pc with
    | .asleep => some (s.moveCall i .waiting)
    | _ => none
  | .readDone i =>
    match (s.calls i).pc with
    | .readDone =>
      some (s.moveCall i .respond [.activeJobsDecrement, .queueDepthSet s.queueDepth])
    | _ => none
  | .respond i now =>
    match (s.calls i).pc with
    | .respond =>
      let c := s.calls i
      some (s.finishCall i (respond lib c.start now c.frame.synthError c.frame.synthResult))
    | _ => none
  | .callback =>
    match callee s.pool with
    | some (k, d) => ((s.calls k).callbackStep d).map fun c => s.setCall k c
    | none => none
  | .callbackReturns =>
    match callee s.pool with
    | some (k, _) =>
      if (s.calls k).frame.callback = .unlocked then
        (InferencePool.step p s.pool (.callbackEnds none)).map fun pool =>
          { s.setCall k (s.calls k).callbackReturned with pool := pool }
      else none
    | none => none
  | .pool a => poolStep p s a

/-- All interleavings of the calls, the worker and a shutdown, with any backend. -/
def system (lib : JsonLib) (deps : HandlerDeps) (p : InferencePool.Params) :
    System SpeechServer Act where
  init s := ∃ now, s = { pool := { clock := now } }
  step := step lib deps p

/-! ## What a step does -/

variable {lib : JsonLib} {deps : HandlerDeps} {p : InferencePool.Params} {s s' : SpeechServer}

/-- The steps of the `i`th call that concern nothing but itself, and the metrics that
they update. -/
inductive Goes (i : Nat) (fields : SpeechFields) (depth : Int) :
    Act → SpeechPc → SpeechPc → List MetricOp → Prop
  | checkPool : Goes i fields depth (.checkPool i) .checkPool .readBefore
      (requestMetrics fields ++ [.activeJobsIncrement])
  | readBefore : Goes i fields depth (.readBefore i) .readBefore .submit [.queueDepthSet depth]
  | readAfter : Goes i fields depth (.readAfter i) .readAfter .waiting [.queueDepthSet depth]
  | wake : Goes i fields depth (.wake i) .asleep .waiting []
  | readDone : Goes i fields depth (.readDone i) .readDone .respond
      [.activeJobsDecrement, .queueDepthSet depth]

/-- What the steps are. -/
inductive Moves (lib : JsonLib) (deps : HandlerDeps) (p : InferencePool.Params)
    (s : SpeechServer) : Act → SpeechServer → Prop
  | reject {i : Nat} {req : HttpRequest} {now : Int} {ending : Ending} :
      (s.calls i).pc = .idle → readSpeech lib deps req = .error ending →
      Moves lib deps p s (.receive i req now) (s.finishCall i ending)
  | receive {i : Nat} {req : HttpRequest} {now : Int} {fields : SpeechFields} :
      (s.calls i).pc = .idle → readSpeech lib deps req = .ok fields →
      Moves lib deps p s (.receive i req now)
        (s.setCall i { s.calls i with pc := .checkPool, start := now, fields := fields })
  | notReady {i : Nat} : (s.calls i).pc = .checkPool →
      Moves lib deps p s (.checkPool i) (s.finishCall i (poolNotReady lib))
  | goes {i : Nat} {a : Act} {pc pc' : SpeechPc} {metrics : List MetricOp} :
      (s.calls i).pc = pc → Goes i (s.calls i).fields s.queueDepth a pc pc' metrics →
      Moves lib deps p s a (s.moveCall i pc' metrics)
  | submit {i : Nat} {now : Int} : (s.calls i).pc = .submit → s.pool.submits i = .idle →
      s.pool.clock ≤ now →
      Moves lib deps p s (.submit i now)
        { s.moveCall i .submitting with
          pool := { s.pool with
            submits := Function.update s.pool.submits i
              (.stamped (InferencePool.stampJob p (speechJob i (s.calls i).fields) now))
            clock := now } }
  | refused {i : Nat} : (s.calls i).pc = .submitting → s.pool.submits i = .returned false →
      Moves lib deps p s (.submitReturns i) (s.finishCall i (queueFull lib))
  | accepted {i : Nat} : (s.calls i).pc = .submitting → s.pool.submits i = .returned true →
      Moves lib deps p s (.submitReturns i) (s.moveCall i .readAfter)
  | sleep {i : Nat} : (s.calls i).pc = .waiting → (s.calls i).frame.callback.holdsMutex = false →
      (s.calls i).frame.resultReady = false →
      Moves lib deps p s (.test i) (s.moveCall i .asleep)
  | leave {i : Nat} : (s.calls i).pc = .waiting → (s.calls i).frame.callback.holdsMutex = false →
      (s.calls i).frame.resultReady = true →
      Moves lib deps p s (.test i) (s.moveCall i .readDone)
  | respond {i : Nat} {now : Int} : (s.calls i).pc = .respond →
      Moves lib deps p s (.respond i now) (s.finishCall i
        (VoxtralServer.respond lib (s.calls i).start now (s.calls i).frame.synthError
          (s.calls i).frame.synthResult))
  | callback {k : Nat} {d : Delivery} {c : SpeechCall} : callee s.pool = some (k, d) →
      (s.calls k).callbackStep d = some c → Moves lib deps p s .callback (s.setCall k c)
  | callbackReturns {k : Nat} {d : Delivery} {pool : InferencePool Nat} :
      callee s.pool = some (k, d) → (s.calls k).frame.callback = .unlocked →
      (InferencePool.system p Nat).step s.pool (.callbackEnds none) = some pool →
      Moves lib deps p s .callbackReturns
        { s.setCall k (s.calls k).callbackReturned with pool := pool }
  | pool {b : InferencePool.Act Nat} {pool : InferencePool Nat} :
      (∀ id job now, b ≠ .stamp id job now) → (∀ thrown, b ≠ .callbackEnds thrown) →
      (InferencePool.system p Nat).step s.pool b = some pool →
      Moves lib deps p s (.pool b) { s with pool := pool }

theorem poolStep_moves {b : InferencePool.Act Nat} (h : poolStep p s b = some s') :
    Moves lib deps p s (.pool b) s' := by
  unfold poolStep at h
  split at h
  · cases h
  · cases h
  · next hstamp hends =>
    obtain ⟨pool, hpool, rfl⟩ := Option.map_eq_some_iff.mp h
    exact .pool hstamp hends hpool

theorem step_moves {a : Act} (h : (system lib deps p).step s a = some s') :
    Moves lib deps p s a s' := by
  simp only [system, step] at h
  split at h
  · -- receive
    split at h
    · next hpc =>
      split at h
      · next hread =>
        cases h
        exact .reject hpc hread
      · next hread =>
        cases h
        exact .receive hpc hread
    · cases h
  · -- checkPool
    split at h
    · next hpc =>
      split at h
      · cases h
        exact .notReady hpc
      · cases h
        exact .goes hpc .checkPool
    · cases h
  · -- readBefore
    split at h
    · next hpc =>
      cases h
      exact .goes hpc .readBefore
    · cases h
  · -- submit
    split at h
    · next hpc =>
      obtain ⟨pool, hpool, rfl⟩ := Option.map_eq_some_iff.mp h
      simp only [InferencePool.step] at hpool
      split at hpool
      · next hidle =>
        split at hpool
        · next ht =>
          cases hpool
          exact .submit hpc hidle ht
        · cases hpool
      · cases hpool
    · cases h
  · -- submitReturns
    split at h
    · next accepted hpc hret =>
      cases accepted with
      | false =>
        cases h
        exact .refused hpc hret
      | true =>
        cases h
        exact .accepted hpc hret
    · cases h
  · -- readAfter
    split at h
    · next hpc =>
      cases h
      exact .goes hpc .readAfter
    · cases h
  · -- test
    split at h
    · next hpc =>
      split at h
      · cases h
      · next hmutex =>
        rw [Bool.not_eq_true] at hmutex
        split at h
        · next hready =>
          cases h
          exact .leave hpc hmutex hready
        · next hready =>
          cases h
          exact .sleep hpc hmutex (Bool.not_eq_true _ ▸ hready)
    · cases h
  · -- wake
    split at h
    · next hpc =>
      cases h
      exact .goes hpc .wake
    · cases h
  · -- readDone
    split at h
    · next hpc =>
      cases h
      exact .goes hpc .readDone
    · cases h
  · -- respond
    split at h
    · next hpc =>
      cases h
      exact .respond hpc
    · cases h
  · -- callback
    split at h
    · next hcallee =>
      obtain ⟨c, hc, rfl⟩ := Option.map_eq_some_iff.mp h
      exact .callback hcallee hc
    · cases h
  · -- callbackReturns
    split at h
    · next hcallee =>
      split at h
      · next hunlocked =>
        obtain ⟨pool, hpool, rfl⟩ := Option.map_eq_some_iff.mp h
        exact .callbackReturns hcallee hunlocked hpool
      · cases h
    · cases h
  · exact poolStep_moves h

/-! ## Steps on the way through `submit` -/

theorem readBefore_step {i : Nat} (hpc : (s.calls i).pc = .readBefore) :
    (system lib deps p).step s (.readBefore i) =
      some (s.moveCall i .submit [.queueDepthSet s.queueDepth]) := by
  simp only [system, step, hpc]

theorem submit_step {i : Nat} (hpc : (s.calls i).pc = .submit) (hidle : s.pool.submits i = .idle) :
    (system lib deps p).step s (.submit i s.pool.clock) = some
      { s.moveCall i .submitting with
        pool := { s.pool with
          submits := Function.update s.pool.submits i
            (.stamped (InferencePool.stampJob p (speechJob i (s.calls i).fields) s.pool.clock))
          clock := s.pool.clock } } := by
  simp only [system, step, hpc, InferencePool.step, hidle, le_refl, if_true, Option.map_some]

theorem refuse_step {i : Nat} {job : InferenceJob Nat} (hsub : s.pool.submits i = .stamped job)
    (hno : !s.pool.accepting ∨ intOfSize s.pool.queue.length ≥ p.maxQueueDepth) :
    (system lib deps p).step s (.pool (.lock i)) = some { s with
      pool := { s.pool with
        submits := Function.update s.pool.submits i (.returned false)
        trace := s.pool.trace ++ [(i, .refused)] } } := by
  simp only [system, step, poolStep, InferencePool.step, hsub, if_pos hno, Option.map_some]

theorem refused_step {i : Nat} (hpc : (s.calls i).pc = .submitting)
    (hret : s.pool.submits i = .returned false) :
    (system lib deps p).step s (.submitReturns i) = some (s.finishCall i (queueFull lib)) := by
  simp only [system, step, hpc, hret, Bool.not_false, if_true]

/-! ## The pool of the system -/

theorem pool_refines (lib : JsonLib) (deps : HandlerDeps) (p : InferencePool.Params) :
    System.Refines (system lib deps p) (InferencePool.system p Nat) SpeechServer.pool := by
  constructor
  · rintro s ⟨now, rfl⟩
    exact ⟨now, rfl⟩
  · intro s a t _ hst
    cases step_moves hst with
    | @submit i now _ hidle ht =>
      refine .inr ⟨.stamp i (speechJob i (s.calls i).fields) now, ?_⟩
      simp [InferencePool.system, InferencePool.step, hidle, ht]
    | callbackReturns _ _ hpool => exact .inr ⟨_, hpool⟩
    | pool _ _ hpool => exact .inr ⟨_, hpool⟩
    | _ => exact .inl rfl

/-- The pool in a reachable state is a reachable pool. -/
theorem reachable_pool (h : (system lib deps p).Reachable System.Any s) :
    (InferencePool.system p Nat).Reachable System.Any s.pool :=
  System.reachable_map (pool_refines lib deps p) h

end SpeechServer
end VoxtralServer
