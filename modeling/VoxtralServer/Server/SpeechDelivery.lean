import VoxtralServer.Pool.Progress
import VoxtralServer.Server.SpeechFrames

/-!
# Concurrent speech calls are answered

* `waiting_placed`: the job of a call that waits for its result is queued or in
  the hands of the worker.
* `call_enabled`: while a call is under way, a step that brings its end closer.
* `speech_delivered`: no stuck call, no crossed result, and no callback into the
  frame of a call that has returned.
-/

namespace VoxtralServer
namespace SpeechServer

open InferencePool (Submit)

variable {lib : JsonLib} {deps : HandlerDeps} {p : InferencePool.Params} {s s' : SpeechServer}
  {i j : Nat}

/-! ## Where the job of a call is -/

/-- Outside a callback of the call, none is under way. -/
theorem Framed.callback_idle {f : SpeechFrame} {pool : InferencePool Nat} (h : Framed i f pool)
    (hno : ∀ d, callee pool ≠ some (i, d)) : f.callback = .idle := by
  cases h with
  | untouched _ _ _ hcb => exact hcb
  | done _ _ _ hcb => exact hcb
  | entered hd => exact absurd hd (hno _)
  | written hd => exact absurd hd (hno _)

/-- An accepted job whose result is not ready is queued, or the worker holds
it. -/
theorem waiting_placed (h : (system lib deps p).Reachable System.Any s)
    (ha : s.pool.Accepted i) (hready : (s.calls i).frame.resultReady = false) :
    (∃ job, (i, job) ∈ s.pool.queue) ∨ ∃ st, s.pool.worker = .busy i st := by
  have hpool := reachable_pool h
  rcases (InferencePool.reachable_fifo hpool).mem_pushed.mp
    ((InferencePool.accepted_iff hpool i).mp ha) with hd | hheld | hq
  · -- the callback of a finished job was invoked, and it has not stored yet
    obtain ⟨job, d, hlife⟩ := (InferencePool.reachable_lives hpool).finished hd
    have hinv := hlife.invocations_eq
    have hcalls : job.calls d = [(i, d)] := by
      simp [InferenceJob.calls, (life_owns h hlife rfl).callback d]
    cases (reachable_sound h i).framed with
    | untouched _ hnone =>
      rw [hnone] at hinv
      cases hinv.trans hcalls
    | entered hcallee =>
      obtain ⟨job, guarded, hw, _⟩ := callee_owns h hcallee
      exact .inr ⟨_, hw⟩
    | written _ _ hholds => simp [hholds.ready] at hready
    | done _ _ hholds => simp [hholds.ready] at hready
  · exact .inr (InferencePool.Worker.held_busy hheld)
  · exact .inl (InferencePool.mem_queueIds.mp hq)

/-! ## Progress -/

/-- The call has begun and not returned. -/
def Begun (pc : SpeechPc) : Prop := pc ≠ .idle ∧ ∀ result, pc ≠ .ended result

/-- The step is no wake-up without a notification. -/
def NotSpurious (_ : SpeechServer) : Act → Prop
  | .wake _ => False
  | .pool .wake => False
  | _ => True

def progress : CallbackPc → Nat
  | .idle => 0
  | .locked => 1
  | .stored => 2
  | .notified => 3
  | .unlocked => 4

theorem progress_le (cb : CallbackPc) : progress cb ≤ 4 := by
  cases cb <;> decide

/-- How far the callback is that the worker runs. -/
def calleeProgress (s : SpeechServer) : Nat :=
  match s.pool.worker with
  | .busy id _ => progress (s.calls id).frame.callback
  | _ => 0

/-- How much a call has left to do itself, with its part in the queue. -/
def callWeight (submit : Submit Nat) : SpeechPc → Nat
  | .idle | .ended _ => 0
  | .respond => 1
  | .readDone => 2
  | .waiting => 3
  | .asleep => 4
  | .readAfter => 5
  | .submitting =>
    match submit with
    | .returned _ => 6
    | .notifying => 7
    -- the job that it pushes adds eight steps of the worker
    | .idle | .stamped _ => 48
  | .submit => 49
  | .readBefore => 50
  | .checkPool => 51

/-- How much the worker has left to do. One of its steps weighs more than all steps of
a callback. -/
def poolLeft (s : SpeechServer) : Nat := 5 * s.pool.stepsLeft + (4 - calleeProgress s)

/-- How much is left to do before the `i`th call returns. -/
def remaining (i : Nat) (s : SpeechServer) : Nat :=
  poolLeft s + callWeight (s.pool.submits i) (s.calls i).pc

theorem poolLeft_lowers (h : s'.pool.stepsLeft < s.pool.stepsLeft) : poolLeft s' < poolLeft s := by
  unfold poolLeft
  omega

/-- A step of a call that leaves its frame alone leaves the worker as much to do. -/
theorem setCall_poolLeft {c : SpeechCall} (hframe : c.frame = (s.calls i).frame) :
    poolLeft (s.setCall i c) = poolLeft s := by
  have hprogress : calleeProgress (s.setCall i c) = calleeProgress s := by
    unfold calleeProgress
    simp only [setCall]
    split
    · next id st _ =>
      rcases eq_or_ne id i with rfl | hne
      · rw [Function.update_self, hframe]
      · rw [Function.update_of_ne hne]
    · rfl
  unfold poolLeft
  rw [hprogress]
  rfl

/-- A step of the call alone. -/
theorem setCall_lowers {c : SpeechCall} (hframe : c.frame = (s.calls i).frame)
    (hpc : callWeight (s.pool.submits i) c.pc < callWeight (s.pool.submits i) (s.calls i).pc) :
    remaining i (s.setCall i c) < remaining i s := by
  unfold remaining
  rw [setCall_poolLeft hframe]
  simpa [setCall] using hpc

/-- A step that is no spurious wake-up brings the return of the `i`th call closer
and takes the call to where `Q` holds. -/
def Advances (lib : JsonLib) (deps : HandlerDeps) (p : InferencePool.Params) (i : Nat)
    (s : SpeechServer) (Q : SpeechPc → Prop) : Prop :=
  ∃ a t, NotSpurious s a ∧ (system lib deps p).step s a = some t ∧
    remaining i t < remaining i s ∧ Q (t.calls i).pc

theorem Advances.mono {Q Q' : SpeechPc → Prop} (h : Advances lib deps p i s Q)
    (hQ : ∀ pc, Q pc → Q' pc) : Advances lib deps p i s Q' := by
  obtain ⟨a, t, ha, hst, hlt, hpc⟩ := h
  exact ⟨a, t, ha, hst, hlt, hQ _ hpc⟩

/-- A call advances by a step of its own. -/
theorem setCall_advances {a : Act} {c : SpeechCall} {Q : SpeechPc → Prop}
    (hst : (system lib deps p).step s a = some (s.setCall i c)) (ha : NotSpurious s a)
    (hframe : c.frame = (s.calls i).frame)
    (hpc : callWeight (s.pool.submits i) c.pc < callWeight (s.pool.submits i) (s.calls i).pc)
    (hQ : Q c.pc) : Advances lib deps p i s Q := by
  refine ⟨a, _, ha, hst, setCall_lowers hframe hpc, ?_⟩
  simpa [setCall] using hQ

/-- A step of the pool outside a callback. -/
theorem pool_enabled (h : (system lib deps p).Reachable System.Any s)
    (hwork : (∃ id st, s.pool.worker = .busy id st) ∨ s.pool.queue ≠ [])
    (huncalled : s.pool.Uncalled) (hret : s.pool.submits i = .returned true) :
    Advances lib deps p i s fun pc => pc = (s.calls i).pc := by
  have hw : s.pool.worker ≠ .exited := by
    intro hexited
    rcases hwork with ⟨id, st, hbusy⟩ | hq
    · rw [hexited] at hbusy
      cases hbusy
    · exact hq ((InferencePool.reachable_closed (reachable_pool h)).exited hexited).2
  obtain ⟨a, pool, hst, hdrains, hown⟩ :=
    InferencePool.worker_enabled (reachable_pool h) hw (hwork.imp_right .inl)
  have hown := hown huncalled
  refine ⟨.pool a, { s with pool := pool }, ?_, ?_, ?_, rfl⟩
  · cases a with
    | wake => exact hown.elim
    | _ => trivial
  · cases a with
    | stamp => exact hown.elim
    | callbackEnds => exact hown.elim
    | _ => simp only [system, step, poolStep, hst, Option.map_some]
  · have hsubmits : pool.submits i = s.pool.submits i := hdrains.submits (by simp [hret])
    unfold remaining
    rw [hsubmits]
    exact Nat.add_lt_add_right (poolLeft_lowers hdrains.lowers) _

theorem callWeight_notified (submit : Submit Nat) (pc : SpeechPc) :
    callWeight submit pc.notified ≤ callWeight submit pc := by
  cases pc with
  | asleep => exact Nat.le_succ 3
  | _ => exact Nat.le_refl _

/-- Until it has released the mutex, a callback has a next step. -/
theorem callbackStep_enabled {c : SpeechCall} {d : Delivery}
    (hcb : c.frame.callback ≠ .unlocked) :
    ∃ c', c.callbackStep d = some c' ∧
      progress c'.frame.callback = progress c.frame.callback + 1 ∧
      (c'.pc = c.pc ∨ c'.pc = c.pc.notified) := by
  unfold SpeechCall.callbackStep
  cases hc : c.frame.callback with
  | stored => exact ⟨_, rfl, rfl, .inr rfl⟩
  | unlocked => exact absurd hc hcb
  | _ => exact ⟨_, rfl, rfl, .inl rfl⟩

theorem calling_callee (h : (system lib deps p).Reachable System.Any s) {id : Nat}
    {job : InferenceJob Nat} {d : Delivery} {guarded : Bool}
    (hw : s.pool.worker = .busy id (.calling job d guarded)) :
    callee s.pool = some (id, d) := by
  have hlife := (InferencePool.reachable_lives (reachable_pool h)).life (.held hw)
  simp [callee, hw, (life_owns h hlife rfl).callback d]

/-- What a step of the callback that the worker runs does. -/
structure CallbackMoves (s s' : SpeechServer) : Prop where
  lowers : poolLeft s' < poolLeft s
  shutdown : s'.pool.shutdown = s.pool.shutdown
  submits : s'.pool.submits = s.pool.submits
  pc (i : Nat) : (s'.calls i).pc = (s.calls i).pc ∨ (s'.calls i).pc = (s.calls i).pc.notified

/-- A callback that has released the mutex returns. -/
theorem callbackReturns_enabled (h : (system lib deps p).Reachable System.Any s) {id : Nat}
    {job : InferenceJob Nat} {d : Delivery} {guarded : Bool}
    (hw : s.pool.worker = .busy id (.calling job d guarded))
    (hcb : (s.calls id).frame.callback = .unlocked) :
    ∃ t, (system lib deps p).step s .callbackReturns = some t ∧ CallbackMoves s t := by
  have hpool : InferencePool.step p s.pool (.callbackEnds none) =
      some (s.pool.advance id .completed (.leaving job d guarded)) := by
    simp only [InferencePool.step, hw, InferencePool.workStep]
  have hst : (system lib deps p).step s .callbackReturns =
      some { s.setCall id (s.calls id).callbackReturned with
        pool := s.pool.advance id .completed (.leaving job d guarded) } := by
    simp only [system, step, calling_callee h hw, hcb, if_true, hpool, Option.map_some]
  refine ⟨_, hst, poolLeft_lowers ?_, rfl, rfl, fun i => .inl ?_⟩
  · simp [InferencePool.stepsLeft, InferencePool.advance, InferencePool.Worker.stepsLeft,
      Stage.stepsLeft, hw]
  · exact setCall_forall (P := fun j c => c.pc = (s.calls j).pc)
      (c := (s.calls id).callbackReturned) (fun _ => rfl) rfl i

/-- While the worker runs a callback, the callback has a step to take. -/
theorem callback_enabled (h : (system lib deps p).Reachable System.Any s) {id : Nat}
    {job : InferenceJob Nat} {d : Delivery} {guarded : Bool}
    (hw : s.pool.worker = .busy id (.calling job d guarded)) :
    ∃ a t, (a = .callback ∨ a = .callbackReturns) ∧ (system lib deps p).step s a = some t ∧
      CallbackMoves s t := by
  by_cases hcb : (s.calls id).frame.callback = .unlocked
  · obtain ⟨t, hst, hmoves⟩ := callbackReturns_enabled h hw hcb
    exact ⟨.callbackReturns, t, .inr rfl, hst, hmoves⟩
  obtain ⟨c, hc, hnext, hpc⟩ := callbackStep_enabled (d := d) hcb
  have hst : (system lib deps p).step s .callback = some (s.setCall id c) := by
    simp only [system, step, calling_callee h hw, hc, Option.map_some]
  refine ⟨.callback, _, .inl rfl, hst, ?_, rfl, rfl, ?_⟩
  · -- the pool is as before, and the callback one step further
    have hbefore : calleeProgress s = progress (s.calls id).frame.callback := by
      simp [calleeProgress, hw]
    have hafter : calleeProgress (s.setCall id c) = progress c.frame.callback := by
      simp [calleeProgress, setCall, hw]
    have hpool : (s.setCall id c).pool = s.pool := rfl
    have hle := progress_le c.frame.callback
    unfold poolLeft
    rw [hbefore, hafter, hpool]
    omega
  · exact setCall_forall
      (P := fun j c => c.pc = (s.calls j).pc ∨ c.pc = (s.calls j).pc.notified)
      (fun _ => .inl rfl) hpc

/-- A step of a callback brings the return of every call closer. -/
theorem callback_advances (h : (system lib deps p).Reachable System.Any s) {id : Nat}
    {job : InferenceJob Nat} {d : Delivery} {guarded : Bool}
    (hw : s.pool.worker = .busy id (.calling job d guarded)) :
    Advances lib deps p i s fun pc => pc = (s.calls i).pc ∨ pc = (s.calls i).pc.notified := by
  obtain ⟨a, t, ha, hst, hmoves⟩ := callback_enabled h hw
  refine ⟨a, t, by rcases ha with rfl | rfl <;> trivial, hst, ?_, hmoves.pc i⟩
  have hweight : callWeight (s.pool.submits i) (t.calls i).pc ≤
      callWeight (s.pool.submits i) (s.calls i).pc := by
    rcases hmoves.pc i with heq | heq
    · rw [heq]
    · rw [heq]
      exact callWeight_notified _ _
  unfold remaining
  rw [hmoves.submits]
  exact Nat.add_lt_add_of_lt_of_le hmoves.lowers hweight

/-- While a call waits for its callback, the worker has a step to take. -/
theorem delivery_enabled (h : (system lib deps p).Reachable System.Any s)
    (hret : s.pool.submits i = .returned true)
    (hwait : (s.calls i).frame.resultReady = false ∨ (s.calls i).frame.callback ≠ .idle) :
    Advances lib deps p i s fun pc => pc = (s.calls i).pc ∨ pc = (s.calls i).pc.notified := by
  by_cases huncalled : s.pool.Uncalled
  · have hidle := (reachable_sound h i).framed.callback_idle (by simp [callee_eq_none huncalled])
    have hwork : (∃ id st, s.pool.worker = .busy id st) ∨ s.pool.queue ≠ [] := by
      rcases waiting_placed h (.inr hret) (hwait.resolve_right (absurd hidle)) with
        ⟨job, hq⟩ | ⟨st, hw⟩
      · exact .inr (List.ne_nil_of_mem hq)
      · exact .inl ⟨i, st, hw⟩
    exact (pool_enabled h hwork huncalled hret).mono fun _ => .inl
  · simp only [InferencePool.Uncalled, not_forall, not_not] at huncalled
    obtain ⟨id, job, d, guarded, hw⟩ := huncalled
    exact callback_advances h hw

/-- A call in the wait tests the result or is about to be woken up. -/
theorem wait_enabled (h : (system lib deps p).Reachable System.Any s)
    (hwait : (s.calls i).pc = .waiting ∨ (s.calls i).pc = .asleep) :
    Advances lib deps p i s fun pc => pc ≠ .idle := by
  have hret : s.pool.submits i = .returned true := by
    have hlinked := reachable_linked h i
    rcases hwait with hpc | hpc <;> simpa [hpc, Linked] using hlinked
  have hpcs : ∀ pc : SpeechPc, (pc = (s.calls i).pc ∨ pc = (s.calls i).pc.notified) →
      pc ≠ .idle := by
    rintro pc (rfl | rfl) <;> rcases hwait with hpc | hpc <;> simp [hpc, SpeechPc.notified]
  by_cases htest : (s.calls i).pc = .waiting ∧ (s.calls i).frame.resultReady = true ∧
      (s.calls i).frame.callback.holdsMutex = false
  · obtain ⟨hpc, hready, hfree⟩ := htest
    have hst : (system lib deps p).step s (.test i) = some (s.moveCall i .readDone) := by
      simp only [system, step, hpc, hfree, hready, Bool.false_eq_true, if_false, if_true]
    exact setCall_advances hst trivial rfl (by simp [hpc, callWeight]) (by simp)
  · have hcallback : (s.calls i).frame.resultReady = false ∨
        (s.calls i).frame.callback ≠ .idle := by
      by_contra hno
      obtain ⟨hready, hidle⟩ := not_or.mp hno
      rw [Bool.not_eq_false] at hready
      rw [not_not] at hidle
      rcases hwait with hpc | hpc
      · exact htest ⟨hpc, hready, by rw [hidle]; rfl⟩
      · have hstored := (reachable_sound h i).asleep hpc hready
        rw [hidle] at hstored
        cases hstored
    exact (delivery_enabled h hret hcallback).mono hpcs

/-- `submit` takes the lock of the pool. -/
theorem lock_enabled (hpc : (s.calls i).pc = .submitting) {job : InferenceJob Nat}
    (hsub : s.pool.submits i = .stamped job) :
    Advances lib deps p i s fun pc => pc ≠ .idle := by
  by_cases hno : !s.pool.accepting ∨ intOfSize s.pool.queue.length ≥ p.maxQueueDepth
  · refine ⟨.pool (.lock i), _, trivial, refuse_step hsub hno, ?_, by simp [hpc]⟩
    simp [remaining, calleeProgress, poolLeft, InferencePool.stepsLeft, hpc, hsub, callWeight]
  · have hst : (system lib deps p).step s (.pool (.lock i)) = some { s with
        pool := { s.pool with
          submits := Function.update s.pool.submits i .notifying
          queue := s.pool.queue ++ [(i, job)]
          trace := s.pool.trace ++ [(i, .pushed job)] } } := by
      simp only [system, step, poolStep, InferencePool.step, hsub, if_neg hno, Option.map_some]
    refine ⟨.pool (.lock i), _, trivial, hst, ?_, by simp [hpc]⟩
    simp [remaining, calleeProgress, poolLeft, InferencePool.stepsLeft, hpc, hsub, callWeight]
    omega

/-- A notification does not touch the callback that the worker runs. -/
theorem calleeProgress_notified {pool : InferencePool Nat}
    (hw : pool.worker = s.pool.worker.notified) :
    calleeProgress { s with pool := pool } = calleeProgress s := by
  simp only [calleeProgress, hw]
  cases s.pool.worker <;> rfl

/-- A call inside `submit` takes the lock, notifies, or returns. -/
theorem submit_enabled (h : (system lib deps p).Reachable System.Any s)
    (hpc : (s.calls i).pc = .submitting) :
    Advances lib deps p i s fun pc => pc ≠ .idle := by
  cases hsub : s.pool.submits i with
  | idle => exact absurd hsub (by simpa [hpc, Linked] using reachable_linked h i)
  | stamped job => exact lock_enabled hpc hsub
  | notifying =>
    have hst : (system lib deps p).step s (.pool (.notifyOne i)) = some { s with
        pool := { s.pool with
          submits := Function.update s.pool.submits i (.returned true)
          worker := s.pool.worker.notified } } := by
      simp only [system, step, poolStep, InferencePool.step, hsub, Option.map_some]
    refine ⟨.pool (.notifyOne i), _, trivial, hst, ?_, by simp [hpc]⟩
    have hworker := s.pool.worker.notified_stepsLeft
    unfold remaining poolLeft
    rw [calleeProgress_notified rfl]
    simp only [InferencePool.stepsLeft, hpc, hsub, Function.update_self, callWeight]
    omega
  | returned accepted =>
    cases accepted with
    | false =>
      exact setCall_advances (refused_step hpc hsub) trivial rfl
        (by simp [hpc, hsub, callWeight]) (by simp)
    | true =>
      have hst : (system lib deps p).step s (.submitReturns i) =
          some (s.moveCall i .readAfter) := by
        simp only [system, step, hpc, hsub, Bool.not_true, Bool.false_eq_true, if_false]
      exact setCall_advances hst trivial rfl (by simp [hpc, hsub, callWeight]) (by simp)

/-- While a call is under way, a step brings its end closer. -/
theorem call_enabled (h : (system lib deps p).Reachable System.Any s)
    (hbegun : Begun (s.calls i).pc) :
    Advances lib deps p i s fun pc => pc ≠ .idle := by
  cases hpc : (s.calls i).pc with
  | idle => exact absurd hpc hbegun.1
  | ended result => exact absurd hpc (hbegun.2 result)
  | checkPool =>
    by_cases hno : s.pool.accepting = true
    · have hst : (system lib deps p).step s (.checkPool i) = some (s.moveCall i .readBefore
          (requestMetrics (s.calls i).fields ++ [.activeJobsIncrement])) := by
        simp only [system, step, hpc, hno, Bool.not_true, Bool.false_eq_true, if_false]
      exact setCall_advances hst trivial rfl (by simp [hpc, callWeight]) (by simp)
    · have hst : (system lib deps p).step s (.checkPool i) =
          some (s.finishCall i (poolNotReady lib)) := by
        simp only [system, step, hpc, Bool.eq_false_iff.mpr hno, Bool.not_false, if_true]
      exact setCall_advances hst trivial rfl (by simp [hpc, callWeight]) (by simp)
  | readBefore =>
    exact setCall_advances (readBefore_step hpc) trivial rfl (by simp [hpc, callWeight]) (by simp)
  | submit =>
    have hidle : s.pool.submits i = .idle := by simpa [hpc, Linked] using reachable_linked h i
    refine ⟨.submit i s.pool.clock, _, trivial, submit_step hpc hidle, ?_,
      by simp [moveCall, setCall]⟩
    have hmove : remaining i (s.moveCall i .submitting) < remaining i s :=
      setCall_lowers rfl (by simp [hpc, hidle, callWeight])
    refine lt_of_eq_of_lt ?_ hmove
    simp [remaining, calleeProgress, poolLeft, InferencePool.stepsLeft, moveCall, setCall, hidle,
      callWeight]
  | submitting => exact submit_enabled h hpc
  | readAfter =>
    have hst : (system lib deps p).step s (.readAfter i) =
        some (s.moveCall i .waiting [.queueDepthSet s.queueDepth]) := by
      simp only [system, step, hpc]
    exact setCall_advances hst trivial rfl (by simp [hpc, callWeight]) (by simp)
  | waiting => exact wait_enabled h (.inl hpc)
  | asleep => exact wait_enabled h (.inr hpc)
  | readDone =>
    have hst : (system lib deps p).step s (.readDone i) =
        some (s.moveCall i .respond [.activeJobsDecrement, .queueDepthSet s.queueDepth]) := by
      simp only [system, step, hpc]
    exact setCall_advances hst trivial rfl (by simp [hpc, callWeight]) (by simp)
  | respond =>
    have hst : (system lib deps p).step s (.respond i s.pool.clock) = some (s.finishCall i
        (VoxtralServer.respond lib (s.calls i).start s.pool.clock (s.calls i).frame.synthError
          (s.calls i).frame.synthResult)) := by
      simp only [system, step, hpc]
    exact setCall_advances hst trivial rfl (by simp [hpc, callWeight]) (by simp)

/-- From every reachable state, some steps without a spurious wake-up make a call
that has begun return. -/
theorem call_returns (h : (system lib deps p).Reachable System.Any s)
    (hbegun : (s.calls i).pc ≠ .idle) :
    ∃ t, (system lib deps p).Reaches NotSpurious s t ∧
      ∃ result, (t.calls i).pc = .ended result := by
  refine System.reaches_goal
    (I := fun s => (system lib deps p).Reachable System.Any s ∧ (s.calls i).pc ≠ .idle)
    (remaining i) ?_ ⟨h, hbegun⟩
  rintro s ⟨hr, hpc⟩ hgoal
  obtain ⟨a, t, ha, hst, hlt, hpc'⟩ :=
    call_enabled hr ⟨hpc, fun result hended => hgoal ⟨result, hended⟩⟩
  exact ⟨a, t, ha, hst, ⟨hr.step trivial hst, hpc'⟩, hlt⟩

/-! ## What the callbacks of a call were invoked with -/

/-- What the callbacks with the name `k` were invoked with so far. -/
def invoked (pool : InferencePool Nat) (k : Nat) : List Delivery :=
  pool.trace.filterMap fun entry =>
    match entry.2 with
    | .worked (.invoked k' d) => if k' = k then some d else none
    | _ => none

/-- When each job invokes callbacks with its own name only, they are found in
its history. -/
theorem invoked_history {trace : List (Nat × JobEvent Nat)}
    (hown : ∀ j k d, (j, .worked (.invoked k d)) ∈ trace → k = j) :
    (trace.filterMap fun entry =>
      match entry.2 with
      | .worked (.invoked k d) => if k = i then some d else none
      | _ => none) =
    (invocations (trace.filterMap fun entry =>
      if entry.1 = i then some entry.2 else none)).map Prod.snd := by
  induction trace with
  | nil => rfl
  | cons entry rest ih =>
    obtain ⟨j, e⟩ := entry
    have ih := ih fun j k d hmem => hown j k d (List.mem_cons_of_mem _ hmem)
    rw [List.filterMap_cons, List.filterMap_cons, ih]
    rcases eq_or_ne j i with rfl | hne
    · simp only [if_true]
      cases e with
      | worked w =>
        cases w with
        | invoked k d =>
          cases hown j k d (List.mem_cons_self ..)
          simp [invocations]
        | _ => simp [invocations]
      | _ => simp [invocations]
    · simp only [if_neg hne]
      cases e with
      | worked w =>
        cases w with
        | invoked k d =>
          cases hown j k d (List.mem_cons_self ..)
          simp [hne]
        | _ => rfl
      | _ => rfl

theorem invoked_eq (h : (system lib deps p).Reachable System.Any s) :
    invoked s.pool i = (invocations (s.pool.history i)).map Prod.snd := by
  refine invoked_history fun j k d hmem => ?_
  obtain ⟨st, hlife⟩ := InferencePool.exists_life (reachable_pool h) j
  obtain ⟨job, hjob, hk⟩ := hlife.invoked_mem (InferencePool.mem_history.mpr hmem)
  rw [((reachable_owned h j).pushed (InferencePool.mem_history.mp hjob)).callback d] at hk
  exact (Option.some.inj hk).symm

/-- At most one callback was invoked, and what the frame holds is what it was
invoked with. -/
theorem Framed.invoked {f : SpeechFrame} {pool : InferencePool Nat} (h : Framed i f pool) :
    invocations (pool.history i) = [] ∧ f.resultReady = false ∨
      ∃ d, invocations (pool.history i) = [(i, d)] ∧ (f.resultReady = true → Holds d f) := by
  cases h with
  | untouched _ hnone hblank => exact .inl ⟨hnone, hblank.ready⟩
  | entered _ hone hblank =>
    exact .inr ⟨_, hone, fun hready => by simp [hblank.ready] at hready⟩
  | written _ hone hholds => exact .inr ⟨_, hone, fun _ => hholds⟩
  | done _ hone hholds => exact .inr ⟨_, hone, fun _ => hholds⟩

/-- A delivery to a call came about in the life of its own job. -/
theorem invoked_lived (h : (system lib deps p).Reachable System.Any s) {d : Delivery}
    (hone : invocations (s.pool.history i) = [(i, d)]) :
    ∃ job h₀ h₁, Lived job d h₀ ∧ s.pool.history i = h₀ ++ h₁ ∧
      job.request = synthRequest (s.calls i).fields := by
  obtain ⟨st, hlife⟩ := InferencePool.exists_life (reachable_pool h) i
  obtain ⟨job, h₀, h₁, hlived, heq, hjob⟩ :=
    hlife.invoked_lived (k := i) (d := d) (by rw [hone]; exact List.mem_singleton_self _)
  exact ⟨job, h₀, h₁, hlived, heq,
    ((reachable_owned h i).pushed (InferencePool.mem_history.mp hjob)).request⟩

/-! ## Delivery -/

/-- The call is answered with the status code. -/
def AnsweredWith (result : Except JsonError HttpResponse) (status : Int) : Prop :=
  ∃ resp, result = .ok resp ∧ resp.status = status

/-- How a call answers according to what its callbacks were invoked with. -/
theorem answered_delivered (hlib : lib.Documented)
    (h : (system lib deps p).Reachable System.Any s) {result : Except JsonError HttpResponse}
    (hpc : (s.calls i).pc = .ended result) :
    invoked s.pool i = [] ∧ ¬ AnsweredWith result 200 ∧ ¬ AnsweredWith result 500 ∨
      (∃ r resp, invoked s.pool i = [.success r] ∧ result = .ok resp ∧ resp.status = 200 ∧
        resp.binaryBody = r.audioData) ∨
      ∃ text, invoked s.pool i = [.error text] ∧ AnsweredWith result 500 ∧
        result = makeErrorResponse lib 500 (utf8 "server_error") (utf8 "inference_failed")
          (utf8 "An error occurred during speech synthesis.") := by
  have hsound := reachable_sound h i
  rw [invoked_eq h]
  cases hsound.answered hpc with
  | refused hno hstatus =>
    rcases hsound.framed.invoked with ⟨hnone, _⟩ | ⟨d, hone, _⟩
    · refine .inl ⟨by rw [hnone]; rfl, ?_, ?_⟩
      · rintro ⟨resp, hresp, hs⟩
        exact (hstatus resp hresp).1 hs
      · rintro ⟨resp, hresp, hs⟩
        exact (hstatus resp hresp).2 hs
    · exact absurd (invoked_accepted h hone) hno
  | @delivered stop _ hready _ hresult =>
    rcases hsound.framed.invoked with ⟨_, hblank⟩ | ⟨d, hone, hholds⟩
    · simp [hready] at hblank
    have hstored := (hholds hready).stored
    obtain ⟨job, h₀, h₁, hlived, _, _⟩ := invoked_lived h hone
    cases d with
    | success r =>
      obtain ⟨herror, hr⟩ := Prod.mk.inj hstored
      obtain ⟨resp, hresp, hstatus, hbody⟩ := respond_success lib
        (s.calls i).start stop r
      rw [herror, hr, hresp] at hresult
      exact .inr (.inl ⟨r, resp, by rw [hone]; rfl, hresult, hstatus, hbody⟩)
    | error text =>
      obtain ⟨herror, hr⟩ := Prod.mk.inj hstored
      obtain ⟨resp, hresp, hstatus⟩ := respond_error hlib (s.calls i).start stop {}
        hlived.error_ne_nil
      rw [herror, hr] at hresult
      refine .inr (.inr ⟨text, by rw [hone]; rfl, ⟨resp, hresult.trans hresp, hstatus⟩, ?_⟩)
      rw [hresult, VoxtralServer.respond, if_pos (by simpa using hlived.error_ne_nil)]

/-- The worker still runs while a call waits for its result. -/
theorem waiting_served (h : (system lib deps p).Reachable System.Any s)
    (hwait : (s.calls i).pc = .waiting ∨ (s.calls i).pc = .asleep)
    (hready : (s.calls i).frame.resultReady = false) :
    ((∃ job, (i, job) ∈ s.pool.queue) ∨ ∃ st, s.pool.worker = .busy i st) ∧
      s.pool.worker ≠ .exited := by
  have hret : s.pool.submits i = .returned true := by
    have hlinked := reachable_linked h i
    rcases hwait with hpc | hpc <;> simpa [hpc, Linked] using hlinked
  have hplaced := waiting_placed h (.inr hret) hready
  refine ⟨hplaced, fun hexited => ?_⟩
  rcases hplaced with ⟨job, hq⟩ | ⟨st, hw⟩
  · rw [((InferencePool.reachable_closed (reachable_pool h)).exited hexited).2] at hq
    cases hq
  · rw [hexited] at hw
    cases hw

/-- A callback uses the frame of a call under way only. -/
theorem callee_begun (h : (system lib deps p).Reachable System.Any s) {d : Delivery}
    (hcallee : callee s.pool = some (i, d)) (hcb : (s.calls i).frame.callback ≠ .unlocked) :
    Begun (s.calls i).pc := by
  have hsound := reachable_sound h i
  refine ⟨fun hidle => ?_, (hsound.running h hcallee hcb).2.2⟩
  have hone : invocations (s.pool.history i) = [(i, d)] := by
    cases hsound.framed with
    | untouched hno => exact absurd hcallee (hno d)
    | done hno => exact absurd hcallee (hno d)
    | entered _ _ _ hpast => exact (hsound.framed.blank hcallee hpast).1
    | written _ _ _ hpast => exact (hsound.framed.holds hcallee hpast).1
  have ha := invoked_accepted h hone
  have hsub : s.pool.submits i = .idle := by simpa [hidle, Linked] using reachable_linked h i
  simp [InferencePool.Accepted, Submit.Accepted, hsub] at ha

theorem invoked_length_le (h : (system lib deps p).Reachable System.Any s) :
    (invoked s.pool i).length ≤ 1 := by
  rw [invoked_eq h]
  rcases (reachable_sound h i).framed.invoked with ⟨hnone, _⟩ | ⟨d, hone, _⟩
  · simp [hnone]
  · simp [hone]

/-- What `on_success` was invoked with is what the backend returned for the
call's own request. -/
theorem success_own (h : (system lib deps p).Reachable System.Any s) {r : SynthesisResult}
    (hr : .success r ∈ invoked s.pool i) :
    .worked (.called (synthRequest (s.calls i).fields)) ∈ s.pool.history i ∧
      .worked (.returned r) ∈ s.pool.history i := by
  rw [invoked_eq h] at hr
  rcases (reachable_sound h i).framed.invoked with ⟨hnone, _⟩ | ⟨d, hone, _⟩
  · simp [hnone] at hr
  · rw [hone] at hr
    cases List.mem_singleton.mp hr
    obtain ⟨job, h₀, h₁, hlived, heq, hrequest⟩ := invoked_lived h hone
    obtain ⟨hcall, hreturned⟩ := hlived.success_returned
    rw [heq, ← hrequest]
    exact ⟨List.mem_append_left _ hcall, List.mem_append_left _ hreturned⟩

theorem AnsweredWith.unique {result : Except JsonError HttpResponse} {status status' : Int}
    (h : AnsweredWith result status) (h' : AnsweredWith result status') : status = status' := by
  obtain ⟨resp, hresp, hs⟩ := h
  obtain ⟨resp', hresp', hs'⟩ := h'
  rw [hresp] at hresp'
  cases hresp'
  exact hs.symm.trans hs'

/-- **No stuck call, no crossed result, no callback into a dead frame.** In
every reachable state of the calls, the worker and a shutdown, for every call:

* while it waits for its result, its job is queued or in the hands of the
  worker, and the worker has not exited;
* once it has begun, some steps without a spurious wake-up make it return;
* its callbacks were invoked at most once;
* while a callback still uses the frame, the call has not returned;
* when it has returned, it has answered with 200 exactly when its `on_success`
  was invoked, with the audio that the backend returned for its own request, and
  with 500 exactly when its `on_error` was invoked. -/
theorem speech_delivered (lib : JsonLib) (hlib : lib.Documented) (deps : HandlerDeps)
    (p : InferencePool.Params) {s : SpeechServer}
    (h : (system lib deps p).Reachable System.Any s) (i : Nat) :
    ((s.calls i).pc = .waiting ∨ (s.calls i).pc = .asleep →
      (s.calls i).frame.resultReady = false →
      ((∃ job, (i, job) ∈ s.pool.queue) ∨ ∃ st, s.pool.worker = .busy i st) ∧
      s.pool.worker ≠ .exited) ∧
    ((s.calls i).pc ≠ .idle → ∃ t, (system lib deps p).Reaches NotSpurious s t ∧
      ∃ result, (t.calls i).pc = .ended result) ∧
    (invoked s.pool i).length ≤ 1 ∧
    (∀ d, callee s.pool = some (i, d) → (s.calls i).frame.callback ≠ .unlocked →
      Begun (s.calls i).pc) ∧
    ∀ result, (s.calls i).pc = .ended result →
      (AnsweredWith result 200 ↔ ∃ r, .success r ∈ invoked s.pool i) ∧
      (∀ r, .success r ∈ invoked s.pool i →
        (∀ resp, result = .ok resp → resp.binaryBody = r.audioData) ∧
        .worked (.called (synthRequest (s.calls i).fields)) ∈ s.pool.history i ∧
        .worked (.returned r) ∈ s.pool.history i) ∧
      (AnsweredWith result 500 ↔ ∃ text, .error text ∈ invoked s.pool i) ∧
      ∀ text, .error text ∈ invoked s.pool i →
        result = makeErrorResponse lib 500 (utf8 "server_error") (utf8 "inference_failed")
          (utf8 "An error occurred during speech synthesis.") := by
  refine ⟨waiting_served h, call_returns h, invoked_length_le h, fun d => callee_begun h,
    fun result hpc => ?_⟩
  rcases answered_delivered hlib h hpc with ⟨hnone, hnot200, hnot500⟩ |
    ⟨r, resp, hone, hresult, hstatus, hbody⟩ | ⟨text, hone, hstatus, hresult⟩
  · -- no callback was invoked
    simp [hnone, hnot200, hnot500]
  · -- `on_success` was invoked
    have hok : AnsweredWith result 200 := ⟨resp, hresult, hstatus⟩
    have hnot500 : ¬ AnsweredWith result 500 := fun h500 => by cases hok.unique h500
    refine ⟨⟨fun _ => ⟨r, by simp [hone]⟩, fun _ => hok⟩, fun r' hr' => ⟨?_, success_own h hr'⟩,
      by simp [hone, hnot500], by simp [hone]⟩
    intro resp' hresp'
    rw [hresult] at hresp'
    cases hresp'
    rw [hone] at hr'
    cases List.mem_singleton.mp hr'
    exact hbody
  · -- `on_error` was invoked
    have hnot200 : ¬ AnsweredWith result 200 := fun h200 => by cases hstatus.unique h200
    exact ⟨by simp [hone, hnot200], by simp [hone],
      ⟨fun _ => ⟨text, by simp [hone]⟩, fun _ => hstatus⟩, fun _ _ => hresult⟩

/-- A body with the two fields that are required without a catalog. -/
def exHelloBody : Str := utf8 "\x7b\"model\":\"voxtral-4b\",\"input\":\"hello\"\x7d"

def exHelloLib : JsonLib :=
  exJson [(exHelloBody, .object [(utf8 "model", .string (utf8 "voxtral-4b")),
    (utf8 "input", .string (utf8 "hello"))])]

theorem exHelloLib_documented : exHelloLib.Documented := by
  refine exJson_documented ?_
  simp only [List.forall_mem_singleton]
  exact .key (.string (validUtf8_utf8 _)) (.key (.string (validUtf8_utf8 _)) .empty)

def exHelloFields : SpeechFields where
  model := utf8 "voxtral-4b"
  input := utf8 "hello"
  voice := []
  responseFormat := utf8 "wav"
  speed := .finite 1

theorem exHello_read :
    readSpeech exHelloLib {} (exSpeechRequest exHelloBody) = .ok exHelloFields := by
  have hspeed : validateSpeed (.finite 1) = {} := by decide +kernel
  change (do
    require exHelloLib 400 (validateSpeed (.finite 1))
    return exHelloFields) = .ok exHelloFields
  rw [hspeed]
  rfl

/-- The state after the request is read. -/
def exHelloStart : SpeechServer :=
  setCall {} 0 { pc := .checkPool, start := 0, fields := exHelloFields }

/-- From there on, the call goes to sleep before its job is taken, is woken up by
its callback, and answers while the callback returns. -/
def exHelloRun : List Act :=
  [.checkPool 0, .readBefore 0, .submit 0 0, .pool (.lock 0), .pool (.notifyOne 0),
   .submitReturns 0, .readAfter 0, .test 0, .pool .poll, .pool (.check 1), .pool .enter,
   .pool (.backendReturns { audioData := [1, 2] }), .pool (.recheck 2), .pool .deliver,
   .callback, .callback, .callback, .callback, .test 0, .readDone 0, .respond 0 3]

theorem exHello_reachable : ∃ s resp, (system exHelloLib {} {}).Reachable System.Any s ∧
    (s.calls 0).pc = .ended (.ok resp) ∧ resp.status = 200 := by
  have hread : (system exHelloLib {} {}).step {}
      (.receive 0 (exSpeechRequest exHelloBody) 0) = some exHelloStart := by
    simp only [system, step, exHello_read]
    rfl
  have hstart : (system exHelloLib {} {}).Reachable System.Any exHelloStart :=
    .step (.init ⟨0, rfl⟩) trivial hread
  obtain ⟨s, hrun, hreaches⟩ :=
    System.exists_reaches (S := system exHelloLib {} {}) (G := System.Any) (s := exHelloStart)
      exHelloRun (by decide)
  have hreach := hstart.trans hreaches
  cases hrun
  exact ⟨_, _, hreach, rfl, rfl⟩

/-- The call of this run is answered with 200 and its callback was invoked. -/
theorem speech_delivered_hello : exHelloLib.Documented ∧ ∃ s result,
    (system exHelloLib {} {}).Reachable System.Any s ∧ (s.calls 0).pc = .ended result ∧
    AnsweredWith result 200 ∧ ∃ r, .success r ∈ invoked s.pool 0 := by
  obtain ⟨s, resp, hreach, hended, hstatus⟩ := exHello_reachable
  have hanswers := (speech_delivered exHelloLib exHelloLib_documented {} {} hreach 0).2.2.2.2
  exact ⟨exHelloLib_documented, s, .ok resp, hreach, hended, ⟨resp, rfl, hstatus⟩,
    (hanswers _ hended).1.mp ⟨resp, rfl, hstatus⟩⟩

end SpeechServer
end VoxtralServer
