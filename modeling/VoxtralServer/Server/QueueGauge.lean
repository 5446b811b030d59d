import VoxtralServer.Lib.Sampler
import VoxtralServer.Server.SpeechDelivery

/-!
# The gauge of the queue depth

A call of `handle_speech` sets the gauge three times. Each time it reads the
depth of the pool's queue under the pool's mutex, and writes what it has read to
the gauge later. So each of the two is a step of its own here.

* `gauge_at_rest`: when no call overwrites a newer depth with an older one, the
  gauge reads 0 once all calls have returned.
* `gauge_stale`: two calls that write in the other order than they read.
-/

namespace VoxtralServer

/-! ## Calls, pool and gauge -/

/-- The calls on the pool, and the gauge that shows the depths they read. -/
structure QueueGauge where
  server : SpeechServer := {}
  depth : Sampler Nat Int := .start 0

namespace QueueGauge

/-- A step of the calls, the worker or a shutdown, and `queue_depth.Set` of a
call. -/
inductive Act
  | server (a : SpeechServer.Act)
  | set (i : Nat)

/-- The call whose step it is, and where the call is before it. -/
def startsAt : SpeechServer.Act → Option (Nat × SpeechPc)
  | .receive i _ _ => some (i, .idle)
  | .checkPool i => some (i, .checkPool)
  | .readBefore i => some (i, .readBefore)
  | .submit i _ => some (i, .submit)
  | .submitReturns i => some (i, .submitting)
  | .readAfter i => some (i, .readAfter)
  | .test i => some (i, .waiting)
  | .wake i => some (i, .asleep)
  | .readDone i => some (i, .readDone)
  | .respond i _ => some (i, .respond)
  | .callback | .callbackReturns | .pool _ => none

def caller (a : SpeechServer.Act) : Option Nat := (startsAt a).map Prod.fst

def Act.caller : Act → Option Nat
  | .server a => QueueGauge.caller a
  | .set i => some i

/-- The call that reads the depth in this step. -/
def reader : SpeechServer.Act → Option Nat
  | .readBefore i | .readAfter i | .readDone i => some i
  | .receive _ _ _ | .checkPool _ | .submit _ _ | .submitReturns _ | .test _ | .wake _
  | .respond _ _ | .callback | .callbackReturns | .pool _ => none

/-- A call that has read the depth takes no other step before it has set the
gauge. -/
def step (lib : JsonLib) (deps : HandlerDeps) (p : InferencePool.Params) (s : QueueGauge) :
    Act → Option QueueGauge
  | .server a =>
    if (caller a).any fun i => (s.depth.pending i).isSome then none
    else
      (SpeechServer.step lib deps p s.server a).map fun server =>
        { server := server
          depth :=
            match reader a with
            | some i => s.depth.sample i s.server.queueDepth
            | none => s.depth }
  | .set i => (s.depth.publish i).map fun depth => { s with depth := depth }

/-- All interleavings, from an idle pool and a gauge that reads 0. -/
def system (lib : JsonLib) (deps : HandlerDeps) (p : InferencePool.Params) :
    System QueueGauge Act where
  init s := (SpeechServer.system lib deps p).init s.server ∧ s.depth = .start 0
  step := step lib deps p

/-- No call overwrites a newer depth with an older one. -/
def InOrder (s : QueueGauge) : Act → Prop
  | .set i => s.depth.Fresh i
  | .server _ => True

instance (s : QueueGauge) (a : Act) : Decidable (InOrder s a) :=
  match a with
  | .set i => inferInstanceAs (Decidable (s.depth.Fresh i))
  | .server _ => .isTrue trivial

/-- Every call that was received has returned. -/
def Returned (s : QueueGauge) : Prop :=
  ∀ i, (s.server.calls i).pc = .idle ∨ ∃ result, (s.server.calls i).pc = .ended result

variable {lib : JsonLib} {deps : HandlerDeps} {p : InferencePool.Params} {s s' : QueueGauge}
  {i : Nat}

/-! ## What a step does -/

/-- What the steps are. -/
inductive Moves (lib : JsonLib) (deps : HandlerDeps) (p : InferencePool.Params)
    (s : QueueGauge) : Act → QueueGauge → Prop
  | read {i : Nat} {a : SpeechServer.Act} {server : SpeechServer} : reader a = some i →
      s.depth.pending i = none → (SpeechServer.system lib deps p).step s.server a = some server →
      Moves lib deps p s (.server a) ⟨server, s.depth.sample i s.server.queueDepth⟩
  | other {a : SpeechServer.Act} {server : SpeechServer} : reader a = none →
      (∀ i, caller a = some i → s.depth.pending i = none) →
      (SpeechServer.system lib deps p).step s.server a = some server →
      Moves lib deps p s (.server a) ⟨server, s.depth⟩
  | set {i : Nat} {depth : Sampler Nat Int} : s.depth.publish i = some depth →
      Moves lib deps p s (.set i) ⟨s.server, depth⟩

theorem caller_of_reader {a : SpeechServer.Act} (h : reader a = some i) : caller a = some i := by
  cases a <;> first | exact h | cases h

theorem step_moves {a : Act} (h : (system lib deps p).step s a = some s') :
    Moves lib deps p s a s' := by
  cases a with
  | set i =>
    obtain ⟨depth, hdepth, rfl⟩ := Option.map_eq_some_iff.mp h
    exact .set hdepth
  | server a =>
    simp only [system, step] at h
    split at h
    · cases h
    · next hfree =>
      obtain ⟨server, hserver, rfl⟩ := Option.map_eq_some_iff.mp h
      have hnone : ∀ i, caller a = some i → s.depth.pending i = none := by
        intro i hi
        simpa [hi] using hfree
      cases hr : reader a with
      | some i => exact .read hr (hnone i (caller_of_reader hr)) hserver
      | none => exact .other hr hnone hserver

/-- The calls are the calls on the pool, whatever the gauge does. -/
theorem server_refines (lib : JsonLib) (deps : HandlerDeps) (p : InferencePool.Params) :
    System.Refines (system lib deps p) (SpeechServer.system lib deps p) QueueGauge.server := by
  refine ⟨fun s h => h.1, fun s a t _ hst => ?_⟩
  cases step_moves hst with
  | read _ _ hserver => exact .inr ⟨_, hserver⟩
  | other _ _ hserver => exact .inr ⟨_, hserver⟩
  | set => exact .inl rfl

theorem reachable_server (h : (system lib deps p).Reachable System.Any s) :
    (SpeechServer.system lib deps p).Reachable System.Any s.server :=
  System.reachable_map (server_refines lib deps p) h

/-! ## Calls that will read again -/

/-- The call has submitted its job and has its last read ahead. -/
def BeforeLastRead : SpeechPc → Prop
  | .submitting | .readAfter | .waiting | .asleep | .readDone => True
  | .idle | .checkPool | .readBefore | .submit | .respond | .ended _ => False

/-- The job of the call was accepted, and the call will read the depth again. -/
structure ReadsAgain (s : SpeechServer) (i : Nat) : Prop where
  accepted : s.pool.Accepted i
  before : BeforeLastRead (s.calls i).pc

variable {v v' : SpeechServer} {a : SpeechServer.Act}

/-- The result of a queued job is not ready. -/
theorem queued_not_ready (h : (SpeechServer.system lib deps p).Reachable System.Any v)
    {job : InferenceJob Nat} (hq : (i, job) ∈ v.pool.queue) :
    (v.calls i).frame.resultReady = false := by
  have hpool := SpeechServer.reachable_pool h
  cases (SpeechServer.reachable_sound h i).framed with
  | untouched _ _ hblank => exact hblank.ready
  | entered _ _ hblank => exact hblank.ready
  | written hcallee =>
    obtain ⟨_, _, hw, _⟩ := SpeechServer.callee_owns h hcallee
    exact absurd rfl ((InferencePool.reachable_placed hpool).held_ne hw hq)
  | done _ hinv =>
    have hlife := (InferencePool.reachable_lives hpool).life (.queued hq)
    rw [hlife.invocations_eq] at hinv
    cases hinv

theorem queued_reads_again (h : (SpeechServer.system lib deps p).Reachable System.Any v)
    {job : InferenceJob Nat} (hq : (i, job) ∈ v.pool.queue) : ReadsAgain v i := by
  have hacc := (InferencePool.reachable_placed (SpeechServer.reachable_pool h)).queued hq
  have hlinked := SpeechServer.reachable_linked h i
  have hsound := SpeechServer.reachable_sound h i
  have hready := queued_not_ready h hq
  refine ⟨hacc, ?_⟩
  have hidle : v.pool.submits i ≠ .idle := by
    rcases hacc with h | h <;> simp [h]
  cases hpc : (v.calls i).pc with
  | idle =>
    rw [hpc] at hlinked
    exact hidle hlinked
  | checkPool =>
    rw [hpc] at hlinked
    exact hidle hlinked
  | readBefore =>
    rw [hpc] at hlinked
    exact hidle hlinked
  | submit =>
    rw [hpc] at hlinked
    exact hidle hlinked
  | respond =>
    have hleft := (hsound.left (.inr hpc)).1
    rw [hready] at hleft
    cases hleft
  | ended result =>
    cases hsound.answered hpc with
    | refused hnot => exact hnot hacc
    | delivered _ hleft =>
      rw [hready] at hleft
      cases hleft
  | _ => trivial

/-- A positive depth is the depth of a queue with a job in it. -/
theorem depth_reads_again (h : (SpeechServer.system lib deps p).Reachable System.Any v)
    (hdepth : v.queueDepth ≠ 0) : ∃ i, ReadsAgain v i := by
  cases hq : v.pool.queue with
  | nil =>
    simp only [SpeechServer.queueDepth, hq] at hdepth
    exact absurd rfl hdepth
  | cons entry rest => exact ⟨entry.1, queued_reads_again h (hq ▸ List.mem_cons_self)⟩

open InferencePool in
/-- What was accepted stays accepted. -/
theorem accepted_kept {pool : InferencePool Nat} {a : InferencePool.Act Nat}
    (h : InferencePool.Moves p v.pool a pool) (ha : v.pool.Accepted i) : pool.Accepted i := by
  have kept {id : Nat} {submit : InferencePool.Submit Nat}
      (hid : v.pool.Accepted id → submit.Accepted) :
      (Function.update v.pool.submits id submit i).Accepted := by
    rcases eq_or_ne i id with rfl | hne
    · rw [Function.update_self]
      exact hid ha
    · rwa [Function.update_of_ne hne]
  cases h with
  | stamp hsub => exact kept fun ha => by simp [Accepted, Submit.Accepted, hsub] at ha
  | refuse hsub => exact kept fun ha => by simp [Accepted, Submit.Accepted, hsub] at ha
  | push hsub => exact kept fun _ => .inl rfl
  | notifyOne hsub => exact kept fun _ => .inr rfl
  | _ => exact ha

theorem notified_before {pc : SpeechPc} (h : BeforeLastRead pc) : BeforeLastRead pc.notified := by
  cases pc <;> exact h

/-- A call that will read the depth again does so, or is still to. -/
theorem step_reads_again (hst : (SpeechServer.system lib deps p).step v a = some v')
    (h : ReadsAgain v i) :
    ReadsAgain v' i ∨ (v.calls i).pc = .readDone ∧ (v'.calls i).pc = .respond := by
  obtain ⟨hacc, hbefore⟩ := h
  have set {k : Nat} {c : SpeechCall} (hc : BeforeLastRead (v.calls k).pc → v.pool.Accepted k →
      BeforeLastRead c.pc) : ReadsAgain (v.setCall k c) i := by
    refine ⟨hacc, ?_⟩
    rcases eq_or_ne i k with rfl | hne
    · simpa [SpeechServer.setCall] using hc hbefore hacc
    · simpa [SpeechServer.setCall, hne] using hbefore
  cases SpeechServer.step_moves hst with
  | reject hpc => exact .inl (set fun hb _ => by rw [hpc] at hb; exact hb.elim)
  | receive hpc => exact .inl (set fun hb _ => by rw [hpc] at hb; exact hb.elim)
  | notReady hpc => exact .inl (set fun hb _ => by rw [hpc] at hb; exact hb.elim)
  | @goes k _ pc pc' metrics hpc hgoes =>
    rcases eq_or_ne i k with rfl | hne
    · cases hgoes with
      | readDone => exact .inr ⟨hpc, by simp [SpeechServer.moveCall, SpeechServer.setCall]⟩
      | checkPool => exact (hpc ▸ hbefore : BeforeLastRead .checkPool).elim
      | readBefore => exact (hpc ▸ hbefore : BeforeLastRead .readBefore).elim
      | readAfter => exact .inl (set fun _ _ => trivial)
      | wake => exact .inl (set fun _ _ => trivial)
    · refine .inl ⟨hacc, ?_⟩
      simpa [SpeechServer.moveCall, SpeechServer.setCall, hne] using hbefore
  | @submit k now hpc hidle =>
    have hne : i ≠ k := by
      rintro rfl
      exact (hpc ▸ hbefore : BeforeLastRead .submit)
    refine .inl ⟨?_, ?_⟩
    · simpa [InferencePool.Accepted, hne] using hacc
    · simpa [SpeechServer.moveCall, SpeechServer.setCall, hne] using hbefore
  | refused _ hret =>
    refine .inl (set fun _ ha => ?_)
    simp [InferencePool.Accepted, InferencePool.Submit.Accepted, hret] at ha
  | accepted => exact .inl (set fun _ _ => trivial)
  | sleep => exact .inl (set fun _ _ => trivial)
  | leave => exact .inl (set fun _ _ => trivial)
  | respond hpc => exact .inl (set fun hb _ => by rw [hpc] at hb; exact hb.elim)
  | @callback k d c _ hc =>
    refine .inl (set fun hb _ => ?_)
    unfold SpeechCall.callbackStep at hc
    split at hc <;> cases hc
    · exact hb
    · exact hb
    · exact notified_before hb
    · exact hb
  | @callbackReturns k d pool _ _ hpool =>
    have hkept := (set (k := k) (c := (v.calls k).callbackReturned) fun hb _ => hb).before
    exact .inl ⟨accepted_kept (InferencePool.step_moves hpool) hacc, hkept⟩
  | pool _ _ hpool =>
    exact .inl ⟨accepted_kept (InferencePool.step_moves hpool) hacc, hbefore⟩

/-! ## Whose step it is -/

/-- A step moves no call but the one whose step it is, and the one that a
callback wakes up. -/
theorem step_frame (hst : (SpeechServer.system lib deps p).step v a = some v') :
    (∀ k pc, startsAt a = some (k, pc) → (v.calls k).pc = pc) ∧
    ∀ i, caller a ≠ some i →
      (v'.calls i).pc = (v.calls i).pc ∨ (v'.calls i).pc = (v.calls i).pc.notified := by
  have own {k : Nat} {c : SpeechCall} {pc : SpeechPc} (hpc : (v.calls k).pc = pc)
      (ha : startsAt a = some (k, pc)) :
      (∀ k pc, startsAt a = some (k, pc) → (v.calls k).pc = pc) ∧
      ∀ i, caller a ≠ some i → ((v.setCall k c).calls i).pc = (v.calls i).pc ∨
        ((v.setCall k c).calls i).pc = (v.calls i).pc.notified := by
    refine ⟨fun k' pc' ha' => ?_, fun i hi => .inl ?_⟩
    · rw [ha] at ha'
      cases ha'
      exact hpc
    · have hne : i ≠ k := fun heq => hi (by simp [caller, ha, heq])
      simp [SpeechServer.setCall, hne]
  cases a with
  | pool a =>
    refine ⟨by simp [startsAt], fun i _ => .inl ?_⟩
    simp only [SpeechServer.system, SpeechServer.step, SpeechServer.poolStep] at hst
    split at hst
    · cases hst
    · cases hst
    · obtain ⟨pool, _, rfl⟩ := Option.map_eq_some_iff.mp hst
      rfl
  | callback =>
    refine ⟨by simp [startsAt], fun i _ => ?_⟩
    simp only [SpeechServer.system, SpeechServer.step] at hst
    split at hst
    · next k d _ =>
      obtain ⟨c, hc, rfl⟩ := Option.map_eq_some_iff.mp hst
      rcases eq_or_ne i k with rfl | hne
      · unfold SpeechCall.callbackStep at hc
        split at hc <;> cases hc <;> simp [SpeechServer.setCall]
      · simp [SpeechServer.setCall, hne]
    · cases hst
  | callbackReturns =>
    refine ⟨by simp [startsAt], fun i _ => .inl ?_⟩
    simp only [SpeechServer.system, SpeechServer.step] at hst
    split at hst
    · next k d _ =>
      split at hst
      · obtain ⟨pool, _, rfl⟩ := Option.map_eq_some_iff.mp hst
        rcases eq_or_ne i k with rfl | hne
        · simp [SpeechServer.setCall, SpeechCall.callbackReturned]
        · simp [SpeechServer.setCall, hne]
      · cases hst
    · cases hst
  | submit k now =>
    simp only [SpeechServer.system, SpeechServer.step] at hst
    split at hst
    · next hpc =>
      obtain ⟨pool, _, rfl⟩ := Option.map_eq_some_iff.mp hst
      exact own hpc rfl
    · cases hst
  | _ =>
    simp only [SpeechServer.system, SpeechServer.step] at hst
    repeat' split at hst
    all_goals cases hst
    all_goals exact own (by assumption) rfl

/-- The call has read the depth and set no gauge yet. -/
def HasRead (pc : SpeechPc) : Prop := pc = .submit ∨ pc = .waiting ∨ pc = .respond

/-- What a read does to the call and to the pool. -/
theorem step_read (hst : (SpeechServer.system lib deps p).step v a = some v')
    (hr : reader a = some i) : HasRead (v'.calls i).pc ∧ v'.pool = v.pool := by
  have move {pc : SpeechPc} {metrics : List MetricOp} (hpc : HasRead pc) :
      HasRead ((v.moveCall i pc metrics).calls i).pc ∧ (v.moveCall i pc metrics).pool = v.pool :=
    ⟨by simpa [SpeechServer.moveCall, SpeechServer.setCall] using hpc, rfl⟩
  cases a with
  | readBefore | readAfter | readDone =>
    cases hr
    simp only [SpeechServer.system, SpeechServer.step] at hst
    split at hst
    · cases hst
      exact move (by simp [HasRead])
    · cases hst
  | _ => cases hr

/-- A call that has its last read ahead keeps it ahead in a step without a
read. -/
theorem step_keeps_read (hst : (SpeechServer.system lib deps p).step v a = some v')
    (hr : reader a = none) (h : ReadsAgain v i) : ReadsAgain v' i := by
  rcases step_reads_again hst h with h | ⟨hpc, hpc'⟩
  · exact h
  · obtain ⟨hstart, hframe⟩ := step_frame hst
    by_cases hi : caller a = some i
    · obtain ⟨⟨k, pc⟩, ha, rfl⟩ := Option.map_eq_some_iff.mp hi
      obtain rfl := (hstart k pc ha).symm.trans hpc
      cases a with
      | readDone => cases hr
      | _ => cases ha
    · rcases hframe i hi with h | h <;> simp [hpc, hpc', SpeechPc.notified] at h

/-! ## Runs -/

/-- What holds along the runs in which no depth is overwritten by an older one. -/
structure Inv (s : QueueGauge) : Prop where
  depth : s.depth.Inv
  pending {i : Nat} : s.depth.pending i ≠ none → HasRead (s.server.calls i).pc
  ahead : s.depth.latest ≠ 0 → ∃ i, ReadsAgain s.server i

theorem HasRead.frame {pc pc' : SpeechPc} (h : HasRead pc) (hframe : pc' = pc ∨ pc' = pc.notified) :
    HasRead pc' := by
  rcases h with rfl | rfl | rfl <;> rcases hframe with rfl | rfl <;>
    simp [HasRead, SpeechPc.notified]

theorem step_inv (hr : (system lib deps p).Reachable InOrder s) (hi : s.Inv) {a : Act}
    (hg : InOrder s a) (hst : (system lib deps p).step s a = some s') : s'.Inv := by
  have hserver' := reachable_server (hr.any.step trivial hst)
  cases step_moves hst with
  | @read i a server hread hnone hserver =>
    obtain ⟨hat, hpool⟩ := step_read hserver hread
    refine ⟨hi.depth.sample i _, fun {j} hj => ?_, fun hlatest => ?_⟩
    · rcases eq_or_ne j i with rfl | hne
      · exact hat
      · rw [Sampler.sample_pending_of_ne hne] at hj
        refine (hi.pending hj).frame ((step_frame hserver).2 j fun hj => hne ?_)
        exact (Option.some.inj ((caller_of_reader hread).symm.trans hj)).symm
    · -- what was read is the depth of the queue as it still is
      have hdepth : server.queueDepth ≠ 0 := by
        rwa [SpeechServer.queueDepth, hpool, ← SpeechServer.queueDepth,
          ← Sampler.sample_latest s.depth i s.server.queueDepth]
      exact depth_reads_again hserver' hdepth
  | @other a server hread hnone hserver =>
    refine ⟨hi.depth, fun {j} hj => ?_, fun hlatest => ?_⟩
    · exact (hi.pending hj).frame ((step_frame hserver).2 j fun hcaller => hj (hnone j hcaller))
    · obtain ⟨j, hj⟩ := hi.ahead hlatest
      exact ⟨j, step_keeps_read hserver hread hj⟩
  | @set i depth hpublish =>
    obtain ⟨hlatest, hpending⟩ := Sampler.publish_kept hpublish
    refine ⟨hi.depth.publish hg hpublish, fun {j} hj => hi.pending (hpending j hj), ?_⟩
    rw [hlatest]
    exact hi.ahead

theorem reachable_inv (h : (system lib deps p).Reachable InOrder s) : s.Inv := by
  refine System.reachable_inv_of ?_ (fun _ _ _ hr hi hg hst => step_inv hr hi hg hst) h
  rintro ⟨server, depth⟩ ⟨_, rfl⟩
  exact ⟨Sampler.inv_start 0, fun hj => absurd rfl hj, fun hlatest => absurd rfl hlatest⟩

/-- With all calls returned the queue is empty. -/
theorem returned_queue (h : (system lib deps p).Reachable System.Any s) (hret : s.Returned) :
    s.server.pool.queue = [] := by
  refine List.eq_nil_iff_forall_not_mem.mpr ?_
  rintro ⟨i, job⟩ hq
  have hbefore := (queued_reads_again (reachable_server h) hq).before
  rcases hret i with hpc | ⟨result, hpc⟩ <;> rw [hpc] at hbefore <;> exact hbefore

/-- **The gauge at rest.** For every interleaving in which no call overwrites a
newer depth with an older one: once all calls have returned, the queue is empty
and the gauge reads 0. -/
theorem gauge_at_rest (lib : JsonLib) (deps : HandlerDeps) (p : InferencePool.Params)
    {s : QueueGauge} (h : (system lib deps p).Reachable InOrder s) (hret : s.Returned) :
    s.depth.shown = 0 ∧ s.server.queueDepth = 0 := by
  have hi := reachable_inv h
  have hqueue := returned_queue h.any hret
  have hnone : ∀ i, s.depth.pending i = none := by
    intro i
    by_contra hpending
    rcases hi.pending hpending with hpc | hpc | hpc <;> simpa [hpc] using hret i
  refine ⟨(hi.depth.shown_latest hnone).trans ?_, by rw [SpeechServer.queueDepth, hqueue]; rfl⟩
  by_contra hlatest
  obtain ⟨i, hagain⟩ := hi.ahead hlatest
  have hbefore := hagain.before
  rcases hret i with hpc | ⟨result, hpc⟩ <;> rw [hpc] at hbefore <;> exact hbefore

open SpeechServer (exHelloLib exHelloFields exHelloBody exHello_read)

/-- Two requests are read. -/
def exTwoStart : QueueGauge where
  server := ((({} : SpeechServer).setCall 0 { pc := .checkPool, fields := exHelloFields }).setCall 1
    { pc := .checkPool, fields := exHelloFields })

/-- A call up to the return of its `submit`. -/
def exSubmits (i : Nat) : List Act :=
  [.server (.checkPool i), .server (.readBefore i), .set i, .server (.submit i 0),
   .server (.pool (.lock i)), .server (.pool (.notifyOne i)), .server (.submitReturns i)]

/-- The worker takes the next job and delivers its result. -/
def exServes : List Act :=
  [.server (.pool .poll), .server (.pool (.check 0)), .server (.pool .enter),
   .server (.pool (.backendReturns { audioData := [1, 2] })), .server (.pool (.recheck 0)),
   .server (.pool .deliver), .server .callback, .server .callback, .server .callback,
   .server .callback, .server .callbackReturns, .server (.pool .finish)]

/-- A call from there up to its last read. -/
def exLeaves (i : Nat) : List Act :=
  [.server (.readAfter i), .set i, .server (.test i), .server (.readDone i)]

/-- The end of a call. -/
def exReturns (i : Nat) : List Act := [.set i, .server (.respond i 0)]

theorem exTwoStart_reachable {G : QueueGauge → Act → Prop} (hG : ∀ s a, G s (.server a)) :
    (system exHelloLib {} {}).Reachable G exTwoStart := by
  have hread (i : Nat) (s : QueueGauge) (hpc : (s.server.calls i) = {})
      (hpending : s.depth.pending i = none) :
      (system exHelloLib {} {}).step s (.server (.receive i (exSpeechRequest exHelloBody) 0)) =
        some ⟨s.server.setCall i { pc := .checkPool, fields := exHelloFields }, s.depth⟩ := by
    simp only [system, step, caller, startsAt, reader, Option.map_some, Option.any_some, hpending,
      Option.isSome_none, Bool.false_eq_true, if_false, SpeechServer.step, hpc, exHello_read]
  have h0 : (system exHelloLib {} {}).Reachable G {} := .init ⟨⟨0, rfl⟩, rfl⟩
  exact (h0.step (hG _ _) (hread 0 _ rfl rfl)).step (hG _ _) (hread 1 _ rfl rfl)

/-- A call that no step belongs to stays where it is. -/
theorem run_idle {G : QueueGauge → Act → Prop} [∀ s a, Decidable (G s a)] {as : List Act}
    (hrun : (system lib deps p).run G s as = some s') (hidle : (s.server.calls i).pc = .idle)
    (has : ∀ a ∈ as, a.caller ≠ some i) : (s'.server.calls i).pc = .idle := by
  induction as generalizing s with
  | nil =>
    cases hrun
    exact hidle
  | cons a as ih =>
    simp only [System.run] at hrun
    split at hrun
    · obtain ⟨t, hst, hrun⟩ := Option.bind_eq_some_iff.mp hrun
      refine ih hrun ?_ fun a ha => has a (List.mem_cons_of_mem _ ha)
      cases step_moves hst with
      | set => exact hidle
      | read _ _ hserver =>
        rcases (step_frame hserver).2 i (has _ List.mem_cons_self) with h | h <;>
          simp [h, hidle, SpeechPc.notified]
      | other _ _ hserver =>
        rcases (step_frame hserver).2 i (has _ List.mem_cons_self) with h | h <;>
          simp [h, hidle, SpeechPc.notified]
    · cases hrun

/-- The first two calls have returned, and the pool is idle. -/
def exRest (s : QueueGauge) : Bool :=
  match (s.server.calls 0).pc, (s.server.calls 1).pc, s.server.pool.queue,
    s.server.pool.worker with
  | .ended _, .ended _, [], .polling => true
  | _, _, _, _ => false

theorem exRest_returned {G : QueueGauge → Act → Prop} [∀ s a, Decidable (G s a)] {as : List Act}
    (hrun : (system exHelloLib {} {}).run G exTwoStart as = some s)
    (has : ∀ a ∈ as, a.caller ∈ [none, some 0, some 1]) (hrest : exRest s = true) :
    s.Returned ∧ s.server.pool.queue = [] ∧ s.server.pool.worker = .polling := by
  unfold exRest at hrest
  split at hrest
  · next h0 h1 hqueue hworker =>
    refine ⟨fun i => ?_, hqueue, hworker⟩
    match i with
    | 0 => exact .inr ⟨_, h0⟩
    | 1 => exact .inr ⟨_, h1⟩
    | n + 2 =>
      refine .inl (run_idle hrun rfl fun a ha hcaller => ?_)
      have hmem := has a ha
      simp [hcaller] at hmem
  · cases hrest

/-- Two calls one after the other. -/
def exInTurn : List Act :=
  exSubmits 0 ++ exServes ++ exLeaves 0 ++ exReturns 0 ++
    exSubmits 1 ++ exServes ++ exLeaves 1 ++ exReturns 1

/-- The first call reads the depth for the last time while the job of the second
call is queued, and sets the gauge after the second call has returned. -/
def exCrossed : List Act :=
  exSubmits 0 ++ exServes ++ exSubmits 1 ++ exLeaves 0 ++
    exServes ++ exLeaves 1 ++ exReturns 1 ++ exReturns 0

/-- The gauge at rest after two calls. -/
theorem gauge_at_rest_two_calls : ∃ s, (system exHelloLib {} {}).Reachable InOrder s ∧
    s.Returned ∧ s.depth.taken = 6 ∧ s.depth.shown = 0 ∧ s.server.queueDepth = 0 := by
  have hend : ((system exHelloLib {} {}).run InOrder exTwoStart exInTurn).map
      (fun s => (exRest s, s.depth.taken)) = some (true, 6) := by decide +kernel
  obtain ⟨s, hrun, hs⟩ := Option.map_eq_some_iff.mp hend
  obtain ⟨hrest, htaken⟩ := Prod.mk.injEq .. ▸ hs
  have hreach : (system exHelloLib {} {}).Reachable InOrder s :=
    (exTwoStart_reachable fun _ _ => trivial).trans (System.reaches_of_run _ hrun)
  have hret := (exRest_returned hrun (by decide) hrest).1
  exact ⟨s, hreach, hret, htaken, gauge_at_rest _ _ _ hreach hret⟩

/-- The gauge keeps a depth of 1 at rest. -/
theorem gauge_stale : ∃ s, (system exHelloLib {} {}).Reachable System.Any s ∧ s.Returned ∧
    s.server.pool.queue = [] ∧ s.server.pool.worker = .polling ∧ s.depth.shown = 1 := by
  have hend : ((system exHelloLib {} {}).run System.Any exTwoStart exCrossed).map
      (fun s => (exRest s, s.depth.shown)) = some (true, 1) := by decide +kernel
  obtain ⟨s, hrun, hs⟩ := Option.map_eq_some_iff.mp hend
  obtain ⟨hrest, hshown⟩ := Prod.mk.injEq .. ▸ hs
  have hreach : (system exHelloLib {} {}).Reachable System.Any s :=
    (exTwoStart_reachable fun _ _ => trivial).trans (System.reaches_of_run _ hrun)
  obtain ⟨hret, hqueue, hworker⟩ := exRest_returned hrun (by decide) hrest
  exact ⟨s, hreach, hret, hqueue, hworker, hshown⟩

end QueueGauge
end VoxtralServer
