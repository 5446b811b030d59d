import VoxtralServer.Server.SpeechSystem

/-!
# The frames of concurrent speech calls

What links a call, its job in the pool, and the variables that its callbacks
write.

* `reachable_linked`: the call of `submit` is as far as the call is.
* `reachable_owned`: a job in the pool is the one that its call submitted.
* `reachable_sound`: what a frame holds is what the call's callback was invoked
  with, and the call returns after that callback is done with the frame.
-/

namespace VoxtralServer
namespace SpeechServer

open InferencePool (Submit)

variable {lib : JsonLib} {deps : HandlerDeps} {p : InferencePool.Params} {s s' : SpeechServer}
  {i j : Nat}

/-- What holds of every call and of the new state of one of them. -/
theorem setCall_forall {P : Nat → SpeechCall → Prop} {c : SpeechCall}
    (h : ∀ j, P j (s.calls j)) (hc : P i c) : ∀ j, P j ((s.setCall i c).calls j) := by
  intro j
  rcases eq_or_ne j i with rfl | hne
  · simpa [setCall] using hc
  · simpa [setCall, hne] using h j

/-! ## Calls and their submits -/

/-- How far the call of `submit` is when the call is at `pc`. -/
def Linked (submit : Submit Nat) : SpeechPc → Prop
  | .idle | .checkPool | .readBefore | .submit => submit = .idle
  | .submitting => submit ≠ .idle
  | .readAfter | .waiting | .asleep | .readDone | .respond => submit = .returned true
  | .ended _ => submit = .idle ∨ ∃ accepted, submit = .returned accepted

theorem Goes.linked {fields : SpeechFields} {depth : Int} {a : Act} {metrics : List MetricOp}
    {submit : Submit Nat} {pc pc' : SpeechPc} (h : Goes i fields depth a pc pc' metrics)
    (hl : Linked submit pc) : Linked submit pc' := by
  cases h <;> exact hl

theorem Goes.target {fields : SpeechFields} {depth : Int} {a : Act} {metrics : List MetricOp}
    {pc pc' : SpeechPc} (h : Goes i fields depth a pc pc' metrics) :
    pc' ≠ .asleep ∧ (∀ result, pc' ≠ .ended result) ∧
      (pc' = .readDone ∨ pc' = .respond → pc = .readDone) := by
  cases h <;> simp

theorem linked_notified {submit : Submit Nat} {pc : SpeechPc} (h : Linked submit pc) :
    Linked submit pc.notified := by
  cases pc <;> exact h

theorem callbackStep_linked {submit : Submit Nat} {c c' : SpeechCall} {d : Delivery}
    (h : c.callbackStep d = some c') (hl : Linked submit c.pc) : Linked submit c'.pc := by
  unfold SpeechCall.callbackStep at h
  split at h <;> cases h
  · exact hl
  · exact hl
  · exact linked_notified hl
  · exact hl

/-- While the job is submitted, the call is in `submit`. -/
theorem Linked.submitting {submit : Submit Nat} {pc : SpeechPc} (h : Linked submit pc)
    (hidle : submit ≠ .idle) (hret : ∀ accepted, submit ≠ .returned accepted) :
    pc = .submitting := by
  cases pc with
  | submitting => rfl
  | ended _ => exact (h.elim (absurd · hidle) fun ⟨_, h⟩ => absurd h (hret _))
  | readAfter => exact absurd h (hret _)
  | waiting => exact absurd h (hret _)
  | asleep => exact absurd h (hret _)
  | readDone => exact absurd h (hret _)
  | respond => exact absurd h (hret _)
  | _ => exact absurd h hidle

/-- A step of the pool, other than the start of a call of `submit`, moves only
calls of `submit` under way. -/
theorem pool_submits {pool : InferencePool Nat} {a : InferencePool.Act Nat}
    (hstamp : ∀ id job now, a ≠ .stamp id job now)
    (h : InferencePool.Moves p s.pool a pool) (i : Nat) :
    pool.submits i = s.pool.submits i ∨
      (s.pool.submits i ≠ .idle ∧ ∀ accepted, s.pool.submits i ≠ .returned accepted) ∧
      pool.submits i ≠ .idle ∧ ∀ job, pool.submits i ≠ .stamped job := by
  cases h with
  | stamp => exact absurd rfl (hstamp _ _ _)
  | @refuse id job hsub =>
    rcases eq_or_ne i id with rfl | hne
    · exact .inr (by simp [hsub])
    · exact .inl (Function.update_of_ne hne ..)
  | @push id job hsub =>
    rcases eq_or_ne i id with rfl | hne
    · exact .inr (by simp [hsub])
    · exact .inl (Function.update_of_ne hne ..)
  | @notifyOne id hn =>
    rcases eq_or_ne i id with rfl | hne
    · exact .inr (by simp [hn])
    · exact .inl (Function.update_of_ne hne ..)
  | _ => exact .inl rfl

/-- A call that `submit` has not returned to yet stays linked. -/
theorem pool_linked {pool : InferencePool Nat} {a : InferencePool.Act Nat}
    (hstamp : ∀ id job now, a ≠ .stamp id job now) (h : InferencePool.Moves p s.pool a pool)
    {pc : SpeechPc} (hl : Linked (s.pool.submits i) pc) : Linked (pool.submits i) pc := by
  rcases pool_submits hstamp h i with heq | ⟨⟨hidle, hret⟩, hnew, _⟩
  · rwa [heq]
  · rw [hl.submitting hidle hret]
    exact hnew

theorem reachable_linked (h : (system lib deps p).Reachable System.Any s) :
    ∀ i, Linked (s.pool.submits i) (s.calls i).pc := by
  refine System.reachable_inv
    (I := fun s => ∀ i, Linked (s.pool.submits i) (s.calls i).pc) ?_ ?_ h
  · rintro s ⟨now, rfl⟩ i
    exact rfl
  · intro s a t hi _ hst
    have set (i : Nat) (c : SpeechCall) (hc : Linked (s.pool.submits i) c.pc) :
        ∀ j, Linked (s.pool.submits j) ((s.setCall i c).calls j).pc :=
      setCall_forall (P := fun j c => Linked (s.pool.submits j) c.pc) hi hc
    cases step_moves hst with
    | @reject i _ _ _ hpc =>
      refine set i _ (.inl ?_)
      simpa [hpc, Linked] using hi i
    | @receive i _ _ _ hpc =>
      refine set i _ ?_
      simpa [hpc, Linked] using hi i
    | @notReady i hpc =>
      refine set i _ (.inl ?_)
      simpa [hpc, Linked] using hi i
    | @goes i _ _ _ _ hpc hgoes => exact set _ _ (hgoes.linked (hpc ▸ hi i))
    | @submit i now hpc hidle =>
      intro j
      rcases eq_or_ne j i with rfl | hne
      · simp [moveCall, setCall, Linked]
      · simpa [moveCall, setCall, hne] using hi j
    | refused _ hret => exact set _ _ (.inr ⟨_, hret⟩)
    | accepted _ hret => exact set _ _ hret
    | @sleep i hpc =>
      refine set i _ ?_
      simpa [hpc, Linked] using hi i
    | @leave i hpc =>
      refine set i _ ?_
      simpa [hpc, Linked] using hi i
    | @respond i now hpc =>
      refine set i _ (.inr ⟨true, ?_⟩)
      simpa [hpc, Linked] using hi i
    | @callback k d c _ hc => exact set _ _ (callbackStep_linked hc (hi k))
    | @callbackReturns k d pool _ _ hpool =>
      intro j
      have hj := pool_linked (by simp) (InferencePool.step_moves hpool) (hi j)
      rcases eq_or_ne j k with rfl | hne
      · simpa [setCall, SpeechCall.callbackReturned] using hj
      · simpa [setCall, hne] using hj
    | pool hstamp _ hpool =>
      exact fun j => pool_linked hstamp (InferencePool.step_moves hpool) (hi j)

/-! ## Calls and their jobs -/

/-- The job is the one that the `i`th call submits, but for its deadline. -/
structure Owns (fields : SpeechFields) (i : Nat) (job : InferenceJob Nat) : Prop where
  request : job.request = synthRequest fields
  callback : ∀ d, job.callback d = some i

theorem owns_stampJob (p : InferencePool.Params) (i : Nat) (fields : SpeechFields) (now : Int) :
    Owns fields i (InferencePool.stampJob p (speechJob i fields) now) := by
  unfold InferencePool.stampJob
  split <;> exact ⟨rfl, fun d => by cases d <;> rfl⟩

/-- The jobs submitted by the `i`th call are its own. -/
structure Owned (pool : InferencePool Nat) (i : Nat) (fields : SpeechFields) : Prop where
  stamped {job : InferenceJob Nat} : pool.submits i = .stamped job → Owns fields i job
  pushed {job : InferenceJob Nat} : (i, .pushed job) ∈ pool.trace → Owns fields i job

theorem pool_owned {pool : InferencePool Nat} {a : InferencePool.Act Nat}
    (hstamp : ∀ id job now, a ≠ .stamp id job now) (h : InferencePool.Moves p s.pool a pool)
    {fields : SpeechFields} (hi : Owned s.pool i fields) : Owned pool i fields := by
  constructor
  · intro job hjob
    rcases pool_submits hstamp h i with heq | ⟨_, _, hnot⟩
    · exact hi.stamped (heq ▸ hjob)
    · exact absurd hjob (hnot job)
  · intro job hjob
    exact (h.pushed hjob).elim hi.pushed hi.stamped

/-- A job in the pool is the one that its call submitted. -/
theorem reachable_owned (h : (system lib deps p).Reachable System.Any s) :
    ∀ i, Owned s.pool i (s.calls i).fields := by
  refine System.reachable_inv_of
    (I := fun s => ∀ i, Owned s.pool i (s.calls i).fields) ?_ ?_ h
  · rintro s ⟨now, rfl⟩ i
    constructor <;> intro _ hjob <;> cases hjob
  · intro s a t hr hi _ hst
    have hlinked := reachable_linked hr
    have set (i : Nat) (c : SpeechCall) (hc : Owned s.pool i c.fields) :
        ∀ j, Owned s.pool j ((s.setCall i c).calls j).fields :=
      setCall_forall (P := fun j c => Owned s.pool j c.fields) hi hc
    cases step_moves hst with
    | @receive i _ _ _ hpc =>
      -- a call that has not begun has submitted nothing
      have hidle : s.pool.submits i = .idle := by simpa [hpc, Linked] using hlinked i
      refine set i _ ⟨fun hjob => ?_, fun hjob => ?_⟩
      · rw [hidle] at hjob
        cases hjob
      · have ha := InferencePool.pushed_accepted (reachable_pool hr) hjob
        simp [InferencePool.Accepted, Submit.Accepted, hidle] at ha
    | @submit i now =>
      intro j
      rcases eq_or_ne j i with rfl | hne
      · refine ⟨fun hjob => ?_, fun hjob => ?_⟩
        · simp only [moveCall, setCall, Function.update_self, Submit.stamped.injEq] at hjob ⊢
          exact hjob ▸ owns_stampJob p j _ now
        · simpa [moveCall, setCall] using (hi j).pushed hjob
      · refine ⟨fun hjob => ?_, fun hjob => ?_⟩
        · simp only [moveCall, setCall, Function.update_of_ne hne] at hjob ⊢
          exact (hi j).stamped hjob
        · simpa [moveCall, setCall, hne] using (hi j).pushed hjob
    | callback _ hc =>
      refine set _ _ ?_
      unfold SpeechCall.callbackStep at hc
      split at hc <;> cases hc <;> exact hi _
    | @callbackReturns k d pool _ _ hpool =>
      intro j
      have hj := pool_owned (by simp) (InferencePool.step_moves hpool) (hi j)
      rcases eq_or_ne j k with rfl | hne
      · simpa [setCall, SpeechCall.callbackReturned] using hj
      · simpa [setCall, hne] using hj
    | pool hstamp _ hpool =>
      exact fun j => pool_owned hstamp (InferencePool.step_moves hpool) (hi j)
    | _ => exact set _ _ (hi _)

/-- A job at some stage is the one that its call submitted. -/
theorem life_owns (h : (system lib deps p).Reachable System.Any s) {st : Stage Nat}
    {job : InferenceJob Nat} (hlife : Life (s.pool.history i) st) (hjob : st.job = some job) :
    Owns (s.calls i).fields i job :=
  (reachable_owned h i).pushed (InferencePool.mem_history.mp (hlife.pushed_mem hjob))

/-! ## What a call sees of the pool -/

theorem callee_eq {pool : InferencePool Nat} {d : Delivery} (h : callee pool = some (i, d)) :
    ∃ id job guarded, pool.worker = .busy id (.calling job d guarded) ∧
      job.callback d = some i := by
  unfold callee at h
  split at h
  · next id job d' guarded hw =>
    obtain ⟨k, hk, heq⟩ := Option.map_eq_some_iff.mp h
    cases heq
    exact ⟨id, job, guarded, hw, hk⟩
  · cases h

/-- The worker runs a callback of the call whose job it processes. -/
theorem callee_owns (h : (system lib deps p).Reachable System.Any s) {d : Delivery}
    (hcallee : callee s.pool = some (i, d)) :
    ∃ job guarded, s.pool.worker = .busy i (.calling job d guarded) ∧
      Owns (s.calls i).fields i job := by
  obtain ⟨id, job, guarded, hw, hk⟩ := callee_eq hcallee
  have howns := life_owns h ((InferencePool.reachable_lives (reachable_pool h)).life (.held hw)) rfl
  rw [howns.callback d] at hk
  cases hk
  exact ⟨job, guarded, hw, howns⟩

theorem callee_eq_none {pool : InferencePool Nat}
    (h : ∀ id job d guarded, pool.worker ≠ .busy id (.calling job d guarded)) :
    callee pool = none := by
  unfold callee
  split
  · next hw => exact absurd hw (h _ _ _ _)
  · rfl

theorem invocations_append {h : List (JobEvent Nat)} {e : JobEvent Nat}
    (he : ∀ k d, e ≠ .worked (.invoked k d)) : invocations (h ++ [e]) = invocations h := by
  cases e with
  | worked w =>
    cases w with
    | invoked k d => exact absurd rfl (he k d)
    | _ => simp [invocations]
  | _ => simp [invocations]

/-- An event that is no invocation. -/
theorem history_invocations {pool pool' : InferencePool Nat} {id : Nat} {e : JobEvent Nat}
    (htrace : pool'.trace = pool.trace ++ [(id, e)]) (he : ∀ k d, e ≠ .worked (.invoked k d)) :
    invocations (pool'.history i) = invocations (pool.history i) := by
  rcases eq_or_ne i id with rfl | hne
  · rw [InferencePool.history_append_self htrace, invocations_append he]
  · rw [InferencePool.history_append_ne htrace hne]

/-- What the `i`th call sees of a step of the pool: nothing, or that its first
callback is invoked. -/
inductive Seen (i : Nat) (pool pool' : InferencePool Nat) : Prop
  | nothing : (∀ d, callee pool' = some (i, d) ↔ callee pool = some (i, d)) →
      invocations (pool'.history i) = invocations (pool.history i) → Seen i pool pool'
  | invoked {d : Delivery} : callee pool = none → invocations (pool.history i) = [] →
      callee pool' = some (i, d) → invocations (pool'.history i) = [(i, d)] → Seen i pool pool'

theorem pool_seen (h : (system lib deps p).Reachable System.Any s) {pool : InferencePool Nat}
    {a : InferencePool.Act Nat} (hends : ∀ thrown, a ≠ .callbackEnds thrown)
    (hm : InferencePool.Moves p s.pool a pool) (i : Nat) : Seen i s.pool pool := by
  have hlives := InferencePool.reachable_lives (reachable_pool h)
  cases hm with
  | stamp => exact .nothing (fun _ => Iff.rfl) rfl
  | close => exact .nothing (fun _ => Iff.rfl) rfl
  | join => exact .nothing (fun _ => Iff.rfl) rfl
  | refuse => exact .nothing (fun _ => Iff.rfl) (history_invocations rfl (by simp))
  | push => exact .nothing (fun _ => Iff.rfl) (history_invocations rfl (by simp))
  | notifyOne =>
    refine .nothing (fun d => ?_) rfl
    unfold callee
    cases s.pool.worker <;> rfl
  | notifyAll =>
    refine .nothing (fun d => ?_) rfl
    unfold callee
    cases s.pool.worker <;> rfl
  | sleep hw => exact .nothing (fun d => by simp [callee, hw]) rfl
  | exit hw => exact .nothing (fun d => by simp [callee, hw]) rfl
  | wake hw => exact .nothing (fun d => by simp [callee, hw]) rfl
  | dequeue hw =>
    exact .nothing (fun d => by simp [callee, hw]) (history_invocations rfl (by simp))
  | finish hw =>
    exact .nothing (fun d => by simp [callee, hw]) (history_invocations rfl (by simp))
  | @work id st st' _ e _ _ _ hw hwork hact =>
    have hlife := hlives.life (.held hw)
    cases hwork with
    | complete =>
      obtain ⟨thrown, rfl⟩ := hact rfl
      exact absurd rfl (hends thrown)
    | @invoke job d guarded k hk =>
      have howns := life_owns h hlife rfl
      rw [howns.callback d] at hk
      cases hk
      rcases eq_or_ne i id with rfl | hne
      · refine .invoked (d := d) (by simp [callee, hw]) hlife.invocations_eq
          (by simp [callee, howns.callback d]) ?_
        rw [InferencePool.history_append_self (s := s.pool) rfl]
        have hnone : invocations (s.pool.history i) = [] := hlife.invocations_eq
        simp only [invocations, List.filterMap_append] at hnone ⊢
        simp [hnone]
      · refine .nothing (fun d' => ?_) ?_
        · simp [callee, hw, howns.callback d, Ne.symm hne]
        · rw [InferencePool.history_append_ne (s := s.pool) rfl hne]
    | _ => exact .nothing (fun d => by simp [callee, hw]) (history_invocations rfl (by simp))

/-! ## What the frames hold -/

/-- Nothing is stored yet. -/
structure Blank (f : SpeechFrame) : Prop where
  ready : f.resultReady = false
  synthError : f.synthError = []
  synthResult : f.synthResult = {}

/-- The frame holds what the callback was invoked with. -/
structure Holds (d : Delivery) (f : SpeechFrame) : Prop where
  ready : f.resultReady = true
  stored : (f.synthError, f.synthResult) = d.store

/-- Storing into a blank frame. -/
theorem Blank.store {f : SpeechFrame} (h : Blank f) (d : Delivery) :
    (f.store d).resultReady = true ∧
      ((f.store d).synthError, (f.store d).synthResult) = d.store := by
  cases d with
  | success result => exact ⟨rfl, by simp [SpeechFrame.store, Delivery.store, h.synthError]⟩
  | error text => exact ⟨rfl, by simp [SpeechFrame.store, Delivery.store, h.synthResult]⟩

/-- The four phases of the frame of the `i`th call: no callback was invoked yet,
one was invoked, it has stored, and it has returned. -/
inductive Framed (i : Nat) (f : SpeechFrame) (pool : InferencePool Nat) : Prop
  | untouched : (∀ d, callee pool ≠ some (i, d)) → invocations (pool.history i) = [] →
      Blank f → f.callback = .idle → Framed i f pool
  | entered {d : Delivery} : callee pool = some (i, d) →
      invocations (pool.history i) = [(i, d)] → Blank f →
      f.callback = .idle ∨ f.callback = .locked → Framed i f pool
  | written {d : Delivery} : callee pool = some (i, d) →
      invocations (pool.history i) = [(i, d)] → Holds d f →
      f.callback = .stored ∨ f.callback = .notified ∨ f.callback = .unlocked → Framed i f pool
  | done {d : Delivery} : (∀ d, callee pool ≠ some (i, d)) →
      invocations (pool.history i) = [(i, d)] → Holds d f → f.callback = .idle → Framed i f pool

/-- How the response of an ended call came about: without a job, or from what
the frame holds. -/
inductive Answered (lib : JsonLib) (i : Nat) (c : SpeechCall) (pool : InferencePool Nat)
    (result : Except JsonError HttpResponse) : Prop
  | refused : ¬ pool.Accepted i →
      (∀ resp, result = .ok resp → resp.status ≠ 200 ∧ resp.status ≠ 500) →
      Answered lib i c pool result
  | delivered {stop : Int} : pool.Accepted i → c.frame.resultReady = true →
      c.frame.callback.holdsMutex = false →
      result = (respond lib c.start stop c.frame.synthError c.frame.synthResult).result →
      Answered lib i c pool result

/-- What holds of the `i`th call: its frame is in one of the phases, it is woken
up once the result is ready, it leaves the wait when the result is ready and the
mutex free, and its response is accounted for. -/
structure Sound (lib : JsonLib) (i : Nat) (c : SpeechCall) (pool : InferencePool Nat) : Prop where
  framed : Framed i c.frame pool
  asleep : c.pc = .asleep → c.frame.resultReady = true → c.frame.callback = .stored
  left : c.pc = .readDone ∨ c.pc = .respond →
    c.frame.resultReady = true ∧ c.frame.callback.holdsMutex = false
  answered {result : Except JsonError HttpResponse} : c.pc = .ended result →
    Answered lib i c pool result

/-- A job whose callback was invoked was accepted. -/
theorem invoked_accepted (h : (system lib deps p).Reachable System.Any s) {d : Delivery}
    (hinv : invocations (s.pool.history i) = [(i, d)]) : s.pool.Accepted i := by
  have hpool := reachable_pool h
  obtain ⟨st, hlife⟩ := InferencePool.exists_life hpool i
  have hmem : .worked (.invoked i d) ∈ s.pool.history i := by
    have hd : (i, d) ∈ invocations (s.pool.history i) := by simp [hinv]
    obtain ⟨e, he, heq⟩ := List.mem_filterMap.mp hd
    split at heq
    · cases heq
      exact he
    · cases heq
  obtain ⟨job, hjob, _⟩ := hlife.invoked_mem hmem
  exact InferencePool.pushed_accepted hpool (InferencePool.mem_history.mp hjob)

/-- The call has not left the wait. -/
def Within (pc : SpeechPc) : Prop :=
  pc ≠ .readDone ∧ pc ≠ .respond ∧ ∀ result, pc ≠ .ended result

theorem Within.notified {pc : SpeechPc} (h : Within pc) :
    Within pc.notified ∧ pc.notified ≠ .asleep := by
  cases pc <;> simp_all [Within, SpeechPc.notified]

/-- Of a call that has not left the wait, only the frame matters and whether it
sleeps. -/
theorem Sound.within {c : SpeechCall} {pool : InferencePool Nat} (hpc : Within c.pc)
    (hframed : Framed i c.frame pool)
    (hasleep : c.pc = .asleep → c.frame.resultReady = true → c.frame.callback = .stored) :
    Sound lib i c pool :=
  ⟨hframed, hasleep, fun h => absurd h (not_or.mpr ⟨hpc.1, hpc.2.1⟩),
    fun h => absurd h (hpc.2.2 _)⟩

/-- A callback that runs and has not stored yet finds the frame blank. -/
theorem Framed.blank {f : SpeechFrame} {pool : InferencePool Nat} (h : Framed i f pool)
    {d : Delivery} (hcallee : callee pool = some (i, d))
    (hcb : f.callback = .idle ∨ f.callback = .locked) :
    invocations (pool.history i) = [(i, d)] ∧ Blank f := by
  cases h with
  | untouched hno => exact absurd hcallee (hno d)
  | done hno => exact absurd hcallee (hno d)
  | entered hd hinv hblank =>
    rw [hcallee] at hd
    cases hd
    exact ⟨hinv, hblank⟩
  | written _ _ _ hpast => rcases hcb with hcb | hcb <;> simp [hcb] at hpast

/-- A callback that has stored finds what it stored. -/
theorem Framed.holds {f : SpeechFrame} {pool : InferencePool Nat} (h : Framed i f pool)
    {d : Delivery} (hcallee : callee pool = some (i, d))
    (hcb : f.callback = .stored ∨ f.callback = .notified ∨ f.callback = .unlocked) :
    invocations (pool.history i) = [(i, d)] ∧ Holds d f := by
  cases h with
  | untouched hno => exact absurd hcallee (hno d)
  | done hno => exact absurd hcallee (hno d)
  | written hd hinv hholds =>
    rw [hcallee] at hd
    cases hd
    exact ⟨hinv, hholds⟩
  | entered _ _ _ hbefore => rcases hcb with hcb | hcb | hcb <;> simp [hcb] at hbefore

/-- A result that is ready was stored by a callback. -/
theorem Framed.stored {f : SpeechFrame} {pool : InferencePool Nat} (h : Framed i f pool)
    (hready : f.resultReady = true) : ∃ d : Delivery, (f.synthError, f.synthResult) = d.store := by
  cases h with
  | untouched _ _ hblank => simp [hblank.ready] at hready
  | entered _ _ hblank => simp [hblank.ready] at hready
  | written _ _ hholds => exact ⟨_, hholds.stored⟩
  | done _ _ hholds => exact ⟨_, hholds.stored⟩

/-- While a callback uses the frame, the call has not left the wait. -/
theorem Sound.running (h : (system lib deps p).Reachable System.Any s)
    (hi : Sound lib i (s.calls i) s.pool) {d : Delivery} (hcallee : callee s.pool = some (i, d))
    (hc : (s.calls i).frame.callback ≠ .unlocked) : Within (s.calls i).pc := by
  have hbusy : invocations (s.pool.history i) = [(i, d)] ∧
      ((s.calls i).frame.resultReady = true →
        (s.calls i).frame.callback.holdsMutex = false → False) := by
    cases hi.framed with
    | untouched hno => exact absurd hcallee (hno d)
    | done hno => exact absurd hcallee (hno d)
    | entered hcallee' hinv hblank =>
      rw [hcallee] at hcallee'
      cases hcallee'
      exact ⟨hinv, fun hready _ => by simp [hblank.ready] at hready⟩
    | written hcallee' hinv _ hcb =>
      rw [hcallee] at hcallee'
      cases hcallee'
      refine ⟨hinv, fun _ hfree => ?_⟩
      rcases hcb with hcb | hcb | hcb
      · simp [hcb, CallbackPc.holdsMutex] at hfree
      · simp [hcb, CallbackPc.holdsMutex] at hfree
      · exact hc hcb
  refine ⟨fun hpc => ?_, fun hpc => ?_, fun result hpc => ?_⟩
  · exact hbusy.2 (hi.left (.inl hpc)).1 (hi.left (.inl hpc)).2
  · exact hbusy.2 (hi.left (.inr hpc)).1 (hi.left (.inr hpc)).2
  · cases hi.answered hpc with
    | refused hno => exact hno (invoked_accepted h hbusy.1)
    | delivered _ hready hfree => exact hbusy.2 hready hfree

theorem Framed.seen {f : SpeechFrame} {pool pool' : InferencePool Nat} (h : Framed i f pool)
    (hseen : Seen i pool pool') : Framed i f pool' := by
  cases hseen with
  | nothing hcallee hinv =>
    cases h with
    | untouched hno hnone =>
      exact .untouched (fun d hd => hno d ((hcallee d).mp hd)) (hinv ▸ hnone) ‹_› ‹_›
    | entered hd hone => exact .entered ((hcallee _).mpr hd) (hinv ▸ hone) ‹_› ‹_›
    | written hd hone => exact .written ((hcallee _).mpr hd) (hinv ▸ hone) ‹_› ‹_›
    | done hno hone => exact .done (fun d hd => hno d ((hcallee d).mp hd)) (hinv ▸ hone) ‹_› ‹_›
  | invoked hnone hinv hcallee hone =>
    cases h with
    | untouched _ _ hblank hcb => exact .entered hcallee hone hblank (.inl hcb)
    | entered hd => rw [hnone] at hd; cases hd
    | written hd => rw [hnone] at hd; cases hd
    | done _ hd => rw [hinv] at hd; cases hd

/-- A call does not notice what the other threads do to the pool. -/
theorem Sound.seen {c : SpeechCall} {pool pool' : InferencePool Nat} (h : Sound lib i c pool)
    (hseen : Seen i pool pool')
    (haccepted : ∀ result, c.pc = .ended result → (pool'.Accepted i ↔ pool.Accepted i)) :
    Sound lib i c pool' := by
  refine ⟨h.framed.seen hseen, h.asleep, h.left, fun {result} hpc => ?_⟩
  have hiff := haccepted result hpc
  cases h.answered hpc with
  | refused hno hstatus => exact .refused (fun ha => hno (hiff.mp ha)) hstatus
  | delivered ha hready hfree heq => exact .delivered (hiff.mpr ha) hready hfree heq

/-- A step of the call that leaves the frame as it is. -/
theorem Sound.move {c : SpeechCall} {pool : InferencePool Nat} (h : Sound lib i c pool)
    {c' : SpeechCall} (hframe : c'.frame = c.frame)
    (hasleep : c'.pc = .asleep → c.frame.resultReady = false)
    (hleft : c'.pc = .readDone ∨ c'.pc = .respond →
      c.frame.resultReady = true ∧ c.frame.callback.holdsMutex = false)
    (hanswered : ∀ result, c'.pc = .ended result → Answered lib i c' pool result) :
    Sound lib i c' pool := by
  refine ⟨hframe ▸ h.framed, fun hpc hready => ?_, fun hpc => hframe ▸ hleft hpc,
    fun hpc => hanswered _ hpc⟩
  rw [hframe, hasleep hpc] at hready
  cases hready

/-- A step that leaves the frame as it is and does not leave the wait. -/
theorem Sound.stays {c : SpeechCall} {pool : InferencePool Nat} (h : Sound lib i c pool)
    {c' : SpeechCall} (hframe : c'.frame = c.frame) (hpc : Within c'.pc)
    (hasleep : c'.pc = .asleep → c.frame.resultReady = false) : Sound lib i c' pool :=
  h.move hframe hasleep (fun h => absurd h (not_or.mpr ⟨hpc.1, hpc.2.1⟩))
    fun result h => absurd h (hpc.2.2 result)

/-- The return of the call. -/
theorem Sound.ends {c : SpeechCall} {pool : InferencePool Nat} (h : Sound lib i c pool)
    {c' : SpeechCall} (hframe : c'.frame = c.frame) {result : Except JsonError HttpResponse}
    (hpc : c'.pc = .ended result) (hanswered : Answered lib i c' pool result) :
    Sound lib i c' pool := by
  refine h.move hframe (by simp [hpc]) (by simp [hpc]) fun result' hres => ?_
  rw [hpc] at hres
  cases hres
  exact hanswered

/-- A step of the callback that the worker runs. -/
theorem Sound.callbackStep (h : (system lib deps p).Reachable System.Any s)
    (hi : Sound lib i (s.calls i) s.pool) {d : Delivery} (hcallee : callee s.pool = some (i, d))
    {c : SpeechCall} (hc : (s.calls i).callbackStep d = some c) : Sound lib i c s.pool := by
  unfold SpeechCall.callbackStep at hc
  have hrunning := fun hcb => hi.running h hcallee hcb
  split at hc <;> cases hc
  · next hcb =>
    -- it takes the mutex of the frame
    obtain ⟨hinv, hblank⟩ := hi.framed.blank hcallee (.inl hcb)
    refine .within (hrunning (by simp [hcb]))
      (.entered hcallee hinv ⟨hblank.1, hblank.2, hblank.3⟩ (.inr rfl)) fun _ hready => ?_
    simp [hblank.ready] at hready
  · next hcb =>
    -- it stores what it was invoked with
    obtain ⟨hinv, hblank⟩ := hi.framed.blank hcallee (.inr hcb)
    obtain ⟨hready, hstored⟩ := hblank.store d
    exact .within (hrunning (by simp [hcb]))
      (.written hcallee hinv ⟨hready, hstored⟩ (.inl rfl)) fun _ _ => rfl
  · next hcb =>
    -- it wakes the call up
    obtain ⟨hinv, hholds⟩ := hi.framed.holds hcallee (.inl hcb)
    obtain ⟨hwithin, hawake⟩ := (hrunning (by simp [hcb])).notified
    exact .within hwithin (.written hcallee hinv ⟨hholds.1, hholds.2⟩ (.inr (.inl rfl)))
      fun hpc => absurd hpc hawake
  · next hcb =>
    -- it releases the mutex of the frame
    obtain ⟨hinv, hholds⟩ := hi.framed.holds hcallee (.inr (.inl hcb))
    refine .within (hrunning (by simp [hcb]))
      (.written hcallee hinv ⟨hholds.1, hholds.2⟩ (.inr (.inr rfl))) fun hpc hready => ?_
    simp [hi.asleep hpc hready] at hcb

/-- What the worker leaves behind when a callback returns. -/
theorem callbackEnds_eq {pool : InferencePool Nat} {thrown : Option Str} {d : Delivery}
    (h : (InferencePool.system p Nat).step s.pool (.callbackEnds thrown) = some pool)
    (hcallee : callee s.pool = some (i, d)) :
    callee pool = none ∧ pool.submits = s.pool.submits ∧
      ∀ j, invocations (pool.history j) = invocations (s.pool.history j) := by
  obtain ⟨id, job, guarded, hw, _⟩ := callee_eq hcallee
  simp only [InferencePool.system, InferencePool.step, hw, InferencePool.workStep,
    Option.some.injEq] at h
  subst h
  exact ⟨rfl, rfl, fun j => history_invocations rfl (by simp)⟩

/-- The return of a callback is seen by its own call only. -/
theorem callbackEnds_seen {pool : InferencePool Nat} {thrown : Option Str} {d : Delivery}
    (h : (InferencePool.system p Nat).step s.pool (.callbackEnds thrown) = some pool)
    (hcallee : callee s.pool = some (i, d)) (hne : j ≠ i) : Seen j s.pool pool := by
  obtain ⟨hnone, _, hinv⟩ := callbackEnds_eq h hcallee
  refine .nothing (fun d' => ?_) (hinv j)
  rw [hnone, hcallee]
  simp [Ne.symm hne]

theorem Sound.callbackReturned {pool : InferencePool Nat} (hi : Sound lib i (s.calls i) s.pool)
    {d : Delivery} (hcallee : callee s.pool = some (i, d))
    (hcb : (s.calls i).frame.callback = .unlocked) (hnone : callee pool = none)
    (hsubmits : pool.submits = s.pool.submits)
    (hinv : invocations (pool.history i) = invocations (s.pool.history i)) :
    Sound lib i (s.calls i).callbackReturned pool := by
  constructor
  · obtain ⟨hone, hholds⟩ := hi.framed.holds hcallee (.inr (.inr hcb))
    exact .done (by simp [hnone]) (hinv ▸ hone) ⟨hholds.1, hholds.2⟩ rfl
  · intro hpc hready
    simp [hi.asleep hpc hready] at hcb
  · intro hpc
    exact ⟨(hi.left hpc).1, rfl⟩
  · intro result hpc
    have hiff : pool.Accepted i ↔ s.pool.Accepted i := by simp [InferencePool.Accepted, hsubmits]
    cases hi.answered hpc with
    | refused hno hstatus => exact .refused (fun ha => hno (hiff.mp ha)) hstatus
    | delivered ha hready _ heq => exact .delivered (hiff.mpr ha) hready rfl heq

/-- A call that has ended is no longer in `submit`. -/
theorem ended_submits {pool : InferencePool Nat} {a : InferencePool.Act Nat}
    (hstamp : ∀ id job now, a ≠ .stamp id job now) (h : InferencePool.Moves p s.pool a pool)
    {result : Except JsonError HttpResponse} (hl : Linked (s.pool.submits i) (.ended result)) :
    pool.submits i = s.pool.submits i := by
  rcases pool_submits hstamp h i with heq | ⟨⟨hidle, hret⟩, _⟩
  · exact heq
  · cases hl.submitting hidle hret

theorem errorEnding_status {status : Int} {errorType errorCode message : Str}
    (h : status ≠ 200 ∧ status ≠ 500) (resp : HttpResponse)
    (hresp : makeErrorResponse lib status errorType errorCode message = .ok resp) :
    resp.status ≠ 200 ∧ resp.status ≠ 500 := by
  rwa [(makeErrorResponse_status hresp).1]

/-- In every reachable state all calls are sound. -/
theorem reachable_sound (h : (system lib deps p).Reachable System.Any s) :
    ∀ i, Sound lib i (s.calls i) s.pool := by
  refine System.reachable_inv_of (I := fun s => ∀ i, Sound lib i (s.calls i) s.pool) ?_ ?_ h
  · rintro s ⟨now, rfl⟩ i
    exact .within (by simp [Within]) (.untouched (by simp [callee]) rfl ⟨rfl, rfl, rfl⟩ rfl)
      (by simp)
  · intro s a t hr hi _ hst
    have hlinked := reachable_linked hr
    have set (i : Nat) (c : SpeechCall) (hc : Sound lib i c s.pool) :
        ∀ j, Sound lib j ((s.setCall i c).calls j) s.pool :=
      setCall_forall (P := fun j c => Sound lib j c s.pool) hi hc
    have unaccepted {i : Nat}
        (hid : s.pool.submits i = .idle ∨ s.pool.submits i = .returned false) :
        ¬ s.pool.Accepted i := by
      rcases hid with hid | hid <;> simp [InferencePool.Accepted, Submit.Accepted, hid]
    cases step_moves hst with
    | @reject i _ _ ending hpc hread =>
      refine set i _ ((hi i).ends rfl rfl (.refused (unaccepted (.inl ?_)) fun resp hresp => ?_))
      · simpa [hpc, Linked] using hlinked i
      · have hrejects := readSpeech_rejects hread resp hresp
        omega
    | @receive i => exact set i _ ((hi i).stays rfl (by simp [Within]) (by simp))
    | @notReady i hpc =>
      refine set i _ ((hi i).ends rfl rfl
        (.refused (unaccepted (.inl ?_)) (errorEnding_status (by decide))))
      simpa [hpc, Linked] using hlinked i
    | @goes i _ pc pc' metrics hpc hgoes =>
      obtain ⟨hasleep, hended, hleft⟩ := hgoes.target
      exact set i _ ((hi i).move rfl (fun h => absurd h hasleep)
        (fun h => (hi i).left (.inl (hpc.trans (hleft h))))
        fun result h => absurd h (hended result))
    | @submit i now hpc hidle =>
      intro j
      have hseen : Seen j s.pool { s.pool with
          submits := Function.update s.pool.submits i
            (.stamped (InferencePool.stampJob p (speechJob i (s.calls i).fields) now))
          clock := now } := .nothing (fun _ => Iff.rfl) rfl
      rcases eq_or_ne j i with rfl | hne
      · have hmove : Sound lib j { s.calls j with pc := .submitting } s.pool :=
          (hi j).stays rfl (by simp [Within]) (by simp)
        simpa [moveCall, setCall] using hmove.seen hseen (by simp)
      · have hkeep := (hi j).seen hseen fun _ _ => by simp [InferencePool.Accepted, hne]
        simpa [moveCall, setCall, hne] using hkeep
    | @refused i hpc hret =>
      exact set i _ ((hi i).ends rfl rfl
        (.refused (unaccepted (.inr hret)) (errorEnding_status (by decide))))
    | accepted => exact set _ _ ((hi _).stays rfl (by simp [Within]) (by simp))
    | sleep _ _ hready => exact set _ _ ((hi _).stays rfl (by simp [Within]) fun _ => hready)
    | leave _ hfree hready =>
      exact set _ _ ((hi _).move rfl (by simp) (fun _ => ⟨hready, hfree⟩) (by simp))
    | @respond i now hpc =>
      obtain ⟨hready, hfree⟩ := (hi i).left (.inr hpc)
      refine set i _ ((hi i).ends rfl rfl (.delivered (.inr ?_) hready hfree rfl))
      simpa [hpc, Linked] using hlinked i
    | callback hcallee hc => exact set _ _ ((hi _).callbackStep hr hcallee hc)
    | @callbackReturns k d pool hcallee hcb hpool =>
      obtain ⟨hnone, hsubmits, hinv⟩ := callbackEnds_eq hpool hcallee
      intro j
      rcases eq_or_ne j k with rfl | hne
      · simpa [setCall] using (hi j).callbackReturned hcallee hcb hnone hsubmits (hinv j)
      · have hkeep := (hi j).seen (callbackEnds_seen hpool hcallee hne) fun _ _ => by
          simp [InferencePool.Accepted, hsubmits]
        simpa [setCall, hne] using hkeep
    | pool hstamp hends hpool =>
      intro j
      have hm := InferencePool.step_moves hpool
      refine (hi j).seen (pool_seen hr hends hm j) fun result hpc => ?_
      simp only [InferencePool.Accepted, ended_submits hstamp hm (hpc ▸ hlinked j)]

end SpeechServer
end VoxtralServer
