import VoxtralServer.Pool.Delivery

/-!
# The inference pool does not get stuck

How many steps the worker has left of the jobs that the pool holds, and that some
thread of the pool can take one that brings it closer to their end, whatever the
backend does.

* `Moves.drains`: each step of the worker takes one off, but that of falling asleep
  on an empty queue.
* `worker_enabled`: as long as the worker has a job, a queue or the end of a closed
  pool before it, such a step is enabled, or one that notifies the worker.
-/

namespace VoxtralServer

variable {κ : Type}

/-- The stages of a job that the worker holds. -/
def Stage.working : Stage κ → Bool
  | .absent | .refused | .queued _ | .finished _ _ => false
  | _ => true

/-- How many steps the worker takes at most before it leaves the job. -/
def Stage.stepsLeft : Stage κ → Nat
  | .checking _ => 7
  | .entering _ => 6
  | .synthesizing _ => 5
  | .rechecking _ _ => 4
  | .delivering _ _ _ => 3
  | .calling _ _ _ => 2
  | .leaving _ _ _ => 1
  | .absent | .refused | .queued _ | .finished _ _ => 0

theorem Stage.stepsLeft_le (st : Stage κ) : st.stepsLeft ≤ 7 := by
  cases st <;> simp [stepsLeft]

theorem Stage.stepsLeft_pos (st : Stage κ) (h : st.working = true) : 0 < st.stepsLeft := by
  cases st <;> simp_all [working, stepsLeft]

theorem Work.working {st st' : Stage κ} {e : WorkEvent κ} (h : Work st e st') :
    st'.working = true := by
  cases h <;> rfl

theorem Work.lowers {st st' : Stage κ} {e : WorkEvent κ} (h : Work st e st') :
    st'.stepsLeft < st.stepsLeft := by
  cases h <;> simp [Stage.stepsLeft]

namespace InferencePool

/-! ## Steps that are left -/

/-- How many steps the worker of a closed pool takes before it exits when the
queue is empty. -/
def Worker.stepsLeft : Worker κ → Nat
  | .exited => 0
  | .polling => 1
  | .asleep => 2
  | .busy _ st => st.stepsLeft + 1

/-- How many steps the worker of a closed pool takes at most before it exits. -/
def stepsLeft (s : InferencePool κ) : Nat := 8 * s.queue.length + s.worker.stepsLeft

/-- The steps of the worker thread. -/
def Act.byWorker : Act κ → Bool
  | .poll | .wake | .check _ | .enter | .backendReturns _ | .backendThrows _ | .recheck _
  | .deliver | .callbackEnds _ | .finish => true
  | .stamp _ _ _ | .lock _ | .notifyOne _ | .close | .notifyAll | .join => false

/-- The steps that neither start a call of `submit` nor end a callback, and no
spurious wake-up. -/
def Act.Own : Act κ → Prop
  | .stamp _ _ _ => False
  | .callbackEnds _ => False
  | .wake => False
  | _ => True

/-- The worker runs no callback. -/
def Uncalled (s : InferencePool κ) : Prop :=
  ∀ id job d guarded, s.worker ≠ .busy id (.calling job d guarded)

variable {p : Params} {s s' : InferencePool κ}

theorem Worker.notified_stepsLeft (w : Worker κ) : w.notified.stepsLeft ≤ w.stepsLeft := by
  cases w <;> simp [notified, stepsLeft]

theorem Worker.stepsLeft_le (w : Worker κ) : w.stepsLeft ≤ 8 := by
  cases w with
  | busy _ st => exact Nat.succ_le_succ st.stepsLeft_le
  | _ => simp [stepsLeft]

theorem reachable_working (h : (system p κ).Reachable System.Any s) :
    ∀ id st, s.worker = .busy id st → st.working = true := by
  refine System.reachable_inv
    (I := fun s => ∀ id st, s.worker = .busy id st → st.working = true) ?_ ?_ h
  · rintro s ⟨now, rfl⟩ id st hw
    cases hw
  · intro s a t hi _ hst id st hw
    cases step_moves hst with
    | notifyOne => exact hi id st (Worker.notified_busy hw)
    | notifyAll => exact hi id st (Worker.notified_busy hw)
    | sleep => cases hw
    | exit => cases hw
    | wake => cases hw
    | finish => cases hw
    | dequeue =>
      cases hw
      rfl
    | work _ hwork =>
      cases hw
      exact hwork.working
    | _ => exact hi id st hw

/-! ## Steps that bring the worker closer -/

/-- What such a step does. It ends no other call of `submit` than one that is to
notify the worker. -/
structure Drains (s s' : InferencePool κ) : Prop where
  lowers : s'.stepsLeft < s.stepsLeft
  shutdown : s'.shutdown = s.shutdown ∨ s'.shutdown = .joining
  submits {id : Nat} : s.submits id ≠ .notifying → s'.submits id = s.submits id

/-- Each step of the worker is such a step, unless it polls an empty queue while the
pool accepts. -/
theorem Moves.drains {a : Act κ} (h : Moves p s a s') (ha : a.byWorker = true)
    (hgo : s.worker = .polling → s.queue ≠ [] ∨ s.accepting = false) : Drains s s' := by
  suffices hlowers : s'.stepsLeft < s.stepsLeft ∧ s'.shutdown = s.shutdown ∧
      s'.submits = s.submits from
    ⟨hlowers.1, .inl hlowers.2.1, fun _ => by rw [hlowers.2.2]⟩
  unfold InferencePool.stepsLeft
  cases h with
  | sleep hw hopen hq =>
    rcases hgo hw with hne | hclosed
    · exact absurd hq hne
    · rw [hopen] at hclosed
      cases hclosed
  | exit hw => simp [hw, Worker.stepsLeft]
  | dequeue hw hq =>
    refine ⟨?_, rfl, rfl⟩
    simp only [hw, hq, List.length_cons, Worker.stepsLeft, Stage.stepsLeft]
    omega
  | wake hw => simp [hw, Worker.stepsLeft]
  | work hw hwork =>
    refine ⟨?_, rfl, rfl⟩
    simp only [hw, Worker.stepsLeft]
    exact Nat.add_lt_add_left (Nat.succ_lt_succ hwork.lowers) _
  | finish hw => simp [hw, Worker.stepsLeft, Stage.stepsLeft]
  | _ => cases ha

/-! ## Such a step is enabled -/

/-- The worker can go on with the job it holds, and outside a callback by a step of
its own. -/
theorem workStep_enabled {id : Nat} {st : Stage κ} (hw : s.worker = .busy id st)
    (hworking : st.working = true) :
    ∃ a : Act κ, a.byWorker = true ∧ (s.Uncalled → a.Own) ∧ (step p s a).isSome = true := by
  cases st with
  | checking job =>
    refine ⟨.check s.clock, rfl, fun _ => trivial, ?_⟩
    simp only [step, hw, workStep, le_refl, if_true]
    split <;> rfl
  | entering job => exact ⟨.enter, rfl, fun _ => trivial, by simp [step, hw, workStep]⟩
  | synthesizing job =>
    exact ⟨.backendReturns {}, rfl, fun _ => trivial, by simp [step, hw, workStep]⟩
  | rechecking job result =>
    refine ⟨.recheck s.clock, rfl, fun _ => trivial, ?_⟩
    simp only [step, hw, workStep, le_refl, if_true]
    split <;> rfl
  | delivering job d guarded =>
    refine ⟨.deliver, rfl, fun _ => trivial, ?_⟩
    simp only [step, hw, workStep]
    split <;> rfl
  | calling job d guarded =>
    exact ⟨.callbackEnds none, rfl, fun huncalled => absurd hw (huncalled id job d guarded),
      by simp [step, hw, workStep]⟩
  | leaving job d guarded => exact ⟨.finish, rfl, fun _ => trivial, by simp [step, hw, workStep]⟩
  | absent => cases hworking
  | refused => cases hworking
  | queued => cases hworking
  | finished => cases hworking

theorem busy_enabled {id : Nat} {st : Stage κ} (hw : s.worker = .busy id st)
    (hworking : st.working = true) :
    ∃ a s', step p s a = some s' ∧ Drains s s' ∧ a.byWorker = true ∧ (s.Uncalled → a.Own) := by
  obtain ⟨a, ha, hown, hsome⟩ := workStep_enabled (p := p) hw hworking
  obtain ⟨s', hst⟩ := Option.isSome_iff_exists.mp hsome
  have hgo (hpolling : s.worker = .polling) : s.queue ≠ [] ∨ s.accepting = false := by
    rw [hw] at hpolling
    cases hpolling
  exact ⟨a, s', hst, (step_moves hst).drains ha hgo, ha, hown⟩

/-- A worker that polls takes the first job of the queue, or exits. -/
theorem poll_enabled (hw : s.worker = .polling) (hgo : s.queue ≠ [] ∨ s.accepting = false) :
    ∃ s', step p s .poll = some s' ∧ Drains s s' := by
  have hsome : (step p s .poll).isSome = true := by
    simp only [step, hw]
    split
    · rfl
    · cases s.queue <;> rfl
  obtain ⟨s', hst⟩ := Option.isSome_iff_exists.mp hsome
  have hmoves : Moves p s .poll s' := step_moves hst
  exact ⟨s', hst, hmoves.drains rfl fun _ => hgo⟩

/-- A worker that sleeps although it could go on is about to be notified. -/
theorem asleep_enabled (h : (system p κ).Reachable System.Any s) (hw : s.worker = .asleep)
    (hgo : s.queue ≠ [] ∨ s.accepting = false) :
    ∃ a s', step p s a = some s' ∧ s'.worker = .polling ∧ s'.queue = s.queue ∧
      Drains s s' ∧ a.Own := by
  have hpolling : s.worker.notified = .polling := by rw [hw, Worker.notified]
  have hlowers {s' : InferencePool κ} (hqueue : s'.queue = s.queue)
      (hworker : s'.worker = .polling) : s'.stepsLeft < s.stepsLeft := by
    simp [stepsLeft, hqueue, hworker, hw, Worker.stepsLeft]
  rcases (reachable_closed h).woken hw hgo with ⟨id, hid⟩ | hshutdown
  · have hst : step p s (.notifyOne id) = some { s with
        submits := Function.update s.submits id (.returned true)
        worker := s.worker.notified } := by
      simp only [step, hid]
    refine ⟨.notifyOne id, _, hst, hpolling, rfl, ⟨hlowers rfl hpolling, .inl rfl, ?_⟩, trivial⟩
    intro j hj
    refine Function.update_of_ne ?_ ..
    rintro rfl
    exact hj hid
  · have hst : step p s .notifyAll = some { s with
        worker := s.worker.notified
        shutdown := .joining } := by
      simp only [step, hshutdown, if_true]
    exact ⟨.notifyAll, _, hst, hpolling, rfl, ⟨hlowers rfl hpolling, .inr rfl, fun _ => rfl⟩,
      trivial⟩

/-- A worker that has not exited goes on with its job, its queue or its end, or is
about to be notified. -/
theorem worker_enabled (h : (system p κ).Reachable System.Any s) (hw : s.worker ≠ .exited)
    (hgo : (∃ id st, s.worker = .busy id st) ∨ s.queue ≠ [] ∨ s.accepting = false) :
    ∃ a s', step p s a = some s' ∧ Drains s s' ∧ (s.Uncalled → a.Own) := by
  cases hworker : s.worker with
  | exited => exact absurd hworker hw
  | busy id st =>
    have hworking := reachable_working h id st hworker
    obtain ⟨a, s', hst, hdrains, _, hown⟩ := busy_enabled hworker hworking
    exact ⟨a, s', hst, hdrains, hown⟩
  | polling =>
    have hgo' : s.queue ≠ [] ∨ s.accepting = false := hgo.resolve_left (by simp [hworker])
    obtain ⟨s', hst, hdrains⟩ := poll_enabled hworker hgo'
    exact ⟨.poll, s', hst, hdrains, fun _ => trivial⟩
  | asleep =>
    have hgo' : s.queue ≠ [] ∨ s.accepting = false := hgo.resolve_left (by simp [hworker])
    obtain ⟨a, s', hst, _, _, hdrains, hown⟩ := asleep_enabled h hworker hgo'
    exact ⟨a, s', hst, hdrains, fun _ => hown⟩

end InferencePool
end VoxtralServer
