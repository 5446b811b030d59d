import VoxtralServer.Pool.Order
import VoxtralServer.Pool.Progress

/-!
# The pool drains when it is shut down

Once `shutdown` has closed the pool, the worker finishes the jobs it was given
and exits. How many steps that takes is fixed then: eight for each job that is
still queued, and fewer for the one it holds. No schedule can add to them, and
as long as some are left a step that takes one of them is enabled.

* `runs_stepsLeft`: the steps of the worker in a run are paid for by the
  measure.
* `shutdown_enabled`: while the shutdown is under way, some step brings its return
  closer.
* `drain_bounded`: both for every run of a closed pool, and that `shutdown` can
  always return.
-/

namespace VoxtralServer

variable {κ : Type}

namespace InferencePool

/-! ## Steps that are left -/

/-- The steps of the worker in a run. -/
def workerSteps (moments : List (InferencePool κ × Act κ)) : Nat :=
  moments.countP fun m => m.2.byWorker

theorem workerSteps_append (moments : List (InferencePool κ × Act κ)) (s : InferencePool κ)
    (a : Act κ) : workerSteps (moments ++ [(s, a)]) = workerSteps moments + a.byWorker.toNat := by
  simp only [workerSteps, List.countP_append, List.countP_singleton]
  cases a.byWorker <;> rfl

variable {p : Params} {s s' : InferencePool κ}

/-- In a closed pool no step adds to what is left, and each step of the worker
takes one off. -/
theorem Moves.stepsLeft {a : Act κ} (h : Moves p s a s') (hs : s.accepting = false) :
    s'.stepsLeft + a.byWorker.toNat ≤ s.stepsLeft := by
  cases hworker : a.byWorker with
  | true =>
    have hlt := (h.drains hworker fun _ => .inr hs).lowers
    rw [Bool.toNat_true]
    omega
  | false =>
    rw [Bool.toNat_false, Nat.add_zero]
    unfold InferencePool.stepsLeft
    cases h with
    | push _ hopen =>
      rw [hs] at hopen
      cases hopen
    | notifyOne => exact Nat.add_le_add_left s.worker.notified_stepsLeft _
    | notifyAll => exact Nat.add_le_add_left s.worker.notified_stepsLeft _
    | work hw hwork =>
      rw [hw]
      exact Nat.add_le_add_left (Nat.succ_le_succ hwork.lowers.le) _
    | sleep | exit | dequeue | wake | finish => cases hworker
    | _ => exact Nat.le_refl _

theorem runs_stepsLeft {moments : List (InferencePool κ × Act κ)}
    (h : (system p κ).Runs System.Any s moments s') (hs : s.accepting = false) :
    workerSteps moments + s'.stepsLeft ≤ s.stepsLeft := by
  induction h with
  | refl => simp [workerSteps]
  | @step moments t u a hruns _ hst ih =>
    have hclosed := (closed_forever hruns.reaches hs).1
    have hstep := (step_moves hst).stepsLeft hclosed
    have hcount := workerSteps_append moments t a
    omega

/-- The steps that are left when the pool is closed are bounded by its
parameters. -/
theorem reachable_stepsLeft (h : (system p κ).Reachable System.Any s)
    (hmax : p.maxQueueDepth < 2 ^ 31) : (s.stepsLeft : Int) ≤ 8 * p.maxQueueDepth + 8 := by
  have hqueue := reachable_queueLength h hmax
  have hworker := s.worker.stepsLeft_le
  unfold stepsLeft
  omega

/-! ## The shutdown returns -/

/-- How many steps the thread that shuts the pool down has left. -/
def Shutdown.rank : Shutdown → Nat
  | .notifying => 2
  | .joining => 1
  | .idle | .returned => 0

/-- While `shutdown` is under way, some step brings its return closer. -/
theorem shutdown_enabled (h : (system p κ).Reachable System.Any s)
    (hs : s.shutdown = .notifying ∨ s.shutdown = .joining) :
    ∃ a s', step p s a = some s' ∧
      (s'.shutdown = .notifying ∨ s'.shutdown = .joining ∨ s'.shutdown = .returned) ∧
      s'.stepsLeft + s'.shutdown.rank < s.stepsLeft + s.shutdown.rank ∧
      (s.Uncalled → a.Own) := by
  have hclosed : s.accepting = false :=
    (reachable_closed h).closing (by rcases hs with hs | hs <;> simp [hs])
  by_cases hw : s.worker = .exited
  · rcases hs with hs | hs
    · have hst : step p s .notifyAll = some { s with
          worker := s.worker.notified
          shutdown := .joining } := by
        simp only [step, hs, if_true]
      refine ⟨.notifyAll, _, hst, .inr (.inl rfl), ?_, fun _ => trivial⟩
      simp [stepsLeft, hs, hw, Worker.notified, Shutdown.rank]
    · have hst : step p s .join = some { s with shutdown := .returned } := by
        simp only [step, hs, hw]
      refine ⟨.join, _, hst, .inr (.inr rfl), ?_, fun _ => trivial⟩
      simp [stepsLeft, hs, Shutdown.rank]
  · obtain ⟨a, s', hst, hdrains, hown⟩ := worker_enabled h hw (.inr (.inr hclosed))
    have hlt := hdrains.lowers
    rcases hdrains.shutdown with hsame | hjoining
    · exact ⟨a, s', hst, by rw [hsame]; exact hs.imp_right .inl, by rw [hsame]; omega, hown⟩
    · refine ⟨a, s', hst, .inr (.inl hjoining), ?_, hown⟩
      have : 1 ≤ s.shutdown.rank := by rcases hs with hs | hs <;> simp [hs, Shutdown.rank]
      rw [hjoining, Shutdown.rank]
      omega

/-- A call of `shutdown` under way can return. -/
theorem shutdown_returns (h : (system p κ).Reachable System.Any s)
    (hs : s.shutdown = .notifying ∨ s.shutdown = .joining) :
    ∃ t, (system p κ).Reaches System.Any s t ∧ t.shutdown = .returned := by
  refine System.reaches_goal (S := system p κ)
    (I := fun s => (system p κ).Reachable System.Any s ∧
      (s.shutdown = .notifying ∨ s.shutdown = .joining ∨ s.shutdown = .returned))
    (fun s => s.stepsLeft + s.shutdown.rank) ?_ ⟨h, hs.imp_right .inl⟩
  rintro s ⟨hr, hs⟩ hgoal
  have hunder : s.shutdown = .notifying ∨ s.shutdown = .joining :=
    hs.imp_right fun h => h.resolve_right hgoal
  obtain ⟨a, t, hst, ht, hlt, _⟩ := shutdown_enabled hr hunder
  exact ⟨a, t, trivial, hst, ⟨hr.step trivial hst, ht⟩, hlt⟩

/-- **The pool drains.** From the moment at which the pool is closed, in every run,

* the worker takes no more steps than are left at that moment, which is at most
  eight for each place in the queue and eight more;
* as long as the worker has not exited, a step is enabled that takes some of them;
* when it has exited, every accepted job is finished;
* and a call of `shutdown` that has not returned can return. -/
theorem drain_bounded (p : Params) {s : InferencePool κ}
    (h : (system p κ).Reachable System.Any s) (hs : s.accepting = false) :
    (p.maxQueueDepth < 2 ^ 31 → (s.stepsLeft : Int) ≤ 8 * p.maxQueueDepth + 8) ∧
    ∀ moments t, (system p κ).Runs System.Any s moments t →
      workerSteps moments + t.stepsLeft ≤ s.stepsLeft ∧
      (t.worker ≠ .exited → ∃ a u, (system p κ).step t a = some u ∧ u.stepsLeft < t.stepsLeft) ∧
      (t.worker = .exited → ∀ id, t.Accepted id → id ∈ t.finishedIds) ∧
      (t.shutdown = .notifying ∨ t.shutdown = .joining →
        ∃ u, (system p κ).Reaches System.Any t u ∧ u.shutdown = .returned) := by
  refine ⟨reachable_stepsLeft h, fun moments t hruns => ?_⟩
  have ht := h.trans hruns.reaches
  refine ⟨runs_stepsLeft hruns hs, fun hw => ?_, fun hw id => exited_finished ht hw,
    shutdown_returns ht⟩
  have hclosed := (closed_forever hruns.reaches hs).1
  obtain ⟨a, u, hst, hdrains, _⟩ := worker_enabled ht hw (.inr (.inr hclosed))
  exact ⟨a, u, hst, hdrains.lowers⟩

/-- A pool that is closed with one job in its queue and the worker
asleep: 10 steps are left. -/
theorem drain_bounded_one : ∃ s : InferencePool Bool,
    (system {} Bool).Reachable System.Any s ∧ s.stepsLeft = 10 ∧ s.shutdown = .notifying ∧
    (∃ a u, (system {} Bool).step s a = some u ∧ u.stepsLeft < s.stepsLeft) ∧
    ∃ u, (system {} Bool).Reaches System.Any s u ∧ u.shutdown = .returned := by
  obtain ⟨s, hrun, hreach⟩ :=
    System.exists_reachable (S := system {} Bool) (G := System.Any)
      [.poll, .stamp 0 exJob 0, .lock 0, .close] ⟨0, rfl⟩ (by decide)
  cases hrun
  obtain ⟨_, hlater⟩ := drain_bounded {} hreach rfl
  obtain ⟨_, hgoes, _, hreturns⟩ := hlater [] _ .refl
  exact ⟨_, hreach, rfl, rfl, hgoes nofun, hreturns (.inl rfl)⟩

end InferencePool
end VoxtralServer
