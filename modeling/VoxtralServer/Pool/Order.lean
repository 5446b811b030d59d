import VoxtralServer.Lib.Blocks
import VoxtralServer.Pool.Delivery

/-!
# Order and bounds of the inference pool

The worker processes one job after the other, in the order of their pushes, and
the counters that the pool exposes say so.

* `step_active`: the active counter follows the worker's `ActiveGuard`.
* `step_queueLength`: a push that the bound allows keeps the queue within it.
* `reachable_blocks`: what the worker does to the jobs comes in blocks, one for
  each job, in the order of the pushes.
* `order_and_bounds`: all of this in every reachable state.
-/

namespace VoxtralServer

variable {κ : Type}

/-! ## The guard of a job -/

/-- The worker holds the `ActiveGuard` at this stage. -/
@[simp]
def Stage.guarded : Stage κ → Bool
  | .synthesizing _ | .rechecking _ _ => true
  | .delivering _ _ guarded | .calling _ _ guarded | .leaving _ _ guarded => guarded
  | .absent | .refused | .queued _ | .checking _ | .entering _ | .finished _ _ => false

/-- The job was dropped at its dequeue, and the worker still holds it. -/
@[simp]
def Stage.dropped : Stage κ → Bool
  | .delivering _ _ guarded | .calling _ _ guarded | .leaving _ _ guarded => !guarded
  | .absent | .refused | .queued _ | .checking _ | .entering _ | .synthesizing _
  | .rechecking _ _ | .finished _ _ => false

/-- The event is a call of the backend. -/
def JobEvent.isCall : JobEvent κ → Bool
  | .worked (.called _) => true
  | _ => false

/-- The event is the invocation of a terminal callback. -/
def JobEvent.isInvocation : JobEvent κ → Bool
  | .worked (.invoked _ _) => true
  | _ => false

/-- The event is one that the worker causes. -/
def JobEvent.byWorker : JobEvent κ → Bool
  | .dequeued | .worked _ | .finished => true
  | .refused | .pushed _ => false

/-- A job was past its deadline when it was dequeued. -/
def Expired (h : List (JobEvent κ)) : Prop :=
  ∃ job now, .pushed job ∈ h ∧ .worked (.checked now) ∈ h ∧ job.deadline ≤ now

theorem Expired.append {h : List (JobEvent κ)} (hexp : Expired h) (h' : List (JobEvent κ)) :
    Expired (h ++ h') := by
  obtain ⟨job, now, hjob, hnow, hle⟩ := hexp
  exact ⟨job, now, List.mem_append_left _ hjob, List.mem_append_left _ hnow, hle⟩

/-- Until a job is finished, the backend was called for it exactly when the
worker holds the guard. -/
theorem Life.calls_eq {h : List (JobEvent κ)} {st : Stage κ} (hl : Life h st)
    (hst : ∀ job d, st ≠ .finished job d) : h.countP JobEvent.isCall = st.guarded.toNat := by
  induction hl with
  | absent => rfl
  | refuse _ ih => simpa [JobEvent.isCall] using ih (by simp)
  | push _ ih => simpa [JobEvent.isCall] using ih (by simp)
  | dequeue _ ih => simpa [JobEvent.isCall] using ih (by simp)
  | finish => exact absurd rfl (hst _ _)
  | work hl hw ih =>
    have hprev := ih fun job d heq => by
      subst heq
      cases hw
    cases hw <;> simpa [JobEvent.isCall] using hprev

theorem Life.calls_le {h : List (JobEvent κ)} {st : Stage κ} (hl : Life h st) :
    h.countP JobEvent.isCall ≤ 1 := by
  cases st with
  | finished job d =>
    cases hl with
    | @finish h _ _ guarded hl =>
      have hlast : [(.finished : JobEvent κ)].countP JobEvent.isCall = 0 := rfl
      rw [List.countP_append, hlast, hl.calls_eq (by simp)]
      exact Bool.toNat_le _
    | work _ hw => cases hw
  | _ =>
    rw [hl.calls_eq (by simp)]
    exact Bool.toNat_le _

theorem countP_isInvocation (h : List (JobEvent κ)) :
    h.countP JobEvent.isInvocation = (invocations h).length := by
  induction h with
  | nil => rfl
  | cons e h ih =>
    rw [List.countP_cons, ih]
    cases e with
    | worked e => cases e <;> rfl
    | _ => rfl

/-- At most one callback is invoked for a job. -/
theorem Life.invocations_le {h : List (JobEvent κ)} {st : Stage κ} (hl : Life h st) :
    h.countP JobEvent.isInvocation ≤ 1 := by
  have hcalls (job : InferenceJob κ) (d : Delivery) : (job.calls d).length ≤ 1 := by
    unfold InferenceJob.calls
    cases job.callback d <;> simp
  rw [countP_isInvocation, hl.invocations_eq]
  cases st with
  | calling job d _ => exact hcalls job d
  | leaving job d _ => exact hcalls job d
  | finished job d => exact hcalls job d
  | _ => exact Nat.zero_le _

/-- The worker delivers without the guard only to a job that had expired. -/
theorem Life.dropped_expired {h : List (JobEvent κ)} {st : Stage κ} (hl : Life h st)
    (hst : st.dropped = true) : Expired h := by
  induction hl with
  | work hl hw ih =>
    cases hw with
    | @expire job now hnow =>
      exact ⟨job, now, by simp [hl.pushed_mem rfl], by simp, hnow⟩
    | invoke => exact (ih hst).append _
    | skip => exact (ih hst).append _
    | complete => exact (ih hst).append _
    | _ => cases hst
  | _ => cases hst

namespace InferencePool

variable {p : Params} {s s' : InferencePool κ} {a : Act κ} {id : Nat}

/-! ## The counters -/

/-- `queue_depth`. -/
def queueDepth (s : InferencePool κ) : Int := intOfSize s.queue.length

/-- `active_jobs`. -/
def activeJobs (s : InferencePool κ) : Int := s.active

/-- `expired_jobs`. -/
def expiredJobs (s : InferencePool κ) : Int := s.expired

/-- The worker holds the `ActiveGuard`. -/
@[simp]
def Worker.guarded : Worker κ → Bool
  | .busy _ st => st.guarded
  | .polling | .asleep | .exited => false

/-- The worker holds a job that it dropped at its dequeue. -/
@[simp]
def Worker.dropped : Worker κ → Bool
  | .busy _ st => st.dropped
  | .polling | .asleep | .exited => false

@[simp] theorem Worker.notified_guarded (w : Worker κ) : w.notified.guarded = w.guarded := by
  cases w <;> rfl

@[simp] theorem Worker.notified_dropped (w : Worker κ) : w.notified.dropped = w.dropped := by
  cases w <;> rfl

/-- What a step does to the counters. The expired one counts the jobs that the
worker drops, and keeps counting them when they are finished. -/
structure Counts (s s' : InferencePool κ) : Prop where
  active : s.active = s.worker.guarded.toNat → s'.active = s'.worker.guarded.toNat
  expired :
    (∃ id job d guarded, s.worker = .busy id (.leaving job d guarded) ∧ s'.worker = .polling ∧
      s'.trace = s.trace ++ [(id, .finished)] ∧ s'.expired = s.expired) ∨
    (∀ id, s'.trace ≠ s.trace ++ [(id, .finished)]) ∧
      ∀ n, s.expired = intOfSize (n + s.worker.dropped.toNat) →
        s'.expired = intOfSize (n + s'.worker.dropped.toNat)

theorem Counts.of_eq (ha : s'.active = s.active) (he : s'.expired = s.expired)
    (hg : s'.worker.guarded = s.worker.guarded) (hd : s'.worker.dropped = s.worker.dropped)
    (htrace : ∀ id, s'.trace ≠ s.trace ++ [(id, .finished)]) : Counts s s' :=
  ⟨fun h => by rw [ha, hg, h], .inr ⟨htrace, fun n h => by rw [he, hd, h]⟩⟩

/-- The steps of the worker on its job that move neither counter. -/
theorem Counts.advance {st st' : Stage κ} {e : WorkEvent κ} {now : Int}
    (hw : s.worker = .busy id st) (hg : st'.guarded = st.guarded) (hd : st'.dropped = st.dropped) :
    Counts s { s.advance id e st' with clock := now } :=
  .of_eq rfl rfl (by simpa [InferencePool.advance, hw] using hg)
    (by simpa [InferencePool.advance, hw] using hd) (by simp [InferencePool.advance])

theorem workStep_counts {st : Stage κ} (hw : s.worker = .busy id st)
    (h : workStep s id st a = some s') : Counts s s' := by
  unfold workStep at h
  split at h
  · split at h
    · split at h
      · cases h
        refine ⟨by simp [advance, hw], .inr ⟨by simp [advance], fun n hn => ?_⟩⟩
        have hzero : s.expired = intOfSize n := by simpa [hw] using hn
        exact (congrArg (fetchAdd · 1) hzero).trans (fetchAdd_intOfSize n)
      · cases h
        exact .advance hw rfl rfl
    · cases h
  · cases h
    refine ⟨fun ha => ?_, .inr ⟨by simp [advance], by simp [advance, hw]⟩⟩
    have hzero : s.active = 0 := by simpa [hw] using ha
    exact congrArg (fetchAdd · 1) hzero
  · cases h
    exact .advance hw rfl rfl
  · cases h
    exact .advance hw rfl rfl
  · split at h
    · split at h
      · cases h
        exact .advance hw rfl rfl
      · cases h
        exact .advance hw rfl rfl
    · cases h
  · split at h
    · cases h
      exact .advance hw rfl rfl
    · cases h
      exact .advance hw rfl rfl
  · cases h
    exact .advance hw rfl rfl
  · next guarded =>
    cases h
    refine ⟨fun ha => ?_, .inl ⟨_, _, _, _, hw, rfl, rfl, rfl⟩⟩
    cases guarded with
    | true =>
      have hone : s.active = 1 := by simpa [hw] using ha
      exact congrArg (fetchAdd · (-1)) hone
    | false => simpa [hw] using ha
  · cases h

/-- The counters change only with what the worker does to a job. -/
theorem step_counts (h : (system p κ).step s a = some s') : Counts s s' := by
  simp only [system, step] at h
  split at h
  · -- stamp
    split at h
    · split at h
      · cases h
        exact .of_eq rfl rfl rfl rfl (by simp)
      · cases h
    · cases h
  · -- lock
    split at h
    · split at h <;> cases h <;> exact .of_eq rfl rfl rfl rfl (by simp)
    · cases h
  · -- notifyOne
    split at h
    · cases h
      exact .of_eq rfl rfl (Worker.notified_guarded _) (Worker.notified_dropped _) (by simp)
    · cases h
  · -- close
    split at h
    · cases h
      exact .of_eq rfl rfl rfl rfl (by simp)
    · cases h
  · -- notifyAll
    split at h
    · cases h
      exact .of_eq rfl rfl (Worker.notified_guarded _) (Worker.notified_dropped _) (by simp)
    · cases h
  · -- join
    split at h
    · cases h
      exact .of_eq rfl rfl rfl rfl (by simp)
    · cases h
  · -- poll
    split at h
    · next hw =>
      split at h
      · cases h
        exact .of_eq rfl rfl (by simp [hw]) (by simp [hw]) (by simp)
      · split at h <;> cases h <;> exact .of_eq rfl rfl (by simp [hw]) (by simp [hw]) (by simp)
    · cases h
  · -- wake
    split at h
    · next hw =>
      cases h
      exact .of_eq rfl rfl (by simp [hw]) (by simp [hw]) (by simp)
    · cases h
  · -- the worker on its job
    split at h
    · next hw => exact workStep_counts hw h
    · cases h

/-- The active counter is one while the worker holds the guard, else zero. -/
theorem reachable_active (h : (system p κ).Reachable System.Any s) :
    s.activeJobs = s.worker.guarded.toNat := by
  refine System.reachable_inv (I := fun s => s.activeJobs = s.worker.guarded.toNat) ?_ ?_ h
  · rintro s ⟨now, rfl⟩
    rfl
  · exact fun s a t hi _ hst => (step_counts hst).active hi

/-! ## The bound on the queue -/

theorem bmod_natCast_le (n m : Nat) : (n : Int).bmod m ≤ n := by
  have hmod : (n : Int) % m ≤ n := Int.ofNat_le.mpr (Nat.mod_le n m)
  rw [Int.bmod_def]
  split
  · exact hmod
  · exact Int.le_trans (Int.sub_le_self _ (Int.natCast_nonneg m)) hmod

theorem intOfSize_le (n : Nat) : intOfSize n ≤ n := bmod_natCast_le n _

/-- A push that the bound allows keeps the queue within it. A bound is an `int`,
and one that no `int` reaches bounds nothing. -/
theorem reachable_queueLength (h : (system p κ).Reachable System.Any s)
    (hmax : p.maxQueueDepth < 2 ^ 31) : (s.queue.length : Int) ≤ p.maxQueueDepth := by
  refine System.reachable_inv (I := fun s => (s.queue.length : Int) ≤ p.maxQueueDepth) ?_ ?_ h
  · rintro s ⟨now, rfl⟩
    have := p.depth_pos
    simp only [List.length_nil]
    omega
  · intro s a t hi _ hst
    cases step_moves hst with
    | push _ _ hroom =>
      have hdepth : intOfSize s.queue.length = s.queue.length := intOfSize_eq_self (by omega)
      rw [hdepth] at hroom
      simp only [List.length_append, List.length_singleton]
      omega
    | dequeue _ hq =>
      rw [hq, List.length_cons] at hi
      dsimp only
      omega
    | _ => exact hi

theorem reachable_queueDepth (h : (system p κ).Reachable System.Any s) :
    s.queueDepth ≤ p.maxQueueDepth := by
  rcases Int.lt_or_le p.maxQueueDepth (2 ^ 31) with hmax | hmax
  · exact Int.le_trans (intOfSize_le _) (reachable_queueLength h hmax)
  · have hlt : s.queueDepth < 2 ^ 31 := by
      unfold queueDepth intOfSize
      exact Int.lt_of_lt_of_le (Int.bmod_lt (by decide)) (by decide)
    omega

/-! ## One job after the other -/

/-- What the worker did to the jobs. -/
def workerTrace (s : InferencePool κ) : List (Nat × JobEvent κ) :=
  s.trace.filter fun entry => entry.2.byWorker

/-- The jobs that the worker has dequeued, in order. -/
def takenIds (s : InferencePool κ) : List Nat := s.finishedIds ++ s.worker.held.toList

/-- The jobs that have an event of the given kind, in the order of these events. -/
def markedIds (s : InferencePool κ) (mark : JobEvent κ → Bool) : List Nat :=
  (s.trace.filter fun entry => mark entry.2).map Prod.fst

theorem workerTrace_append {e : JobEvent κ} (h : s'.trace = s.trace ++ [(id, e)]) :
    s'.workerTrace = s.workerTrace ++ if e.byWorker then [(id, e)] else [] := by
  rw [workerTrace, h, List.filter_append, List.filter_singleton, Bool.cond_eq_ite]
  rfl

/-- An event that the worker does not cause leaves what it did. -/
theorem blocks_of_quiet {e : JobEvent κ} (htrace : s'.trace = s.trace ++ [(id, e)])
    (he : e.byWorker = false) (hworker : s'.worker = s.worker)
    (hi : Blocks s.workerTrace s.takenIds) : Blocks s'.workerTrace s'.takenIds := by
  have hfinished : s'.finishedIds = s.finishedIds := by
    rw [finishedIds_append htrace]
    cases e <;> simp_all [JobEvent.byWorker]
  rw [workerTrace_append htrace, he, takenIds, hfinished, hworker]
  simpa [takenIds] using hi

/-- What the worker did to the jobs comes in blocks, one for each job. -/
theorem reachable_blocks (h : (system p κ).Reachable System.Any s) :
    Blocks s.workerTrace s.takenIds := by
  refine System.reachable_inv_of (I := fun s => Blocks s.workerTrace s.takenIds) ?_ ?_ h
  · rintro s ⟨now, rfl⟩
    rfl
  · intro s a t hr hi _ hst
    have hfifo := reachable_fifo hr
    have hplaced := reachable_placed hr
    cases step_moves hst with
    | @dequeue id job rest hw hq =>
      have hnew : id ∉ s.takenIds := by
        simp only [takenIds, hw, Worker.held, Option.toList_none, List.append_nil]
        exact hfifo.pending_not_done (by simp [fifo, queueIds, hq])
      have hnext := hi.start hnew .dequeued
      rw [workerTrace_append (s := s) rfl, takenIds, finishedIds_append (s := s) rfl]
      simpa [takenIds, hw, Worker.held, JobEvent.byWorker] using hnext
    | @work id st st' _ e _ _ _ hw =>
      have hnot : id ∉ s.finishedIds := fun hd => (hplaced.finished hd).2.2 _ hw
      rw [takenIds, hw] at hi
      have hnext := hi.extend hnot (.worked e)
      rw [workerTrace_append (s := s) rfl, takenIds, finishedIds_append (s := s) rfl]
      simpa [Worker.held, JobEvent.byWorker] using hnext
    | @finish id job d guarded _ hw =>
      have hnot : id ∉ s.finishedIds := fun hd => (hplaced.finished hd).2.2 _ hw
      rw [takenIds, hw] at hi
      have hnext := hi.extend hnot .finished
      rw [workerTrace_append (s := s) rfl, takenIds, finishedIds_append (s := s) rfl]
      simpa [Worker.held, JobEvent.byWorker] using hnext
    | refuse => exact blocks_of_quiet rfl rfl rfl hi
    | push => exact blocks_of_quiet rfl rfl rfl hi
    | notifyOne => simpa [workerTrace, takenIds, finishedIds] using hi
    | notifyAll => simpa [workerTrace, takenIds, finishedIds] using hi
    | sleep hw => simpa [workerTrace, takenIds, finishedIds, hw, Worker.held] using hi
    | exit hw => simpa [workerTrace, takenIds, finishedIds, hw, Worker.held] using hi
    | wake hw => simpa [workerTrace, takenIds, finishedIds, hw, Worker.held] using hi
    | _ => exact hi

/-- The events of a job in the trace are those of its history. -/
theorem countP_history (mark : JobEvent κ → Bool) (s : InferencePool κ) (id : Nat) :
    (eventsOf s.trace id).countP (fun entry => mark entry.2) = (s.history id).countP mark := by
  unfold history eventsOf
  induction s.trace with
  | nil => rfl
  | cons entry trace ih =>
    by_cases h : entry.1 = id <;> simp [h, List.countP_cons, ih]

/-- When no job has two events of a kind, and the worker causes them, they come
in the order of the pushes. -/
theorem marked_sublist {mark : JobEvent κ → Bool} (hmark : ∀ e, mark e = true → e.byWorker = true)
    (honce : ∀ h st, Life h st → h.countP mark ≤ 1) (h : (system p κ).Reachable System.Any s) :
    (s.markedIds mark).Sublist s.pushedIds := by
  have hworker : s.markedIds mark =
      (s.workerTrace.filter fun entry => mark entry.2).map Prod.fst := by
    rw [markedIds, workerTrace, List.filter_filter]
    congr 1
    apply List.filter_congr
    intro entry _
    cases he : mark entry.2 with
    | false => rfl
    | true => rw [hmark entry.2 he, Bool.and_self]
  have htaken : s.takenIds.Sublist s.pushedIds := by
    have horder : s.pushedIds = s.takenIds ++ s.queueIds := (reachable_fifo h).order
    rw [horder]
    exact List.sublist_append_left _ _
  rw [hworker]
  refine ((reachable_blocks h).sublist fun id _ => ?_).trans htaken
  obtain ⟨st, hlife⟩ := exists_life h id
  have hle : (eventsOf s.workerTrace id).countP (fun entry => mark entry.2) ≤
      (eventsOf s.trace id).countP (fun entry => mark entry.2) :=
    (List.filter_sublist.filter _).countP_le
  rw [countP_history] at hle
  exact Nat.le_trans hle (honce _ st hlife)

/-! ## In every reachable state -/

/-- The worker is inside `synthesize`, or inside the terminal callback of a job
that had not expired when it was dequeued. -/
inductive Running (s : InferencePool κ) : Prop
  | synthesizing {id : Nat} {job : InferenceJob κ} : s.worker = .busy id (.synthesizing job) →
      Running s
  | calling {id : Nat} {job : InferenceJob κ} {d : Delivery} {guarded : Bool} :
      s.worker = .busy id (.calling job d guarded) → ¬ Expired (s.history id) → Running s

/-- The worker waits for a job, or has exited. -/
def Resting (s : InferencePool κ) : Prop :=
  s.worker = .polling ∨ s.worker = .asleep ∨ s.worker = .exited

theorem Running.guarded (hrun : s.Running) (h : (system p κ).Reachable System.Any s) :
    s.worker.guarded = true := by
  cases hrun with
  | synthesizing hw => simp [hw]
  | @calling id job d guarded hw hlive =>
    have hlife := (reachable_lives h).life (.held hw)
    cases guarded with
    | true => simp [hw]
    | false => exact absurd (hlife.dropped_expired rfl) hlive

/-- **Order and bounds.** In every reachable state

* the jobs finished, the one in process and those in the queue are the pushed
  ones, each once and in this order;
* the worker's steps come in blocks, one for each job it has dequeued, in that
  order: no two jobs overlap, and so the calls of the backend and the terminal
  callbacks come in the order of the pushes;
* the depth of the queue is within its bound;
* the active counter is zero or one. It is one while `synthesize` or the
  terminal callback of a job that had not expired runs, and zero while the
  worker waits or has exited. -/
theorem order_and_bounds (p : Params) {s : InferencePool κ}
    (h : (system p κ).Reachable System.Any s) :
    (s.pushedIds.Nodup ∧ s.pushedIds = s.finishedIds ++ s.worker.held.toList ++ s.queueIds) ∧
    (s.workerTrace = s.takenIds.flatMap (eventsOf s.workerTrace) ∧
      (s.markedIds JobEvent.isCall).Sublist s.pushedIds ∧
      (s.markedIds JobEvent.isInvocation).Sublist s.pushedIds) ∧
    s.queueDepth ≤ p.maxQueueDepth ∧
    (s.activeJobs = 0 ∨ s.activeJobs = 1) ∧
    (s.Running → s.activeJobs = 1) ∧
    (s.Resting → s.activeJobs = 0) := by
  have hfifo := reachable_fifo h
  have hactive := reachable_active h
  have hcall : ∀ e : JobEvent κ, e.isCall = true → e.byWorker = true := by
    intro e he
    cases e <;> first | rfl | cases he
  have hinvocation : ∀ e : JobEvent κ, e.isInvocation = true → e.byWorker = true := by
    intro e he
    cases e <;> first | rfl | cases he
  refine ⟨⟨hfifo.nodup, hfifo.order⟩, ⟨reachable_blocks h, ?_, ?_⟩, reachable_queueDepth h, ?_, ?_,
    ?_⟩
  · exact marked_sublist hcall (fun _ _ hlife => hlife.calls_le) h
  · exact marked_sublist hinvocation (fun _ _ hlife => hlife.invocations_le) h
  · rw [hactive]
    cases s.worker.guarded
    · exact .inl rfl
    · exact .inr rfl
  · intro hrun
    rw [hactive, hrun.guarded h]
    rfl
  · rintro (hw | hw | hw) <;> rw [hactive, hw] <;> rfl

/-- Two jobs are accepted, and the backend runs for the first one. -/
def exTwoJobsRun : List (Act Bool) :=
  [.stamp 0 exJob 0, .lock 0, .stamp 1 exJob 0, .lock 1, .poll, .check 1, .enter]

/-- After that run one job is active and the other one is queued behind it. -/
theorem order_and_bounds_two_jobs : ∃ s : InferencePool Bool,
    (system {} Bool).Reachable System.Any s ∧ s.Running ∧ s.activeJobs = 1 ∧
    s.pushedIds = [0, 1] ∧ s.takenIds = [0] ∧ s.queueDepth ≤ 10 := by
  obtain ⟨s, hrun, hreach⟩ :=
    System.exists_reachable (S := system {} Bool) (G := System.Any) exTwoJobsRun ⟨0, rfl⟩
      (by decide)
  obtain ⟨_, _, hdepth, _, hactive, _⟩ := order_and_bounds {} hreach
  cases hrun
  exact ⟨_, hreach, .synthesizing rfl, hactive (.synthesizing rfl), by decide, by decide, hdepth⟩

end InferencePool
end VoxtralServer
