import VoxtralServer.Pool.Drain

/-!
# An accepted job does not starve

The queue of the pool is first in, first out, so what an accepted job waits for is
fixed when it is accepted: the jobs before it, and the one that the worker holds.
Jobs that are pushed later cannot delay it, and neither can a wake-up without a
notification.

* `Moves.stepsTo`: no step adds to what a job waits for, and each step of the worker
  takes one off.
* `waiting_enabled`: while the job is not finished, a step that takes some of it is
  enabled.
* `wait_bounded`: both for every run.
-/

namespace VoxtralServer.InferencePool

variable {κ : Type} {p : Params} {s s' : InferencePool κ} {a : Act κ} {id : Nat}

/-! ## What a job waits for -/

/-- How many steps the worker takes at most before it has finished a job: eight for
each job before it in the queue, seven for the job itself, and those it has left of
what it is doing. -/
def stepsTo (s : InferencePool κ) (id : Nat) : Nat :=
  if id ∈ s.queueIds then 8 * s.queueIds.idxOf id + 7 + s.worker.stepsLeft
  else
    match s.worker with
    | .busy held st => if held = id then st.stepsLeft else 0
    | .polling | .asleep | .exited => 0

theorem stepsTo_queued (h : id ∈ s.queueIds) :
    s.stepsTo id = 8 * s.queueIds.idxOf id + 7 + s.worker.stepsLeft := if_pos h

theorem stepsTo_held {st : Stage κ} (hq : id ∉ s.queueIds) (hw : s.worker = .busy id st) :
    s.stepsTo id = st.stepsLeft := by
  simp only [stepsTo, if_neg hq, hw, if_true]

theorem stepsTo_polling (hq : id ∉ s.queueIds) (hw : s.worker = .polling) : s.stepsTo id = 0 := by
  simp only [stepsTo, if_neg hq, hw]

/-- Where an accepted job is that is not finished. -/
inductive Waits (s : InferencePool κ) (id : Nat) : Prop
  | queued : id ∈ s.queueIds → Waits s id
  | held {st : Stage κ} : id ∉ s.queueIds → s.worker = .busy id st → st.working = true → Waits s id

theorem accepted_waits (h : (system p κ).Reachable System.Any s) (ha : s.Accepted id)
    (hnot : id ∉ s.finishedIds) : s.Waits id := by
  rcases (reachable_fifo h).mem_pushed.mp ((accepted_iff h id).mp ha) with hd | hheld | hq
  · exact absurd hd hnot
  · obtain ⟨st, hw⟩ := Worker.held_busy hheld
    refine .held (fun hq => ?_) hw (reachable_working h id st hw)
    exact (reachable_fifo h).serving_ne hheld (.inl hq) rfl
  · exact .queued hq

/-- While the worker holds no job, the job is queued. -/
theorem Waits.mem_queueIds (h : s.Waits id) (hw : s.worker.held = none) : id ∈ s.queueIds := by
  cases h with
  | queued hq => exact hq
  | held _ hbusy =>
    rw [hbusy] at hw
    cases hw

theorem Waits.queue_ne_nil (h : s.Waits id) (hw : s.worker.held = none) : s.queue ≠ [] := by
  have hmem := h.mem_queueIds hw
  rintro hq
  simp [queueIds, hq] at hmem

theorem Waits.stepsTo_pos (h : s.Waits id) : 0 < s.stepsTo id := by
  cases h with
  | queued hq =>
    rw [stepsTo_queued hq]
    omega
  | @held st hq hw hworking =>
    rw [stepsTo_held hq hw]
    exact st.stepsLeft_pos hworking

/-- What a job waits for when it is accepted is bounded by the parameters. -/
theorem reachable_stepsTo (h : (system p κ).Reachable System.Any s)
    (hmax : p.maxQueueDepth < 2 ^ 31) (hwaits : s.Waits id) :
    (s.stepsTo id : Int) ≤ 8 * p.maxQueueDepth + 7 := by
  have hqueue := reachable_queueLength h hmax
  cases hwaits with
  | queued hq =>
    have hidx := List.idxOf_lt_length_of_mem hq
    rw [queueIds, List.length_map] at hidx
    have hworker := s.worker.stepsLeft_le
    rw [stepsTo_queued hq]
    simp only [queueIds] at hidx ⊢
    omega
  | @held st hq hw =>
    have hst := st.stepsLeft_le
    have hpos := p.depth_pos
    rw [stepsTo_held hq hw]
    omega

/-! ## The steps of the pool -/

/-- The part of the worker in what a queued job waits for. -/
theorem stepsTo_of_queued (hq : id ∈ s.queueIds) (hq' : id ∈ s'.queueIds)
    (hidx : s'.queueIds.idxOf id = s.queueIds.idxOf id)
    (hworker : s'.worker.stepsLeft + a.byWorker.toNat ≤ s.worker.stepsLeft) :
    s'.stepsTo id + a.byWorker.toNat ≤ s.stepsTo id := by
  rw [stepsTo_queued hq, stepsTo_queued hq', hidx]
  omega

theorem stepsTo_of_held {st st' : Stage κ} (hq : id ∉ s.queueIds) (hw : s.worker = .busy id st)
    (hq' : id ∉ s'.queueIds) (hw' : s'.worker = .busy id st')
    (hle : st'.stepsLeft + a.byWorker.toNat ≤ st.stepsLeft) :
    s'.stepsTo id + a.byWorker.toNat ≤ s.stepsTo id := by
  rwa [stepsTo_held hq hw, stepsTo_held hq' hw']

/-- A notification does not touch the job that the worker holds. -/
theorem stepsTo_notified (hqueue : s'.queueIds = s.queueIds)
    (hworker : s'.worker = s.worker.notified) : s'.stepsTo id ≤ s.stepsTo id := by
  have hle := s.worker.notified_stepsLeft
  unfold stepsTo
  rw [hqueue, hworker]
  split
  · omega
  · cases hw : s.worker <;> simp [Worker.notified]

/-- The worker takes the first job of the queue. -/
theorem dequeue_stepsTo {j : Nat} {job : InferenceJob κ} {rest : List (Nat × InferenceJob κ)}
    (hr : (system p κ).Reachable System.Any s) (hwaits : s.Waits id) (hw : s.worker = .polling)
    (hq : s.queue = (j, job) :: rest) (hq' : s'.queue = rest)
    (hw' : s'.worker = .busy j (.checking job)) : s'.stepsTo id + 1 ≤ s.stepsTo id := by
  have hids : s.queueIds = j :: s'.queueIds := by
    rw [queueIds, hq, List.map_cons, queueIds, hq']
  have hnodup : s.queueIds.Nodup := (reachable_fifo hr).pending_nodup
  rw [hids, List.nodup_cons] at hnodup
  have hmem := hwaits.mem_queueIds (by rw [hw, Worker.held])
  rw [stepsTo_queued hmem, hids, hw]
  by_cases hid : j = id
  · subst hid
    rw [stepsTo_held hnodup.1 hw', List.idxOf_cons_self]
    simp [Stage.stepsLeft, Worker.stepsLeft]
  · have hmem' : id ∈ s'.queueIds := by
      rw [hids] at hmem
      exact (List.mem_cons.mp hmem).resolve_left (Ne.symm hid)
    rw [stepsTo_queued hmem', hw', List.idxOf_cons_ne _ hid]
    simp only [Worker.stepsLeft, Stage.stepsLeft]
    omega

/-- A job that is pushed goes behind the others. -/
theorem push_stepsTo {j : Nat} {job : InferenceJob κ} (hwaits : s.Waits id) (hj : j ≠ id)
    (hq' : s'.queue = s.queue ++ [(j, job)]) (hw' : s'.worker = s.worker) :
    s'.stepsTo id ≤ s.stepsTo id := by
  have hids : s'.queueIds = s.queueIds ++ [j] := by
    rw [queueIds, hq', List.map_append, queueIds]
    rfl
  cases hwaits with
  | queued hq =>
    have hq'' : id ∈ s'.queueIds := hids ▸ List.mem_append_left _ hq
    rw [stepsTo_queued hq, stepsTo_queued hq'', hids, hw', List.idxOf_append_of_mem hq]
  | held hq hw =>
    have hq'' : id ∉ s'.queueIds := by simpa [hids, hj.symm] using hq
    rw [stepsTo_held hq hw, stepsTo_held hq'' (hw'.trans hw)]

/-- No step adds to what a job waits for, and each step of the worker takes one off. -/
theorem Moves.stepsTo (hr : (system p κ).Reachable System.Any s) (ha : s.Accepted id)
    (hnot : id ∉ s.finishedIds) (h : Moves p s a s') :
    s'.stepsTo id + a.byWorker.toNat ≤ s.stepsTo id := by
  have hwaits := accepted_waits hr ha hnot
  cases h with
  | @push j job hsub =>
    have hj : j ≠ id := by
      rintro rfl
      rw [Accepted, hsub] at ha
      rcases ha with ha | ha <;> cases ha
    exact push_stepsTo hwaits hj rfl rfl
  | notifyOne => exact stepsTo_notified rfl rfl
  | notifyAll => exact stepsTo_notified rfl rfl
  | dequeue hw hq => exact dequeue_stepsTo hr hwaits hw hq rfl rfl
  | sleep hw _ hq => exact absurd hq (hwaits.queue_ne_nil (by rw [hw, Worker.held]))
  | exit hw _ hq => exact absurd hq (hwaits.queue_ne_nil (by rw [hw, Worker.held]))
  | wake hw =>
    have hmem := hwaits.mem_queueIds (by rw [hw, Worker.held])
    exact stepsTo_of_queued hmem hmem rfl (by simp [hw, Worker.stepsLeft, Act.byWorker])
  | work hw hwork =>
    have hlt := hwork.lowers
    have hone := Bool.toNat_le a.byWorker
    cases hwaits with
    | queued hmem =>
      refine stepsTo_of_queued hmem hmem rfl ?_
      simp only [hw, Worker.stepsLeft]
      omega
    | held hnotq hbusy =>
      rw [hw] at hbusy
      cases hbusy
      exact stepsTo_of_held hnotq hw hnotq rfl (by omega)
  | finish hw =>
    cases hwaits with
    | queued hmem =>
      refine stepsTo_of_queued hmem hmem rfl ?_
      simp [hw, Worker.stepsLeft, Stage.stepsLeft, Act.byWorker]
    | held hnotq hbusy =>
      rw [hw] at hbusy
      cases hbusy
      -- the job is finished: neither queued nor held
      rw [stepsTo_held hnotq hw]
      exact Nat.succ_le_succ (Nat.le_of_eq (stepsTo_polling hnotq rfl))
  | _ => exact Nat.le_refl _

/-- What is accepted stays accepted. -/
theorem step_accepted (hr : (system p κ).Reachable System.Any s)
    (hst : (system p κ).step s a = some s') (ha : s.Accepted id) : s'.Accepted id := by
  have hs' := hr.step (G := System.Any) trivial hst
  obtain ⟨e, hmem, he⟩ := List.mem_filterMap.mp ((accepted_iff hr id).mp ha)
  exact (accepted_iff hs' id).mpr (List.mem_filterMap.mpr ⟨e, step_trace hst hmem, he⟩)

theorem step_finished (hst : (system p κ).step s a = some s') (hd : id ∈ s.finishedIds) :
    id ∈ s'.finishedIds := by
  obtain ⟨e, hmem, he⟩ := List.mem_filterMap.mp hd
  exact List.mem_filterMap.mpr ⟨e, step_trace hst hmem, he⟩

/-- The steps of the worker in a run at whose end the job is not finished are paid
for by what it waited for. -/
theorem runs_stepsTo {moments : List (InferencePool κ × Act κ)}
    (h : (system p κ).Reachable System.Any s) (ha : s.Accepted id)
    (hruns : (system p κ).Runs System.Any s moments s') (hnot : id ∉ s'.finishedIds) :
    s'.Accepted id ∧ workerSteps moments + s'.stepsTo id ≤ s.stepsTo id := by
  induction hruns with
  | refl => exact ⟨ha, by simp [workerSteps]⟩
  | @step moments t u a hruns _ hst ih =>
    have hbefore : id ∉ t.finishedIds := fun hd => hnot (step_finished hst hd)
    obtain ⟨haccepted, hpaid⟩ := ih hbefore
    have ht := h.trans hruns.reaches
    have hstep := (step_moves hst).stepsTo ht haccepted hbefore
    have hcount := workerSteps_append moments t a
    exact ⟨step_accepted ht hst haccepted, by omega⟩

/-! ## Nothing holds a job up -/

/-- While an accepted job is not finished, some step brings it closer. -/
theorem waiting_enabled (h : (system p κ).Reachable System.Any s) (ha : s.Accepted id)
    (hnot : id ∉ s.finishedIds) :
    ∃ a s', step p s a = some s' ∧ s'.stepsTo id < s.stepsTo id ∧ (s.Uncalled → a.Own) := by
  have hwaits := accepted_waits h ha hnot
  -- a step of the worker brings every job closer
  have hcloser {a : Act κ} {s' : InferencePool κ} (hst : step p s a = some s')
      (hworker : a.byWorker = true) : s'.stepsTo id < s.stepsTo id := by
    have hstep := (step_moves hst).stepsTo h ha hnot
    rw [hworker, Bool.toNat_true] at hstep
    omega
  cases hw : s.worker with
  | busy held st =>
    obtain ⟨a, s', hst, _, hworker, hown⟩ := busy_enabled hw (reachable_working h held st hw)
    exact ⟨a, s', hst, hcloser hst hworker, hown⟩
  | exited => exact absurd (exited_finished h hw ha) hnot
  | polling =>
    have hne := hwaits.queue_ne_nil (by rw [hw, Worker.held])
    obtain ⟨s', hst, _⟩ := poll_enabled (p := p) hw (.inl hne)
    exact ⟨.poll, s', hst, hcloser hst rfl, fun _ => trivial⟩
  | asleep =>
    have hheld : s.worker.held = none := by rw [hw, Worker.held]
    obtain ⟨a, s', hst, hpolling, hqueue, _, hown⟩ :=
      asleep_enabled h hw (.inl (hwaits.queue_ne_nil hheld))
    refine ⟨a, s', hst, ?_, fun _ => hown⟩
    have hmem := hwaits.mem_queueIds hheld
    have hmem' : id ∈ s'.queueIds := by rwa [queueIds, hqueue]
    rw [stepsTo_queued hmem, stepsTo_queued hmem', queueIds, queueIds, hqueue, hw, hpolling]
    simp [Worker.stepsLeft]

/-- **Bounded waiting.** From every reachable state in which a job is accepted, in
every run at whose end it is not finished, whatever is pushed behind it and however
often the worker wakes up for nothing,

* the worker has taken fewer steps than the job waited for, which is at most eight for
  each place in the queue and seven more;
* and some enabled step brings the job closer to its end: one of the pool's own while
  no callback runs. -/
theorem wait_bounded (p : Params) {s : InferencePool κ}
    (h : (system p κ).Reachable System.Any s) {id : Nat} (ha : s.Accepted id)
    (hnot : id ∉ s.finishedIds) :
    (p.maxQueueDepth < 2 ^ 31 → (s.stepsTo id : Int) ≤ 8 * p.maxQueueDepth + 7) ∧
    ∀ moments t, (system p κ).Runs System.Any s moments t → id ∉ t.finishedIds →
      workerSteps moments + t.stepsTo id ≤ s.stepsTo id ∧ 0 < t.stepsTo id ∧
      ∃ a u, (system p κ).step t a = some u ∧ u.stepsTo id < t.stepsTo id ∧
        (t.Uncalled → a.Own) := by
  refine ⟨fun hmax => reachable_stepsTo h hmax (accepted_waits h ha hnot),
    fun moments t hruns hnot' => ?_⟩
  have ht := h.trans hruns.reaches
  obtain ⟨haccepted, hpaid⟩ := runs_stepsTo h ha hruns hnot'
  exact ⟨hpaid, (accepted_waits ht haccepted hnot').stepsTo_pos,
    waiting_enabled ht haccepted hnot'⟩

/-- Behind the job that is at the backend a second one waits for 13 steps. After two
of them, and a third job, for 11. -/
theorem wait_bounded_two : ∃ s t : InferencePool Bool, ∃ moments,
    (system {} Bool).Reachable System.Any s ∧ s.stepsTo 1 = 13 ∧
    (system {} Bool).Runs System.Any s moments t ∧ workerSteps moments = 2 ∧
    t.queueIds = [1, 2] ∧ workerSteps moments + t.stepsTo 1 ≤ s.stepsTo 1 ∧
    ∃ a u, (system {} Bool).step t a = some u ∧ u.stepsTo 1 < t.stepsTo 1 := by
  obtain ⟨s, hrun, hreach⟩ :=
    System.exists_reachable (S := system {} Bool) (G := System.Any) exTwoJobsRun ⟨0, rfl⟩
      (by decide)
  have hran : ∃ t, (system {} Bool).run System.Any s
      [.backendReturns {}, .stamp 2 exJob 1, .lock 2, .recheck 1] = some t := by
    cases hrun
    exact ⟨_, rfl⟩
  obtain ⟨t, hlater⟩ := hran
  have hruns := System.runs_of_run _ hlater
  cases hrun
  cases hlater
  obtain ⟨_, hlater⟩ :=
    wait_bounded {} hreach (show InferencePool.Accepted _ 1 from .inl rfl) (by decide)
  obtain ⟨hpaid, _, a, u, hst, hlt, _⟩ := hlater _ _ hruns (by decide)
  exact ⟨_, _, _, hreach, rfl, hruns, rfl, rfl, hpaid, a, u, hst, hlt⟩

end VoxtralServer.InferencePool
