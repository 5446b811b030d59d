import VoxtralServer.Pool.Order

/-!
# The deadlines of the inference pool

When the backend is called for a job, and when the job succeeds, in terms of
the two clock readings of the worker and of the deadline that `submit` filled
in.

* `Lived.settled`, `Life.punctual`: the law for one life.
* `reachable_stamped`: the deadline of a pushed job is the caller's, or the one
  that `submit` filled in.
* `reachable_expired`: what the expired counter counts.
* `deadline_law`: the law for every job of every run.
* `deadline_law_wraps`: the counter is an `int`, which wraps around.
-/

namespace VoxtralServer

variable {κ : Type}

/-! ## The law for one life -/

/-- The backend was called. -/
def Called (h : List (JobEvent κ)) : Prop := ∃ request, .worked (.called request) ∈ h

theorem called_iff {h : List (JobEvent κ)} : 0 < h.countP JobEvent.isCall ↔ Called h := by
  rw [List.countP_pos_iff]
  constructor
  · rintro ⟨e, he, hcall⟩
    cases e with
    | worked e =>
      cases e with
      | called request => exact ⟨request, he⟩
      | _ => cases hcall
    | _ => cases hcall
  · rintro ⟨request, he⟩
    exact ⟨_, he, rfl⟩

instance (h : List (JobEvent κ)) : Decidable (Called h) := decidable_of_iff _ called_iff

/-- The backend returned a result. -/
def Returned (h : List (JobEvent κ)) : Prop := ∃ result, .worked (.returned result) ∈ h

/-- The clock reading at the dequeue. -/
def ReadAtDequeue (h : List (JobEvent κ)) (now : Int) : Prop := .worked (.checked now) ∈ h

/-- The clock reading after the backend returned. -/
def ReadAfter (h : List (JobEvent κ)) (now : Int) : Prop := .worked (.rechecked now) ∈ h

/-- What holds of a pushed job at any time: each reading is taken once, the
backend is called only before the deadline, and a result is delivered only
before it. -/
structure Punctual (job : InferenceJob κ) (h : List (JobEvent κ)) : Prop where
  once {t u : Int} : ReadAtDequeue h t → ReadAtDequeue h u → t = u
  onceAfter {t u : Int} : ReadAfter h t → ReadAfter h u → t = u
  called : Called h → ∃ t < job.deadline, ReadAtDequeue h t
  success {k : κ} {result : SynthesisResult} : (k, .success result) ∈ invocations h →
    ∃ t < job.deadline, ReadAfter h t

/-- What holds of a finished job. `d` is what its callback was invoked with. -/
structure Settled (job : InferenceJob κ) (h : List (JobEvent κ)) (d : Delivery) : Prop where
  called : ∃ t, ReadAtDequeue h t ∧ (Called h ↔ t < job.deadline)
  invoked : invocations h = job.calls d
  success : (∃ result, d = .success result) ↔
    Called h ∧ Returned h ∧ ∃ t < job.deadline, ReadAfter h t
  error {text : Str} : d = .error text → text ≠ []

/-- The events that may follow the choice of the delivery `d`. -/
inductive Closing (d : Delivery) : JobEvent κ → Prop
  | invoked (k : κ) : Closing d (.worked (.invoked k d))
  | completed : Closing d (.worked .completed)
  | skipped : Closing d (.worked .skipped)
  | finished : Closing d .finished

theorem InferenceJob.ending_closing (job : InferenceJob κ) (d : Delivery) :
    ∀ e ∈ job.ending d, Closing d e := by
  intro e he
  unfold InferenceJob.ending at he
  split at he
  · simp only [List.mem_cons, List.not_mem_nil, or_false] at he
    rcases he with rfl | rfl
    · exact .invoked _
    · exact .completed
  · cases List.mem_singleton.mp he
    exact .skipped

section Lived

variable {job : InferenceJob κ} {d : Delivery} {h₀ tail : List (JobEvent κ)}

/-- What is not a closing event happened before the choice of the delivery. -/
theorem mem_append_closing (htail : ∀ e ∈ tail, Closing d e) {e : JobEvent κ}
    (he : ¬ Closing d e) : e ∈ h₀ ++ tail ↔ e ∈ h₀ := by
  rw [List.mem_append, or_iff_left]
  exact fun hmem => he (htail e hmem)

theorem called_append (htail : ∀ e ∈ tail, Closing d e) : Called (h₀ ++ tail) ↔ Called h₀ :=
  exists_congr fun _ => mem_append_closing htail fun h => by cases h

theorem returned_append (htail : ∀ e ∈ tail, Closing d e) :
    Returned (h₀ ++ tail) ↔ Returned h₀ :=
  exists_congr fun _ => mem_append_closing htail fun h => by cases h

theorem readAtDequeue_append (htail : ∀ e ∈ tail, Closing d e) {t : Int} :
    ReadAtDequeue (h₀ ++ tail) t ↔ ReadAtDequeue h₀ t :=
  mem_append_closing htail fun h => by cases h

theorem readAfter_append (htail : ∀ e ∈ tail, Closing d e) {t : Int} :
    ReadAfter (h₀ ++ tail) t ↔ ReadAfter h₀ t :=
  mem_append_closing htail fun h => by cases h

theorem invocations_closing (htail : ∀ e ∈ tail, Closing d e) {k : κ} {d' : Delivery}
    (hk : (k, d') ∈ invocations tail) : d' = d := by
  obtain ⟨e, he, hk⟩ := List.mem_filterMap.mp hk
  cases htail e he with
  | invoked =>
    cases hk
    rfl
  | _ => cases hk

/-- Up to the choice of the delivery the law holds, and the delivery is a
success exactly when both readings are before the deadline and the backend
returned in between. -/
theorem Lived.law (hl : Lived job d h₀) :
    Punctual job h₀ ∧ invocations h₀ = [] ∧
    (∃ t, ReadAtDequeue h₀ t ∧ (Called h₀ ↔ t < job.deadline)) ∧
    ((∃ result, d = .success result) ↔
      Called h₀ ∧ Returned h₀ ∧ ∃ t < job.deadline, ReadAfter h₀ t) := by
  cases hl with
  | @expired now hnow =>
    refine ⟨?_, rfl, ⟨now, ?_⟩, ?_⟩
    · constructor <;> simp [ReadAtDequeue, ReadAfter, Called, invocations]
    · simpa [ReadAtDequeue, Called] using hnow
    · simp [Called]
  | @failed now what hnow =>
    refine ⟨?_, rfl, ⟨now, ?_⟩, ?_⟩
    · constructor <;> simp [ReadAtDequeue, ReadAfter, Called, invocations, hnow]
    · simpa [ReadAtDequeue, Called] using hnow
    · simp [Returned]
  | @late now now' result hnow hnow' =>
    refine ⟨?_, rfl, ⟨now, ?_⟩, ?_⟩
    · constructor <;> simp [ReadAtDequeue, ReadAfter, Called, invocations, hnow]
    · simpa [ReadAtDequeue, Called] using hnow
    · simpa [ReadAfter] using fun _ _ => hnow'
  | @inTime now now' result hnow hnow' =>
    refine ⟨?_, rfl, ⟨now, ?_⟩, ?_⟩
    · constructor <;> simp [ReadAtDequeue, ReadAfter, Called, invocations, hnow]
    · simpa [ReadAtDequeue, Called] using hnow
    · simpa [Called, Returned, ReadAfter] using hnow'

/-- The law goes on to hold until the job is finished. -/
theorem Lived.punctual (hl : Lived job d h₀) (htail : ∀ e ∈ tail, Closing d e) :
    Punctual job (h₀ ++ tail) := by
  obtain ⟨hpunctual, hnone, _, hsuccess⟩ := hl.law
  constructor
  · intro t u ht hu
    rw [readAtDequeue_append htail] at ht hu
    exact hpunctual.once ht hu
  · intro t u ht hu
    rw [readAfter_append htail] at ht hu
    exact hpunctual.onceAfter ht hu
  · intro hcalled
    rw [called_append htail] at hcalled
    simpa only [readAtDequeue_append htail] using hpunctual.called hcalled
  · intro k result hk
    rw [invocations, List.filterMap_append, List.mem_append] at hk
    rcases hk with hk | hk
    · rw [← invocations, hnone] at hk
      cases hk
    · have hd := invocations_closing htail hk
      simpa only [readAfter_append htail] using (hsuccess.mp ⟨result, hd.symm⟩).2.2

end Lived

/-- The job that was pushed is the one at the stage. -/
theorem Life.job_of_pushed {h : List (JobEvent κ)} {st : Stage κ} {job : InferenceJob κ}
    (hl : Life h st) (hjob : .pushed job ∈ h) : st.job = some job := by
  induction hl with
  | absent => cases hjob
  | refuse _ ih => cases ih (by simpa using hjob)
  | push hl ih =>
    rw [hl.absent_eq] at hjob
    cases List.mem_singleton.mp hjob
    rfl
  | dequeue _ ih => exact ih (by simpa using hjob)
  | work _ hw ih =>
    rw [hw.job_eq]
    exact ih (by simpa using hjob)
  | finish _ ih => exact ih (by simpa using hjob)

/-- The law holds of a pushed job at every stage. -/
theorem Life.punctual {h : List (JobEvent κ)} {st : Stage κ} {job : InferenceJob κ}
    (hl : Life h st) (hjob : st.job = some job) : Punctual job h := by
  cases st with
  | absent => cases hjob
  | refused => cases hjob
  | queued =>
    cases hjob
    rw [hl.queued_eq]
    constructor <;> simp [ReadAtDequeue, ReadAfter, Called, invocations]
  | checking =>
    cases hjob
    rw [hl.checking_eq]
    constructor <;> simp [ReadAtDequeue, ReadAfter, Called, invocations]
  | entering =>
    cases hjob
    obtain ⟨now, hnow, rfl⟩ := hl.entering_eq
    constructor <;> simp [ReadAtDequeue, ReadAfter, Called, invocations]
  | synthesizing =>
    cases hjob
    obtain ⟨now, hnow, rfl⟩ := hl.synthesizing_eq
    constructor <;> simp [ReadAtDequeue, ReadAfter, Called, invocations, hnow]
  | rechecking =>
    cases hjob
    obtain ⟨now, hnow, rfl⟩ := hl.rechecking_eq
    constructor <;> simp [ReadAtDequeue, ReadAfter, Called, invocations, hnow]
  | delivering =>
    cases hjob
    have hlaw := hl.delivering_lived.punctual (List.forall_mem_nil _)
    rwa [List.append_nil] at hlaw
  | calling =>
    cases hjob
    obtain ⟨h₀, k, hlived, _, rfl⟩ := hl.calling_lived
    exact hlived.punctual (by simpa using Closing.invoked k)
  | leaving job d =>
    cases hjob
    obtain ⟨h₀, hlived, rfl⟩ := hl.leaving_lived
    exact hlived.punctual (job.ending_closing d)
  | finished job d =>
    cases hjob
    obtain ⟨h₀, hlived, rfl⟩ := hl.finished_lived
    rw [List.append_assoc]
    refine hlived.punctual fun e he => ?_
    rcases List.mem_append.mp he with he | he
    · exact job.ending_closing d e he
    · cases List.mem_singleton.mp he
      exact .finished

/-- A finished job is settled. -/
theorem Life.settled {h : List (JobEvent κ)} {job : InferenceJob κ} {d : Delivery}
    (hl : Life h (.finished job d)) : Settled job h d := by
  have hinvoked := hl.invocations_eq
  obtain ⟨h₀, hlived, rfl⟩ := hl.finished_lived
  obtain ⟨_, _, hcalled, hsuccess⟩ := hlived.law
  have htail : ∀ e ∈ job.ending d ++ [.finished], Closing d e := by
    intro e he
    rcases List.mem_append.mp he with he | he
    · exact job.ending_closing d e he
    · cases List.mem_singleton.mp he
      exact .finished
  rw [List.append_assoc] at hinvoked ⊢
  refine ⟨?_, hinvoked, ?_, ?_⟩
  · simpa only [readAtDequeue_append htail, called_append htail] using hcalled
  · simpa only [called_append htail, returned_append htail, readAfter_append htail] using hsuccess
  · rintro text rfl
    exact hlived.error_ne_nil

namespace InferencePool

variable {p : Params} {s s' : InferencePool κ} {a : Act κ} {id j : Nat} {job : InferenceJob κ}

/-! ## Where the deadline comes from -/

/-- The run to `s` has a call of `submit` with this job, at this clock reading. -/
def Submitted (p : Params) (s : InferencePool κ) (id : Nat) (job : InferenceJob κ) (now : Int) :
    Prop :=
  ∃ s₀ s₁, (system p κ).Reachable System.Any s₀ ∧
    (system p κ).step s₀ (.stamp id job now) = some s₁ ∧ (system p κ).Reaches System.Any s₁ s

/-- The job is a submitted one with its deadline filled in. -/
def StampedBefore (p : Params) (s : InferencePool κ) (id : Nat) (job : InferenceJob κ) : Prop :=
  ∃ submitted now, Submitted p s id submitted now ∧ job = stampJob p submitted now

theorem stampJob_eq (p : Params) (job : InferenceJob κ) (now : Int) :
    stampJob p job now = { job with deadline :=
      if job.deadline = 0 then now + seconds p.requestTimeoutSeconds else job.deadline } := by
  unfold stampJob
  split <;> rfl

theorem StampedBefore.step (h : StampedBefore p s id job)
    (hst : (system p κ).step s a = some s') : StampedBefore p s' id job := by
  obtain ⟨submitted, now, ⟨s₀, s₁, hr, hstamp, hreach⟩, heq⟩ := h
  exact ⟨submitted, now, ⟨s₀, s₁, hr, hstamp, hreach.step trivial hst⟩, heq⟩

/-- A step stamps the job of one call of `submit`. -/
theorem Moves.stamped (h : Moves p s a s') (hjob : s'.submits id = .stamped job) :
    s.submits id = .stamped job ∨
      ∃ submitted now, a = .stamp id submitted now ∧ job = stampJob p submitted now := by
  have other {i : Nat} {submit : Submit κ} (hne : ∀ job, submit ≠ .stamped job)
      (hjob : Function.update s.submits i submit id = .stamped job) :
      s.submits id = .stamped job := by
    rcases eq_or_ne id i with rfl | hid
    · rw [Function.update_self] at hjob
      exact absurd hjob (hne job)
    · rwa [Function.update_of_ne hid] at hjob
  cases h with
  | @stamp i submitted now =>
    rcases eq_or_ne id i with rfl | hid
    · simp only [Function.update_self, Submit.stamped.injEq] at hjob
      exact .inr ⟨submitted, now, rfl, hjob.symm⟩
    · exact .inl (by simpa [hid] using hjob)
  | refuse => exact .inl (other (by simp) hjob)
  | push => exact .inl (other (by simp) hjob)
  | notifyOne => exact .inl (other (by simp) hjob)
  | _ => exact .inl hjob

/-- Every job that is stamped or pushed was stamped by a call of `submit`. -/
theorem reachable_stamped (h : (system p κ).Reachable System.Any s) : ∀ id job,
    s.submits id = .stamped job ∨ (id, .pushed job) ∈ s.trace → StampedBefore p s id job := by
  refine System.reachable_inv_of (I := fun s => ∀ id job,
    s.submits id = .stamped job ∨ (id, .pushed job) ∈ s.trace → StampedBefore p s id job) ?_ ?_ h
  · rintro s ⟨now, rfl⟩ id job (hjob | hjob) <;> cases hjob
  · intro s a t hr hi _ hst id job hjob
    have hmoves := step_moves hst
    rcases hjob with hjob | hjob
    · rcases hmoves.stamped hjob with hold | ⟨submitted, now, rfl, heq⟩
      · exact (hi id job (.inl hold)).step hst
      · exact ⟨submitted, now, ⟨s, t, hr, hst, .refl t⟩, heq⟩
    · exact (hi id job (hmoves.pushed hjob).symm).step hst

/-! ## The expired counter -/

/-- The backend was not called for the job. -/
def uncalled (s : InferencePool κ) (id : Nat) : Bool := !decide (Called (s.history id))

/-- The finished jobs that the backend was not called for. -/
def droppedIds (s : InferencePool κ) : List Nat := s.finishedIds.filter s.uncalled

theorem droppedIds_append {e : JobEvent κ} (htrace : s'.trace = s.trace ++ [(id, e)])
    (hid : id ∉ s.finishedIds) :
    s'.droppedIds = s.droppedIds ++ (finishedBy (id, e)).toList.filter s'.uncalled := by
  rw [droppedIds, finishedIds_append htrace, List.filter_append, droppedIds]
  congr 1
  apply List.filter_congr
  intro j hj
  have hne : j ≠ id := fun heq => hid (heq ▸ hj)
  simp only [uncalled]
  rw [history_append_ne htrace hne]

/-- A step that finishes no job leaves the dropped ones. -/
theorem Moves.droppedIds_eq (hr : (system p κ).Reachable System.Any s) (h : Moves p s a s')
    (hfin : ∀ id, s'.trace ≠ s.trace ++ [(id, .finished)]) : s'.droppedIds = s.droppedIds := by
  have hplaced := reachable_placed hr
  have quiet {id : Nat} {e : JobEvent κ} (htrace : s'.trace = s.trace ++ [(id, e)])
      (hid : id ∉ s.finishedIds) : s'.droppedIds = s.droppedIds := by
    rw [droppedIds_append htrace hid]
    cases e with
    | finished => exact absurd htrace (hfin id)
    | _ => simp
  have silent (htrace : s'.trace = s.trace) : s'.droppedIds = s.droppedIds := by
    unfold droppedIds uncalled finishedIds history
    rw [htrace]
  cases h with
  | refuse hsub =>
    refine quiet rfl fun hd => ?_
    have := (hplaced.finished hd).1
    simp [Accepted, Submit.Accepted, hsub] at this
  | push hsub =>
    refine quiet rfl fun hd => ?_
    have := (hplaced.finished hd).1
    simp [Accepted, Submit.Accepted, hsub] at this
  | @dequeue id job rest hw hq =>
    refine quiet rfl fun hd => (hplaced.finished hd).2.1 ?_
    exact mem_queueIds.mpr ⟨job, by simp [hq]⟩
  | work hw => exact quiet rfl fun hd => (hplaced.finished hd).2.2 _ hw
  | finish => exact absurd rfl (hfin _)
  | _ => exact silent rfl

/-- A job that the worker finishes was dropped when it leaves unguarded. -/
theorem finish_droppedIds (hr : (system p κ).Reachable System.Any s) {d : Delivery} {guarded : Bool}
    (hw : s.worker = .busy id (.leaving job d guarded))
    (htrace : s'.trace = s.trace ++ [(id, .finished)]) :
    s'.droppedIds.length = s.droppedIds.length + (!guarded).toNat := by
  have hnot : id ∉ s.finishedIds := fun hd => ((reachable_placed hr).finished hd).2.2 _ hw
  have hcalls : Called (s'.history id) ↔ guarded = true := by
    have hlife := (reachable_lives hr).life (.held hw)
    have hlast : [(.finished : JobEvent κ)].countP JobEvent.isCall = 0 := rfl
    rw [← called_iff, history_append_self htrace, List.countP_append, hlast,
      hlife.calls_eq (by simp)]
    cases guarded <;> simp
  rw [droppedIds_append htrace hnot, List.length_append]
  cases guarded <;> simp [uncalled, hcalls]

/-- The expired counter counts the jobs that the worker dropped, as far as an `int`
goes. -/
theorem reachable_expired (h : (system p κ).Reachable System.Any s) :
    s.expiredJobs = intOfSize (s.droppedIds.length + s.worker.dropped.toNat) := by
  refine System.reachable_inv_of
    (I := fun s => s.expiredJobs = intOfSize (s.droppedIds.length + s.worker.dropped.toNat)) ?_ ?_ h
  · rintro s ⟨now, rfl⟩
    exact (intOfSize_eq_self (by decide)).symm
  · intro s a t hr hi _ hst
    simp only [expiredJobs] at hi ⊢
    rcases (step_counts hst).expired with ⟨id, job, d, guarded, hw, hw', htrace, heq⟩ |
      ⟨hfin, hcount⟩
    · have hdropped := finish_droppedIds hr hw htrace
      rw [hw] at hi
      rw [heq, hw', hdropped, hi]
      rfl
    · rw [(step_moves hst).droppedIds_eq hr hfin]
      exact hcount _ hi

/-! ## In every run -/

theorem accepted_pushed (h : (system p κ).Reachable System.Any s) (ha : s.Accepted id) :
    ∃ job, .pushed job ∈ s.history id := by
  obtain ⟨⟨_, e⟩, hmem, hid⟩ := List.mem_filterMap.mp ((accepted_iff h id).mp ha)
  cases e with
  | pushed job =>
    cases hid
    exact ⟨job, mem_history.mpr hmem⟩
  | _ => cases hid

/-- No accepted job is in the queue or in the hands of the worker. -/
def Drained (s : InferencePool κ) : Prop := s.queue = [] ∧ s.worker.held = none

/-- How many accepted jobs the backend was not called for. -/
def uncalledJobs (s : InferencePool κ) : Nat := (s.pushedIds.filter s.uncalled).length

/-- Once the jobs are finished, the expired counter counts those. -/
theorem Drained.expiredJobs (hdrained : s.Drained) (h : (system p κ).Reachable System.Any s) :
    s.expiredJobs = intOfSize s.uncalledJobs := by
  obtain ⟨hqueue, hheld⟩ := hdrained
  have hdone : s.pushedIds = s.finishedIds := by
    have horder : s.pushedIds = s.finishedIds ++ s.worker.held.toList ++ s.queueIds :=
      (reachable_fifo h).order
    simpa [hheld, queueIds, hqueue] using horder
  have hnone : s.worker.dropped = false := by
    cases hw : s.worker with
    | busy => simp [hw, Worker.held] at hheld
    | _ => rfl
  rw [reachable_expired h, hnone, uncalledJobs, hdone]
  rfl

/-- **The deadline law.** In every reachable state

* every accepted job was submitted, and its deadline is the caller's, or the
  submit time plus the timeout when the caller left the sentinel;
* the backend is called for it only when the reading at its dequeue is before
  the deadline, and a result is delivered only when the reading after the call
  is;
* when it is finished, the backend was called exactly if the first reading was
  before the deadline, and the applicable callback was invoked: with a result
  exactly if the call was made, returned, and the second reading was before the
  deadline, and else with an error text that is not empty;
* once no accepted job is queued or in process, the expired counter is the
  number of accepted jobs that the backend was not called for, as an `int`: the
  number itself when it is below `2 ^ 31`. -/
theorem deadline_law (p : Params) {s : InferencePool κ}
    (h : (system p κ).Reachable System.Any s) :
    (∀ id, s.Accepted id → ∃ job submitted now, .pushed job ∈ s.history id ∧
      Submitted p s id submitted now ∧
      job = { submitted with deadline :=
        if submitted.deadline = 0 then now + seconds p.requestTimeoutSeconds
        else submitted.deadline } ∧
      Punctual job (s.history id) ∧
      (id ∈ s.finishedIds → ∃ d, Settled job (s.history id) d)) ∧
    (s.Drained → (∀ id, s.Accepted id ↔ id ∈ s.pushedIds) ∧ s.pushedIds.Nodup ∧
      s.expiredJobs = intOfSize s.uncalledJobs ∧
      (s.uncalledJobs < 2 ^ 31 → s.expiredJobs = s.uncalledJobs)) := by
  constructor
  · intro id ha
    obtain ⟨job, hjob⟩ := accepted_pushed h ha
    obtain ⟨submitted, now, hsub, heq⟩ := reachable_stamped h id job (.inr (mem_history.mp hjob))
    obtain ⟨st, hlife⟩ := exists_life h id
    refine ⟨job, submitted, now, hjob, hsub, heq.trans (stampJob_eq p submitted now),
      hlife.punctual (hlife.job_of_pushed hjob), fun hd => ?_⟩
    obtain ⟨job', d, hfinished⟩ := (reachable_lives h).finished hd
    cases hfinished.job_of_pushed hjob
    exact ⟨d, hfinished.settled⟩
  · intro hdrained
    have hcount := hdrained.expiredJobs h
    exact ⟨accepted_iff h, (reachable_fifo h).nodup, hcount,
      fun hlt => hcount.trans (intOfSize_eq_self hlt)⟩

/-- A job with a deadline of its own, and one that leaves it to the pool. The
backend is slow: the first one is late. -/
def exLateRun : List (Act Bool) :=
  [.stamp 0 { exJob with deadline := 5 } 0, .lock 0, .notifyOne 0, .poll, .check 4, .enter,
   .backendReturns {}, .recheck 5, .deliver, .callbackEnds none, .finish,
   .stamp 1 { exJob with deadline := 5 } 5, .lock 1, .notifyOne 1, .poll, .check 5, .deliver,
   .callbackEnds none, .finish]

/-- At the end of that run both jobs failed, one without a call of the backend. -/
theorem deadline_law_late : ∃ s : InferencePool Bool,
    (system {} Bool).Reachable System.Any s ∧ s.Drained ∧ s.Accepted 0 ∧ s.Accepted 1 ∧
    s.expiredJobs = 1 ∧
    (∃ job d, .pushed job ∈ s.history 0 ∧ Settled job (s.history 0) d) := by
  obtain ⟨s, hrun, hreach⟩ :=
    System.exists_reachable (S := system {} Bool) (G := System.Any) exLateRun ⟨0, rfl⟩ (by decide)
  obtain ⟨hlaw, hdrained⟩ := deadline_law {} hreach
  cases hrun
  obtain ⟨job, _, _, hjob, _, _, _, hsettled⟩ := hlaw 0 (.inr rfl)
  obtain ⟨d, hd⟩ := hsettled (by decide)
  obtain ⟨_, _, _, hexpired⟩ := hdrained ⟨rfl, rfl⟩
  exact ⟨_, hreach, ⟨rfl, rfl⟩, .inr rfl, .inr rfl, hexpired (by decide), job, d, hjob, hd⟩

/-- A pool at rest after some jobs. -/
def exRested (expired : Int) (submits : Nat → Submit Bool) (trace : List (Nat × JobEvent Bool)) :
    InferencePool Bool :=
  { clock := 1, expired := expired, submits := submits, trace := trace }

/-- One more job, whose deadline is over when the worker gets to it. -/
def exExpiry (id : Nat) : List (Act Bool) :=
  [.stamp id { exJob with deadline := 1 } 1, .lock id, .notifyOne id, .poll, .check 1, .deliver,
   .callbackEnds none, .finish]

/-- What the trace records of it. -/
def exExpiryTrace (id : Nat) : List (Nat × JobEvent Bool) :=
  [(id, .pushed { exJob with deadline := 1 }), (id, .dequeued), (id, .worked (.checked 1)),
   (id, .worked (.invoked false (.error timedOutText))), (id, .worked .completed), (id, .finished)]

theorem exExpiry_run (expired : Int) {submits : Nat → Submit Bool}
    (trace : List (Nat × JobEvent Bool)) {id : Nat} (hidle : submits id = .idle) :
    (system {} Bool).run System.Any (exRested expired submits trace) (exExpiry id) =
      some (exRested (fetchAdd expired 1) (Function.update submits id (.returned true))
        (trace ++ exExpiryTrace id)) := by
  have hempty : ¬ 10 ≤ intOfSize 0 := by decide
  simp [System.run, system, step, exRested, exExpiry, exExpiryTrace, hidle, hempty, stampJob, exJob,
    workStep, advance, InferenceJob.callback, System.Any, Worker.notified]

/-- As many jobs as one likes expire in the queue. -/
theorem exExpired_reachable (n : Nat) : ∃ expired submits trace,
    (system {} Bool).Reachable System.Any (exRested expired submits trace) ∧
    (∀ id, n ≤ id → submits id = .idle) ∧
    (exRested expired submits trace).pushedIds.length = n ∧
    ∀ id request, (id, .worked (.called request)) ∉ trace := by
  induction n with
  | zero => exact ⟨0, _, [], ⟨_, ⟨1, rfl⟩, .refl _⟩, fun _ _ => rfl, rfl, nofun⟩
  | succ n ih =>
    obtain ⟨expired, submits, trace, hreach, hidle, hpushed, hcalled⟩ := ih
    have hrun := exExpiry_run expired trace (hidle n (Nat.le_refl n))
    refine ⟨_, _, _, hreach.trans (System.reaches_of_run _ hrun), fun id hid => ?_, ?_, ?_⟩
    · rw [Function.update_of_ne (by omega)]
      exact hidle id (by omega)
    · simp only [pushedIds, exRested] at hpushed ⊢
      simp [List.filterMap_append, hpushed, exExpiryTrace]
    · intro id request hmem
      rcases List.mem_append.mp hmem with hmem | hmem
      · exact hcalled id request hmem
      · simp [exExpiryTrace] at hmem

/-- After `2 ^ 31` expired jobs the counter has wrapped around. -/
theorem deadline_law_wraps : ∃ s : InferencePool Bool,
    (system {} Bool).Reachable System.Any s ∧ s.Drained ∧ s.uncalledJobs = 2 ^ 31 ∧
    s.expiredJobs = -2 ^ 31 := by
  obtain ⟨expired, submits, trace, hreach, _, hpushed, hcalled⟩ := exExpired_reachable (2 ^ 31)
  have hdrained : (exRested expired submits trace).Drained := ⟨rfl, rfl⟩
  have huncalled : (exRested expired submits trace).uncalledJobs = 2 ^ 31 := by
    rw [uncalledJobs, List.filter_eq_self.mpr, hpushed]
    intro id _
    simp only [uncalled, Bool.not_eq_true', decide_eq_false_iff_not]
    rintro ⟨request, hcall⟩
    exact hcalled id request (mem_history.mp hcall)
  refine ⟨_, hreach, hdrained, huncalled, ?_⟩
  rw [hdrained.expiredJobs hreach, huncalled]
  decide

end InferencePool
end VoxtralServer
