import VoxtralServer.Pool.Job

/-!
# The life of a job

What one job goes through in the inference pool, apart from all the others: it
is refused or queued, taken by the worker, dropped or run, and its callback is
invoked. `Life h st` says that the events `h`, in order, lead a job to the
stage `st`. The pool is shown to move every job along such a life.

* `Life.invocations_eq`: which callbacks were invoked at each stage.
* `Life.finished_lived`: the histories of a finished job.
-/

namespace VoxtralServer

/-! ## Events and stages -/

/-- What the worker does with a job it has taken. -/
inductive WorkEvent (κ : Type)
  | checked (now : Int)
  | called (request : SynthesisRequest)
  | returned (result : SynthesisResult)
  | threw (what : Str)
  | rechecked (now : Int)
  | invoked (callback : κ) (d : Delivery)
  | skipped
  | completed
deriving DecidableEq, Repr

/-- What happens to a job. -/
inductive JobEvent (κ : Type)
  | refused
  | pushed (job : InferenceJob κ)
  | dequeued
  | worked (e : WorkEvent κ)
  | finished
deriving DecidableEq, Repr

/-- Where a job is. `guarded` says that the worker holds the `ActiveGuard`. -/
inductive Stage (κ : Type)
  | absent
  | refused
  | queued (job : InferenceJob κ)
  | checking (job : InferenceJob κ)
  | entering (job : InferenceJob κ)
  | synthesizing (job : InferenceJob κ)
  | rechecking (job : InferenceJob κ) (result : SynthesisResult)
  | delivering (job : InferenceJob κ) (d : Delivery) (guarded : Bool)
  | calling (job : InferenceJob κ) (d : Delivery) (guarded : Bool)
  | leaving (job : InferenceJob κ) (d : Delivery) (guarded : Bool)
  | finished (job : InferenceJob κ) (d : Delivery)
deriving DecidableEq, Repr

/-! ## The texts of the errors -/

/-- A job that was past its deadline when it was dequeued. -/
def timedOutText : Str := utf8 "Request timed out in queue"

/-- A job whose synthesis threw. -/
def failedText (what : Str) : Str := utf8 "Inference failed: " ++ what

/-- A job that was past its deadline after its synthesis. -/
def lateText : Str := utf8 "Request exceeded deadline during inference"

/-! ## The steps of a life -/

variable {κ : Type}

/-- What the worker does with a job at each stage. -/
inductive Work : Stage κ → WorkEvent κ → Stage κ → Prop
  | expire {job : InferenceJob κ} {now : Int} : job.deadline ≤ now →
      Work (.checking job) (.checked now) (.delivering job (.error timedOutText) false)
  | proceed {job : InferenceJob κ} {now : Int} : now < job.deadline →
      Work (.checking job) (.checked now) (.entering job)
  | enter {job : InferenceJob κ} :
      Work (.entering job) (.called job.request) (.synthesizing job)
  | returns {job : InferenceJob κ} {result : SynthesisResult} :
      Work (.synthesizing job) (.returned result) (.rechecking job result)
  | throws {job : InferenceJob κ} {what : Str} :
      Work (.synthesizing job) (.threw what) (.delivering job (.error (failedText what)) true)
  | late {job : InferenceJob κ} {result : SynthesisResult} {now : Int} : job.deadline ≤ now →
      Work (.rechecking job result) (.rechecked now) (.delivering job (.error lateText) true)
  | inTime {job : InferenceJob κ} {result : SynthesisResult} {now : Int} : now < job.deadline →
      Work (.rechecking job result) (.rechecked now) (.delivering job (.success result) true)
  | invoke {job : InferenceJob κ} {d : Delivery} {guarded : Bool} {k : κ} :
      job.callback d = some k →
      Work (.delivering job d guarded) (.invoked k d) (.calling job d guarded)
  | skip {job : InferenceJob κ} {d : Delivery} {guarded : Bool} : job.callback d = none →
      Work (.delivering job d guarded) .skipped (.leaving job d guarded)
  | complete {job : InferenceJob κ} {d : Delivery} {guarded : Bool} :
      Work (.calling job d guarded) .completed (.leaving job d guarded)

/-- The events of a job so far, in order, and the stage they lead to. -/
inductive Life : List (JobEvent κ) → Stage κ → Prop
  | absent : Life [] .absent
  | refuse {h : List (JobEvent κ)} : Life h .absent → Life (h ++ [.refused]) .refused
  | push {h : List (JobEvent κ)} {job : InferenceJob κ} : Life h .absent →
      Life (h ++ [.pushed job]) (.queued job)
  | dequeue {h : List (JobEvent κ)} {job : InferenceJob κ} : Life h (.queued job) →
      Life (h ++ [.dequeued]) (.checking job)
  | work {h : List (JobEvent κ)} {st st' : Stage κ} {e : WorkEvent κ} : Life h st →
      Work st e st' → Life (h ++ [.worked e]) st'
  | finish {h : List (JobEvent κ)} {job : InferenceJob κ} {d : Delivery} {guarded : Bool} :
      Life h (.leaving job d guarded) → Life (h ++ [.finished]) (.finished job d)

/-- The job at a stage. -/
def Stage.job : Stage κ → Option (InferenceJob κ)
  | .absent | .refused => none
  | .queued job | .checking job | .entering job | .synthesizing job | .rechecking job _
  | .delivering job _ _ | .calling job _ _ | .leaving job _ _ | .finished job _ => some job

theorem Work.job_eq {st st' : Stage κ} {e : WorkEvent κ} (h : Work st e st') :
    st'.job = st.job := by
  cases h <;> rfl

/-- The job at a stage is the one that was pushed. -/
theorem Life.pushed_mem {h : List (JobEvent κ)} {st : Stage κ} {job : InferenceJob κ}
    (hl : Life h st) (hjob : st.job = some job) : .pushed job ∈ h := by
  induction hl with
  | absent => cases hjob
  | refuse => cases hjob
  | push =>
    cases hjob
    simp
  | dequeue _ ih => exact List.mem_append_left _ (ih hjob)
  | work _ hw ih => exact List.mem_append_left _ (ih (hw.job_eq ▸ hjob))
  | finish _ ih => exact List.mem_append_left _ (ih hjob)

/-! ## Callbacks -/

/-- The callbacks invoked in a history. -/
def invocations (h : List (JobEvent κ)) : List (κ × Delivery) :=
  h.filterMap fun e =>
    match e with
    | .worked (.invoked k d) => some (k, d)
    | _ => none

/-- The callback that a delivery of the job goes to, with what it is called
with. A null callback is not called. -/
def InferenceJob.calls (job : InferenceJob κ) (d : Delivery) : List (κ × Delivery) :=
  (job.callback d).toList.map fun k => (k, d)

/-- The callbacks invoked up to each stage. -/
def Stage.invocations : Stage κ → List (κ × Delivery)
  | .calling job d _ => job.calls d
  | .leaving job d _ => job.calls d
  | .finished job d => job.calls d
  | _ => []

/-- The stage of a job determines which callbacks were invoked: at most one, and
exactly the applicable one when the job is finished. -/
theorem Life.invocations_eq {h : List (JobEvent κ)} {st : Stage κ} (hl : Life h st) :
    VoxtralServer.invocations h = st.invocations := by
  induction hl with
  | absent => rfl
  | refuse _ ih => simpa [VoxtralServer.invocations, Stage.invocations] using ih
  | push _ ih => simpa [VoxtralServer.invocations, Stage.invocations] using ih
  | dequeue _ ih => simpa [VoxtralServer.invocations, Stage.invocations] using ih
  | finish _ ih => simpa [VoxtralServer.invocations, Stage.invocations] using ih
  | work _ hw ih =>
    cases hw with
    | invoke hk =>
      simp only [VoxtralServer.invocations, Stage.invocations] at ih ⊢
      simp [ih, InferenceJob.calls, hk]
    | skip hk =>
      simp only [VoxtralServer.invocations, Stage.invocations] at ih ⊢
      simp [ih, InferenceJob.calls, hk]
    | _ => simpa [VoxtralServer.invocations, Stage.invocations] using ih

/-- A callback that was invoked is one of the job that was pushed. -/
theorem Life.invoked_mem {h : List (JobEvent κ)} {st : Stage κ} {k : κ} {d : Delivery}
    (hl : Life h st) (hk : .worked (.invoked k d) ∈ h) :
    ∃ job, .pushed job ∈ h ∧ job.callback d = some k := by
  have later {e : JobEvent κ} {h : List (JobEvent κ)} :
      (∃ job, .pushed job ∈ h ∧ job.callback d = some k) →
        ∃ job, .pushed job ∈ h ++ [e] ∧ job.callback d = some k :=
    fun ⟨job, hjob, hcallback⟩ => ⟨job, List.mem_append_left _ hjob, hcallback⟩
  induction hl with
  | absent => cases hk
  | refuse _ ih => exact later (ih (by simpa using hk))
  | push _ ih => exact later (ih (by simpa using hk))
  | dequeue _ ih => exact later (ih (by simpa using hk))
  | finish _ ih => exact later (ih (by simpa using hk))
  | work hl hw ih =>
    rcases List.mem_append.mp hk with hk | hk
    · exact later (ih hk)
    · cases List.mem_singleton.mp hk
      cases hw with
      | invoke hcallback => exact later ⟨_, hl.pushed_mem rfl, hcallback⟩

/-- What the worker did with a job, it did at a stage of its life. -/
theorem Life.worked_from {h : List (JobEvent κ)} {st : Stage κ} {e : WorkEvent κ} (hl : Life h st)
    (he : .worked e ∈ h) : ∃ h₀ st₀ st₁, Life h₀ st₀ ∧ Work st₀ e st₁ ∧ h₀ <+: h := by
  have later {e' : JobEvent κ} {h : List (JobEvent κ)} :
      (∃ h₀ st₀ st₁, Life h₀ st₀ ∧ Work st₀ e st₁ ∧ h₀ <+: h) →
        ∃ h₀ st₀ st₁, Life h₀ st₀ ∧ Work st₀ e st₁ ∧ h₀ <+: h ++ [e'] :=
    fun ⟨h₀, st₀, st₁, hl, hw, hpre⟩ => ⟨h₀, st₀, st₁, hl, hw, hpre.trans (List.prefix_append ..)⟩
  induction hl with
  | absent => cases he
  | refuse _ ih => exact later (ih (by simpa using he))
  | push _ ih => exact later (ih (by simpa using he))
  | dequeue _ ih => exact later (ih (by simpa using he))
  | finish _ ih => exact later (ih (by simpa using he))
  | work hl hw ih =>
    rcases List.mem_append.mp he with he | he
    · exact later (ih he)
    · cases List.mem_singleton.mp he
      exact ⟨_, _, _, hl, hw, List.prefix_append ..⟩

/-- The backend is called with the request of the job that was pushed. -/
theorem Life.called_mem {h : List (JobEvent κ)} {st : Stage κ} {request : SynthesisRequest}
    (hl : Life h st) (hk : .worked (.called request) ∈ h) :
    ∃ job, .pushed job ∈ h ∧ job.request = request := by
  obtain ⟨h₀, st₀, st₁, hl₀, hw, hpre⟩ := hl.worked_from hk
  cases hw with
  | enter => exact ⟨_, hpre.subset (hl₀.pushed_mem rfl), rfl⟩

/-! ## How a delivery comes about -/

/-- The events of a job up to the choice of its delivery. -/
inductive Lived (job : InferenceJob κ) : Delivery → List (JobEvent κ) → Prop
  | expired {now : Int} : job.deadline ≤ now →
      Lived job (.error timedOutText) [.pushed job, .dequeued, .worked (.checked now)]
  | failed {now : Int} {what : Str} : now < job.deadline →
      Lived job (.error (failedText what))
        [.pushed job, .dequeued, .worked (.checked now), .worked (.called job.request),
         .worked (.threw what)]
  | late {now now' : Int} {result : SynthesisResult} : now < job.deadline → job.deadline ≤ now' →
      Lived job (.error lateText)
        [.pushed job, .dequeued, .worked (.checked now), .worked (.called job.request),
         .worked (.returned result), .worked (.rechecked now')]
  | inTime {now now' : Int} {result : SynthesisResult} : now < job.deadline →
      now' < job.deadline →
      Lived job (.success result)
        [.pushed job, .dequeued, .worked (.checked now), .worked (.called job.request),
         .worked (.returned result), .worked (.rechecked now')]

/-- The events from the choice of a delivery on. -/
def InferenceJob.ending (job : InferenceJob κ) (d : Delivery) : List (JobEvent κ) :=
  match job.callback d with
  | some k => [.worked (.invoked k d), .worked .completed]
  | none => [.worked .skipped]

namespace Life

variable {h : List (JobEvent κ)} {job : InferenceJob κ} {d : Delivery} {guarded : Bool}

theorem absent_eq (hl : Life h .absent) : h = [] := by
  cases hl with
  | absent => rfl
  | work _ hw => cases hw

theorem queued_eq (hl : Life h (.queued job)) : h = [.pushed job] := by
  cases hl with
  | push hl => rw [hl.absent_eq, List.nil_append]
  | work _ hw => cases hw

theorem checking_eq (hl : Life h (.checking job)) : h = [.pushed job, .dequeued] := by
  cases hl with
  | dequeue hl =>
    rw [hl.queued_eq]
    rfl
  | work _ hw => cases hw

theorem entering_eq (hl : Life h (.entering job)) : ∃ now < job.deadline,
    h = [.pushed job, .dequeued, .worked (.checked now)] := by
  cases hl with
  | work hl hw =>
    cases hw with
    | proceed hnow => exact ⟨_, hnow, by rw [hl.checking_eq]; rfl⟩

theorem synthesizing_eq (hl : Life h (.synthesizing job)) : ∃ now < job.deadline,
    h = [.pushed job, .dequeued, .worked (.checked now), .worked (.called job.request)] := by
  cases hl with
  | work hl hw =>
    cases hw with
    | enter =>
      obtain ⟨now, hnow, rfl⟩ := hl.entering_eq
      exact ⟨now, hnow, rfl⟩

theorem rechecking_eq {result : SynthesisResult} (hl : Life h (.rechecking job result)) :
    ∃ now < job.deadline, h = [.pushed job, .dequeued, .worked (.checked now),
      .worked (.called job.request), .worked (.returned result)] := by
  cases hl with
  | work hl hw =>
    cases hw with
    | returns =>
      obtain ⟨now, hnow, rfl⟩ := hl.synthesizing_eq
      exact ⟨now, hnow, rfl⟩

theorem delivering_lived (hl : Life h (.delivering job d guarded)) : Lived job d h := by
  cases hl with
  | work hl hw =>
    cases hw with
    | expire hnow =>
      rw [hl.checking_eq]
      exact .expired hnow
    | throws =>
      obtain ⟨now, hnow, rfl⟩ := hl.synthesizing_eq
      exact .failed hnow
    | late hnow' =>
      obtain ⟨now, hnow, rfl⟩ := hl.rechecking_eq
      exact .late hnow hnow'
    | inTime hnow' =>
      obtain ⟨now, hnow, rfl⟩ := hl.rechecking_eq
      exact .inTime hnow hnow'

theorem calling_lived (hl : Life h (.calling job d guarded)) : ∃ h₀ k, Lived job d h₀ ∧
    job.callback d = some k ∧ h = h₀ ++ [.worked (.invoked k d)] := by
  cases hl with
  | work hl hw =>
    cases hw with
    | invoke hk => exact ⟨_, _, hl.delivering_lived, hk, rfl⟩

theorem leaving_lived (hl : Life h (.leaving job d guarded)) :
    ∃ h₀, Lived job d h₀ ∧ h = h₀ ++ job.ending d := by
  cases hl with
  | work hl hw =>
    cases hw with
    | skip hk => exact ⟨_, hl.delivering_lived, by simp [InferenceJob.ending, hk]⟩
    | complete =>
      obtain ⟨h₀, k, hlived, hk, rfl⟩ := hl.calling_lived
      exact ⟨h₀, hlived, by simp [InferenceJob.ending, hk]⟩

/-- A finished job lived to one delivery, and the applicable callback was
invoked unless it is null. -/
theorem finished_lived (hl : Life h (.finished job d)) :
    ∃ h₀, Lived job d h₀ ∧ h = h₀ ++ job.ending d ++ [.finished] := by
  cases hl with
  | finish hl =>
    obtain ⟨h₀, hlived, rfl⟩ := hl.leaving_lived
    exact ⟨h₀, hlived, rfl⟩
  | work _ hw => cases hw

end Life

/-- A callback is invoked with the delivery that the job lived to. -/
theorem Life.invoked_lived {h : List (JobEvent κ)} {st : Stage κ} {k : κ} {d : Delivery}
    (hl : Life h st) (hk : (k, d) ∈ VoxtralServer.invocations h) :
    ∃ job h₀ h₁, Lived job d h₀ ∧ h = h₀ ++ h₁ ∧ .pushed job ∈ h := by
  have hdelivery {job : InferenceJob κ} {d' : Delivery} (hmem : (k, d) ∈ job.calls d') :
      d' = d := by
    obtain ⟨_, _, heq⟩ := List.mem_map.mp hmem
    cases heq
    rfl
  rw [hl.invocations_eq] at hk
  cases st with
  | calling job d' guarded =>
    cases hdelivery hk
    obtain ⟨h₀, k', hlived, _, heq⟩ := hl.calling_lived
    exact ⟨job, h₀, _, hlived, heq, hl.pushed_mem rfl⟩
  | leaving job d' guarded =>
    cases hdelivery hk
    obtain ⟨h₀, hlived, heq⟩ := hl.leaving_lived
    exact ⟨job, h₀, _, hlived, heq, hl.pushed_mem rfl⟩
  | finished job d' =>
    cases hdelivery hk
    obtain ⟨h₀, hlived, heq⟩ := hl.finished_lived
    exact ⟨job, h₀, _, hlived, by rw [heq, List.append_assoc], hl.pushed_mem rfl⟩
  | _ => cases hk

/-- The pool never delivers an empty error text. -/
theorem Lived.error_ne_nil {job : InferenceJob κ} {h : List (JobEvent κ)} {text : Str}
    (hl : Lived job (.error text) h) : text ≠ [] := by
  cases hl with
  | expired => decide
  | failed => exact List.append_ne_nil_of_left_ne_nil (by decide) _
  | late => decide

/-- A result that is delivered was returned by a call with the job's own
request. -/
theorem Lived.success_returned {job : InferenceJob κ} {h : List (JobEvent κ)}
    {result : SynthesisResult} (hl : Lived job (.success result) h) :
    .worked (.called job.request) ∈ h ∧ .worked (.returned result) ∈ h := by
  cases hl with
  | inTime => simp

end VoxtralServer
