import VoxtralServer.Lib.Fifo
import VoxtralServer.Pool.Machine

/-!
# The inference pool loses and duplicates nothing

* `fifo_refines`: the pool refines a queue with one server, whose items are the
  accepted jobs.
* `reachable_lives`: every job in the pool lives the life of a job.
* `reachable_closed`: what the shutdown guarantees about the worker.
* `exactly_once`: every accepted job is in one place, and when it is finished,
  the applicable callback was invoked once.
-/

namespace VoxtralServer
namespace InferencePool

variable {κ : Type}

/-! ## Reading a state -/

/-- `submit` has accepted the job: it returned true, or it is about to. -/
def Submit.Accepted (submit : Submit κ) : Prop := submit = .notifying ∨ submit = .returned true

def Accepted (s : InferencePool κ) (id : Nat) : Prop := (s.submits id).Accepted

/-- The events of one job, in order. -/
def history (s : InferencePool κ) (id : Nat) : List (JobEvent κ) :=
  s.trace.filterMap fun entry => if entry.1 = id then some entry.2 else none

/-- The event is the push of a job. -/
@[simp]
def pushedBy : Nat × JobEvent κ → Option Nat
  | (id, .pushed _) => some id
  | (_, .refused) | (_, .dequeued) | (_, .worked _) | (_, .finished) => none

/-- The event is the last one of a job. -/
@[simp]
def finishedBy : Nat × JobEvent κ → Option Nat
  | (id, .finished) => some id
  | (_, .refused) | (_, .pushed _) | (_, .dequeued) | (_, .worked _) => none

/-- The jobs pushed so far, in order. -/
def pushedIds (s : InferencePool κ) : List Nat := s.trace.filterMap pushedBy

/-- The jobs finished so far, in order. -/
def finishedIds (s : InferencePool κ) : List Nat := s.trace.filterMap finishedBy

def queueIds (s : InferencePool κ) : List Nat := s.queue.map Prod.fst

/-- The job that a worker processes. -/
def Worker.held : Worker κ → Option Nat
  | .busy id _ => some id
  | .polling | .asleep | .exited => none

/-- The pool as a queue with one server. -/
def fifo (s : InferencePool κ) : Fifo Nat where
  pushed := s.pushedIds
  done := s.finishedIds
  serving := s.worker.held
  pending := s.queueIds

/-! ## Small facts -/

variable {p : Params} {s s' : InferencePool κ} {a : Act κ} {id j : Nat} {job : InferenceJob κ}

@[simp] theorem Worker.notified_held (w : Worker κ) : w.notified.held = w.held := by
  cases w <;> rfl

theorem Worker.notified_busy {w : Worker κ} {st : Stage κ} (h : w.notified = .busy id st) :
    w = .busy id st := by
  cases w with
  | asleep => cases h
  | _ => exact h

theorem Worker.notified_exited {w : Worker κ} (h : w.notified = .exited) : w = .exited := by
  cases w with
  | asleep => cases h
  | _ => exact h

theorem Worker.notified_ne_asleep (w : Worker κ) : w.notified ≠ .asleep := by
  cases w with
  | asleep => exact fun h => by cases h
  | _ => exact fun h => by cases h

theorem history_append_self {e : JobEvent κ} (h : s'.trace = s.trace ++ [(id, e)]) :
    s'.history id = s.history id ++ [e] := by
  simp [history, h]

theorem history_append_ne {e : JobEvent κ} (h : s'.trace = s.trace ++ [(id, e)]) (hj : j ≠ id) :
    s'.history j = s.history j := by
  simp [history, h, Ne.symm hj]

theorem mem_history {e : JobEvent κ} : e ∈ s.history id ↔ (id, e) ∈ s.trace := by
  simp only [history, List.mem_filterMap, Option.ite_none_right_eq_some, Option.some.injEq]
  constructor
  · rintro ⟨⟨_, _⟩, hmem, rfl, rfl⟩
    exact hmem
  · intro hmem
    exact ⟨(id, e), hmem, rfl, rfl⟩

theorem pushedIds_append {e : JobEvent κ} (h : s'.trace = s.trace ++ [(id, e)]) :
    s'.pushedIds = s.pushedIds ++ (pushedBy (id, e)).toList := by
  rw [pushedIds, h, List.filterMap_append]
  cases e <;> rfl

theorem finishedIds_append {e : JobEvent κ} (h : s'.trace = s.trace ++ [(id, e)]) :
    s'.finishedIds = s.finishedIds ++ (finishedBy (id, e)).toList := by
  rw [finishedIds, h, List.filterMap_append]
  cases e <;> rfl

theorem mem_queueIds : id ∈ s.queueIds ↔ ∃ job, (id, job) ∈ s.queue := by
  simp [queueIds]

theorem Worker.held_busy {w : Worker κ} (h : w.held = some id) : ∃ st, w = .busy id st := by
  cases w with
  | busy id' st =>
    cases h
    exact ⟨st, rfl⟩
  | _ => cases h

/-- An update that does not decide on a job leaves the others undecided too. -/
theorem accepted_update {submit : Submit κ} (h : submit.Accepted ↔ s.Accepted id) :
    ∀ j, (Function.update s.submits id submit j).Accepted ↔ s.Accepted j := by
  intro j
  rw [Function.update_apply]
  split
  · next heq => rw [h, heq]
  · rfl

/-! ## First in, first out -/

/-- A job is accepted by pushing it. -/
theorem accepted_iff (h : (system p κ).Reachable System.Any s) :
    ∀ id, s.Accepted id ↔ id ∈ s.pushedIds := by
  refine System.reachable_inv (I := fun s => ∀ id, s.Accepted id ↔ id ∈ s.pushedIds) ?_ ?_ h
  · rintro s ⟨now, rfl⟩ id
    simp [Accepted, Submit.Accepted, pushedIds]
  · intro s a t hi _ hst
    cases step_moves hst with
    | stamp hidle =>
      intro id
      exact (accepted_update (by simp [Accepted, Submit.Accepted, hidle]) id).trans (hi id)
    | refuse hsub =>
      intro id
      refine (accepted_update (by simp [Accepted, Submit.Accepted, hsub]) id).trans
        ((hi id).trans ?_)
      simp [pushedIds]
    | @push id' job hsub =>
      intro id
      rw [pushedIds_append (s := s) rfl, List.mem_append, ← hi id]
      simp only [Accepted, Function.update_apply]
      split
      · next heq => simp [heq, Submit.Accepted]
      · next hne =>
        rw [pushedBy, Option.toList_some, List.mem_singleton, or_iff_left hne]
    | notifyOne hn =>
      exact fun id => (accepted_update (by simp [Accepted, Submit.Accepted, hn]) id).trans (hi id)
    | dequeue => simpa [Accepted, pushedIds] using hi
    | work => simpa [Accepted, pushedIds] using hi
    | finish => simpa [Accepted, pushedIds] using hi
    | _ => exact hi

/-- The pool refines a queue with one server. -/
theorem fifo_refines (p : Params) : System.Refines (system p κ) (Fifo.system Nat) fifo := by
  constructor
  · rintro s ⟨now, rfl⟩
    rfl
  · intro s a t hr hst
    cases step_moves hst with
    | refuse => exact .inl (by simp [fifo, pushedIds, finishedIds, queueIds])
    | notifyOne => exact .inl (by simp [fifo, pushedIds, finishedIds, queueIds])
    | notifyAll => exact .inl (by simp [fifo, pushedIds, finishedIds, queueIds])
    | @push id job hsub =>
      refine .inr ⟨.push id, ?_⟩
      have hnew : id ∉ s.pushedIds := by
        rw [← accepted_iff hr id]
        simp [Accepted, Submit.Accepted, hsub]
      simp only [Fifo.system, Fifo.step, fifo, if_neg hnew]
      simp [pushedIds, finishedIds, queueIds]
    | dequeue hw hq =>
      refine .inr ⟨.take, ?_⟩
      simp [Fifo.system, Fifo.step, fifo, pushedIds, finishedIds, queueIds, hw, hq, Worker.held]
    | work hw => exact .inl (by simp [fifo, pushedIds, finishedIds, queueIds, hw, Worker.held])
    | finish hw =>
      refine .inr ⟨.finish, ?_⟩
      simp [Fifo.system, Fifo.step, fifo, pushedIds, finishedIds, queueIds, hw, Worker.held]
    | sleep hw => exact .inl (by simp [fifo, pushedIds, finishedIds, queueIds, hw, Worker.held])
    | exit hw => exact .inl (by simp [fifo, pushedIds, finishedIds, queueIds, hw, Worker.held])
    | wake hw => exact .inl (by simp [fifo, pushedIds, finishedIds, queueIds, hw, Worker.held])
    | _ => exact .inl rfl

theorem reachable_fifo (h : (system p κ).Reachable System.Any s) : s.fifo.Inv :=
  Fifo.reachable_inv (System.reachable_map (fifo_refines p) h)

/-! ## Where a job is -/

/-- A job that is queued or held or finished was accepted, and is in only one of
these places. -/
structure Placed (s : InferencePool κ) : Prop where
  queued {id : Nat} {job : InferenceJob κ} : (id, job) ∈ s.queue → s.Accepted id
  held {id : Nat} {st : Stage κ} : s.worker = .busy id st → s.Accepted id
  held_ne {id j : Nat} {st : Stage κ} {job : InferenceJob κ} : s.worker = .busy id st →
    (j, job) ∈ s.queue → j ≠ id
  head_ne {id j : Nat} {job job' : InferenceJob κ} {rest : List (Nat × InferenceJob κ)} :
    s.queue = (id, job) :: rest → (j, job') ∈ rest → j ≠ id
  finished {id : Nat} : id ∈ s.finishedIds →
    s.Accepted id ∧ id ∉ s.queueIds ∧ ∀ st, s.worker ≠ .busy id st

theorem reachable_placed (h : (system p κ).Reachable System.Any s) : s.Placed := by
  have hfifo := reachable_fifo h
  have hpushed : ∀ id, id ∈ s.finishedIds ∨ s.worker.held = some id ∨ id ∈ s.queueIds →
      s.Accepted id := fun id hid => (accepted_iff h id).mpr (hfifo.mem_pushed.mpr hid)
  constructor
  · intro id job hq
    exact hpushed id (.inr (.inr (mem_queueIds.mpr ⟨job, hq⟩)))
  · intro id st hw
    exact hpushed id (.inr (.inl (by simp [hw, Worker.held])))
  · intro id j st job hw hq
    exact hfifo.serving_ne (by simp [fifo, hw, Worker.held]) (.inl (mem_queueIds.mpr ⟨job, hq⟩))
  · rintro id j job job' rest hq hj rfl
    have hnodup : (s.queueIds).Nodup := hfifo.pending_nodup
    rw [queueIds, hq, List.map_cons, List.nodup_cons] at hnodup
    exact hnodup.1 (List.mem_map.mpr ⟨_, hj, rfl⟩)
  · intro id hd
    refine ⟨hpushed id (.inl hd), fun hq => hfifo.pending_not_done hq hd, fun st hw => ?_⟩
    exact hfifo.serving_ne (i := id) (by simp [fifo, hw, Worker.held]) (.inr hd) rfl

/-! ## The lives of the jobs -/

/-- Where a job is before it is finished. -/
inductive At (s : InferencePool κ) (id : Nat) : Stage κ → Prop
  | idle : s.submits id = .idle → At s id .absent
  | stamped {job : InferenceJob κ} : s.submits id = .stamped job → At s id .absent
  | refused : s.submits id = .returned false → At s id .refused
  | queued {job : InferenceJob κ} : (id, job) ∈ s.queue → At s id (.queued job)
  | held {st : Stage κ} : s.worker = .busy id st → At s id st

/-- Every job has lived up to where it is. -/
structure Lives (s : InferencePool κ) : Prop where
  life {id : Nat} {st : Stage κ} : s.At id st → Life (s.history id) st
  finished {id : Nat} : id ∈ s.finishedIds → ∃ job d, Life (s.history id) (.finished job d)

/-- A job is where it was when its submit, its entry in the queue and the
worker's hold on it are as they were. -/
theorem At.of {st : Stage κ} (h : s'.At id st) (hsubmit : s'.submits id = s.submits id)
    (hqueue : ∀ job, (id, job) ∈ s'.queue → (id, job) ∈ s.queue)
    (hworker : ∀ st, s'.worker = .busy id st → s.worker = .busy id st) : s.At id st := by
  cases h with
  | idle h => exact .idle (hsubmit ▸ h)
  | stamped h => exact .stamped (hsubmit ▸ h)
  | refused h => exact .refused (hsubmit ▸ h)
  | queued h => exact .queued (hqueue _ h)
  | held h => exact .held (hworker _ h)

/-- An accepted job is queued or held, while it is not finished. -/
theorem At.of_accepted {st : Stage κ} (h : s.At id st) (ha : s.Accepted id) :
    (∃ job, (id, job) ∈ s.queue ∧ st = .queued job) ∨ s.worker = .busy id st := by
  cases h with
  | idle h => simp [Accepted, Submit.Accepted, h] at ha
  | stamped h => simp [Accepted, Submit.Accepted, h] at ha
  | refused h => simp [Accepted, Submit.Accepted, h] at ha
  | queued h => exact .inl ⟨_, h, rfl⟩
  | held h => exact .inr h

/-- A step without an event leaves the jobs where they are. -/
theorem Lives.silent (hi : s.Lives) (htrace : s'.trace = s.trace)
    (hat : ∀ id st, s'.At id st → s.At id st) : s'.Lives := by
  constructor
  · intro id st h
    rw [history, htrace]
    exact hi.life (hat id st h)
  · intro id h
    rw [history, htrace]
    rw [finishedIds, htrace] at h
    exact hi.finished h

/-- A step with an event of one job leaves the others where they are. -/
theorem Lives.event {e : JobEvent κ} (hi : s.Lives) (htrace : s'.trace = s.trace ++ [(id, e)])
    (hother : ∀ j st, j ≠ id → s'.At j st → s.At j st)
    (hself : ∀ st, s'.At id st → Life (s.history id ++ [e]) st) (hid : id ∉ s.finishedIds)
    (hfinished : e = .finished → ∃ job d, Life (s.history id ++ [e]) (.finished job d)) :
    s'.Lives := by
  constructor
  · intro j st h
    rcases eq_or_ne j id with rfl | hne
    · rw [history_append_self htrace]
      exact hself st h
    · rw [history_append_ne htrace hne]
      exact hi.life (hother j st hne h)
  · intro j h
    rw [finishedIds_append htrace, List.mem_append] at h
    rcases eq_or_ne j id with rfl | hne
    · rw [history_append_self htrace]
      refine hfinished ?_
      cases e <;> simp_all
    · rw [history_append_ne htrace hne]
      refine hi.finished ?_
      cases e <;> simpa [hne] using h

theorem lives_init (now : Int) : Lives ({ clock := now } : InferencePool κ) := by
  constructor
  · intro id st hat
    cases hat with
    | idle h => exact .absent
    | stamped h => cases h
    | refused h => cases h
    | queued h => cases h
    | held h => cases h
  · intro id hd
    cases hd

theorem lives_step (hr : (system p κ).Reachable System.Any s) (hi : s.Lives)
    (h : Moves p s a s') : s'.Lives := by
  have hplaced := reachable_placed hr
  cases h with
  | @stamp id job now hidle =>
    refine hi.silent rfl fun j st hat => ?_
    rcases eq_or_ne j id with rfl | hne
    · cases hat with
      | stamped _ => exact .idle hidle
      | idle h => simp at h
      | refused h => simp at h
      | queued h => exact .queued h
      | held h => exact .held h
    · exact hat.of (by simp [hne]) (fun _ h => h) (fun _ h => h)
  | @refuse id job hsub =>
    have hno : ¬ s.Accepted id := by simp [Accepted, Submit.Accepted, hsub]
    refine hi.event rfl (fun j st hne hat => hat.of (by simp [hne]) (fun _ h => h) (fun _ h => h))
      (fun st hat => ?_) (fun hd => hno (hplaced.finished hd).1) nofun
    cases hat with
    | refused h => exact .refuse (hi.life (.stamped hsub))
    | idle h => simp at h
    | stamped h => simp at h
    | queued h => exact absurd (hplaced.queued h) hno
    | held h => exact absurd (hplaced.held h) hno
  | @push id job hsub =>
    have hno : ¬ s.Accepted id := by simp [Accepted, Submit.Accepted, hsub]
    refine hi.event rfl (fun j st hne hat => hat.of (by simp [hne]) (by simp [hne]) (fun _ h => h))
      (fun st hat => ?_) (fun hd => hno (hplaced.finished hd).1) nofun
    cases hat with
    | queued h =>
      rcases List.mem_append.mp h with h | h
      · exact absurd (hplaced.queued h) hno
      · cases List.mem_singleton.mp h
        exact .push (hi.life (.stamped hsub))
    | idle h => simp at h
    | stamped h => simp at h
    | refused h => simp at h
    | held h => exact absurd (hplaced.held h) hno
  | @notifyOne id hn =>
    refine hi.silent rfl fun j st hat => ?_
    rcases eq_or_ne j id with rfl | hne
    · cases hat with
      | idle h => simp at h
      | stamped h => simp at h
      | refused h => simp at h
      | queued h => exact .queued h
      | held h => exact .held (Worker.notified_busy h)
    · exact hat.of (by simp [hne]) (fun _ h => h) (fun _ h => Worker.notified_busy h)
  | notifyAll _ =>
    exact hi.silent rfl fun j st hat =>
      hat.of rfl (fun _ h => h) (fun _ h => Worker.notified_busy h)
  | close _ => exact hi.silent rfl fun j st hat => hat.of rfl (fun _ h => h) (fun _ h => h)
  | join _ _ => exact hi.silent rfl fun j st hat => hat.of rfl (fun _ h => h) (fun _ h => h)
  | sleep _ _ _ =>
    exact hi.silent rfl fun j st hat => hat.of rfl (fun _ h => h) fun _ h => by cases h
  | exit _ _ _ =>
    exact hi.silent rfl fun j st hat => hat.of rfl (fun _ h => h) fun _ h => by cases h
  | wake _ => exact hi.silent rfl fun j st hat => hat.of rfl (fun _ h => h) fun _ h => by cases h
  | @dequeue id job rest hw hq =>
    have hmem : (id, job) ∈ s.queue := by simp [hq]
    refine hi.event rfl
      (fun j st hne hat => hat.of rfl (fun job' hj => by simp [hq, hj])
        fun st h => by cases h; exact absurd rfl hne)
      (fun st hat => ?_) (fun hd => (hplaced.finished hd).2.1 (mem_queueIds.mpr ⟨job, hmem⟩)) nofun
    rcases hat.of_accepted (hplaced.queued hmem) with ⟨job', h, rfl⟩ | h
    · exact absurd rfl (hplaced.head_ne hq h)
    · cases h
      exact .dequeue (hi.life (.queued hmem))
  | @work id st st' _ e _ _ _ hw hwork =>
    refine hi.event rfl
      (fun j st hne hat => hat.of rfl (fun _ h => h) fun st h => by cases h; exact absurd rfl hne)
      (fun st hat => ?_) (fun hd => (hplaced.finished hd).2.2 _ hw) nofun
    rcases hat.of_accepted (hplaced.held hw) with ⟨job', h, rfl⟩ | h
    · exact absurd rfl (hplaced.held_ne hw h)
    · cases h
      exact .work (hi.life (.held hw)) hwork
  | @finish id job d guarded _ hw =>
    refine hi.event rfl (fun j st hne hat => hat.of rfl (fun _ h => h) fun _ h => by cases h)
      (fun st hat => ?_) (fun hd => (hplaced.finished hd).2.2 _ hw)
      (fun _ => ⟨job, d, .finish (hi.life (.held hw))⟩)
    rcases hat.of_accepted (hplaced.held hw) with ⟨job', h, rfl⟩ | h
    · exact absurd rfl (hplaced.held_ne hw h)
    · cases h

/-- Every job in the pool lives the life of a job. -/
theorem reachable_lives (h : (system p κ).Reachable System.Any s) : s.Lives := by
  refine System.reachable_inv_of (I := Lives) ?_ ?_ h
  · rintro s ⟨now, rfl⟩
    exact lives_init now
  · intro s a t hr hi _ hst
    exact lives_step hr hi (step_moves hst)

/-- So does every job, wherever it is. -/
theorem exists_life (h : (system p κ).Reachable System.Any s) (id : Nat) :
    ∃ st, Life (s.history id) st := by
  have hlives := reachable_lives h
  have accepted (ha : s.Accepted id) : ∃ st, Life (s.history id) st := by
    rcases (reachable_fifo h).mem_pushed.mp ((accepted_iff h id).mp ha) with hd | hheld | hq
    · obtain ⟨job, d, hlife⟩ := hlives.finished hd
      exact ⟨_, hlife⟩
    · obtain ⟨st, hw⟩ := Worker.held_busy hheld
      exact ⟨_, hlives.life (.held hw)⟩
    · obtain ⟨job, hjob⟩ := mem_queueIds.mp hq
      exact ⟨_, hlives.life (.queued hjob)⟩
  cases hid : s.submits id with
  | idle => exact ⟨_, hlives.life (.idle hid)⟩
  | stamped => exact ⟨_, hlives.life (.stamped hid)⟩
  | notifying => exact accepted (.inl hid)
  | returned b =>
    cases b with
    | false => exact ⟨_, hlives.life (.refused hid)⟩
    | true => exact accepted (.inr hid)

/-- A step pushes the job of a call of `submit` under way. -/
theorem Moves.pushed (h : Moves p s a s') (hjob : (id, .pushed job) ∈ s'.trace) :
    (id, .pushed job) ∈ s.trace ∨ s.submits id = .stamped job := by
  cases h with
  | push hsub =>
    rcases List.mem_append.mp hjob with hjob | hjob
    · exact .inl hjob
    · cases List.mem_singleton.mp hjob
      exact .inr hsub
  | refuse => exact .inl (by simpa using hjob)
  | dequeue => exact .inl (by simpa using hjob)
  | work => exact .inl (by simpa using hjob)
  | finish => exact .inl (by simpa using hjob)
  | _ => exact .inl hjob

/-- The trace only grows. -/
theorem step_trace (h : (system p κ).step s a = some s') {e : Nat × JobEvent κ}
    (hmem : e ∈ s.trace) : e ∈ s'.trace := by
  cases step_moves h with
  | refuse => exact List.mem_append_left _ hmem
  | push => exact List.mem_append_left _ hmem
  | dequeue => exact List.mem_append_left _ hmem
  | work => exact List.mem_append_left _ hmem
  | finish => exact List.mem_append_left _ hmem
  | _ => exact hmem

theorem pushed_accepted (h : (system p κ).Reachable System.Any s)
    (hjob : (id, .pushed job) ∈ s.trace) : s.Accepted id :=
  (accepted_iff h id).mpr (List.mem_filterMap.mpr ⟨_, hjob, rfl⟩)

/-! ## Shutdown and wake-ups -/

/-- What closing the pool leads to, and that no wake-up is lost: a worker that
sleeps although its predicate holds is still to be notified. -/
structure Closed (s : InferencePool κ) : Prop where
  exited : s.worker = .exited → s.accepting = false ∧ s.queue = []
  closing : s.shutdown ≠ .idle → s.accepting = false
  joined : s.shutdown = .returned → s.worker = .exited
  woken : s.worker = .asleep → s.queue ≠ [] ∨ s.accepting = false →
    (∃ id, s.submits id = .notifying) ∨ s.shutdown = .notifying

/-- An update of a call that is not about to notify leaves the others that are. -/
theorem notifying_update {submit : Submit κ} (h : s.submits id ≠ .notifying)
    (hn : ∃ j, s.submits j = .notifying) :
    ∃ j, Function.update s.submits id submit j = .notifying := by
  obtain ⟨j, hj⟩ := hn
  have hne : j ≠ id := fun heq => h (heq ▸ hj)
  exact ⟨j, by rw [Function.update_of_ne hne, hj]⟩

theorem closed_step (hi : s.Closed) (h : Moves p s a s') : s'.Closed := by
  cases h with
  | stamp hidle =>
    refine ⟨hi.exited, hi.closing, hi.joined, fun hw hq => ?_⟩
    exact (hi.woken hw hq).imp_left (notifying_update (by simp [hidle]))
  | refuse hsub =>
    refine ⟨hi.exited, hi.closing, hi.joined, fun hw hq => ?_⟩
    exact (hi.woken hw hq).imp_left (notifying_update (by simp [hsub]))
  | @push id job hsub hopen =>
    refine ⟨fun hw => ?_, hi.closing, hi.joined, fun _ _ => .inl ⟨id, Function.update_self ..⟩⟩
    rw [(hi.exited hw).1] at hopen
    cases hopen
  | notifyOne =>
    exact ⟨fun hw => hi.exited (Worker.notified_exited hw), hi.closing,
      fun hs => by rw [hi.joined hs]; rfl, fun hw => absurd hw (Worker.notified_ne_asleep _)⟩
  | close => exact ⟨fun hw => ⟨rfl, (hi.exited hw).2⟩, fun _ => rfl, nofun, fun _ _ => .inr rfl⟩
  | notifyAll hs =>
    exact ⟨fun hw => hi.exited (Worker.notified_exited hw), fun _ => hi.closing (by simp [hs]),
      nofun, fun hw => absurd hw (Worker.notified_ne_asleep _)⟩
  | join hs hw =>
    refine ⟨hi.exited, fun _ => hi.closing (by simp [hs]), fun _ => hw, fun hw' => ?_⟩
    rw [hw] at hw'
    cases hw'
  | sleep hw hopen hq =>
    refine ⟨nofun, hi.closing, fun hs => ?_, fun _ h => ?_⟩
    · rw [hi.joined hs] at hw
      cases hw
    · simp [hopen, hq] at h
  | exit hw hopen hq => exact ⟨fun _ => ⟨hopen, hq⟩, hi.closing, fun _ => rfl, nofun⟩
  | dequeue hw hq =>
    refine ⟨nofun, hi.closing, fun hs => ?_, nofun⟩
    rw [hi.joined hs] at hw
    cases hw
  | wake hw =>
    refine ⟨nofun, hi.closing, fun hs => ?_, nofun⟩
    rw [hi.joined hs] at hw
    cases hw
  | work hw =>
    refine ⟨nofun, hi.closing, fun hs => ?_, nofun⟩
    rw [hi.joined hs] at hw
    cases hw
  | finish hw =>
    refine ⟨nofun, hi.closing, fun hs => ?_, nofun⟩
    rw [hi.joined hs] at hw
    cases hw

theorem reachable_closed (h : (system p κ).Reachable System.Any s) : s.Closed := by
  refine System.reachable_inv (I := Closed) ?_
    (fun s a t hi _ hst => closed_step hi (step_moves hst)) h
  rintro s ⟨now, rfl⟩
  exact ⟨nofun, fun h => absurd rfl h, nofun, nofun⟩

/-- A pool that does not accept never does again, and accepts no further job. -/
theorem closed_forever (h : (system p κ).Reaches System.Any s s') (hs : s.accepting = false) :
    s'.accepting = false ∧ ∀ id, s'.Accepted id → s.Accepted id := by
  refine System.reaches_inv
    (I := fun t => t.accepting = false ∧ ∀ id, t.Accepted id → s.Accepted id) ?_ h
    ⟨hs, fun _ h => h⟩
  rintro t a u ⟨hclosed, hold⟩ _ hst
  cases step_moves hst with
  | push _ hopen =>
    rw [hclosed] at hopen
    cases hopen
  | close => exact ⟨rfl, hold⟩
  | stamp hidle =>
    exact ⟨hclosed, fun id hid => hold id
      ((accepted_update (by simp [Accepted, Submit.Accepted, hidle]) id).mp hid)⟩
  | refuse hsub =>
    exact ⟨hclosed, fun id hid => hold id
      ((accepted_update (by simp [Accepted, Submit.Accepted, hsub]) id).mp hid)⟩
  | notifyOne hn =>
    exact ⟨hclosed, fun id hid => hold id
      ((accepted_update (by simp [Accepted, Submit.Accepted, hn]) id).mp hid)⟩
  | _ => exact ⟨hclosed, hold⟩

/-! ## Exactly once -/

/-- Once the worker has exited, every accepted job is finished. -/
theorem exited_finished (h : (system p κ).Reachable System.Any s) (hw : s.worker = .exited)
    (ha : s.Accepted id) : id ∈ s.finishedIds := by
  have hplace := (reachable_fifo h).mem_pushed.mp ((accepted_iff h id).mp ha)
  rcases hplace with hd | hheld | hq
  · exact hd
  · simp [fifo, hw, Worker.held] at hheld
  · simp [fifo, queueIds, ((reachable_closed h).exited hw).2] at hq

/-- **Nothing lost, nothing duplicated.** In every reachable state

* an accepted job is once in the queue, in the hands of the worker, or among the
  finished ones;
* a finished job lived to one delivery, and the applicable callback was invoked
  with it, once, unless it is null;
* no callback of a refused job was invoked;
* the worker has exited only if the pool does not accept and its queue is empty;
* and if `shutdown` has returned, every job that is accepted then or later is
  finished, and a job that is not accepted yet will be refused. -/
theorem exactly_once (p : Params) {s : InferencePool κ}
    (h : (system p κ).Reachable System.Any s) :
    (∀ id, s.Accepted id →
      s.queueIds.count id + s.worker.held.toList.count id + s.finishedIds.count id = 1) ∧
    (∀ id ∈ s.finishedIds, ∃ job d h₀, Lived job d h₀ ∧
      s.history id = h₀ ++ job.ending d ++ [.finished] ∧
      invocations (s.history id) = job.calls d) ∧
    (∀ id, s.submits id = .returned false → invocations (s.history id) = []) ∧
    (s.worker = .exited → s.accepting = false ∧ s.queue = []) ∧
    (s.shutdown = .returned → ∀ s', (system p κ).Reaches System.Any s s' → ∀ id,
      (s'.Accepted id → id ∈ s.finishedIds) ∧
      (¬ s.Accepted id → ∀ accepted, s'.submits id = .returned accepted → accepted = false)) := by
  have hlives := reachable_lives h
  have hclosed := reachable_closed h
  refine ⟨?_, ?_, ?_, hclosed.exited, ?_⟩
  · intro id ha
    exact (reachable_fifo h).count_eq_one ((accepted_iff h id).mp ha)
  · intro id hd
    obtain ⟨job, d, hlife⟩ := hlives.finished hd
    obtain ⟨h₀, hlived, heq⟩ := hlife.finished_lived
    exact ⟨job, d, h₀, hlived, heq, hlife.invocations_eq⟩
  · intro id hid
    exact (hlives.life (.refused hid)).invocations_eq
  · intro hs s' hreaches id
    have hlater := (closed_forever hreaches (hclosed.closing (by simp [hs]))).2 id
    constructor
    · intro ha
      exact exited_finished h (hclosed.joined hs) (hlater ha)
    · intro hno accepted hret
      cases accepted with
      | false => rfl
      | true => exact absurd (hlater (.inr hret)) hno

/-- A job with both callbacks, which are told apart by a boolean. -/
def exJob : InferenceJob Bool where
  request := {}
  onSuccess := some true
  onError := some false

/-- A job is accepted and its backend throws, the pool is shut down while its
callback runs, which throws too, and a second job is refused. -/
def exShutdownRun : List (Act Bool) :=
  [.stamp 0 exJob 0, .poll, .lock 0, .notifyOne 0, .stamp 1 exJob 0, .poll, .check 1, .enter,
   .backendThrows (utf8 "no"), .deliver, .close, .notifyAll, .lock 1,
   .callbackEnds (some (utf8 "no")), .finish, .poll, .join]

/-- After such a run the first job is finished and its `on_error` was invoked,
and no callback of the second one. -/
theorem exactly_once_shutdown : ∃ s : InferencePool Bool,
    (system {} Bool).Reachable System.Any s ∧ s.shutdown = .returned ∧ s.Accepted 0 ∧
    0 ∈ s.finishedIds ∧ invocations (s.history 0) = [(false, .error (failedText (utf8 "no")))] ∧
    s.submits 1 = .returned false ∧ invocations (s.history 1) = [] := by
  obtain ⟨s, hrun, hreach⟩ :=
    System.exists_reachable (S := system {} Bool) (G := System.Any) exShutdownRun ⟨0, rfl⟩
      (by decide)
  obtain ⟨_, _, hrefused, _, hlater⟩ := exactly_once {} hreach
  cases hrun
  exact ⟨_, hreach, rfl, .inr rfl, (hlater rfl _ (.refl _) 0).1 (.inr rfl), by decide, rfl,
    hrefused 1 rfl⟩

end InferencePool
end VoxtralServer
