import VoxtralServer.JsonText
import VoxtralServer.Pool.Order
import VoxtralServer.Server.EngineText
import VoxtralServer.Server.QueueGauge
import VoxtralServer.Server.SpeechOutcomes

/-!
# The causes of refused speech calls

`handle_speech` answers 503 with `model_not_ready` when the pool does not accept,
and with `queue_full` when `submit` returns false. `submit` returns false as well
when the pool was closed after the handler had asked it.

* `refusal_causes`: the codes name the causes in every run in which no shutdown
  closes the pool between the two. After any other close some call answers
  `queue_full` although the pool was closed when it refused the job.
* `queue_full_closed`: such a run.
-/

namespace VoxtralServer

variable {lib : JsonLib} {deps : HandlerDeps}

/-! ## The code in a response -/

/-- The call is answered 503 with the error code. -/
def RefusedAs (lib : JsonLib) (code : Str) (result : Except JsonError HttpResponse) : Prop :=
  ∃ resp document error, result = .ok resp ∧ resp.status = 503 ∧
    lib.parse resp.body = .ok document ∧ document.field (utf8 "error") = some error ∧
    error.field (utf8 "code") = some (.string code)

theorem errorDocument_textual (errorType errorCode message param : Str) :
    (errorDocument errorType errorCode message param).Textual := by
  have hparam : (if param.isEmpty then Json.null else .string param).Textual := by
    split
    · exact .null
    · exact .string param
  have herror : Json.Textual (.object [(utf8 "code", .string errorCode),
      (utf8 "message", .string message),
      (utf8 "param", if param.isEmpty then .null else .string param),
      (utf8 "type", .string errorType)]) := by
    have hkeys : [utf8 "code", utf8 "message", utf8 "param", utf8 "type"].Pairwise (· < ·) := by
      decide
    refine .object hkeys ?_
    simp only [List.forall_mem_cons, List.not_mem_nil, false_imp_iff, forall_true_iff, and_true]
    exact ⟨.string _, .string _, hparam, .string _⟩
  refine .object (List.pairwise_singleton ..) ?_
  simpa only [List.forall_mem_cons, List.not_mem_nil, false_imp_iff, forall_true_iff, and_true]
    using herror

/-- The body of an error response is read back. -/
theorem makeErrorResponse_parse (hfaith : lib.Faithful) {status : Int}
    {errorType errorCode message param : Str} {resp : HttpResponse}
    (h : makeErrorResponse lib status errorType errorCode message param = .ok resp) :
    lib.parse resp.body = .ok (errorDocument errorType errorCode message param) := by
  unfold makeErrorResponse at h
  cases hdump : lib.dump (errorDocument errorType errorCode message param) with
  | error e => rw [hdump] at h; cases h
  | ok body =>
    rw [hdump] at h
    cases h
    exact hfaith.parse_dump _ _ (errorDocument_textual ..) hdump

/-- The code and the status of an error response are the ones it was built with. -/
theorem refusedAs_makeErrorResponse (hfaith : lib.Faithful) {status : Int}
    {errorType errorCode message param code : Str}
    (h : RefusedAs lib code (makeErrorResponse lib status errorType errorCode message param)) :
    status = 503 ∧ code = errorCode := by
  obtain ⟨resp, document, error, hresp, hstatus, hparse, herror, hcode⟩ := h
  rw [makeErrorResponse_parse hfaith hresp] at hparse
  cases hparse
  cases herror
  cases hcode
  exact ⟨(makeErrorResponse_status hresp).1.symm.trans hstatus, rfl⟩

theorem refusedAs_queueFull (hlib : lib.Documented) (hfaith : lib.Faithful) :
    RefusedAs lib (utf8 "queue_full") (queueFull lib).result := by
  obtain ⟨resp, hresp⟩ := makeErrorResponse_ok 503 hlib (validUtf8_utf8 "server_error")
    (validUtf8_utf8 "queue_full") (validUtf8_utf8 "Server is at capacity. Please try again later.")
    validUtf8_nil
  exact ⟨resp, _, _, hresp, (makeErrorResponse_status hresp).1,
    makeErrorResponse_parse hfaith hresp, rfl, rfl⟩

theorem not_refusedAs_status {code : Str} {result : Except JsonError HttpResponse}
    (h : ∀ resp, result = .ok resp → resp.status ≠ 503) : ¬ RefusedAs lib code result :=
  fun ⟨resp, _, _, hresp, hstatus, _⟩ => h resp hresp hstatus

/-- A rejected request is the client's error. -/
theorem not_refusedAs_rejected {req : HttpRequest} {ending : Ending} {code : Str}
    (hread : readSpeech lib deps req = .error ending) : ¬ RefusedAs lib code ending.result := by
  refine not_refusedAs_status fun resp hresp => ?_
  have hrejects := readSpeech_rejects hread resp hresp
  omega

/-- A call whose job was run is not refused. -/
theorem not_refusedAs_respond (start stop : Int) (text : Str) (r : SynthesisResult) {code : Str} :
    ¬ RefusedAs lib code (respond lib start stop text r).result := by
  refine not_refusedAs_status fun resp hresp => ?_
  unfold respond at hresp
  split at hresp
  · rw [(makeErrorResponse_status hresp).1]
    decide
  · cases hresp
    exact (by decide : (200 : Int) ≠ 503)

/-- `queue_full` is the answer to a job that `submit` did not take. -/
theorem handleSpeech_queueFull (hfaith : lib.Faithful) {pool : Option PoolView} {start stop : Int}
    {req : HttpRequest}
    (h : RefusedAs lib (utf8 "queue_full") (handleSpeech lib deps pool start stop req).result) :
    ∃ view, pool = some view ∧ view.submitted = false ∧
      (handleSpeech lib deps pool start stop req).submits ≠ [] := by
  have hnotReady : ¬ RefusedAs lib (utf8 "queue_full") (poolNotReady lib).result := fun h =>
    absurd (refusedAs_makeErrorResponse hfaith h).2 (by decide)
  unfold handleSpeech at h ⊢
  split at h
  · next hread => exact absurd h (not_refusedAs_rejected hread)
  · split at h
    · exact absurd h hnotReady
    · next view =>
      split at h
      · exact absurd h hnotReady
      · next haccepting =>
        split at h
        · next hsubmitted =>
          refine ⟨view, rfl, by simpa using hsubmitted, ?_⟩
          simp [haccepting, hsubmitted]
        · exact absurd h
            (not_refusedAs_respond start stop view.delivery.store.1 view.delivery.store.2)

namespace SpeechServer

open InferencePool (Submit)
open QueueGauge (startsAt caller step_frame)

variable {p : InferencePool.Params} {s s' : SpeechServer} {a : Act} {i : Nat}

/-! ## What a step does to the pool -/

/-- The step of the pool that a step of the system is. -/
def poolAct (s : SpeechServer) : Act → Option (InferencePool.Act Nat)
  | .submit i now => some (.stamp i (speechJob i (s.calls i).fields) now)
  | .callbackReturns => some (.callbackEnds none)
  | .pool b => some b
  | _ => none

theorem poolAct_lock : poolAct s a = some (.lock i) ↔ a = .pool (.lock i) := by
  cases a <;> simp [poolAct]

theorem poolAct_close : poolAct s a = some .close ↔ a = .pool .close := by
  cases a <;> simp [poolAct]

/-- The pool takes its own step, or stays as it is. -/
theorem step_pool (hst : (system lib deps p).step s a = some s') :
    poolAct s a = none ∧ s'.pool = s.pool ∨
      ∃ b, poolAct s a = some b ∧
        (InferencePool.system p Nat).step s.pool b = some s'.pool := by
  cases a with
  | pool b =>
    refine .inr ⟨b, rfl, ?_⟩
    simp only [system, step, poolStep] at hst
    split at hst
    · cases hst
    · cases hst
    · obtain ⟨pool, hpool, rfl⟩ := Option.map_eq_some_iff.mp hst
      exact hpool
  | submit k now =>
    refine .inr ⟨_, rfl, ?_⟩
    simp only [system, step] at hst
    split at hst
    · obtain ⟨pool, hpool, rfl⟩ := Option.map_eq_some_iff.mp hst
      exact hpool
    · cases hst
  | callbackReturns =>
    refine .inr ⟨_, rfl, ?_⟩
    simp only [system, step] at hst
    split at hst
    · split at hst
      · obtain ⟨pool, hpool, rfl⟩ := Option.map_eq_some_iff.mp hst
        exact hpool
      · cases hst
    · cases hst
  | callback =>
    refine .inl ⟨rfl, ?_⟩
    simp only [system, step] at hst
    split at hst
    · obtain ⟨c, _, rfl⟩ := Option.map_eq_some_iff.mp hst
      rfl
    · cases hst
  | _ =>
    refine .inl ⟨rfl, ?_⟩
    simp only [system, step] at hst
    repeat' split at hst
    all_goals cases hst
    all_goals rfl

/-- Only a shutdown changes whether the pool accepts. -/
theorem step_accepting (hst : (system lib deps p).step s a = some s') (ha : a ≠ .pool .close) :
    s'.pool.accepting = s.pool.accepting := by
  rcases step_pool hst with ⟨_, heq⟩ | ⟨b, hb, hpool⟩
  · rw [heq]
  · have hm := InferencePool.step_moves hpool
    generalize s'.pool = pool at hm ⊢
    cases hm with
    | close => exact absurd (poolAct_close.mp hb) ha
    | _ => rfl

/-- `submit` has not decided on the job. -/
def Pending (submit : Submit Nat) : Prop := submit = .idle ∨ ∃ job, submit = .stamped job

/-- The decision on a job. -/
theorem lock_decides (hst : (system lib deps p).step s (.pool (.lock i)) = some s') :
    (∃ job, s.pool.submits i = .stamped job) ∧ ¬ Pending (s'.pool.submits i) ∧
      (s'.pool.submits i = .returned false →
        s.pool.accepting = false ∨ p.maxQueueDepth ≤ intOfSize s.pool.queue.length) := by
  simp only [system, step, poolStep, InferencePool.step] at hst
  obtain ⟨pool, hpool, rfl⟩ := Option.map_eq_some_iff.mp hst
  split at hpool
  · next job hsub =>
    split at hpool
    · next hno =>
      cases hpool
      exact ⟨⟨job, hsub⟩, by simp [Pending], fun _ => by simpa using hno⟩
    · cases hpool
      exact ⟨⟨job, hsub⟩, by simp [Pending], by simp⟩
  · cases hpool

/-- No other step decides on the job. -/
theorem step_undecided (hst : (system lib deps p).step s a = some s') (ha : a ≠ .pool (.lock i)) :
    (Pending (s'.pool.submits i) → Pending (s.pool.submits i)) ∧
      (s'.pool.submits i = .returned false → s.pool.submits i = .returned false) := by
  rcases step_pool hst with ⟨_, heq⟩ | ⟨b, hb, hpool⟩
  · simp [heq]
  · have hlock : b ≠ .lock i := fun h => ha (poolAct_lock.mp (h ▸ hb))
    have hm := InferencePool.step_moves hpool
    generalize s'.pool = pool at hm ⊢
    cases hm with
    | @stamp id _ _ hidle =>
      rcases eq_or_ne i id with rfl | hne
      · exact ⟨fun _ => .inl hidle, by simp⟩
      · simp [hne]
    | @refuse id =>
      have hne : i ≠ id := fun h => hlock (by rw [h])
      simp [hne]
    | @push id =>
      have hne : i ≠ id := fun h => hlock (by rw [h])
      simp [hne]
    | @notifyOne id =>
      rcases eq_or_ne i id with rfl | hne
      · simp [Pending]
      · simp [hne]
    | _ => exact ⟨id, id⟩

/-! ## What a step does to a call -/

/-- The steps of the `i`th call, and how each of them moves it. -/
inductive CallMoves (lib : JsonLib) (deps : HandlerDeps) (s : SpeechServer) (i : Nat) :
    Act → SpeechPc → SpeechPc → Prop
  | reject {req : HttpRequest} {now : Int} {ending : Ending} :
      readSpeech lib deps req = .error ending →
      CallMoves lib deps s i (.receive i req now) .idle (.ended ending.result)
  | receive {req : HttpRequest} {now : Int} {fields : SpeechFields} :
      readSpeech lib deps req = .ok fields →
      CallMoves lib deps s i (.receive i req now) .idle .checkPool
  | notReady : s.pool.accepting = false →
      CallMoves lib deps s i (.checkPool i) .checkPool (.ended (poolNotReady lib).result)
  | ready : s.pool.accepting = true →
      CallMoves lib deps s i (.checkPool i) .checkPool .readBefore
  | readBefore : CallMoves lib deps s i (.readBefore i) .readBefore .submit
  | submit {now : Int} : CallMoves lib deps s i (.submit i now) .submit .submitting
  | refused : s.pool.submits i = .returned false →
      CallMoves lib deps s i (.submitReturns i) .submitting (.ended (queueFull lib).result)
  | accepted : s.pool.submits i = .returned true →
      CallMoves lib deps s i (.submitReturns i) .submitting .readAfter
  | readAfter : CallMoves lib deps s i (.readAfter i) .readAfter .waiting
  | sleep : CallMoves lib deps s i (.test i) .waiting .asleep
  | leave : CallMoves lib deps s i (.test i) .waiting .readDone
  | wake : CallMoves lib deps s i (.wake i) .asleep .waiting
  | readDone : CallMoves lib deps s i (.readDone i) .readDone .respond
  | respond {now : Int} : CallMoves lib deps s i (.respond i now) .respond
      (.ended (VoxtralServer.respond lib (s.calls i).start now (s.calls i).frame.synthError
        (s.calls i).frame.synthResult).result)

/-- A step of the call moves it. Any other step at most wakes it up. -/
theorem step_call (hst : (system lib deps p).step s a = some s') (i : Nat) :
    (s'.calls i).pc = (s.calls i).pc ∨ (s'.calls i).pc = (s.calls i).pc.notified ∨
      CallMoves lib deps s i a (s.calls i).pc (s'.calls i).pc := by
  by_cases hi : caller a = some i
  · refine .inr (.inr ?_)
    obtain ⟨⟨k, pc⟩, ha, rfl⟩ := Option.map_eq_some_iff.mp hi
    have hpc := (step_frame hst).1 k pc ha
    have hset (c : SpeechCall) : ((s.setCall k c).calls k).pc = c.pc := by simp [setCall]
    cases a with
    | submit k' now =>
      cases ha
      simp only [system, step, hpc] at hst
      obtain ⟨pool, _, rfl⟩ := Option.map_eq_some_iff.mp hst
      simp only [hpc, moveCall, hset]
      exact .submit
    | callback => cases ha
    | callbackReturns => cases ha
    | pool => cases ha
    | receive k' req now =>
      cases ha
      simp only [system, step, hpc] at hst
      split at hst
      all_goals
        next hread =>
        cases hst
        simp only [hpc, finishCall, hset]
        first | exact .reject hread | exact .receive hread
    | checkPool =>
      cases ha
      simp only [system, step, hpc] at hst
      split at hst
      · next hno =>
        cases hst
        simp only [hpc, finishCall, hset]
        exact .notReady (by simpa using hno)
      · next hyes =>
        cases hst
        simp only [hpc, moveCall, hset]
        exact .ready (by simpa using hyes)
    | submitReturns =>
      cases ha
      simp only [system, step, hpc] at hst
      split at hst
      · next accepted _ hret =>
        cases accepted with
        | false =>
          cases hst
          simp only [hpc, finishCall, hset]
          exact .refused hret
        | true =>
          cases hst
          simp only [hpc, moveCall, hset]
          exact .accepted hret
      · cases hst
    | test =>
      cases ha
      simp only [system, step, hpc] at hst
      split at hst
      · cases hst
      · split at hst
        · cases hst
          simp only [hpc, moveCall, hset]
          exact .leave
        · cases hst
          simp only [hpc, moveCall, hset]
          exact .sleep
    | _ =>
      cases ha
      simp only [system, step, hpc] at hst
      cases hst
      simp only [hpc, moveCall, finishCall, hset]
      constructor
  · rcases (step_frame hst).2 i hi with h | h
    · exact .inl h
    · exact .inr (.inl h)

/-- A step that is not a call's first one starts no call. -/
theorem step_idle (hst : (system lib deps p).step s a = some s')
    (ha : ∀ req now, a ≠ .receive i req now) (hpc : (s.calls i).pc = .idle) :
    (s'.calls i).pc = .idle := by
  rcases step_call hst i with heq | hwake | hmoves
  · rw [heq, hpc]
  · rw [hwake, hpc]
    rfl
  · rw [hpc] at hmoves
    generalize (s'.calls i).pc = pc at hmoves
    cases hmoves with
    | reject => exact absurd rfl (ha _ _)
    | receive => exact absurd rfl (ha _ _)

theorem notified_eq_ended {pc : SpeechPc} {result : Except JsonError HttpResponse} :
    pc.notified = .ended result ↔ pc = .ended result := by
  cases pc <;> simp [SpeechPc.notified]

/-- How a call comes to end with `model_not_ready`. -/
theorem step_notReady (hfaith : lib.Faithful) (hst : (system lib deps p).step s a = some s')
    {result : Except JsonError HttpResponse} (hended : (s'.calls i).pc = .ended result)
    (href : RefusedAs lib (utf8 "model_not_ready") result) :
    (s.calls i).pc = .ended result ∨ a = .checkPool i ∧ s.pool.accepting = false := by
  rcases step_call hst i with h | h | h
  · exact .inl (h ▸ hended)
  · exact .inl (notified_eq_ended.mp (h ▸ hended))
  · rw [hended] at h
    generalize (s.calls i).pc = pc at h
    cases h with
    | reject hread => exact absurd href (not_refusedAs_rejected hread)
    | notReady hno => exact .inr ⟨rfl, hno⟩
    | refused => exact absurd (refusedAs_makeErrorResponse hfaith href).2 (by decide)
    | respond => exact absurd href (not_refusedAs_respond _ _ _ _)

/-- The call was let on by the check of the pool, and `submit` has not returned. -/
def Admitted : SpeechPc → Prop
  | .readBefore | .submit | .submitting => True
  | .idle | .checkPool | .readAfter | .waiting | .asleep | .readDone | .respond | .ended _ => False

theorem admitted_notified {pc : SpeechPc} : Admitted pc.notified ↔ Admitted pc := by
  cases pc <;> exact Iff.rfl

/-- The call was let on by the check of the pool, and `submit` has not decided on
its job. -/
structure Undecided (s : SpeechServer) (i : Nat) : Prop where
  admitted : Admitted (s.calls i).pc
  pending : Pending (s.pool.submits i)

/-- A call is let on by a pool that accepts. -/
theorem step_admitted (hst : (system lib deps p).step s a = some s') (hu : Undecided s' i) :
    Undecided s i ∨ a = .checkPool i ∧ s.pool.accepting = true := by
  obtain ⟨hadmitted, hpending⟩ := hu
  have hlock : a ≠ .pool (.lock i) := by
    rintro rfl
    exact (lock_decides hst).2.1 hpending
  suffices h : Admitted (s.calls i).pc ∨ a = .checkPool i ∧ s.pool.accepting = true from
    h.imp_left fun h => ⟨h, (step_undecided hst hlock).1 hpending⟩
  rcases step_call hst i with h | h | h
  · exact .inl (h ▸ hadmitted)
  · exact .inl (admitted_notified.mp (h ▸ hadmitted))
  · generalize (s.calls i).pc = pc, (s'.calls i).pc = pc' at h hadmitted
    cases h with
    | ready hyes => exact .inr ⟨rfl, hyes⟩
    | readBefore => exact .inl trivial
    | submit => exact .inl trivial
    | _ => exact hadmitted.elim

/-! ## The causes along a run -/

/-- No shutdown closes the pool while a call is undecided. -/
def Orderly (s : SpeechServer) : Act → Prop
  | .pool .close => ∀ i, ¬ Undecided s i
  | _ => True

/-- In an orderly run the pool accepts while a call is undecided. -/
theorem orderly_accepting (h : (system lib deps p).Reachable Orderly s) :
    ∀ i, Undecided s i → s.pool.accepting = true := by
  refine System.reachable_inv
    (I := fun s => ∀ i, Undecided s i → s.pool.accepting = true) ?_ ?_ h
  · rintro s ⟨now, rfl⟩ i hu
    exact hu.admitted.elim
  · intro s a t hi hg hst i hu
    have hbefore := step_admitted hst hu
    have hclose : a ≠ .pool .close := by
      rintro rfl
      rcases hbefore with hu | ⟨ha, _⟩
      · exact hg i hu
      · cases ha
    rw [step_accepting hst hclose]
    exact hbefore.elim (hi i) And.right

/-- `t` is the one state in which `submit` decided on the job of the call. -/
def DecidedIn (moments : List (SpeechServer × Act)) (i : Nat) (t : SpeechServer) : Prop :=
  ∀ u, (u, .pool (.lock i)) ∈ moments ↔ u = t

/-- What the moments of a run tell about a call of `submit`. -/
structure Decision (p : InferencePool.Params) (moments : List (SpeechServer × Act)) (i : Nat)
    (submit : Submit Nat) : Prop where
  pending : Pending submit → ∀ t, (t, .pool (.lock i)) ∉ moments
  refused : submit = .returned false → ∃ t, DecidedIn moments i t ∧
    (t.pool.accepting = false ∨ p.maxQueueDepth ≤ intOfSize t.pool.queue.length)

theorem history_decision {G : SpeechServer → Act → Prop} {moments : List (SpeechServer × Act)}
    (h : (system lib deps p).History G moments s) (i : Nat) :
    Decision p moments i (s.pool.submits i) := by
  refine System.history_inv
    (I := fun moments s => Decision p moments i (s.pool.submits i)) ?_ ?_ h
  · rintro s ⟨now, rfl⟩
    exact ⟨fun _ _ => List.not_mem_nil, nofun⟩
  · intro moments s a t _ hi _ hst
    by_cases ha : a = .pool (.lock i)
    · subst ha
      obtain ⟨⟨job, hsub⟩, hdecided, hno⟩ := lock_decides hst
      refine ⟨fun hpending => absurd hpending hdecided,
        fun hret => ⟨s, fun u => ?_, hno hret⟩⟩
      simp [hi.pending (.inr ⟨job, hsub⟩) u]
    · have hmem : ∀ u, (u, .pool (.lock i)) ∈ moments ++ [(s, a)] ↔
          (u, .pool (.lock i)) ∈ moments := by simp [Ne.symm ha]
      obtain ⟨hpending, hret⟩ := step_undecided hst ha
      refine ⟨fun h u => (hmem u).not.mpr (hi.pending (hpending h) u), fun h => ?_⟩
      obtain ⟨u, hu, hno⟩ := hi.refused (hret h)
      exact ⟨u, fun v => (hmem v).trans (hu v), hno⟩

/-- A call that ends with `queue_full` had its job refused. -/
theorem queueFull_refused (hfaith : lib.Faithful)
    (h : (system lib deps p).Reachable System.Any s)
    {result : Except JsonError HttpResponse} (hended : (s.calls i).pc = .ended result)
    (href : RefusedAs lib (utf8 "queue_full") result) : s.pool.submits i = .returned false := by
  obtain ⟨req, view, stop, hcall⟩ := ended_handleSpeech h hended
  rw [show result = (handleSpeech lib deps (some view) (s.calls i).start stop req).result by
    rw [hcall]] at href
  obtain ⟨_, _, _, hsubmits⟩ := handleSpeech_queueFull hfaith href
  rw [hcall] at hsubmits href
  have hlinked := reachable_linked h i
  rw [hended] at hlinked
  rcases hlinked with hidle | ⟨accepted, hret⟩
  · rw [hidle] at hsubmits
    exact absurd rfl hsubmits
  · cases accepted with
    | false => exact hret
    | true =>
      cases (reachable_sound h i).answered hended with
      | refused hno => exact absurd (.inr hret) hno
      | delivered _ _ _ hresult =>
        rw [hresult] at href
        exact absurd href (not_refusedAs_respond _ _ _ _)

/-- The codes of a call that ended with the result name the causes that the
moments of the run show. -/
structure CauseNamed (lib : JsonLib) (p : InferencePool.Params)
    (moments : List (SpeechServer × Act)) (i : Nat) (result : Except JsonError HttpResponse) :
    Prop where
  queueFull : RefusedAs lib (utf8 "queue_full") result → ∃ t, DecidedIn moments i t ∧
    t.pool.accepting = true ∧ (t.pool.queue.length : Int) = p.maxQueueDepth
  modelNotReady : RefusedAs lib (utf8 "model_not_ready") result →
    ∃ t, (t, .checkPool i) ∈ moments ∧ t.pool.accepting = false

/-- A pool that refuses a job although it accepts holds as many jobs as it may. -/
theorem full_length (h : (system lib deps p).Reachable System.Any s)
    (hfull : p.maxQueueDepth ≤ intOfSize s.pool.queue.length) :
    (s.pool.queue.length : Int) = p.maxQueueDepth := by
  have hmax : p.maxQueueDepth < 2 ^ 31 := by
    refine Int.lt_of_le_of_lt hfull ?_
    unfold intOfSize
    exact Int.lt_of_lt_of_le (Int.bmod_lt (by decide)) (by decide)
  have hbound := InferencePool.reachable_queueLength (reachable_pool h) hmax
  have hle := InferencePool.intOfSize_le s.pool.queue.length
  omega

/-- In every run `model_not_ready` names the cause. -/
theorem notReady_named (hfaith : lib.Faithful) {G : SpeechServer → Act → Prop}
    {moments : List (SpeechServer × Act)} (h : (system lib deps p).History G moments s)
    {result : Except JsonError HttpResponse} (hended : (s.calls i).pc = .ended result)
    (href : RefusedAs lib (utf8 "model_not_ready") result) :
    ∃ t, (t, .checkPool i) ∈ moments ∧ t.pool.accepting = false := by
  refine System.history_inv (I := fun moments s => (s.calls i).pc = .ended result →
    ∃ t, (t, .checkPool i) ∈ moments ∧ t.pool.accepting = false) ?_ ?_ h hended
  · rintro s ⟨now, rfl⟩ hidle
    cases hidle
  · intro moments s a t _ hi _ hst hended
    rcases step_notReady hfaith hst hended href with hbefore | ⟨rfl, hno⟩
    · obtain ⟨u, hu, hno⟩ := hi hbefore
      exact ⟨u, List.mem_append_left _ hu, hno⟩
    · exact ⟨s, by simp, hno⟩

/-- In an orderly run `queue_full` names the cause. -/
theorem queueFull_named (hfaith : lib.Faithful) {moments : List (SpeechServer × Act)}
    (h : (system lib deps p).History Orderly moments s)
    {result : Except JsonError HttpResponse} (hended : (s.calls i).pc = .ended result)
    (href : RefusedAs lib (utf8 "queue_full") result) :
    ∃ t, DecidedIn moments i t ∧ t.pool.accepting = true ∧
      (t.pool.queue.length : Int) = p.maxQueueDepth := by
  have hret := queueFull_refused hfaith h.reachable.any hended href
  obtain ⟨t, ht, hno⟩ := (history_decision h i).refused hret
  obtain ⟨hreach, _, u, hst⟩ := h.moment ((ht t).mpr rfl)
  obtain ⟨⟨job, hsub⟩, _⟩ := lock_decides hst
  have hpc : (t.calls i).pc = .submitting :=
    (reachable_linked hreach.any i).submitting (by simp [hsub]) (by simp [hsub])
  have haccepting := orderly_accepting hreach i ⟨by rw [hpc]; trivial, .inr ⟨job, hsub⟩⟩
  have hfull := hno.resolve_left (by simp [haccepting])
  exact ⟨t, ht, haccepting, full_length hreach.any hfull⟩

/-! ## Runs that close the pool at the wrong time -/

/-- From `s` on a run makes the call end with `queue_full`, and the pool does not
accept when `submit` decides. -/
def EndsClosed (lib : JsonLib) (deps : HandlerDeps) (p : InferencePool.Params) (s : SpeechServer)
    (i : Nat) : Prop :=
  ∃ later t, (system lib deps p).Runs System.Any s later t ∧
    (t.calls i).pc = .ended (queueFull lib).result ∧
    ∀ u, (u, .pool (.lock i)) ∈ later → u.pool.accepting = false

theorem EndsClosed.of_step (hst : (system lib deps p).step s a = some s')
    (ha : a = .pool (.lock i) → s.pool.accepting = false) (h : EndsClosed lib deps p s' i) :
    EndsClosed lib deps p s i := by
  obtain ⟨later, t, hlater, hended, hclosed⟩ := h
  refine ⟨[(s, a)] ++ later, t, (System.Runs.step .refl trivial hst).append hlater, hended, ?_⟩
  intro u hu
  rcases List.mem_append.mp hu with hu | hu
  · cases List.mem_singleton.mp hu
    exact ha rfl
  · exact hclosed u hu

theorem EndsClosed.ended (h : (s.calls i).pc = .ended (queueFull lib).result) :
    EndsClosed lib deps p s i :=
  ⟨[], s, .refl, h, by simp⟩

theorem returned_endsClosed (hpc : (s.calls i).pc = .submitting)
    (hret : s.pool.submits i = .returned false) : EndsClosed lib deps p s i := by
  refine .of_step (refused_step hpc hret) (by simp) (.ended ?_)
  simp [finishCall, setCall]

/-- A closed pool refuses the job of a call that is in `submit`. -/
theorem submitting_endsClosed (hpc : (s.calls i).pc = .submitting) {job : InferenceJob Nat}
    (hsub : s.pool.submits i = .stamped job) (hclosed : s.pool.accepting = false) :
    EndsClosed lib deps p s i :=
  .of_step (refuse_step hsub (.inl (by simp [hclosed]))) (fun _ => hclosed)
    (returned_endsClosed hpc (Function.update_self ..))

/-- A call that was let on before the pool was closed ends with `queue_full`. -/
theorem undecided_endsClosed (h : (system lib deps p).Reachable System.Any s)
    (hu : Undecided s i) (hclosed : s.pool.accepting = false) : EndsClosed lib deps p s i := by
  have hlinked := reachable_linked h i
  have submit {s : SpeechServer} (hpc : (s.calls i).pc = .submit)
      (hidle : s.pool.submits i = .idle) (hclosed : s.pool.accepting = false) :
      EndsClosed lib deps p s i := by
    refine .of_step (submit_step hpc hidle) (by simp)
      (submitting_endsClosed ?_ (Function.update_self ..) hclosed)
    simp [moveCall, setCall]
  obtain ⟨hadmitted, hpending⟩ := hu
  cases hpc : (s.calls i).pc with
  | readBefore =>
    rw [hpc] at hlinked
    refine .of_step (readBefore_step hpc) (by simp) (submit ?_ hlinked hclosed)
    simp [moveCall, setCall]
  | submit =>
    rw [hpc] at hlinked
    exact submit hpc hlinked hclosed
  | submitting =>
    rw [hpc] at hlinked
    rcases hpending with hidle | ⟨job, hsub⟩
    · exact absurd hidle hlinked
    · exact submitting_endsClosed hpc hsub hclosed
  | _ =>
    rw [hpc] at hadmitted
    exact hadmitted.elim

/-- Closing the pool leaves the calls undecided. -/
theorem close_undecided (hst : (system lib deps p).step s (.pool .close) = some s')
    (hu : Undecided s i) : s'.pool.accepting = false ∧ Undecided s' i := by
  simp only [system, step, poolStep, InferencePool.step] at hst
  obtain ⟨pool, hpool, rfl⟩ := Option.map_eq_some_iff.mp hst
  split at hpool
  · cases hpool
    exact ⟨rfl, hu.admitted, hu.pending⟩
  · cases hpool

/-- After a close at the wrong time, `queue_full` names a cause that was not
there. -/
theorem closed_misnamed (hlib : lib.Documented) (hfaith : lib.Faithful)
    {moments : List (SpeechServer × Act)} (h : (system lib deps p).History System.Any moments s)
    (hst : (system lib deps p).step s (.pool .close) = some s')
    (hu : Undecided s i) : ∃ later t result, (system lib deps p).Runs System.Any s' later t ∧
      (t.calls i).pc = .ended result ∧
      ¬ CauseNamed lib p (moments ++ (s, .pool .close) :: later) i result := by
  obtain ⟨hclosed, hu'⟩ := close_undecided hst hu
  obtain ⟨later, t, hlater, hended, hdecided⟩ :=
    undecided_endsClosed (h.reachable.step trivial hst) hu' hclosed
  refine ⟨later, t, _, hlater, hended, fun hnamed => ?_⟩
  obtain ⟨u, hu_decided, haccepting, _⟩ := hnamed.queueFull (refusedAs_queueFull hlib hfaith)
  -- the decision is not before the close, and after it the pool does not accept
  have hmem := (hu_decided u).mpr rfl
  have hbefore := (history_decision h i).pending hu.pending u
  rw [List.mem_append, List.mem_cons] at hmem
  rcases hmem with hmem | hmem | hmem
  · exact hbefore hmem
  · cases hmem
  · simp [hdecided u hmem] at haccepting

/-- **503 codes name the cause.** For every interleaving of calls, worker steps
and a shutdown that does not close the pool while a call is undecided: a call
answers `queue_full` only when its job was refused by a pool that accepted and held
as many jobs as it may, and `model_not_ready` only when the pool it asked did not
accept. After any other close a call can still end with a wrong cause. Without a
pool no call answers `queue_full`. -/
theorem refusal_causes (hlib : lib.Documented) (hfaith : lib.Faithful) (deps : HandlerDeps)
    (p : InferencePool.Params) :
    (∀ moments s i result, (system lib deps p).History Orderly moments s →
      (s.calls i).pc = .ended result → CauseNamed lib p moments i result) ∧
    (∀ moments s s', (system lib deps p).History System.Any moments s →
      (system lib deps p).step s (.pool .close) = some s' → ¬ Orderly s (.pool .close) →
      ∃ i later t result, (system lib deps p).Runs System.Any s' later t ∧
        (t.calls i).pc = .ended result ∧
        ¬ CauseNamed lib p (moments ++ (s, .pool .close) :: later) i result) ∧
    ∀ start stop req, ¬ RefusedAs lib (utf8 "queue_full")
      (handleSpeech lib deps none start stop req).result := by
  refine ⟨fun moments s i result h hended => ?_, fun moments s s' h hst hdisorder => ?_,
    fun start stop req href => ?_⟩
  · exact ⟨queueFull_named hfaith h hended, notReady_named hfaith h hended⟩
  · obtain ⟨i, hu⟩ := not_forall_not.mp hdisorder
    exact ⟨i, closed_misnamed hlib hfaith h hst hu⟩
  · obtain ⟨_, hnone, _⟩ := handleSpeech_queueFull hfaith href
    cases hnone

open Json (textJson textJson_dump textJson_documented textJson_faithful)

theorem exSpeak_textJson : readSpeech textJson exSpeakDeps (exSpeechRequest exSpeakBody) =
    .ok (exSpeakFields (utf8 "hello")) := by
  have htext : exSpeakBody = (exSpeakJson (utf8 "hello")).text := by decide +kernel
  have htextual : (exSpeakJson (utf8 "hello")).Textual := by
    refine .object (by decide) ?_
    simp only [List.forall_mem_cons, List.not_mem_nil, false_imp_iff, forall_true_iff, and_true]
    exact ⟨.string _, .string _, .string _⟩
  have hdump : textJson.dump (exSpeakJson (utf8 "hello")) = .ok exSpeakBody :=
    textJson_dump.mpr ⟨exSpeakJson_utf8 (validUtf8_utf8 _), htext⟩
  exact exSpeak_read textJson_documented (textJson_faithful.parse_dump _ _ htextual hdump)
    (by decide) (by decide) (by decide)

/-- The `i`th call has read its request. -/
def exRead (s : SpeechServer) (i : Nat) : SpeechServer :=
  s.setCall i { pc := .checkPool, fields := exSpeakFields (utf8 "hello") }

/-- The first two calls have read theirs. -/
def exReceived : SpeechServer := exRead (exRead {} 0) 1

def exReceipts : List (SpeechServer × Act) :=
  [({}, .receive 0 (exSpeechRequest exSpeakBody) 0),
   (exRead {} 0, .receive 1 (exSpeechRequest exSpeakBody) 0)]

/-- A run from there is part of a history. -/
theorem exReceived_history {G : SpeechServer → Act → Prop}
    (hG : ∀ s i req now, G s (.receive i req now)) {moments : List (SpeechServer × Act)}
    (hruns : (system textJson exSpeakDeps p).Runs G exReceived moments s) :
    (system textJson exSpeakDeps p).History G (exReceipts ++ moments) s := by
  have hread (i : Nat) (s : SpeechServer) (hpc : s.calls i = {}) :
      (system textJson exSpeakDeps p).step s (.receive i (exSpeechRequest exSpeakBody) 0) =
        some (exRead s i) := by
    simp only [system, step, hpc, exSpeak_textJson]
    rfl
  refine ⟨{}, ⟨0, rfl⟩, System.Runs.append ?_ hruns⟩
  exact .step (.step .refl (hG ..) (hread 0 _ rfl)) (hG ..) (hread 1 _ rfl)

/-- A pool with room for one job in its queue. -/
def exOnePlace : InferencePool.Params where
  maxQueueDepth := 1

/-- The job of the first call fills the queue, and that of the second is refused. -/
def exFull : List Act :=
  [.checkPool 0, .readBefore 0, .submit 0 0, .pool (.lock 0),
   .checkPool 1, .readBefore 1, .submit 1 0, .pool (.lock 1), .submitReturns 1]

def closes : Act → Bool
  | .pool .close => true
  | _ => false

theorem orderly_of_not_closes (h : closes a = false) : Orderly s a := by
  unfold closes at h
  split at h
  · cases h
  · unfold Orderly
    split
    · next hother => exact absurd rfl hother
    · trivial

/-- A full queue is the cause of a `queue_full`. -/
theorem refusal_causes_full : ∃ s result,
    (system textJson exSpeakDeps exOnePlace).History Orderly
      (exReceipts ++ (system textJson exSpeakDeps exOnePlace).moments exReceived exFull) s ∧
    (s.calls 1).pc = .ended result ∧ RefusedAs textJson (utf8 "queue_full") result ∧
    CauseNamed textJson exOnePlace
      (exReceipts ++ (system textJson exSpeakDeps exOnePlace).moments exReceived exFull) 1
      result := by
  have hend : ((system textJson exSpeakDeps exOnePlace).run (fun _ a => closes a = false)
      exReceived exFull).map (fun s => (s.calls 1).pc) =
        some (.ended (queueFull textJson).result) := rfl
  obtain ⟨s, hrun, hended⟩ := Option.map_eq_some_iff.mp hend
  have hhistory := exReceived_history (G := Orderly) (fun _ _ _ _ => trivial)
    ((System.runs_of_run _ hrun).mono fun _ _ => orderly_of_not_closes)
  exact ⟨s, _, hhistory, hended, refusedAs_queueFull textJson_documented textJson_faithful,
    (refusal_causes textJson_documented textJson_faithful exSpeakDeps exOnePlace).1 _ s 1 _
      hhistory hended⟩

/-- A shutdown closes the pool between the check of the first call and its
`submit`. -/
def exClosed : List Act :=
  [.checkPool 0, .readBefore 0, .pool .close, .submit 0 0, .pool (.lock 0), .submitReturns 0]

/-- A call answers `queue_full` when the queue is empty and the pool is closed. -/
theorem queue_full_closed : textJson.Documented ∧ textJson.Faithful ∧ ∃ moments s result,
    moments = exReceipts ++ (system textJson exSpeakDeps {}).moments exReceived exClosed ∧
    (system textJson exSpeakDeps {}).History System.Any moments s ∧
    (s.calls 0).pc = .ended result ∧ RefusedAs textJson (utf8 "queue_full") result ∧
    (∀ t, (t, .pool (.lock 0)) ∈ moments →
      t.pool.accepting = false ∧ t.pool.queue.isEmpty = true) ∧
    ¬ CauseNamed textJson {} moments 0 result := by
  have hend : ((system textJson exSpeakDeps {}).run System.Any exReceived exClosed).map
      (fun s => (s.calls 0).pc) = some (.ended (queueFull textJson).result) := rfl
  have hall : (exReceipts ++
      (system textJson exSpeakDeps {}).moments exReceived exClosed).all (fun m =>
        match m.2 with
        | .pool (.lock _) => !m.1.pool.accepting && m.1.pool.queue.isEmpty
        | _ => true) = true := by decide +kernel
  obtain ⟨s, hrun, hended⟩ := Option.map_eq_some_iff.mp hend
  have hhistory := exReceived_history (fun _ _ _ _ => trivial) (System.runs_of_run _ hrun)
  have href := refusedAs_queueFull textJson_documented textJson_faithful
  have hdecided : ∀ t, (t, .pool (.lock 0)) ∈
      exReceipts ++ (system textJson exSpeakDeps {}).moments exReceived exClosed →
      t.pool.accepting = false ∧ t.pool.queue.isEmpty = true := by
    intro t ht
    simpa using List.all_eq_true.mp hall _ ht
  refine ⟨textJson_documented, textJson_faithful, _, s, _, rfl, hhistory, hended, href, hdecided,
    fun hnamed => ?_⟩
  obtain ⟨t, ht, haccepting, _⟩ := hnamed.queueFull href
  simp [(hdecided t ((ht t).mpr rfl)).1] at haccepting

end SpeechServer
end VoxtralServer
