import VoxtralServer.Server.Service
import VoxtralServer.Server.SpeechMetrics

/-!
# Answers and totals of the service

* `answer_stable`: an answer is final.
* `all_answered`: from every reachable state a run without further requests
  answers every request that has arrived.
* `service_counted`: the counters and the gauge of the running jobs at any moment
  of a run.
-/

namespace VoxtralServer

/-! ## Counting updates -/

namespace TotalsLemmas

/-- Counting in the parts of a list, when each part has one more of a kind or not. -/
theorem countP_flatMap_add {α : Type} {f : Nat → List α} {p q : α → Bool} {r : Nat → Bool} :
    ∀ {l : List Nat}, (∀ i ∈ l, (f i).countP p = (f i).countP q + (r i).toNat) →
      (l.flatMap f).countP p = (l.flatMap f).countP q + l.countP r
  | [], _ => rfl
  | i :: l, h => by
    obtain ⟨hi, hrest⟩ := List.forall_mem_cons.mp h
    have ih := countP_flatMap_add hrest
    rw [List.flatMap_cons, List.countP_append, List.countP_append, List.countP_cons, hi, ih]
    cases r i <;> simp <;> omega

/-- The same, when a part has one of a kind or none. -/
theorem countP_flatMap_eq {α : Type} {f : Nat → List α} {p : α → Bool} {r : Nat → Bool}
    {l : List Nat} (h : ∀ i ∈ l, (f i).countP p = (r i).toNat) :
    (l.flatMap f).countP p = l.countP r := by
  have hnone (l : List α) : l.countP (fun _ => false) = 0 := by simp
  have hadd := countP_flatMap_add (q := fun _ => false) fun i hi => by rw [h i hi, hnone, zero_add]
  rwa [hnone, zero_add] at hadd

end TotalsLemmas

/-- The update counts a request that the middleware refused. -/
def MetricOp.isRejection : MetricOp → Bool
  | .requestsRejectedAuth | .requestsRejectedRateLimit => true
  | _ => false

/-- The two counters of refused requests count those updates. -/
theorem Metrics.applyAll_rejections (m : Metrics) (ops : List MetricOp) :
    (m.applyAll ops).requestsRejectedAuth + (m.applyAll ops).requestsRejectedRateLimit =
      m.requestsRejectedAuth + m.requestsRejectedRateLimit + ops.countP MetricOp.isRejection := by
  induction ops generalizing m with
  | nil => rfl
  | cons op ops ih =>
    have hop : (m.apply op).requestsRejectedAuth + (m.apply op).requestsRejectedRateLimit =
        m.requestsRejectedAuth + m.requestsRejectedRateLimit +
          if op.isRejection then 1 else 0 := by
      cases op <;> simp [apply, MetricOp.isRejection] <;> omega
    rw [applyAll_cons, ih, hop, List.countP_cons]
    omega

/-- The middleware has refused the request. -/
def Phase.isRefused : Phase → Bool
  | .done (.ok none) => false
  | .done _ => true
  | _ => false

theorem Phase.isRefused_done {result : Except JsonError (Option HttpResponse)}
    (h : result ≠ .ok none) : (Phase.done result).isRefused = true := by
  unfold Phase.isRefused
  split <;> simp_all

/-- A step of a middleware call counts the refusal it decides on, and nothing else. -/
theorem Phase.step_metrics {lib : JsonLib} {cfg : ServerConfig} {req : HttpRequest} {m : Moment}
    {lim lim' : Limiters} {phase phase' : Phase} {ops : List MetricOp}
    (h : phase.step lib cfg req m lim = some (phase', lim', ops)) :
    phase.isRefused = false ∧ ops.countP MetricOp.isRejection = phase'.isRefused.toNat ∧
      ∀ op ∈ ops, op.isRejection = true := by
  cases phase with
  | start =>
    simp only [Phase.step] at h
    split at h
    · cases h
      exact ⟨rfl, rfl, by simp⟩
    · split at h
      · split at h
        · cases h
          rw [authRateLimited, isRefused_done tooManyRequests_ne]
          exact ⟨rfl, rfl, by simp [MetricOp.isRejection]⟩
        · cases h
          exact ⟨rfl, rfl, by simp⟩
      · cases h
        exact ⟨rfl, rfl, by simp⟩
  | atRequest =>
    simp only [Phase.step] at h
    split at h
    · cases h
      rw [rateLimited, isRefused_done tooManyRequests_ne]
      exact ⟨rfl, rfl, by simp [MetricOp.isRejection]⟩
    · split at h <;> cases h <;> exact ⟨rfl, rfl, by simp⟩
  | atCompare =>
    simp only [Phase.step] at h
    split at h <;> cases h <;> exact ⟨rfl, rfl, by simp⟩
  | atRecord r =>
    cases h
    rw [isRefused_done unauthorized_ne]
    exact ⟨rfl, rfl, by simp [MetricOp.isRejection]⟩
  | done r => cases h

namespace SpeechServer

variable {lib : JsonLib} {deps : HandlerDeps} {p : InferencePool.Params} {s s' : SpeechServer}
  {a : Act} {i : Nat}

/-- A call that has ended stays so. -/
theorem step_ended (hst : (system lib deps p).step s a = some s')
    {result : Except JsonError HttpResponse} (hpc : (s.calls i).pc = .ended result) :
    (s'.calls i).pc = .ended result := by
  rcases step_call hst i with heq | hnotified | hmoves
  · rw [heq, hpc]
  · rw [hnotified, hpc]
    rfl
  · rw [hpc] at hmoves
    cases hmoves

/-- The first step of another call leaves a call as far from its end as it was. -/
theorem receive_remaining {j : Nat} {req : HttpRequest} {now : Int}
    (hst : (system lib deps p).step s (.receive j req now) = some s')
    (hpc : (s.calls i).pc ≠ .idle) : remaining i s' = remaining i s := by
  have hset {c : SpeechCall} (hne : i ≠ j) (hframe : c.frame = (s.calls j).frame) :
      remaining i (s.setCall j c) = remaining i s := by
    unfold remaining
    rw [setCall_poolLeft hframe]
    simp [setCall, hne]
  simp only [system, step] at hst
  split at hst
  · next hidle =>
    have hne : i ≠ j := by
      rintro rfl
      exact hpc hidle
    split at hst <;> cases hst <;> exact hset hne rfl
  · cases hst

/-- So does the beginning of a shutdown. -/
theorem close_remaining (hst : (system lib deps p).step s (.pool .close) = some s') :
    remaining i s' = remaining i s := by
  simp only [system, step, poolStep, InferencePool.step] at hst
  split at hst <;> cases hst
  rfl

/-! ## The updates of a speech handler -/

/-- Between its increment of the gauge of running jobs and its decrement. -/
def isActive : SpeechPc → Bool
  | .readBefore | .submit | .submitting | .readAfter | .waiting | .asleep | .readDone => true
  | .idle | .checkPool | .respond | .ended _ => false

/-- The handler has returned a response with this status. -/
def respondedWith (status : Int) : SpeechPc → Bool
  | .ended (.ok resp) => decide (resp.status = status)
  | _ => false

/-- The updates that a call has made when it is at `pc`. -/
structure Updated (pc : SpeechPc) (metrics : List MetricOp) : Prop where
  rejections : metrics.countP MetricOp.isRejection = 0
  activeJobs : metrics.count .activeJobsIncrement =
    metrics.count .activeJobsDecrement + (isActive pc).toNat
  requests : (∀ e, pc ≠ .ended (.error e)) → ∀ status,
    metrics.count (.requestsTotal status) = (respondedWith status pc).toNat

theorem metricsAt_updated {fields : SpeechFields} {before after done : Int} {pc : SpeechPc}
    {metrics : List MetricOp} (h : metricsAt fields before after done pc = some metrics) :
    Updated pc metrics := by
  cases pc with
  | idle => cases h
  | ended result => cases h
  | _ =>
    cases h
    constructor <;> simp [requestMetrics, MetricOp.isRejection, isActive, respondedWith]

/-- The updates of a call that has ended, also with an exception. -/
theorem handleSpeech_updated (lib : JsonLib) (deps : HandlerDeps) (pool : Option PoolView)
    (start stop : Int) (req : HttpRequest) :
    Updated (.ended (handleSpeech lib deps pool start stop req).result)
      (handleSpeech lib deps pool start stop req).metrics := by
  have hrequests : (∀ e, SpeechPc.ended (handleSpeech lib deps pool start stop req).result ≠
      .ended (.error e)) → ∀ status,
      (handleSpeech lib deps pool start stop req).metrics.count (.requestsTotal status) =
        (respondedWith status
          (.ended (handleSpeech lib deps pool start stop req).result)).toNat := by
    intro hok status
    cases hresult : (handleSpeech lib deps pool start stop req).result with
    | error e => exact absurd (by rw [hresult]) (hok e)
    | ok resp =>
      let c : ReturnedCall lib := ⟨deps, pool, start, stop, req, resp, hresult⟩
      have hcount : c.metrics.count (.requestsTotal status) =
          if resp.status = status then 1 else 0 := returned_requests c status
      simp only [ReturnedCall.metrics, c] at hcount
      rw [hcount, respondedWith]
      by_cases hstatus : resp.status = status <;> simp [hstatus]
  refine ⟨?_, ?_, hrequests⟩
  all_goals
    unfold handleSpeech
    cases hread : readSpeech lib deps req with
    | error ending => cases readSpeech_refusal hread <;> simp [MetricOp.isRejection, isActive]
    | ok fields =>
      dsimp only
      split
      · simp [poolNotReady, MetricOp.isRejection, isActive]
      · split
        · simp [poolNotReady, MetricOp.isRejection, isActive]
        · split
          · simp [requestMetrics, queueFull, MetricOp.isRejection, isActive]
          · unfold respond
            split <;> simp [requestMetrics, MetricOp.isRejection, isActive]

theorem reachable_updated (h : (system lib deps p).Reachable System.Any s) (i : Nat) :
    Updated (s.calls i).pc (s.calls i).metrics := by
  cases reachable_follows h i with
  | idle hpc hmetrics =>
    rw [hpc, hmetrics]
    exact ⟨rfl, rfl, fun _ _ => rfl⟩
  | underway hunderway =>
    obtain ⟨_, _, _, _, _, _, hat⟩ := hunderway
    exact metricsAt_updated hat
  | ended req view stop _ hpc hcall =>
    have hupdated := handleSpeech_updated lib deps (some view) (s.calls i).start stop req
    rw [hcall] at hupdated
    rw [hpc]
    exact hupdated

/-- The call of a queued job is active. -/
theorem queued_active (h : (system lib deps p).Reachable System.Any s) {job : InferenceJob Nat}
    (hq : (i, job) ∈ s.pool.queue) : isActive (s.calls i).pc = true := by
  have hbefore := (QueueGauge.queued_reads_again h hq).before
  cases hpc : (s.calls i).pc <;> rw [hpc] at hbefore <;> first | rfl | exact hbefore.elim

end SpeechServer

namespace Service

open TotalsLemmas

variable {lib : JsonLib} {cfg : ServerConfig} {deps : HandlerDeps} {p : InferencePool.Params}
  {s s' : Service} {a : Act} {i : Nat}

/-! ## Answers are final -/

/-- No step undoes a decision of the middleware. -/
theorem phaseOf_done {result : Except JsonError (Option HttpResponse)}
    (hst : (system lib cfg deps p).step s a = some s') (hi : s.phaseOf i = some (.done result)) :
    s'.phaseOf i = some (.done result) := by
  cases step_moves hst with
  | arrive =>
    obtain ⟨call, hcall, _⟩ := Option.map_eq_some_iff.mp hi
    obtain ⟨hlt, _⟩ := List.getElem?_eq_some_iff.mp hcall
    simpa only [phaseOf, List.getElem?_append_left hlt] using hi
  | gate hgate => exact gate_done hgate hi
  | receive => exact hi
  | speech => exact hi

/-- A request stays at its place. -/
theorem step_requests (hst : (system lib cfg deps p).step s a = some s') {req : HttplibRequest}
    (hi : s.requests[i]? = some req) : s'.requests[i]? = some req := by
  cases step_moves hst with
  | arrive =>
    obtain ⟨hlt, _⟩ := List.getElem?_eq_some_iff.mp hi
    rwa [List.getElem?_append_left hlt]
  | _ => exact hi

/-- A handler that has returned stays so. -/
theorem speech_ended (hst : (system lib cfg deps p).step s a = some s')
    {result : Except JsonError HttpResponse} (hi : (s.speech.calls i).pc = .ended result) :
    (s'.speech.calls i).pc = .ended result := by
  cases step_moves hst with
  | arrive => exact hi
  | gate => exact hi
  | receive _ _ _ hspeech => exact SpeechServer.step_ended hspeech hi
  | speech _ hspeech => exact SpeechServer.step_ended hspeech hi

theorem answer_of {req : HttplibRequest} (hreq : s.requests[i]? = some req)
    {result : Except JsonError HttpResponse} (h : Answers lib deps s i req result) :
    answer lib deps s i = some result := by
  unfold answer
  cases h with
  | threw hphase => rw [hphase]
  | refused hphase => rw [hphase]
  | voices hphase hroute => simp only [hphase, hreq, if_pos hroute]
  | speech hphase hroute hpc =>
    have hnot : routeOf req ≠ some .voices := by simp [hroute]
    simp only [hphase, hreq, if_neg hnot, hpc]

/-- An answer is final. -/
theorem answer_stable (hr : (system lib cfg deps p).Reachable System.Any s)
    (hst : (system lib cfg deps p).step s a = some s') {result : Except JsonError HttpResponse}
    (h : answer lib deps s i = some result) : answer lib deps s' i = some result := by
  obtain ⟨req, hreq, _, hanswers⟩ := answer_cases (reachable_aligned hr) h
  refine answer_of (step_requests hst hreq) ?_
  cases hanswers with
  | threw hphase => exact .threw (phaseOf_done hst hphase)
  | refused hphase => exact .refused (phaseOf_done hst hphase)
  | voices hphase hroute => exact .voices (phaseOf_done hst hphase) hroute
  | speech hphase hroute hpc =>
    exact .speech (phaseOf_done hst hphase) hroute (speech_ended hst hpc)

/-! ## Every request is answered -/

/-- Nothing arrives, no shutdown begins, and nothing is woken up without a
notification. -/
def Quiet (s : Service) : Act → Prop
  | .arrive _ => False
  | .speech a => SpeechServer.NotSpurious s.speech a ∧ a ≠ .pool .close
  | _ => True

/-- What a quiet run leaves as it is. -/
theorem quiet_requests {t : Service} (h : (system lib cfg deps p).Reaches Quiet s t) :
    t.requests = s.requests := by
  refine System.reaches_inv (I := fun t => t.requests = s.requests) ?_ h rfl
  intro t a u hi hquiet hst
  cases step_moves hst with
  | arrive => exact hquiet.elim
  | _ => exact hi

theorem quiet_reachable {t : Service} (hr : (system lib cfg deps p).Reachable System.Any s)
    (h : (system lib cfg deps p).Reaches Quiet s t) :
    (system lib cfg deps p).Reachable System.Any t :=
  hr.trans (h.mono fun _ _ _ => trivial)

/-- The middleware decides. -/
theorem gate_decides (lib : JsonLib) (cfg : ServerConfig) (deps : HandlerDeps)
    (p : InferencePool.Params) {phase : Phase} (hphase : s.phaseOf i = some phase) :
    ∃ t, (system lib cfg deps p).Reaches Quiet s t ∧
      ∃ result, t.phaseOf i = some (.done result) := by
  refine System.reaches_goal (I := fun s => ∃ phase, s.phaseOf i = some phase)
    (fun s => ((s.phaseOf i).map Race.phaseLeft).getD 0) ?_ ⟨phase, hphase⟩
  rintro s ⟨phase, hphase⟩ hgoal
  obtain ⟨call, hcall, rfl⟩ := Option.map_eq_some_iff.mp hphase
  obtain ⟨phase', lim', ops, hstep, hlt⟩ :=
    Race.phase_enabled lib cfg call.req (momentAt s.gate.clock) s.gate.limiters fun result heq =>
      hgoal ⟨result, heq ▸ hphase⟩
  obtain ⟨hi, _⟩ := List.getElem?_eq_some_iff.mp hcall
  have hgate := Race.advance_step (le_refl _) (le_refl _) hcall hstep
  refine ⟨.gate i (momentAt s.gate.clock), _, trivial,
    by simp only [system, step, hgate, Option.map_some]; rfl, ?_, ?_⟩
  · exact ⟨phase', by simp only [phaseOf, List.getElem?_set_self hi, Option.map_some]⟩
  · simpa only [phaseOf, List.getElem?_set_self hi, hcall, Option.map_some, Option.getD_some]
      using hlt

/-- A handler that has been called returns. -/
theorem speech_returns (hr : (system lib cfg deps p).Reachable System.Any s)
    (hpc : (s.speech.calls i).pc ≠ .idle) :
    ∃ t, (system lib cfg deps p).Reaches Quiet s t ∧
      ∃ result, (t.speech.calls i).pc = .ended result := by
  refine System.reaches_goal
    (I := fun s => (system lib cfg deps p).Reachable System.Any s ∧ (s.speech.calls i).pc ≠ .idle)
    (fun s => SpeechServer.remaining i s.speech) ?_ ⟨hr, hpc⟩
  rintro s ⟨hr, hpc⟩ hgoal
  obtain ⟨a, speech, hquiet, hspeech, hlt, hpc'⟩ :=
    SpeechServer.call_enabled (reachable_speech hr)
      ⟨hpc, fun result hended => hgoal ⟨result, hended⟩⟩
  have hreceive : isReceive a = false := by
    cases a with
    | receive j req now =>
      rw [SpeechServer.receive_remaining hspeech hpc] at hlt
      exact absurd hlt (Nat.lt_irrefl _)
    | _ => rfl
  have hclose : a ≠ .pool .close := by
    rintro rfl
    rw [SpeechServer.close_remaining hspeech] at hlt
    exact absurd hlt (Nat.lt_irrefl _)
  have hst : (system lib cfg deps p).step s (.speech a) = some { s with speech := speech } := by
    have hspeech : SpeechServer.step lib deps p s.speech a = some speech := hspeech
    simp only [system, step, hreceive, Bool.false_eq_true, if_false, hspeech, Option.map_some]
  exact ⟨.speech a, _, ⟨hquiet, hclose⟩, hst, ⟨hr.step trivial hst, hpc'⟩, hlt⟩

/-- The handler of a speech request that was let through can be called. -/
theorem receive_enabled {req : HttplibRequest} (hreq : s.requests[i]? = some req)
    (hroute : routeOf req = some .speech) (hpass : s.letThrough i = true)
    (hpc : (s.speech.calls i).pc = .idle) :
    ∃ t, (system lib cfg deps p).step s (.receive i s.speech.pool.clock) = some t ∧
      (t.speech.calls i).pc ≠ .idle := by
  have hguard : routeOf req = some .speech ∧ s.letThrough i = true := ⟨hroute, hpass⟩
  simp only [system, step, hreq, if_pos hguard, SpeechServer.step, hpc]
  split
  · exact ⟨_, rfl, by simp [SpeechServer.finishCall, SpeechServer.setCall]⟩
  · exact ⟨_, rfl, by simp [SpeechServer.setCall]⟩

/-- A request that has arrived is answered. -/
theorem request_answered (hr : (system lib cfg deps p).Reachable System.Any s)
    (hi : i < s.requests.length) :
    ∃ t, (system lib cfg deps p).Reaches Quiet s t ∧
      ∃ result, answer lib deps t i = some result := by
  have hlen : s.gate.calls.length = s.requests.length := by
    simpa using congrArg List.length (reachable_aligned hr).calls
  have hphase : s.phaseOf i = some (s.gate.calls[i]).phase := by
    simp only [phaseOf, List.getElem?_eq_getElem (hlen ▸ hi), Option.map_some]
  obtain ⟨t, hst, mw, hdone⟩ := gate_decides lib cfg deps p hphase
  have hrt := quiet_reachable hr hst
  have hreq : t.requests[i]? = some s.requests[i] := by
    rw [quiet_requests hst, List.getElem?_eq_getElem hi]
  cases mw with
  | error e => exact ⟨t, hst, _, answer_of hreq (.threw hdone)⟩
  | ok mw =>
    cases mw with
    | some resp => exact ⟨t, hst, _, answer_of hreq (.refused hdone)⟩
    | none =>
      rcases (reachable_aligned hrt).api _ (List.mem_of_getElem? hreq) with hroute | hroute
      · -- the handler is called, unless it has been, and returns
        obtain ⟨u, htu, hpc⟩ : ∃ u, (system lib cfg deps p).Reaches Quiet t u ∧
            (u.speech.calls i).pc ≠ .idle := by
          by_cases hpc : (t.speech.calls i).pc = .idle
          · obtain ⟨u, hstep, hpc'⟩ :=
              receive_enabled hreq hroute (letThrough_phase.mpr hdone) hpc
            have hquiet : Quiet t (.receive i t.speech.pool.clock) := trivial
            exact ⟨u, .one hquiet hstep, hpc'⟩
          · exact ⟨t, .refl t, hpc⟩
        obtain ⟨v, huv, result, hended⟩ := speech_returns (quiet_reachable hrt htu) hpc
        have htv := htu.trans huv
        have hdone' : v.phaseOf i = some (.done (.ok none)) :=
          System.reaches_inv (I := fun v => v.phaseOf i = some (.done (.ok none)))
            (fun _ _ _ hi _ hst => phaseOf_done hst hi) htv hdone
        exact ⟨v, hst.trans htv, _,
          answer_of (quiet_requests htv ▸ hreq) (.speech hdone' hroute hended)⟩
      · exact ⟨t, hst, _, answer_of hreq (.voices hdone hroute)⟩

/-- No run takes back an answer. -/
theorem answer_final (hr : (system lib cfg deps p).Reachable System.Any s) {t : Service}
    (hst : (system lib cfg deps p).Reaches System.Any s t) {result : Except JsonError HttpResponse}
    (h : answer lib deps s i = some result) : answer lib deps t i = some result :=
  (System.reaches_inv (I := fun t => (system lib cfg deps p).Reachable System.Any t ∧
      answer lib deps t i = some result)
    (fun _ _ _ hi _ hst => ⟨hi.1.step trivial hst, answer_stable hi.1 hst hi.2⟩) hst
    ⟨hr, h⟩).2

/-- The first requests are answered one after the other. -/
theorem requests_answered (hr : (system lib cfg deps p).Reachable System.Any s) :
    ∀ n ≤ s.requests.length, ∃ t, (system lib cfg deps p).Reaches Quiet s t ∧
      ∀ i < n, ∃ result, answer lib deps t i = some result := by
  intro n
  induction n with
  | zero => exact fun _ => ⟨s, .refl s, nofun⟩
  | succ n ih =>
    intro hn
    obtain ⟨t, hst, hanswers⟩ := ih (by omega)
    have hrt := quiet_reachable hr hst
    obtain ⟨u, htu, result, hresult⟩ :=
      request_answered hrt (i := n) (by rw [quiet_requests hst]; omega)
    refine ⟨u, hst.trans htu, fun i hi => ?_⟩
    rcases Nat.lt_succ_iff_lt_or_eq.mp hi with hi | rfl
    · obtain ⟨result, h⟩ := hanswers i hi
      exact ⟨result, answer_final hrt (htu.mono fun _ _ _ => trivial) h⟩
    · exact ⟨result, hresult⟩

/-- **Every request is answered.** From every reachable state, whatever is under way
in it, a run without further requests, in which no shutdown begins and no wake-up is
spurious, answers all requests that have arrived, and no run takes back an answer. -/
theorem all_answered (hr : (system lib cfg deps p).Reachable System.Any s) :
    (∃ t, (system lib cfg deps p).Reaches Quiet s t ∧ t.requests = s.requests ∧
      ∀ i < s.requests.length, ∃ result, answer lib deps t i = some result) ∧
    ∀ t, (system lib cfg deps p).Reaches System.Any s t → ∀ i result,
      answer lib deps s i = some result → answer lib deps t i = some result := by
  refine ⟨?_, fun t hst i result h => answer_final hr hst h⟩
  obtain ⟨t, hst, hanswers⟩ := requests_answered hr _ (Nat.le_refl _)
  exact ⟨t, hst, quiet_requests hst, hanswers⟩

/-- Two requests that have arrived together are both answered. -/
theorem all_answered_two : ∃ s t, (system exSpeechLib exOpenConfig {} {}).Reaches Quiet s t ∧
    s.requests = [exGet "/v1/voices", exPost (utf8 "oops")] ∧
    ∀ i < 2, ∃ result, answer exSpeechLib {} t i = some result := by
  obtain ⟨s, hrun, hreaches⟩ :=
    System.exists_reaches (S := system exSpeechLib exOpenConfig {} {}) (G := System.Any)
      (s := exService) (exOopsRun.take 2) (by decide)
  have hr : (system exSpeechLib exOpenConfig {} {}).Reachable System.Any s :=
    ⟨exService, exService_init .., hreaches⟩
  obtain ⟨⟨t, hst, _, hanswers⟩, _⟩ := all_answered hr
  cases hrun
  exact ⟨_, t, hst, rfl, hanswers⟩

/-! ## Counters and gauges -/

/-- The middleware calls count each refusal once, and nothing else. -/
structure Refusals (s : Service) : Prop where
  counted : s.gate.metrics.countP MetricOp.isRejection =
    s.gate.calls.countP fun c => c.phase.isRefused
  only : ∀ op ∈ s.gate.metrics, op.isRejection = true

theorem reachable_refusals (h : (system lib cfg deps p).Reachable System.Any s) :
    s.Refusals := by
  refine System.reachable_inv (I := Refusals) ?_ ?_ h
  · rintro s ⟨now, now', rfl⟩
    exact ⟨rfl, nofun⟩
  · intro s a t hi _ hst
    cases step_moves hst with
    | arrive => exact ⟨by simp [hi.counted, Phase.isRefused], hi.only⟩
    | @gate i m gate hgate =>
      rcases Race.step_cases hgate with ⟨_, ha, _⟩ | ⟨i', m', call, phase, lim, ops, ha, hcall,
        _, _, hstep, rfl⟩
      · cases ha
      · obtain ⟨hbefore, hcount, honly⟩ := Phase.step_metrics hstep
        constructor
        · have hset := Race.RaceLemmas.countP_set_add (p := fun c : Race.Call => c.phase.isRefused)
            ⟨call.req, phase⟩ hcall
          simp only [hbefore, Bool.toNat_false, add_zero] at hset
          rw [List.countP_append, hi.counted, hcount, hset]
        · intro op hop
          rcases List.mem_append.mp hop with hop | hop
          · exact hi.only op hop
          · exact honly op hop
    | receive => exact ⟨hi.counted, hi.only⟩
    | speech => exact ⟨hi.counted, hi.only⟩

/-- A queued job is one of a call under way, so the queue is at most as long as
the gauge of running jobs says. -/
theorem queue_le_active (h : (system lib cfg deps p).Reachable System.Any s) :
    s.speech.pool.queue.length ≤ (List.range s.requests.length).countP
      fun i => SpeechServer.isActive (s.speech.calls i).pc := by
  have hspeech := reachable_speech h
  have hnodup : s.speech.pool.queueIds.Nodup :=
    (InferencePool.reachable_fifo (SpeechServer.reachable_pool hspeech)).pending_nodup
  rw [List.countP_eq_length_filter, ← List.length_map (f := Prod.fst)]
  refine (hnodup.subperm fun i hi => ?_).length_le
  obtain ⟨job, hq⟩ := InferencePool.mem_queueIds.mp hi
  have hactive := SpeechServer.queued_active hspeech hq
  have hpc : (s.speech.calls i).pc ≠ .idle := by
    intro hidle
    rw [hidle] at hactive
    cases hactive
  obtain ⟨_, req, hreq, _⟩ := (reachable_aligned h).started i hpc
  obtain ⟨hlt, _⟩ := List.getElem?_eq_some_iff.mp hreq
  exact List.mem_filter.mpr ⟨List.mem_range.mpr hlt, hactive⟩

/-- The updates that the calls of the service have made so far, one call after the
other. -/
def updates (s : Service) : List MetricOp :=
  s.gate.metrics ++
    (List.range s.requests.length).flatMap fun i => (s.speech.calls i).metrics

/-- **The counters at any moment.** In every reachable state, in whatever order the
updates took effect: the counters of rejected requests have gone up by the number
of refused requests, the gauge of running jobs by the number of handlers between
its two updates, which is at least the length of the queue, and, as long as no
handler has thrown, the series of each status by the number of handlers that have
answered with it. -/
theorem service_counted (h : (system lib cfg deps p).Reachable System.Any s) {ops : List MetricOp}
    (hops : ops.Perm s.updates) (m : Metrics) :
    (m.applyAll ops).requestsRejectedAuth + (m.applyAll ops).requestsRejectedRateLimit =
      m.requestsRejectedAuth + m.requestsRejectedRateLimit +
        s.gate.calls.countP (fun c => c.phase.isRefused) ∧
    (m.applyAll ops).activeJobs = m.activeJobs + ((List.range s.requests.length).countP
      fun i => SpeechServer.isActive (s.speech.calls i).pc : Nat) ∧
    m.activeJobs + s.speech.pool.queue.length ≤ (m.applyAll ops).activeJobs ∧
    ((∀ i e, (s.speech.calls i).pc ≠ .ended (.error e)) → ∀ status,
      (m.applyAll ops).requestsTotal status = m.requestsTotal status +
        (List.range s.requests.length).countP
          fun i => SpeechServer.respondedWith status (s.speech.calls i).pc) := by
  have hupdated := SpeechServer.reachable_updated (reachable_speech h)
  have hrefusals := reachable_refusals h
  have hgate {op : MetricOp} (hop : op.isRejection = false) : s.gate.metrics.count op = 0 := by
    refine List.count_eq_zero.mpr fun hmem => ?_
    rw [hrefusals.only op hmem] at hop
    cases hop
  have hcount {op : MetricOp} (hop : op.isRejection = false) : ops.count op =
      ((List.range s.requests.length).flatMap fun i => (s.speech.calls i).metrics).count op := by
    rw [hops.count_eq, updates, List.count_append, hgate hop, zero_add]
  have hactive : (m.applyAll ops).activeJobs = m.activeJobs +
      ((List.range s.requests.length).countP
        fun i => SpeechServer.isActive (s.speech.calls i).pc : Nat) := by
    have hadd := countP_flatMap_add (l := List.range s.requests.length)
      fun i _ => (hupdated i).activeJobs
    rw [Metrics.applyAll_activeJobs, hcount rfl, hcount rfl, List.count, hadd, List.count]
    omega
  refine ⟨?_, hactive, ?_, fun hok status => ?_⟩
  · have hnone : ((List.range s.requests.length).flatMap fun i =>
        (s.speech.calls i).metrics).countP MetricOp.isRejection = 0 := by
      rw [List.countP_flatMap]
      refine List.sum_eq_zero fun n hn => ?_
      obtain ⟨i, _, rfl⟩ := List.mem_map.mp hn
      exact (hupdated i).rejections
    rw [Metrics.applyAll_rejections, hops.countP_eq, updates, List.countP_append, hnone,
      hrefusals.counted, add_zero]
  · have hle := queue_le_active h
    omega
  · have heq := countP_flatMap_eq (l := List.range s.requests.length)
      fun i _ => (hupdated i).requests (hok i) status
    rw [Metrics.applyAll_requestsTotal, hcount rfl, List.count, heq]

/-- After the run with a body that is no JSON, one response with status 400 is
counted. -/
theorem service_counted_oops : ∃ s,
    (system exSpeechLib exOpenConfig {} {}).Reachable System.Any s ∧
    (({} : Metrics).applyAll s.updates).requestsTotal 400 = 1 ∧
    (({} : Metrics).applyAll s.updates).activeJobs = 0 := by
  obtain ⟨s, hrun, hreaches⟩ :=
    System.exists_reaches (S := system exSpeechLib exOpenConfig {} {}) (G := System.Any)
      (s := exService) exOopsRun (by decide)
  have hr : (system exSpeechLib exOpenConfig {} {}).Reachable System.Any s :=
    ⟨exService, exService_init .., hreaches⟩
  obtain ⟨_, hactive, _, hrequests⟩ := service_counted hr (.refl _) {}
  cases hrun
  refine ⟨_, hr, (hrequests (fun i e => ?_) 400).trans rfl, hactive.trans rfl⟩
  match i with
  | 0 => nofun
  | 1 => nofun
  | n + 2 => nofun

end Service
end VoxtralServer
