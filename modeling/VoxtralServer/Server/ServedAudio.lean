import VoxtralServer.Backend.Audio
import VoxtralServer.Server.ServiceLimits

/-!
# The audio of an answer

The service with its backend behind the pool: what the backend returns or throws is
what `synthesize` makes of the reply of the engine to the request of the job.

* `reachable_rendered`: every result in the pool is the backend's, for the request of
  its own job.
* `served_audio`: the audio of an answer with status 200 is what the engine left for
  the text and the voice of its own request.
-/

namespace VoxtralServer

namespace InferencePool

variable {κ : Type} {p : Params} {s s' : InferencePool κ} {a : Act κ} {id : Nat}

/-- A result in the trace came from the backend, for the job it was called for. -/
theorem step_returned (h : (system p κ).step s a = some s') {result : SynthesisResult}
    (hmem : (id, .worked (.returned result)) ∈ s'.trace) :
    (id, .worked (.returned result)) ∈ s.trace ∨
      a = .backendReturns result ∧ ∃ job, s.worker = .busy id (.synthesizing job) := by
  have hsingle {e : Nat × JobEvent κ}
      (hmem : (id, .worked (.returned result)) ∈ s.trace ++ [e])
      (hne : (id, .worked (.returned result)) ≠ e) :
      (id, .worked (.returned result)) ∈ s.trace :=
    (List.mem_append.mp hmem).resolve_right fun h => hne (List.mem_singleton.mp h)
  simp only [system, step] at h
  split at h
  case h_9 =>
    -- the worker on its job
    split at h
    · next id' st hw =>
      unfold workStep at h
      split at h
      case h_3 =>
        cases h
        rcases List.mem_append.mp hmem with hmem | hmem
        · exact .inl hmem
        · cases List.mem_singleton.mp hmem
          exact .inr ⟨rfl, _, hw⟩
      all_goals
        repeat' split at h
        all_goals cases h
        all_goals exact .inl (hsingle hmem (by simp))
    · cases h
  all_goals
    repeat' split at h
    all_goals cases h
    all_goals first
      | exact .inl hmem
      | exact .inl (hsingle hmem (by simp))

end InferencePool

namespace SpeechServer

variable {lib : JsonLib} {deps : HandlerDeps} {p : InferencePool.Params} {s s' : SpeechServer}
  {a : Act} {b : EngineBackend} {replies : Nat → EngineReply} {i : Nat}

/-- The backend of the pool is `b`, and `replies` are the replies of its engine to the jobs. -/
def BackedBy (b : EngineBackend) (replies : Nat → EngineReply) (s : SpeechServer) : Act → Prop
  | .pool (.backendReturns result) => ∃ id job,
      s.pool.worker = .busy id (.synthesizing job) ∧ (replies id).generated.WellReported ∧
      (b.synthesize job.request (replies id)).2 = some (.ok result)
  | .pool (.backendThrows what) => ∃ id job,
      s.pool.worker = .busy id (.synthesizing job) ∧ (replies id).generated.WellReported ∧
      (b.synthesize job.request (replies id)).2 = some (.error what)
  | _ => True

/-- Every result is the backend's, for the request of its own job. -/
def Rendered (b : EngineBackend) (replies : Nat → EngineReply) (pool : InferencePool Nat) : Prop :=
  ∀ id result, (id, .worked (.returned result)) ∈ pool.trace → ∃ job,
    (id, .pushed job) ∈ pool.trace ∧ (replies id).generated.WellReported ∧
    (b.synthesize job.request (replies id)).2 = some (.ok result)

theorem step_rendered (hr : (system lib deps p).Reachable System.Any s)
    (hb : BackedBy b replies s a) (hst : (system lib deps p).step s a = some s')
    (hi : Rendered b replies s.pool) : Rendered b replies s'.pool := by
  rcases step_pool hst with ⟨_, hpool⟩ | ⟨c, hc, hpool⟩
  · rw [hpool]
    exact hi
  · intro id result hmem
    rcases InferencePool.step_returned hpool hmem with hold | ⟨rfl, job, hw⟩
    · obtain ⟨job, hpushed, hreply⟩ := hi id result hold
      exact ⟨job, InferencePool.step_trace hpool hpushed, hreply⟩
    · have ha : a = .pool (.backendReturns result) := by
        cases a <;> simp_all [poolAct]
      subst ha
      obtain ⟨id', job', hw', hreply⟩ := hb
      rw [hw] at hw'
      cases hw'
      have hlife := (InferencePool.reachable_lives (reachable_pool hr)).life (.held hw)
      have hpushed := InferencePool.mem_history.mp (hlife.pushed_mem rfl)
      exact ⟨job, InferencePool.step_trace hpool hpushed, hreply⟩

/-- The audio of a call that has ended with status 200. -/
theorem ended_audio (hlib : lib.Documented) (h : (system lib deps p).Reachable System.Any s)
    {resp : HttpResponse} (hpc : (s.calls i).pc = .ended (.ok resp)) (h200 : resp.status = 200) :
    ∃ request result, (i, .worked (.called request)) ∈ s.pool.trace ∧
      (i, .worked (.returned result)) ∈ s.pool.trace ∧ resp.binaryBody = result.audioData := by
  rcases answered_delivered hlib h hpc with ⟨_, hno, _⟩ | ⟨result, resp', hinvoked, heq, _, hbody⟩ |
    ⟨_, _, ⟨resp', heq, h500⟩, _⟩
  · exact absurd ⟨resp, rfl, h200⟩ hno
  · cases heq
    obtain ⟨hcalled, hreturned⟩ :=
      success_own h (by rw [hinvoked]; exact List.mem_singleton_self _)
    exact ⟨_, result, InferencePool.mem_history.mp hcalled, InferencePool.mem_history.mp hreturned,
      hbody⟩
  · cases heq
    omega

end SpeechServer

namespace Service

variable {lib : JsonLib} {cfg : ServerConfig} {deps : HandlerDeps} {p : InferencePool.Params}
  {s : Service} {b : EngineBackend} {replies : Nat → EngineReply} {i : Nat}

/-- The backend of the service is `b`, with the given replies of its engine. -/
def Backed (b : EngineBackend) (replies : Nat → EngineReply) (s : Service) : Act → Prop
  | .speech a => SpeechServer.BackedBy b replies s.speech a
  | _ => True

/-- In every run with the backend `b`, every result is the backend's. -/
theorem reachable_rendered (h : (system lib cfg deps p).Reachable (Backed b replies) s) :
    SpeechServer.Rendered b replies s.speech.pool := by
  refine System.reachable_inv_of (I := fun s => SpeechServer.Rendered b replies s.speech.pool)
    ?_ ?_ h
  · rintro s ⟨now, now', rfl⟩
    nofun
  · intro s a t hr hi hbacked hst
    have hspeech := reachable_speech hr.any
    cases step_moves hst with
    | arrive => exact hi
    | gate => exact hi
    | @receive i now req _ _ _ _ hreceive =>
      have hreceived : SpeechServer.BackedBy b replies s.speech
          (.receive i (adaptRequest req) now) := trivial
      exact SpeechServer.step_rendered hspeech hreceived hreceive hi
    | speech _ hother => exact SpeechServer.step_rendered hspeech hbacked hother hi

/-! ## The audio of an answer -/

/-- A speech request that is answered with another status was answered by its
handler. -/
theorem speech_handled (h : (system lib cfg deps p).Reachable System.Any s) {req : HttplibRequest}
    (hreq : s.requests[i]? = some req) (hroute : routeOf req = some .speech)
    {resp : HttpResponse} (ha : answer lib deps s i = some (.ok resp))
    (hstatus : resp.status ≠ 401 ∧ resp.status ≠ 429) :
    (s.speech.calls i).pc = .ended (.ok resp) := by
  obtain ⟨moments, hhistory⟩ := h.history
  obtain ⟨req', hreq', _, hanswers⟩ := answer_cases (reachable_aligned h) ha
  rw [hreq] at hreq'
  cases hreq'
  generalize hresult : (Except.ok resp : Except JsonError HttpResponse) = result at hanswers
  cases hanswers with
  | threw => cases hresult
  | refused hphase =>
    cases hresult
    obtain ⟨call, hcall, hcallPhase⟩ := Option.map_eq_some_iff.mp hphase
    obtain ⟨lim, ms, hfound⟩ := history_found hhistory i call hcall (by rw [hcallPhase]; nofun)
    rw [hcallPhase] at hfound
    rcases refused_status hfound.2 with h401 | h429
    · exact absurd h401 hstatus.1
    · exact absurd h429 hstatus.2
  | voices _ hvoices =>
    rw [hroute] at hvoices
    cases hvoices
  | speech _ _ hpc => exact hpc

/-- **From the engine to the answer.** In every run with an initialized backend, a speech
request that is answered with status 200 was one call of the backend, with its own
fields, and the answer carries the audio that this call returned. That is what
`synthesize` makes of the reply of the engine, and is heard as what the engine left for
the text and the voice of this very request, whose buffer was freed, or as a second of
silence where there is no engine. -/
theorem served_audio (hlib : lib.Documented) (hinit : b.initialized = true)
    (h : (system lib cfg deps p).Reachable (Backed b replies) s) {req : HttplibRequest}
    (hreq : s.requests[i]? = some req) (hroute : routeOf req = some .speech)
    {resp : HttpResponse} (ha : answer lib deps s i = some (.ok resp)) (h200 : resp.status = 200) :
    ∃ fields result, readSpeech lib deps (adaptRequest req) = .ok fields ∧
      (i, .worked (.called (synthRequest fields))) ∈ s.speech.pool.trace ∧
      (i, .worked (.returned result)) ∈ s.speech.pool.trace ∧
      (s.speech.pool.history i).countP JobEvent.isCall = 1 ∧
      resp.binaryBody = result.audioData ∧
      (b.synthesize (synthRequest fields) (replies i)).2 = some (.ok result) ∧
      Heard b (replies i) resp.binaryBody ∧
      (b.useRealEngine = true → (b.synthesize (synthRequest fields) (replies i)).1 =
        [.generate b.ctx (cStr fields.input) (cStr fields.voice) (replies i).samples,
         .free (replies i).address]) := by
  have hpc := speech_handled h.any hreq hroute ha (by rw [h200]; decide)
  obtain ⟨request, result, hcalled, hreturned, hbody⟩ :=
    SpeechServer.ended_audio hlib (reachable_speech h.any) hpc h200
  obtain ⟨job, hpushed, hreply, hsynth⟩ := reachable_rendered h i result hreturned
  -- the job of the result and the one of the call are this request's
  obtain ⟨job', hpushed', rfl, hone⟩ := called_pushed h.any hcalled
  obtain ⟨_, _, fields, hread, hrequest⟩ := pushed_own h.any hpushed
  obtain ⟨_, _, fields', hread', hrequest'⟩ := pushed_own h.any hpushed'
  rw [hread] at hread'
  cases hread'
  have hown : s.own i = adaptRequest req := by simp only [own, hreq, Option.getD_some]
  rw [hown] at hread
  rw [hrequest] at hsynth
  rw [hrequest'] at hcalled
  have hheard := EngineBackend.synthesize_audio hinit hreply hsynth
  refine ⟨fields, result, hread, hcalled, hreturned, hone, hbody, hsynth, hbody ▸ hheard,
    fun hreal => ?_⟩
  obtain ⟨hthrown, hfailed⟩ := EngineBackend.succeeds hinit hreal hsynth
  rw [EngineBackend.synthesize_calls hinit hreal, hthrown, (replies i).samples_of_succeeds hfailed]
  simp [synthRequest]

/-! ## An example -/

/-- A backend with an engine that leaves three samples. -/
def exEngine : EngineBackend where
  initialized := true
  modelPath := utf8 "model"
  ctx := some 1
  useRealEngine := true

def exReply : EngineReply where
  generated := ⟨0, some [.nan, .finite (1 / 2), .finite (-2)], 3⟩
  address := 7
  inferenceTime := .finite 0

theorem exEngine_result (request : SynthesisRequest) : ∃ result,
    (exEngine.synthesize request exReply).2 = some (.ok result) := by
  obtain ⟨codes, hcodes, _⟩ := exists_codes [.nan, .finite (1 / 2), .finite (-2)]
  have hwav := buildWavFromFloatSamples_eq hcodes (by decide) (by decide)
    (show RateFits kSampleRate from ⟨by decide, by decide⟩)
  have hsynth := synthesize_engine
    (show 1 ≤ [Floating.nan, .finite (1 / 2), .finite (-2)].length by decide) (.finite 0)
  rw [hwav] at hsynth
  exact ⟨_, (EngineBackend.synthesize_result rfl).trans hsynth⟩

/-- The step is none of the backend. -/
def Unbacked (_ : Service) : Act → Prop
  | .speech (.pool (.backendReturns _)) | .speech (.pool (.backendThrows _)) => False
  | _ => True

instance (s : Service) (a : Act) : Decidable (Unbacked s a) := by
  unfold Unbacked
  split <;> infer_instance

theorem Unbacked.backed {a : Act} (h : Unbacked s a) : Backed b replies s a := by
  unfold Unbacked at h
  split at h
  · cases h
  · cases h
  · next hreturns hthrows =>
    unfold Backed
    split
    · unfold SpeechServer.BackedBy
      split
      · exact absurd rfl (hreturns _)
      · exact absurd rfl (hthrows _)
      · trivial
    · trivial

/-- The run of the example of the speech handler before and after the backend
returns. -/
def exBefore : List Act := (SpeechServer.exHelloRun.take 11).map .speech

def exAfter : List Act := (SpeechServer.exHelloRun.drop 12).map .speech

/-- The worker is at the backend. -/
def exBusy (p : InferencePool.Params) : Service :=
  ((system SpeechServer.exHelloLib Race.exKeyConfig {} p).run Unbacked
    { exAdmitted p with speech := SpeechServer.exHelloStart } exBefore).getD exKeyService

/-- The backend has returned. -/
def exReturned (p : InferencePool.Params) (result : SynthesisResult) : Service :=
  ((system SpeechServer.exHelloLib Race.exKeyConfig {} p).step (exBusy p)
    (.speech (.pool (.backendReturns result)))).getD exKeyService

theorem exBusy_reachable :
    (system SpeechServer.exHelloLib Race.exKeyConfig {} {}).Reachable Unbacked (exBusy {}) := by
  let S := system SpeechServer.exHelloLib Race.exKeyConfig {} {}
  obtain ⟨s₁, hrun₁, hreach₁⟩ :=
    System.exists_reachable (S := S) (G := Unbacked) (s := exKeyService) exAdmitRun ⟨0, 0, rfl⟩
      (by decide)
  have hs₁ : s₁ = exAdmitted {} := by
    have h : S.run System.Any exKeyService exAdmitRun = some s₁ := hrun₁
    simp only [exAdmitted, S, h, Option.getD_some]
  subst hs₁
  obtain ⟨s₂, hrun₂, hreaches₂⟩ :=
    System.exists_reaches (S := S) (G := Unbacked)
      (s := { exAdmitted {} with speech := SpeechServer.exHelloStart }) exBefore (by decide)
  have hs₂ : s₂ = exBusy {} := by simp only [exBusy, S, hrun₂, Option.getD_some]
  subst hs₂
  exact (hreach₁.step (by trivial) exAdmitted_receive).trans hreaches₂

/-- Answered with what the engine left. -/
theorem served_audio_hello : ∃ s resp result,
    (system SpeechServer.exHelloLib Race.exKeyConfig {} {}).Reachable
      (Backed exEngine fun _ => exReply) s ∧
    answer SpeechServer.exHelloLib {} s 0 = some (.ok resp) ∧ resp.status = 200 ∧
    (0, .worked (.called (synthRequest SpeechServer.exHelloFields))) ∈ s.speech.pool.trace ∧
    (0, .worked (.returned result)) ∈ s.speech.pool.trace ∧
    resp.binaryBody = result.audioData ∧ Heard exEngine exReply resp.binaryBody := by
  let S := system SpeechServer.exHelloLib Race.exKeyConfig {} {}
  have hbusy : S.Reachable (Backed exEngine fun _ => exReply) (exBusy {}) :=
    exBusy_reachable.mono fun _ _ => Unbacked.backed
  obtain ⟨result, hsynth⟩ := exEngine_result (synthRequest SpeechServer.exHelloFields)
  have hreturns : S.step (exBusy {}) (.speech (.pool (.backendReturns result))) =
      some (exReturned {} result) := rfl
  have hworker : ∃ job, (exBusy {}).speech.pool.worker = .busy 0 (.synthesizing job) ∧
      job.request = synthRequest SpeechServer.exHelloFields := ⟨_, rfl, rfl⟩
  obtain ⟨job, hworker, hrequest⟩ := hworker
  have hreply : exReply.generated.WellReported :=
    ⟨by rintro _ ⟨⟩; rfl, by decide⟩
  have hbacked : Backed exEngine (fun _ => exReply) (exBusy {})
      (.speech (.pool (.backendReturns result))) :=
    ⟨0, job, hworker, hreply, hrequest ▸ hsynth⟩
  have hran : ∃ s₃ resp, S.run Unbacked (exReturned {} result) exAfter = some s₃ ∧
      answer SpeechServer.exHelloLib {} s₃ 0 = some (.ok resp) ∧ resp.status = 200 ∧
      s₃.requests[0]? = some exHelloPost := ⟨_, _, rfl, rfl, rfl, rfl⟩
  obtain ⟨s₃, resp, hrun₃, hanswer, h200, hreq⟩ := hran
  have hreach := (hbusy.step hbacked hreturns).trans
    ((System.reaches_of_run _ hrun₃).mono fun _ _ => Unbacked.backed)
  obtain ⟨fields, result, hread, hcalled, hreturned, _, hbody, _, hheard, _⟩ :=
    served_audio SpeechServer.exHelloLib_documented rfl hreach hreq (by decide) hanswer h200
  rw [exHelloPost_read] at hread
  cases hread
  exact ⟨s₃, resp, result, hreach, hanswer, h200, hcalled, hreturned, hbody, hheard⟩

end Service
end VoxtralServer
