import Mathlib.Data.List.Count
import VoxtralServer.Server.SpeechDelivery
import VoxtralServer.Server.SpeechOutcomes

/-!
# The metrics of the speech handler

`handle_speech` updates the registry by hand at each of its exits. Here the
updates of a call are applied to a registry, and compared with its response.

* `returned_accounted`: what a call that returns a response does to each series.
* `totals_of_perm`: the totals after many calls, in whatever order their updates
  take effect.
* `SpeechServer.ended_totals`: the totals in a state of concurrent calls.
* `metrics_accounted`: the three together.
-/

namespace VoxtralServer

/-! ## The registry -/

/-- `Metrics`: the value of each counter and gauge, and the observations of each
histogram, as the exact sums of the recorded updates. prometheus-cpp, which is
not part of the repository, keeps them as doubles. -/
structure Metrics where
  requestsTotal : Int → Nat := fun _ => 0
  voiceRequestsTotal : Str → Nat := fun _ => 0
  requestsRejectedAuth : Nat := 0
  requestsRejectedRateLimit : Nat := 0
  inputCharactersTotal : Nat := 0
  audioBytesGeneratedTotal : Nat := 0
  errorsTotal : Nat := 0
  activeJobs : Int := 0
  queueDepth : Int := 0
  synthesisDurationSeconds : List Floating := []
  inferenceDurationSeconds : List Floating := []
  audioDurationSeconds : List Floating := []
  inputCharacters : List Nat := []

namespace Metrics

/-- One update. The families hold a series for each label. -/
def apply (m : Metrics) : MetricOp → Metrics
  | .requestsTotal statusCode =>
    { m with requestsTotal :=
        Function.update m.requestsTotal statusCode (m.requestsTotal statusCode + 1) }
  | .voiceRequestsTotal voice =>
    { m with voiceRequestsTotal :=
        Function.update m.voiceRequestsTotal voice (m.voiceRequestsTotal voice + 1) }
  | .requestsRejectedAuth => { m with requestsRejectedAuth := m.requestsRejectedAuth + 1 }
  | .requestsRejectedRateLimit =>
    { m with requestsRejectedRateLimit := m.requestsRejectedRateLimit + 1 }
  | .inputCharactersTotal n => { m with inputCharactersTotal := m.inputCharactersTotal + n }
  | .audioBytesGeneratedTotal n =>
    { m with audioBytesGeneratedTotal := m.audioBytesGeneratedTotal + n }
  | .errorsTotal => { m with errorsTotal := m.errorsTotal + 1 }
  | .activeJobsIncrement => { m with activeJobs := m.activeJobs + 1 }
  | .activeJobsDecrement => { m with activeJobs := m.activeJobs - 1 }
  | .queueDepthSet n => { m with queueDepth := n }
  | .synthesisDurationSeconds x =>
    { m with synthesisDurationSeconds := m.synthesisDurationSeconds ++ [x] }
  | .inferenceDurationSeconds x =>
    { m with inferenceDurationSeconds := m.inferenceDurationSeconds ++ [x] }
  | .audioDurationSeconds x => { m with audioDurationSeconds := m.audioDurationSeconds ++ [x] }
  | .inputCharacters n => { m with inputCharacters := m.inputCharacters ++ [n] }

/-- A sequence of updates. -/
def applyAll (m : Metrics) (ops : List MetricOp) : Metrics := ops.foldl apply m

@[simp] theorem applyAll_nil (m : Metrics) : m.applyAll [] = m := rfl

@[simp] theorem applyAll_cons (m : Metrics) (op : MetricOp) (ops : List MetricOp) :
    m.applyAll (op :: ops) = (m.apply op).applyAll ops := rfl

/-- A series of the requests counts its own updates. -/
theorem applyAll_requestsTotal (m : Metrics) (ops : List MetricOp) (s : Int) :
    (m.applyAll ops).requestsTotal s = m.requestsTotal s + ops.count (.requestsTotal s) := by
  induction ops generalizing m with
  | nil => simp
  | cons op ops ih =>
    have hop : (m.apply op).requestsTotal s =
        m.requestsTotal s + if op = .requestsTotal s then 1 else 0 := by
      cases op with
      | requestsTotal s' =>
        rcases eq_or_ne s' s with rfl | hne
        · simp [apply]
        · simp [apply, hne, hne.symm]
      | _ => simp [apply]
    rw [applyAll_cons, ih, hop, List.count_cons]
    simp only [beq_iff_eq]
    omega

/-- The gauge counts its increments up and its decrements down. -/
theorem applyAll_activeJobs (m : Metrics) (ops : List MetricOp) :
    (m.applyAll ops).activeJobs =
      m.activeJobs + ops.count .activeJobsIncrement - ops.count .activeJobsDecrement := by
  induction ops generalizing m with
  | nil => simp
  | cons op ops ih =>
    have hop : (m.apply op).activeJobs = m.activeJobs +
        (if op = .activeJobsIncrement then 1 else 0) -
        (if op = .activeJobsDecrement then 1 else 0) := by
      cases op <;> simp [apply]
    rw [applyAll_cons, ih, hop, List.count_cons, List.count_cons]
    simp only [beq_iff_eq]
    split <;> split <;> omega

end Metrics

/-! ## One call -/

/-- The fields of a request that passes the checks while the pool accepts. -/
def admittedFields (lib : JsonLib) (deps : HandlerDeps) (pool : Option PoolView)
    (req : HttpRequest) : Option SpeechFields :=
  match readSpeech lib deps req, pool with
  | .ok fields, some pool => if pool.accepting then some fields else none
  | _, _ => none

/-- What a call that answers with `resp` does to the registry. -/
structure Accounted (admitted : Option SpeechFields) (resp : HttpResponse) (m m' : Metrics) :
    Prop where
  requests : m'.requestsTotal =
    Function.update m.requestsTotal resp.status (m.requestsTotal resp.status + 1)
  activeJobs : m'.activeJobs = m.activeJobs
  errors : m'.errorsTotal = m.errorsTotal + if resp.status = 500 then 1 else 0
  success : resp.status = 200 →
    (∃ x, m'.synthesisDurationSeconds = m.synthesisDurationSeconds ++ [x]) ∧
    (∃ x, m'.inferenceDurationSeconds = m.inferenceDurationSeconds ++ [x]) ∧
    (∃ x, m'.audioDurationSeconds = m.audioDurationSeconds ++ [x]) ∧
    m'.audioBytesGeneratedTotal = m.audioBytesGeneratedTotal + resp.binaryBody.length
  noSuccess : resp.status ≠ 200 →
    m'.synthesisDurationSeconds = m.synthesisDurationSeconds ∧
    m'.inferenceDurationSeconds = m.inferenceDurationSeconds ∧
    m'.audioDurationSeconds = m.audioDurationSeconds ∧
    m'.audioBytesGeneratedTotal = m.audioBytesGeneratedTotal
  recorded : ∀ fields, admitted = some fields →
    m'.inputCharactersTotal = m.inputCharactersTotal + fields.input.length ∧
    m'.inputCharacters = m.inputCharacters ++ [fields.input.length] ∧
    m'.voiceRequestsTotal =
      Function.update m.voiceRequestsTotal fields.voice (m.voiceRequestsTotal fields.voice + 1)
  notRecorded : admitted = none →
    m'.inputCharactersTotal = m.inputCharactersTotal ∧ m'.inputCharacters = m.inputCharacters ∧
    m'.voiceRequestsTotal = m.voiceRequestsTotal
  rejections : m'.requestsRejectedAuth = m.requestsRejectedAuth ∧
    m'.requestsRejectedRateLimit = m.requestsRejectedRateLimit

variable {lib : JsonLib} {deps : HandlerDeps} {req : HttpRequest} {resp : HttpResponse}
  {fields : SpeechFields}

namespace SpeechLemmas

/-- The exits before the metrics of the request. -/
theorem accounted_refused (m : Metrics) (h200 : resp.status ≠ 200) (h500 : resp.status ≠ 500) :
    Accounted none resp m (m.applyAll [.requestsTotal resp.status]) where
  requests := rfl
  activeJobs := rfl
  errors := by simp [Metrics.apply, h500]
  success h := absurd h h200
  noSuccess _ := ⟨rfl, rfl, rfl, rfl⟩
  recorded _ h := by cases h
  notRecorded _ := ⟨rfl, rfl, rfl⟩
  rejections := ⟨rfl, rfl⟩

theorem accounted_queueFull (m : Metrics) (depth : Int)
    (h : (queueFull lib).result = .ok resp) :
    Accounted (some fields) resp m (m.applyAll (requestMetrics fields ++
      [.activeJobsIncrement, .queueDepthSet depth] ++ (queueFull lib).metrics)) := by
  have hstatus : resp.status = 503 := (makeErrorResponse_status h).1
  constructor
  case success | notRecorded => simp [hstatus]
  all_goals simp [requestMetrics, queueFull, Metrics.apply, hstatus]

/-- The exits after the wait. -/
theorem accounted_respond (m : Metrics) (depth depth' depth'' start stop : Int)
    (synthError : Str) (synthResult : SynthesisResult)
    (h : (respond lib start stop synthError synthResult).result = .ok resp) :
    Accounted (some fields) resp m (m.applyAll (requestMetrics fields ++
      [.activeJobsIncrement, .queueDepthSet depth] ++
      [.queueDepthSet depth', .activeJobsDecrement, .queueDepthSet depth''] ++
      (respond lib start stop synthError synthResult).metrics)) := by
  by_cases herror : (!synthError.isEmpty) = true
  · rw [respond, if_pos herror] at h ⊢
    have hstatus : resp.status = 500 := (makeErrorResponse_status h).1
    constructor
    case success | notRecorded => simp [hstatus]
    all_goals simp [requestMetrics, Metrics.apply, hstatus]
  · rw [respond, if_neg herror] at h ⊢
    cases h
    constructor
    case noSuccess | notRecorded => simp
    all_goals simp [requestMetrics, Metrics.apply]

end SpeechLemmas

open SpeechLemmas

/-- A call that returned a response, with any answers of the pool. -/
structure ReturnedCall (lib : JsonLib) where
  deps : HandlerDeps
  pool : Option PoolView
  start : Int
  stop : Int
  req : HttpRequest
  response : HttpResponse
  returned : (handleSpeech lib deps pool start stop req).result = .ok response

namespace ReturnedCall

/-- The updates of the call. -/
def metrics (c : ReturnedCall lib) : List MetricOp :=
  (handleSpeech lib c.deps c.pool c.start c.stop c.req).metrics

def admitted (c : ReturnedCall lib) : Option SpeechFields :=
  admittedFields lib c.deps c.pool c.req

end ReturnedCall

/-- The registry after a call that returned. -/
theorem returned_accounted (c : ReturnedCall lib) (m : Metrics) :
    Accounted c.admitted c.response m (m.applyAll c.metrics) := by
  obtain ⟨deps, pool, start, stop, req, resp, h⟩ := c
  simp only [ReturnedCall.admitted, ReturnedCall.metrics, admittedFields, handleSpeech] at h ⊢
  have notReady (h : (poolNotReady lib).result = .ok resp) :
      Accounted none resp m (m.applyAll (poolNotReady lib).metrics) := by
    have hstatus : resp.status = 503 := (makeErrorResponse_status h).1
    have hcounted : Accounted none resp m (m.applyAll [.requestsTotal resp.status]) :=
      accounted_refused m (by omega) (by omega)
    rw [hstatus] at hcounted
    exact hcounted
  cases hread : readSpeech lib deps req with
  | error ending =>
    rw [hread] at h
    cases readSpeech_refusal hread with
    | thrown e => cases h
    | answered errorType errorCode message param h400 h500 =>
      obtain ⟨hstatus, _⟩ := makeErrorResponse_status h
      rw [← hstatus] at h400 h500 ⊢
      exact accounted_refused m (by omega) (by omega)
  | ok fields =>
    rw [hread] at h
    cases pool with
    | none => exact notReady h
    | some pool =>
      dsimp only at h ⊢
      cases haccepting : pool.accepting with
      | false =>
        simp only [haccepting, Bool.not_false, if_true] at h
        exact notReady h
      | true =>
        simp only [haccepting, Bool.not_true, Bool.false_eq_true, if_false, if_true] at h ⊢
        cases hsubmitted : pool.submitted with
        | false =>
          simp only [hsubmitted, Bool.not_false, if_true] at h ⊢
          exact accounted_queueFull m _ h
        | true =>
          simp only [hsubmitted, Bool.not_true, Bool.false_eq_true, if_false] at h ⊢
          exact accounted_respond m _ _ _ _ _ _ _ h

/-! ## Many calls -/

/-- A call updates the series of its own status once, and no other one. -/
theorem returned_requests (c : ReturnedCall lib) (s : Int) :
    c.metrics.count (.requestsTotal s) = if c.response.status = s then 1 else 0 := by
  have hcount := ({} : Metrics).applyAll_requestsTotal c.metrics s
  rw [(returned_accounted c {}).requests] at hcount
  rcases eq_or_ne c.response.status s with rfl | hne
  · simpa using hcount.symm
  · simpa [hne, hne.symm] using hcount.symm

/-- Its increments and decrements of the gauge are equally many. -/
theorem returned_activeJobs (c : ReturnedCall lib) :
    c.metrics.count .activeJobsIncrement = c.metrics.count .activeJobsDecrement := by
  have hcount := ({} : Metrics).applyAll_activeJobs c.metrics
  rw [(returned_accounted c {}).activeJobs] at hcount
  omega

/-- The totals after the updates of many calls, in any order. -/
theorem totals_of_perm {calls : List (ReturnedCall lib)} {ops : List MetricOp}
    (h : ops.Perm (calls.flatMap ReturnedCall.metrics)) (m : Metrics) :
    (∀ s, (m.applyAll ops).requestsTotal s =
      m.requestsTotal s + calls.countP fun c => decide (c.response.status = s)) ∧
    (m.applyAll ops).activeJobs = m.activeJobs := by
  constructor
  · intro s
    rw [Metrics.applyAll_requestsTotal, h.count_eq]
    congr 1
    clear h
    induction calls with
    | nil => rfl
    | cons c calls ih =>
      rw [List.flatMap_cons, List.count_append, returned_requests, ih, List.countP_cons]
      simp only [decide_eq_true_eq]
      omega
  · have hbalanced : ops.count .activeJobsIncrement = ops.count .activeJobsDecrement := by
      rw [h.count_eq, h.count_eq]
      clear h
      induction calls with
      | nil => rfl
      | cons c calls ih =>
        rw [List.flatMap_cons, List.count_append, List.count_append, returned_activeJobs, ih]
    rw [Metrics.applyAll_activeJobs, hbalanced]
    omega

namespace SpeechServer

variable {p : InferencePool.Params} {s : SpeechServer}

/-- Calls that ended among others are such calls on their own. -/
theorem exists_returned (h : (system lib deps p).Reachable System.Any s)
    {response : Nat → HttpResponse} : ∀ {ended : List Nat},
    (∀ i ∈ ended, (s.calls i).pc = .ended (.ok (response i))) →
    ∃ calls : List (ReturnedCall lib),
      calls.map ReturnedCall.metrics = ended.map (fun i => (s.calls i).metrics) ∧
      calls.map ReturnedCall.response = ended.map response
  | [], _ => ⟨[], rfl, rfl⟩
  | i :: ended, hended => by
    obtain ⟨hi, hrest⟩ := List.forall_mem_cons.mp hended
    obtain ⟨calls, hmetrics, hresponses⟩ := exists_returned h hrest
    obtain ⟨req, view, stop, hcall⟩ := ended_handleSpeech h hi
    have hresult : (handleSpeech lib deps (some view) (s.calls i).start stop req).result =
        .ok (response i) := by rw [hcall]
    refine ⟨⟨deps, some view, _, stop, req, response i, hresult⟩ :: calls, ?_, ?_⟩
    · rw [List.map_cons, List.map_cons, hmetrics, ReturnedCall.metrics, hcall]
    · rw [List.map_cons, List.map_cons, hresponses]

/-- The totals of concurrent calls that have returned: whatever the interleaving
of their updates, they are the numbers of their responses. -/
theorem ended_totals (h : (system lib deps p).Reachable System.Any s) {ended : List Nat}
    {response : Nat → HttpResponse}
    (hended : ∀ i ∈ ended, (s.calls i).pc = .ended (.ok (response i))) {ops : List MetricOp}
    (hops : ops.Perm (ended.flatMap fun i => (s.calls i).metrics)) (m : Metrics) :
    (∀ status, (m.applyAll ops).requestsTotal status =
      m.requestsTotal status + ended.countP fun i => decide ((response i).status = status)) ∧
    (m.applyAll ops).activeJobs = m.activeJobs := by
  obtain ⟨calls, hmetrics, hresponses⟩ := exists_returned h hended
  have hflat : (ended.flatMap fun i => (s.calls i).metrics) =
      calls.flatMap ReturnedCall.metrics := by
    rw [List.flatMap_def, List.flatMap_def, hmetrics]
  have hcount (status : Int) : (calls.countP fun c => decide (c.response.status = status)) =
      ended.countP fun i => decide ((response i).status = status) := by
    have hmap := congrArg (List.countP fun r => decide (r.status = status)) hresponses
    rwa [List.countP_map, List.countP_map] at hmap
  obtain ⟨hrequests, hjobs⟩ := totals_of_perm (hflat ▸ hops) m
  exact ⟨fun status => hcount status ▸ hrequests status, hjobs⟩

end SpeechServer

/-- **Accounting.** Each call that returns does what its response says, and after
many the totals are the numbers of responses, also of calls that ran at the same
time. -/
theorem metrics_accounted (lib : JsonLib) :
    (∀ (c : ReturnedCall lib) (m : Metrics),
      Accounted c.admitted c.response m (m.applyAll c.metrics)) ∧
    (∀ (calls : List (ReturnedCall lib)) (ops : List MetricOp),
      ops.Perm (calls.flatMap ReturnedCall.metrics) → ∀ m : Metrics,
      (∀ s, (m.applyAll ops).requestsTotal s =
        m.requestsTotal s + calls.countP fun c => decide (c.response.status = s)) ∧
      (m.applyAll ops).activeJobs = m.activeJobs) ∧
    ∀ (deps : HandlerDeps) (p : InferencePool.Params) (s : SpeechServer),
      (SpeechServer.system lib deps p).Reachable System.Any s →
      ∀ (ended : List Nat) (response : Nat → HttpResponse),
      (∀ i ∈ ended, (s.calls i).pc = .ended (.ok (response i))) →
      ∀ ops : List MetricOp, ops.Perm (ended.flatMap fun i => (s.calls i).metrics) →
      ∀ m : Metrics,
      (∀ status, (m.applyAll ops).requestsTotal status =
        m.requestsTotal status + ended.countP fun i => decide ((response i).status = status)) ∧
      (m.applyAll ops).activeJobs = m.activeJobs :=
  ⟨returned_accounted, fun _ _ h m => totals_of_perm h m,
    fun _ _ _ h _ _ hended _ hops m => SpeechServer.ended_totals h hended hops m⟩

section Examples

open SpeechServer (exHelloLib exHelloBody exHelloFields exHello_read exHello_reachable)

/-- A pool that takes the job of a call, or refuses it, and makes this callback. -/
def exView (submitted : Bool) (delivery : Delivery) : PoolView where
  accepting := true
  depthBefore := 0
  submitted := submitted
  depthAfter := 1
  delivery := delivery
  depthDone := 0

theorem exView_call (submitted : Bool) (delivery : Delivery) :
    handleSpeech exHelloLib {} (some (exView submitted delivery)) 0 3
      (exSpeechRequest exHelloBody) =
    if !submitted then
      { metrics := requestMetrics exHelloFields ++ [.activeJobsIncrement, .queueDepthSet 0] ++
          (queueFull exHelloLib).metrics
        submits := [synthRequest exHelloFields]
        result := (queueFull exHelloLib).result }
    else
      { metrics := requestMetrics exHelloFields ++ [.activeJobsIncrement, .queueDepthSet 0] ++
          [.queueDepthSet 1, .activeJobsDecrement, .queueDepthSet 0] ++
          (respond exHelloLib 0 3 delivery.store.1 delivery.store.2).metrics
        submits := [synthRequest exHelloFields]
        result := (respond exHelloLib 0 3 delivery.store.1 delivery.store.2).result } := by
  simp only [handleSpeech, exHello_read]
  rfl

/-- A call that gets its audio, one whose backend fails, one that finds the queue
full, and one with a body that is not JSON. -/
def exSpoken : ReturnedCall exHelloLib where
  deps := {}
  pool := some (exView true (.success { audioData := [1, 2] }))
  start := 0
  stop := 3
  req := exSpeechRequest exHelloBody
  response :=
    { status := 200
      headers := ((∅ : Table Str Str).insert (utf8 "Content-Type") (utf8 "audio/wav")).insert
        (utf8 "Content-Length") (utf8 "2")
      binaryBody := [1, 2] }
  returned := by rw [exView_call]; rfl

def exFailed : ReturnedCall exHelloLib where
  deps := {}
  pool := some (exView true (.error (utf8 "no memory")))
  start := 0
  stop := 3
  req := exSpeechRequest exHelloBody
  response := errorReply 500 (exDump (errorDocument (utf8 "server_error")
    (utf8 "inference_failed") (utf8 "An error occurred during speech synthesis.") []))
  returned := by rw [exView_call]; rfl

def exRefused : ReturnedCall exHelloLib where
  deps := {}
  pool := some (exView false (.error []))
  start := 0
  stop := 3
  req := exSpeechRequest exHelloBody
  response := errorReply 503 (exDump (errorDocument (utf8 "server_error") (utf8 "queue_full")
    (utf8 "Server is at capacity. Please try again later.") []))
  returned := by rw [exView_call]; rfl

def exOops : ReturnedCall exHelloLib where
  deps := {}
  pool := none
  start := 0
  stop := 0
  req := exSpeechRequest (utf8 "oops")
  response := errorReply 400 (exDump (errorDocument (utf8 "invalid_request_error")
    (utf8 "invalid_content_type") (utf8 "Invalid JSON in request body.") []))
  returned := by rfl

def exCalls : List (ReturnedCall exHelloLib) := [exSpoken, exFailed, exRefused, exOops]

/-- The updates of the four, in the opposite order. -/
def exOps : List MetricOp := (exCalls.flatMap ReturnedCall.metrics).reverse

/-- The four count as one response of each status, and so does a call among
concurrent ones. -/
theorem metrics_accounted_four :
    (∀ c ∈ exCalls, Accounted c.admitted c.response {} (({} : Metrics).applyAll c.metrics)) ∧
    (∀ status ∈ [200, 500, 503, 400], (({} : Metrics).applyAll exOps).requestsTotal status = 1) ∧
    (({} : Metrics).applyAll exOps).activeJobs = 0 ∧
    ∃ s resp, (SpeechServer.system exHelloLib {} {}).Reachable System.Any s ∧
      (s.calls 0).pc = .ended (.ok resp) ∧
      (({} : Metrics).applyAll (s.calls 0).metrics).requestsTotal 200 = 1 := by
  obtain ⟨hcalls, htotals, hended⟩ := metrics_accounted exHelloLib
  obtain ⟨hrequests, hjobs⟩ := htotals exCalls exOps (List.reverse_perm _) {}
  refine ⟨fun c _ => hcalls c {}, ?_, hjobs, ?_⟩
  · intro status hstatus
    rw [hrequests]
    revert status
    decide
  · obtain ⟨s, resp, hreach, hpc, h200⟩ := exHello_reachable
    refine ⟨s, resp, hreach, hpc, ?_⟩
    have htotal := (hended {} {} s hreach [0] (fun _ => resp) (by simpa using hpc)
      (s.calls 0).metrics (by simp) {}).1 200
    simpa [h200] using htotal

end Examples

end VoxtralServer
