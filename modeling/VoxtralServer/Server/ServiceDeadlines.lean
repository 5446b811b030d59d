import VoxtralServer.Pool.Deadline
import VoxtralServer.Server.ServiceErrors

/-!
# The time limit of a request

The time limit of a speech request counts from its own call of `submit`, whatever
waits before it in the queue.

* `history_due`: a queued job is due the time limit after the `submit` of its
  request.
* `answers_timely`: audio was ready within the time limit, and an error of status 500
  comes from an exception of the backend or from a limit that was over.
-/

namespace VoxtralServer
namespace Service

variable {lib : JsonLib} {cfg : ServerConfig} {deps : HandlerDeps} {p : InferencePool.Params}
  {moments : List (Service × Act)} {s s' : Service} {a : Act} {i : Nat}

/-- The handler of the `i`th request called `submit` at this clock reading. -/
def SubmittedAt (moments : List (Service × Act)) (i : Nat) (asked : Int) : Prop :=
  ∃ t, (t, Act.speech (.submit i asked)) ∈ moments

/-- The job is due the time limit after its request was submitted. -/
def DueAfter (p : InferencePool.Params) (moments : List (Service × Act)) (i : Nat)
    (job : InferenceJob Nat) : Prop :=
  ∃ asked, SubmittedAt moments i asked ∧ job.deadline = asked + seconds p.requestTimeoutSeconds

theorem DueAfter.append {job : InferenceJob Nat} (h : DueAfter p moments i job)
    (later : List (Service × Act)) : DueAfter p (moments ++ later) i job :=
  let ⟨asked, ⟨t, hmem⟩, hdue⟩ := h
  ⟨asked, ⟨t, List.mem_append_left _ hmem⟩, hdue⟩

/-- A job of a handler has no deadline of its own, so `submit` fills it in. -/
theorem stampJob_speechJob (fields : SpeechFields) (asked : Int) :
    (InferencePool.stampJob p (speechJob i fields) asked).deadline =
      asked + seconds p.requestTimeoutSeconds := by
  rw [InferencePool.stampJob_eq]
  rfl

theorem history_due (h : (system lib cfg deps p).History System.Any moments s) :
    ∀ i job, s.speech.pool.submits i = .stamped job ∨ (i, .pushed job) ∈ s.speech.pool.trace →
      DueAfter p moments i job := by
  refine System.history_inv (I := fun moments s => ∀ i job,
    s.speech.pool.submits i = .stamped job ∨ (i, .pushed job) ∈ s.speech.pool.trace →
      DueAfter p moments i job) ?_ ?_ h
  · rintro s ⟨now, now', rfl⟩ i job (hjob | hjob) <;> cases hjob
  · intro moments s a t _ hi _ hst i job hjob
    rcases step_speech hst with heq | ⟨b, hspeech, hb⟩
    · exact (hi i job (heq ▸ hjob)).append _
    · rcases SpeechServer.step_pool hspeech with ⟨_, heq⟩ | ⟨c, hc, hpool⟩
      · exact (hi i job (heq ▸ hjob)).append _
      · have hmoves := InferencePool.step_moves hpool
        rcases hjob with hjob | hjob
        · rcases hmoves.stamped hjob with hold | ⟨submitted, asked, rfl, rfl⟩
          · exact (hi i job (.inl hold)).append _
          · -- the call of `submit` of this request
            cases b with
            | submit k now =>
              cases hc
              rcases hb with rfl | hreceive
              · exact ⟨asked, ⟨s, List.mem_append_right _ (by simp)⟩, stampJob_speechJob ..⟩
              · cases hreceive
            | pool c' =>
              cases hc
              cases hspeech
            | _ => cases hc
        · exact (hi i job (hmoves.pushed hjob).symm).append _

/-- The worker had the result of the request in hand before the time limit. -/
structure InTime (p : InferencePool.Params) (pool : InferencePool Nat) (i : Nat) (asked : Int)
    (result : SynthesisResult) : Prop where
  started : ∃ now, (i, .worked (.checked now)) ∈ pool.trace ∧
    now < asked + seconds p.requestTimeoutSeconds
  returned : (i, .worked (.returned result)) ∈ pool.trace
  finished : ∃ now, (i, .worked (.rechecked now)) ∈ pool.trace ∧
    now < asked + seconds p.requestTimeoutSeconds

/-- The backend threw, or the worker looked at the request after the time limit. -/
def TooLate (p : InferencePool.Params) (pool : InferencePool Nat) (i : Nat) (asked : Int) : Prop :=
  (∃ what, (i, .worked (.threw what)) ∈ pool.trace) ∨
    ∃ now, asked + seconds p.requestTimeoutSeconds ≤ now ∧
      ((i, .worked (.checked now)) ∈ pool.trace ∨ (i, .worked (.rechecked now)) ∈ pool.trace)

/-- The result that is delivered was ready in time. -/
theorem delivered_inTime (h : (system lib cfg deps p).History System.Any moments s)
    {result : SynthesisResult}
    (hinvoked : SpeechServer.invoked s.speech.pool i = [.success result]) :
    ∃ asked, SubmittedAt moments i asked ∧ InTime p s.speech.pool i asked result := by
  have hr := reachable_speech h.reachable
  rw [SpeechServer.invoked_eq hr] at hinvoked
  rcases (SpeechServer.reachable_sound hr i).framed.invoked with ⟨hnone, _⟩ | ⟨d, hone, _⟩
  · rw [hnone] at hinvoked
    cases hinvoked
  · rw [hone] at hinvoked
    cases hinvoked
    obtain ⟨job, h₀, h₁, hlived, heq, _⟩ := SpeechServer.invoked_lived hr hone
    have hmem {e : JobEvent Nat} (he : e ∈ h₀) : (i, e) ∈ s.speech.pool.trace :=
      InferencePool.mem_history.mp (heq ▸ List.mem_append_left _ he)
    cases hlived with
    | @inTime now now' _ hstart hfinish =>
      obtain ⟨asked, hsubmitted, hdue⟩ := history_due h i job (.inr (hmem (by simp)))
      rw [hdue] at hstart hfinish
      exact ⟨asked, hsubmitted, ⟨now, hmem (by simp), hstart⟩, hmem (by simp),
        ⟨now', hmem (by simp), hfinish⟩⟩

/-- **The time limit counts from the request's own submission.** In every run, a
speech request that is answered with status 200 has the audio of a call that was
started, returned and checked within the time limit, and one that is answered with
status 500 had an exception in the backend or was looked at after the limit. -/
theorem answers_timely (hlib : lib.Documented)
    (h : (system lib cfg deps p).History System.Any moments s) {req : HttplibRequest}
    (hreq : s.requests[i]? = some req) (hroute : routeOf req = some .speech)
    {resp : HttpResponse} (ha : answer lib deps s i = some (.ok resp)) :
    (resp.status = 200 → ∃ asked result, SubmittedAt moments i asked ∧
      InTime p s.speech.pool i asked result ∧ resp.binaryBody = result.audioData) ∧
    (resp.status = 500 →
      ∃ asked, SubmittedAt moments i asked ∧ TooLate p s.speech.pool i asked) := by
  have hr := reachable_speech h.reachable
  have hended (hstatus : resp.status = 200 ∨ resp.status = 500) :=
    SpeechServer.answered_delivered hlib hr (speech_handled h.reachable hreq hroute ha
      (by rcases hstatus with h | h <;> rw [h] <;> decide))
  constructor
  · intro h200
    rcases hended (.inl h200) with ⟨_, hno, _⟩ | ⟨result, resp', hinvoked, heq, _, hbody⟩ |
      ⟨_, _, ⟨resp', heq, h500⟩, _⟩
    · exact absurd ⟨resp, rfl, h200⟩ hno
    · cases heq
      obtain ⟨asked, hsubmitted, htime⟩ := delivered_inTime h hinvoked
      exact ⟨asked, result, hsubmitted, htime, hbody⟩
    · cases heq
      omega
  · intro h500
    rcases hended (.inr h500) with ⟨_, _, hno⟩ | ⟨_, resp', _, heq, h200, _⟩ | ⟨_, hinvoked, _⟩
    · exact absurd ⟨resp, rfl, h500⟩ hno
    · cases heq
      omega
    · obtain ⟨job, hjob, hcause⟩ := delivered_failed hr hinvoked
      obtain ⟨asked, hsubmitted, hdue⟩ := history_due h i job (.inr hjob)
      rw [hdue] at hcause
      exact ⟨asked, hsubmitted, hcause.symm⟩

/-- The audio of the example was ready in time. -/
theorem answers_timely_hello : ∃ s moments asked result,
    (system SpeechServer.exHelloLib Race.exKeyConfig {} {}).History System.Any moments s ∧
    SubmittedAt moments 0 asked ∧ InTime {} s.speech.pool 0 asked result := by
  obtain ⟨s, moments, _, hhistory, hanswer, ⟨resp, rfl, h200⟩, _, hcall⟩ := exHello_history
  obtain ⟨job, hpushed, _⟩ := called_pushed hhistory.reachable hcall
  obtain ⟨_, ⟨req, hreq, hroute⟩, _⟩ := pushed_own hhistory.reachable hpushed
  obtain ⟨hserved, _⟩ :=
    answers_timely SpeechServer.exHelloLib_documented hhistory hreq hroute hanswer
  obtain ⟨asked, result, hsubmitted, htime, _⟩ := hserved h200
  exact ⟨s, moments, asked, result, hhistory, hsubmitted, htime⟩

end Service
end VoxtralServer
