import VoxtralServer.Server.SpeechFrames

/-!
# What concurrent speech calls compute

`handleSpeech` follows one call on its own and takes the answers of the pool as
an input. A call that ends among others has done the same: it has updated the
same metrics, submitted the same request and returned the same result, for some
answers. What is known of the requests that the calls receive is a parameter here.

* `step_follows`: every step keeps each call as far as `handleSpeech` on a request of
  its own.
* `ended_handleSpeech`: an ended call is a call of `handleSpeech`.
* `Follows.serves`: a call that can have received one request only works on this one.
-/

namespace VoxtralServer
namespace SpeechServer

open InferencePool (Submit)

variable {lib : JsonLib} {deps : HandlerDeps} {p : InferencePool.Params} {s s' : SpeechServer}
  {a : Act} {i j : Nat} {R : HttpRequest → Prop} {submit : Submit Nat} {c : SpeechCall}

/-- What a call has passed to `submit`. -/
def requests (fields : SpeechFields) : Submit Nat → List SynthesisRequest
  | .idle => []
  | _ => [synthRequest fields]

/-- The metrics that a call has updated when it is at `pc`, for three readings of
the queue depth. -/
def metricsAt (fields : SpeechFields) (before after done : Int) : SpeechPc → Option (List MetricOp)
  | .idle | .ended _ => none
  | .checkPool => some []
  | .readBefore => some (requestMetrics fields ++ [.activeJobsIncrement])
  | .submit | .submitting | .readAfter =>
    some (requestMetrics fields ++ [.activeJobsIncrement, .queueDepthSet before])
  | .waiting | .asleep | .readDone =>
    some (requestMetrics fields ++
      [.activeJobsIncrement, .queueDepthSet before, .queueDepthSet after])
  | .respond =>
    some (requestMetrics fields ++ [.activeJobsIncrement, .queueDepthSet before,
      .queueDepthSet after, .activeJobsDecrement, .queueDepthSet done])

/-- The call has read a request that satisfies `R`, and not returned. -/
def Underway (lib : JsonLib) (deps : HandlerDeps) (R : HttpRequest → Prop) (c : SpeechCall) :
    Prop :=
  ∃ req before after done, R req ∧ readSpeech lib deps req = .ok c.fields ∧
    metricsAt c.fields before after done c.pc = some c.metrics

/-- The call is as far as `handleSpeech` on such a request and some answers. -/
inductive Follows (lib : JsonLib) (deps : HandlerDeps) (R : HttpRequest → Prop)
    (submit : Submit Nat) (c : SpeechCall) : Prop
  | idle : c.pc = .idle → c.metrics = [] → Follows lib deps R submit c
  | underway : Underway lib deps R c → Follows lib deps R submit c
  | ended (req : HttpRequest) (view : PoolView) (stop : Int)
      {result : Except JsonError HttpResponse} : R req → c.pc = .ended result →
      handleSpeech lib deps (some view) c.start stop req =
        { metrics := c.metrics, submits := requests c.fields submit, result := result } →
      Follows lib deps R submit c

/-- The requests that the calls receive satisfy `R`. -/
def Receives (R : Nat → HttpRequest → Prop) (_ : SpeechServer) (a : Act) : Prop :=
  ∀ i req now, a = .receive i req now → R i req

theorem metricsAt_begun {fields : SpeechFields} {before after done : Int} {pc : SpeechPc}
    {metrics : List MetricOp} (h : metricsAt fields before after done pc = some metrics) :
    pc ≠ .idle ∧ ∀ result, pc ≠ .ended result := by
  cases pc with
  | idle => cases h
  | ended result => cases h
  | _ => simp

theorem Follows.metrics_eq_nil (h : Follows lib deps R submit c) (hpc : c.pc = .idle) :
    c.metrics = [] := by
  cases h with
  | idle _ hmetrics => exact hmetrics
  | underway h =>
    obtain ⟨_, _, _, _, _, _, hat⟩ := h
    exact absurd hpc (metricsAt_begun hat).1
  | ended _ _ _ _ hended => simp [hpc] at hended

theorem Follows.begun (h : Follows lib deps R submit c) (hidle : c.pc ≠ .idle)
    (hended : ∀ result, c.pc ≠ .ended result) : Underway lib deps R c := by
  cases h with
  | idle hpc => exact absurd hpc hidle
  | underway h => exact h
  | ended _ _ _ _ hpc => exact absurd hpc (hended _)

/-- Only an ended call is compared with what it has submitted. -/
theorem Follows.submits {submit' : Submit Nat} (h : Follows lib deps R submit c)
    (hended : ∀ result, c.pc = .ended result → submit' = submit) :
    Follows lib deps R submit' c := by
  cases h with
  | idle hpc hmetrics => exact .idle hpc hmetrics
  | underway h => exact .underway h
  | ended req view stop hreq hpc hcall =>
    cases hended _ hpc
    exact .ended req view stop hreq hpc hcall

/-- A step of a call under way that adds `metrics`. -/
theorem Underway.moves {c' : SpeechCall} (h : Underway lib deps R c) (metrics : List MetricOp)
    (hfields : c'.fields = c.fields) (hmetrics : c'.metrics = c.metrics ++ metrics)
    (hpc : ∀ before after done, ∃ before' after' done',
      metricsAt c.fields before' after' done' c'.pc =
        (metricsAt c.fields before after done c.pc).map (· ++ metrics)) :
    Underway lib deps R c' := by
  obtain ⟨req, before, after, done, hreq, hread, hat⟩ := h
  obtain ⟨before', after', done', heq⟩ := hpc before after done
  refine ⟨req, before', after', done', hreq, hfields ▸ hread, ?_⟩
  rw [hfields, hmetrics, heq, hat, Option.map_some]

/-- A step of a call under way that updates no metric. -/
theorem Underway.stays {c' : SpeechCall} (h : Underway lib deps R c)
    (hfields : c'.fields = c.fields) (hmetrics : c'.metrics = c.metrics)
    (hpc : ∀ before after done, metricsAt c.fields before after done c'.pc =
      metricsAt c.fields before after done c.pc) : Underway lib deps R c' :=
  h.moves [] hfields (by rw [hmetrics, List.append_nil]) fun before after done =>
    ⟨before, after, done, by simp [hpc]⟩

theorem Goes.metrics {fields : SpeechFields} {depth : Int} {pc pc' : SpeechPc}
    {metrics : List MetricOp} (h : Goes i fields depth a pc pc' metrics)
    (before after done : Int) :
    ∃ before' after' done', metricsAt fields before' after' done' pc' =
      (metricsAt fields before after done pc).map (· ++ metrics) := by
  cases h with
  | checkPool => exact ⟨before, after, done, by simp [metricsAt]⟩
  | readBefore => exact ⟨depth, after, done, by simp [metricsAt]⟩
  | readAfter => exact ⟨before, depth, done, by simp [metricsAt]⟩
  | wake => exact ⟨before, after, done, by simp [metricsAt]⟩
  | readDone => exact ⟨before, after, depth, by simp [metricsAt]⟩

theorem metricsAt_notified (fields : SpeechFields) (before after done : Int) (pc : SpeechPc) :
    metricsAt fields before after done pc.notified = metricsAt fields before after done pc := by
  cases pc <;> rfl

theorem Follows.frame (h : Follows lib deps R submit c) (f : SpeechFrame) :
    Follows lib deps R submit { c with frame := f } := by
  cases h with
  | idle hpc hmetrics => exact .idle hpc hmetrics
  | underway h => exact .underway (h.stays rfl rfl fun _ _ _ => rfl)
  | ended req view stop hreq hpc hcall => exact .ended req view stop hreq hpc hcall

theorem Follows.notified (h : Follows lib deps R submit c) :
    Follows lib deps R submit { c with pc := c.pc.notified } := by
  cases h with
  | idle hpc hmetrics => exact .idle (by rw [hpc]; rfl) hmetrics
  | underway h => exact .underway (h.stays rfl rfl fun _ _ _ => metricsAt_notified ..)
  | ended req view stop hreq hpc hcall =>
    exact .ended req view stop hreq (by rw [hpc]; rfl) hcall

/-- A callback touches neither the metrics nor the fields of the call. -/
theorem Follows.callbackStep {c' : SpeechCall} {d : Delivery} (h : Follows lib deps R submit c)
    (hc : c.callbackStep d = some c') : Follows lib deps R submit c' := by
  unfold SpeechCall.callbackStep at hc
  split at hc <;> cases hc
  · exact h.frame _
  · exact h.frame _
  · exact h.notified.frame _
  · exact h.frame _

/-! ## The calls that end -/

theorem Follows.rejected {req : HttpRequest} {ending : Ending} (h : Follows lib deps R submit c)
    (hreq : R req) (hpc : c.pc = .idle) (hsubmit : submit = .idle)
    (hread : readSpeech lib deps req = .error ending) :
    Follows lib deps R submit { c with pc := .ended ending.result
                                       metrics := c.metrics ++ ending.metrics } := by
  -- the answers of the pool do not matter
  refine .ended req ⟨true, 0, true, 0, .error [], 0⟩ 0 hreq rfl ?_
  simp [handleSpeech, hread, h.metrics_eq_nil hpc, hsubmit, requests]

theorem Underway.notReady (h : Underway lib deps R c) (hpc : c.pc = .checkPool)
    (hsubmit : submit = .idle) :
    Follows lib deps R submit { c with pc := .ended (poolNotReady lib).result
                                       metrics := c.metrics ++ (poolNotReady lib).metrics } := by
  obtain ⟨req, before, after, done, hreq, hread, hat⟩ := h
  simp only [hpc, metricsAt, Option.some.injEq] at hat
  refine .ended req ⟨false, before, true, after, .error [], done⟩ 0 hreq rfl ?_
  simp [handleSpeech, hread, ← hat, hsubmit, requests]

theorem Underway.refused (h : Underway lib deps R c) (hpc : c.pc = .submitting)
    (hsubmit : submit = .returned false) :
    Follows lib deps R submit { c with pc := .ended (queueFull lib).result
                                       metrics := c.metrics ++ (queueFull lib).metrics } := by
  obtain ⟨req, before, after, done, hreq, hread, hat⟩ := h
  simp only [hpc, metricsAt, Option.some.injEq] at hat
  refine .ended req ⟨true, before, false, after, .error [], done⟩ 0 hreq rfl ?_
  simp [handleSpeech, hread, ← hat, hsubmit, requests]

theorem Underway.responds {stop : Int} {d : Delivery} (h : Underway lib deps R c)
    (hpc : c.pc = .respond) (hsubmit : submit = .returned true)
    (hstored : (c.frame.synthError, c.frame.synthResult) = d.store) :
    Follows lib deps R submit
      { c with pc := .ended (VoxtralServer.respond lib c.start stop c.frame.synthError
                 c.frame.synthResult).result
               metrics := c.metrics ++ (VoxtralServer.respond lib c.start stop c.frame.synthError
                 c.frame.synthResult).metrics } := by
  obtain ⟨req, before, after, done, hreq, hread, hat⟩ := h
  simp only [hpc, metricsAt, Option.some.injEq] at hat
  refine .ended req ⟨true, before, true, after, d, done⟩ stop hreq rfl ?_
  simp [handleSpeech, hread, ← hat, hsubmit, requests, ← hstored]

/-! ## Runs -/

/-- Every step keeps each call as far as `handleSpeech` on a request of its own. -/
theorem step_follows {R : Nat → HttpRequest → Prop}
    (hr : (system lib deps p).Reachable System.Any s)
    (hi : ∀ i, Follows lib deps (R i) (s.pool.submits i) (s.calls i)) (hg : Receives R s a)
    (hst : (system lib deps p).step s a = some s') :
    ∀ i, Follows lib deps (R i) (s'.pool.submits i) (s'.calls i) := by
  have hlinked := reachable_linked hr
  have set (i : Nat) (c : SpeechCall) (hc : Follows lib deps (R i) (s.pool.submits i) c) :
      ∀ j, Follows lib deps (R j) (s.pool.submits j) ((s.setCall i c).calls j) :=
    setCall_forall (P := fun j c => Follows lib deps (R j) (s.pool.submits j) c) hi hc
  have underway {i : Nat} {pc : SpeechPc} (hpc : (s.calls i).pc = pc)
      (hidle : pc ≠ .idle) (hended : ∀ result, pc ≠ .ended result) :
      Underway lib deps (R i) (s.calls i) := (hi i).begun (hpc ▸ hidle) (hpc ▸ hended)
  have stays {i : Nat} {pc pc' : SpeechPc} (hpc : (s.calls i).pc = pc)
      (hidle : pc ≠ .idle) (hended : ∀ result, pc ≠ .ended result)
      (hat : ∀ before after done, metricsAt (s.calls i).fields before after done pc' =
        metricsAt (s.calls i).fields before after done pc) :
      Underway lib deps (R i)
        { s.calls i with pc := pc', metrics := (s.calls i).metrics ++ [] } :=
    (underway hpc hidle hended).stays rfl (List.append_nil _) (hpc ▸ hat)
  cases step_moves hst with
  | @reject i req now ending hpc hread =>
    refine set i _ ((hi i).rejected (hg i req now rfl) hpc ?_ hread)
    simpa [hpc, Linked] using hlinked i
  | @receive i req now fields hpc hread =>
    refine set i _ (.underway ⟨req, 0, 0, 0, hg i req now rfl, hread, ?_⟩)
    simp [metricsAt, (hi i).metrics_eq_nil hpc]
  | @notReady i hpc =>
    refine set i _ ((underway hpc (by simp) (by simp)).notReady hpc ?_)
    simpa [hpc, Linked] using hlinked i
  | @goes i _ pc pc' metrics hpc hgoes =>
    have hbegun : pc ≠ .idle ∧ ∀ result, pc ≠ .ended result := by cases hgoes <;> simp
    refine set i _ (.underway ((underway hpc hbegun.1 hbegun.2).moves metrics rfl rfl ?_))
    exact hpc ▸ hgoes.metrics
  | @submit i now hpc hidle =>
    intro j
    rcases eq_or_ne j i with rfl | hne
    · have hmove : Underway lib deps (R j)
          { s.calls j with pc := .submitting, metrics := (s.calls j).metrics ++ [] } :=
        stays hpc (by simp) (by simp) fun _ _ _ => rfl
      exact .underway (by simpa [moveCall, setCall] using hmove)
    · simpa [moveCall, setCall, hne] using hi j
  | @refused i hpc hret => exact set i _ ((underway hpc (by simp) (by simp)).refused hpc hret)
  | accepted hpc => exact set _ _ (.underway (stays hpc (by simp) (by simp) fun _ _ _ => rfl))
  | sleep hpc => exact set _ _ (.underway (stays hpc (by simp) (by simp) fun _ _ _ => rfl))
  | leave hpc => exact set _ _ (.underway (stays hpc (by simp) (by simp) fun _ _ _ => rfl))
  | @respond i now hpc =>
    -- the frame holds what a callback stored
    obtain ⟨hready, _⟩ := (reachable_sound hr i).left (.inr hpc)
    obtain ⟨d, hstored⟩ := (reachable_sound hr i).framed.stored hready
    refine set i _ ((underway hpc (by simp) (by simp)).responds hpc ?_ hstored)
    simpa [hpc, Linked] using hlinked i
  | callback _ hc => exact set _ _ ((hi _).callbackStep hc)
  | @callbackReturns k d pool _ _ hpool =>
    intro j
    have hj := (hi j).submits fun result hpc =>
      ended_submits (by simp) (InferencePool.step_moves hpool) (hpc ▸ hlinked j)
    rcases eq_or_ne j k with rfl | hne
    · simpa [setCall, SpeechCall.callbackReturned] using hj.frame _
    · simpa [setCall, hne] using hj
  | pool hstamp _ hpool =>
    intro j
    exact (hi j).submits fun result hpc =>
      ended_submits hstamp (InferencePool.step_moves hpool) (hpc ▸ hlinked j)

/-- In every reachable state each call is as far as `handleSpeech` on some request. -/
theorem reachable_follows (h : (system lib deps p).Reachable System.Any s) :
    ∀ i, Follows lib deps (fun _ => True) (s.pool.submits i) (s.calls i) := by
  refine System.reachable_inv_of (I := fun s =>
    ∀ i, Follows lib deps (fun _ => True) (s.pool.submits i) (s.calls i)) ?_ ?_ h
  · rintro s ⟨now, rfl⟩ i
    exact .idle rfl rfl
  · intro s a t hr hi _ hst
    exact step_follows (R := fun _ _ => True) hr hi (fun _ _ _ _ => trivial) hst

/-- A call that has ended among others has done what `handle_speech` does on its
own, for some answers of the pool. -/
theorem Follows.outcome (h : Follows lib deps R submit c)
    {result : Except JsonError HttpResponse} (hpc : c.pc = .ended result) :
    ∃ req view stop, R req ∧ handleSpeech lib deps (some view) c.start stop req =
      { metrics := c.metrics, submits := requests c.fields submit, result := result } := by
  cases h with
  | idle hidle => simp [hpc] at hidle
  | underway h =>
    obtain ⟨_, _, _, _, _, _, hat⟩ := h
    exact absurd hpc ((metricsAt_begun hat).2 result)
  | ended req view stop hreq hended hcall =>
    rw [hpc] at hended
    cases hended
    exact ⟨req, view, stop, hreq, hcall⟩

theorem ended_handleSpeech (h : (system lib deps p).Reachable System.Any s)
    {result : Except JsonError HttpResponse} (hpc : (s.calls i).pc = .ended result) :
    ∃ req view stop, handleSpeech lib deps (some view) (s.calls i).start stop req =
      { metrics := (s.calls i).metrics
        submits := requests (s.calls i).fields (s.pool.submits i)
        result := result } := by
  obtain ⟨req, view, stop, _, hcall⟩ := (reachable_follows h i).outcome hpc
  exact ⟨req, view, stop, hcall⟩

/-! ## Calls with a request of their own -/

/-- The call works on this request: its fields are read from it, and when the call
has ended, it has done what `handleSpeech` does on it for some answers. -/
structure Serves (lib : JsonLib) (deps : HandlerDeps) (req : HttpRequest) (submit : Submit Nat)
    (c : SpeechCall) : Prop where
  read : submit ≠ .idle → readSpeech lib deps req = .ok c.fields
  outcome {result : Except JsonError HttpResponse} : c.pc = .ended result →
    ∃ view stop, handleSpeech lib deps (some view) c.start stop req =
      { metrics := c.metrics, submits := requests c.fields submit, result := result }

theorem Follows.serves {req : HttpRequest} (h : Follows lib deps (· = req) submit c)
    (hlinked : Linked submit c.pc) : Serves lib deps req submit c where
  read hsubmit := by
    cases h with
    | idle hpc => exact absurd (by simpa [hpc, Linked] using hlinked) hsubmit
    | underway h =>
      obtain ⟨_, _, _, _, rfl, hread, _⟩ := h
      exact hread
    | ended own view stop hreq hpc hcall =>
      subst hreq
      have hsubmits : (handleSpeech lib deps (some view) c.start stop own).submits =
          [synthRequest c.fields] := by
        rw [hcall]
        cases submit with
        | idle => exact absurd rfl hsubmit
        | _ => rfl
      exact read_of_submits hsubmits
  outcome hpc := by
    obtain ⟨_, view, stop, rfl, hcall⟩ := h.outcome hpc
    exact ⟨view, stop, hcall⟩

end SpeechServer
end VoxtralServer
