import VoxtralServer.Pool.Drain
import VoxtralServer.Server.ServedAudio
import VoxtralServer.Server.ServiceTotals

/-!
# The shutdown of the service

`TtsServer::shutdown` closes the pool while requests are under way.

* `SpeechServer.closing_enabled`: while the shutdown is under way, the worker, one of
  its callbacks or the shutdown takes a step that brings its return closer.
* `closed_accepts`: a closed pool gets no further job, in any run of the service.
* `shutdown_graceful`: after the close, only jobs accepted before are run, and the
  service comes to rest with every request answered and the shutdown returned.
-/

namespace VoxtralServer

namespace SpeechServer

variable {lib : JsonLib} {deps : HandlerDeps} {p : InferencePool.Params} {s s' : SpeechServer}
  {a : Act}

/-- A call of `shutdown` is under way. -/
def ShuttingDown (s : SpeechServer) : Prop :=
  s.pool.shutdown = .notifying ∨ s.pool.shutdown = .joining

/-- How much is left before `shutdown` returns. -/
def closing (s : SpeechServer) : Nat := poolLeft s + 5 * s.pool.shutdown.rank

/-- A step of the handlers or the pool brings the return of `shutdown` closer. -/
def Closes (lib : JsonLib) (deps : HandlerDeps) (p : InferencePool.Params)
    (s : SpeechServer) : Prop :=
  ∃ a t, NotSpurious s a ∧ a ≠ .pool .close ∧ Service.isReceive a = false ∧
    (system lib deps p).step s a = some t ∧
    (t.ShuttingDown ∨ t.pool.shutdown = .returned) ∧ closing t < closing s

/-- While the shutdown is under way, some step brings its return closer. -/
theorem closing_enabled (h : (system lib deps p).Reachable System.Any s) (hs : s.ShuttingDown) :
    Closes lib deps p s := by
  by_cases huncalled : s.pool.Uncalled
  · obtain ⟨a, pool, hst, hshutdown, hlt, hown⟩ :=
      InferencePool.shutdown_enabled (reachable_pool h) hs
    have hown := hown huncalled
    refine ⟨.pool a, { s with pool := pool }, ?_, ?_, rfl, ?_, ?_, ?_⟩
    · cases a with
      | wake => exact hown
      | _ => trivial
    · rintro ⟨⟩
      rcases hs with hs | hs <;> simp [InferencePool.step, hs] at hst
    · cases a with
      | stamp => exact hown.elim
      | callbackEnds => exact hown.elim
      | _ => simp only [system, step, poolStep, hst, Option.map_some]
    · simpa only [ShuttingDown, or_assoc] using hshutdown
    · unfold closing poolLeft
      dsimp only
      omega
  · simp only [InferencePool.Uncalled, not_forall, not_not] at huncalled
    obtain ⟨id, job, d, guarded, hw⟩ := huncalled
    obtain ⟨a, t, ha, hst, hmoves⟩ := callback_enabled h hw
    have hsame : t.pool.shutdown = s.pool.shutdown := hmoves.shutdown
    refine ⟨a, t, ?_, ?_, ?_, hst, .inl ?_, ?_⟩
    · rcases ha with rfl | rfl <;> trivial
    · rcases ha with rfl | rfl <;> simp
    · rcases ha with rfl | rfl <;> rfl
    · rwa [ShuttingDown, hsame]
    · unfold closing
      rw [hsame]
      exact Nat.add_lt_add_right hmoves.lowers _

end SpeechServer

namespace Service

variable {lib : JsonLib} {cfg : ServerConfig} {deps : HandlerDeps} {p : InferencePool.Params}
  {s s' : Service} {a : Act} {i : Nat}

/-! ## After the close -/

/-- What a step does to the pool is a step of the pool. -/
theorem step_toPool (hst : (system lib cfg deps p).step s a = some s') :
    s'.speech.pool = s.speech.pool ∨
      ∃ b, (InferencePool.system p Nat).step s.speech.pool b = some s'.speech.pool := by
  have hspeech {b : SpeechServer.Act} {speech : SpeechServer}
      (h : (SpeechServer.system lib deps p).step s.speech b = some speech) :
      speech.pool = s.speech.pool ∨
        ∃ c, (InferencePool.system p Nat).step s.speech.pool c = some speech.pool :=
    (SpeechServer.step_pool h).imp And.right fun ⟨c, _, hc⟩ => ⟨c, hc⟩
  cases step_moves hst with
  | arrive => exact .inl rfl
  | gate => exact .inl rfl
  | receive _ _ _ h => exact hspeech h
  | speech _ h => exact hspeech h

/-- A closed pool stays closed and accepts no further job. -/
theorem closed_accepts {t : Service} (h : (system lib cfg deps p).Reaches System.Any s t)
    (hs : s.speech.pool.accepting = false) : t.speech.pool.accepting = false ∧
      ∀ id, t.speech.pool.Accepted id → s.speech.pool.Accepted id := by
  refine System.reaches_inv (I := fun t => t.speech.pool.accepting = false ∧
    ∀ id, t.speech.pool.Accepted id → s.speech.pool.Accepted id) ?_ h ⟨hs, fun _ h => h⟩
  rintro t a u ⟨hclosed, hold⟩ _ hst
  rcases step_toPool hst with heq | ⟨b, hpool⟩
  · rw [heq]
    exact ⟨hclosed, hold⟩
  · obtain ⟨hclosed', hlater⟩ :=
      InferencePool.closed_forever (.one (by trivial) hpool) hclosed
    exact ⟨hclosed', fun id hid => hold id (hlater id hid)⟩

/-- A shutdown that has begun goes on. -/
theorem step_shutdown (hst : (system lib cfg deps p).step s a = some s')
    (hs : s.speech.ShuttingDown ∨ s.speech.pool.shutdown = .returned) :
    s'.speech.ShuttingDown ∨ s'.speech.pool.shutdown = .returned := by
  unfold SpeechServer.ShuttingDown at *
  rcases step_toPool hst with heq | ⟨b, hpool⟩
  · rw [heq]
    exact hs
  · have hm := InferencePool.step_moves hpool
    generalize s'.speech.pool = pool at hm ⊢
    cases hm with
    | close => exact .inl (.inl rfl)
    | notifyAll => exact .inl (.inr rfl)
    | join => exact .inr rfl
    | _ => exact hs

/-- An answer with status 200 or 500 to a speech request is one to a job that was
accepted. -/
theorem answered_accepted (hlib : lib.Documented)
    (h : (system lib cfg deps p).Reachable System.Any s) {req : HttplibRequest}
    (hreq : s.requests[i]? = some req) (hroute : routeOf req = some .speech)
    {resp : HttpResponse} (ha : answer lib deps s i = some (.ok resp))
    (hstatus : resp.status = 200 ∨ resp.status = 500) : s.speech.pool.Accepted i := by
  have hspeech := reachable_speech h
  have hpc := speech_handled h hreq hroute ha (by rcases hstatus with h | h <;> rw [h] <;> decide)
  have hinvoked : SpeechServer.invoked s.speech.pool i ≠ [] := by
    rcases SpeechServer.answered_delivered hlib hspeech hpc with ⟨_, hno, hno'⟩ |
      ⟨_, _, hinvoked, _⟩ | ⟨_, hinvoked, _⟩
    · rcases hstatus with h200 | h500
      · exact absurd ⟨resp, rfl, h200⟩ hno
      · exact absurd ⟨resp, rfl, h500⟩ hno'
    · simp [hinvoked]
    · simp [hinvoked]
  rw [SpeechServer.invoked_eq hspeech] at hinvoked
  rcases (SpeechServer.reachable_sound hspeech i).framed.invoked with ⟨hnone, _⟩ | ⟨d, hone, _⟩
  · simp [hnone] at hinvoked
  · exact SpeechServer.invoked_accepted hspeech hone

/-- The shutdown returns in a run without further requests. -/
theorem shutdown_finishes (hr : (system lib cfg deps p).Reachable System.Any s)
    (hs : s.speech.ShuttingDown ∨ s.speech.pool.shutdown = .returned) :
    ∃ t, (system lib cfg deps p).Reaches Quiet s t ∧ t.speech.pool.shutdown = .returned := by
  refine System.reaches_goal (I := fun s => (system lib cfg deps p).Reachable System.Any s ∧
      (s.speech.ShuttingDown ∨ s.speech.pool.shutdown = .returned))
    (fun s => SpeechServer.closing s.speech) ?_ ⟨hr, hs⟩
  rintro s ⟨hr, hs⟩ hgoal
  obtain ⟨a, speech, hquiet, hclose, hreceive, hspeech, hshutdown, hlt⟩ :=
    SpeechServer.closing_enabled (reachable_speech hr) (hs.resolve_right hgoal)
  have hst : (system lib cfg deps p).step s (.speech a) = some { s with speech := speech } := by
    have hspeech : SpeechServer.step lib deps p s.speech a = some speech := hspeech
    simp only [system, step, hreceive, Bool.false_eq_true, if_false, hspeech, Option.map_some]
  exact ⟨.speech a, _, ⟨hquiet, hclose⟩, hst, ⟨hr.step trivial hst, hshutdown⟩, hlt⟩

/-! ## A graceful shutdown -/

/-- **The shutdown is graceful.** When the pool is closed with any number of requests
under way,

* no run answers a speech request with status 200 or 500 unless its job was accepted
  before;
* once the worker has exited, all jobs that were accepted are finished;
* and while the shutdown is under way, a run without further requests answers every
  request that has arrived and lets the shutdown return, with the worker gone. -/
theorem shutdown_graceful (hlib : lib.Documented)
    (hr : (system lib cfg deps p).Reachable System.Any s)
    (hclosed : s.speech.pool.accepting = false) :
    (∀ t, (system lib cfg deps p).Reaches System.Any s t → ∀ i req resp,
      t.requests[i]? = some req → routeOf req = some .speech →
      answer lib deps t i = some (.ok resp) → resp.status = 200 ∨ resp.status = 500 →
      s.speech.pool.Accepted i) ∧
    (∀ t, (system lib cfg deps p).Reaches System.Any s t → t.speech.pool.worker = .exited →
      ∀ i, t.speech.pool.Accepted i → i ∈ t.speech.pool.finishedIds) ∧
    (s.speech.ShuttingDown → ∃ t, (system lib cfg deps p).Reaches Quiet s t ∧
      t.requests = s.requests ∧ t.speech.pool.shutdown = .returned ∧
      t.speech.pool.worker = .exited ∧
      ∀ i < s.requests.length, ∃ result, answer lib deps t i = some result) := by
  refine ⟨fun t hst i req resp hreq hroute ha hstatus => ?_, fun t hst hw i hi => ?_,
    fun hshutdown => ?_⟩
  · exact (closed_accepts hst hclosed).2 i
      (answered_accepted hlib (hr.trans hst) hreq hroute ha hstatus)
  · exact InferencePool.exited_finished
      (SpeechServer.reachable_pool (reachable_speech (hr.trans hst))) hw hi
  · -- first the requests, then the shutdown
    obtain ⟨t, hst, hanswers⟩ := requests_answered hr _ (Nat.le_refl _)
    have hrt := quiet_reachable hr hst
    have hbegun : t.speech.ShuttingDown ∨ t.speech.pool.shutdown = .returned :=
      System.reaches_inv
        (I := fun t => t.speech.ShuttingDown ∨ t.speech.pool.shutdown = .returned)
        (fun _ _ _ hi _ hst => step_shutdown hst hi) hst (.inl hshutdown)
    obtain ⟨u, htu, hreturned⟩ := shutdown_finishes hrt hbegun
    have hpool := SpeechServer.reachable_pool (reachable_speech (quiet_reachable hrt htu))
    refine ⟨u, hst.trans htu, (quiet_requests htu).trans (quiet_requests hst), hreturned,
      (InferencePool.reachable_closed hpool).joined hreturned, fun i hi => ?_⟩
    obtain ⟨result, h⟩ := hanswers i hi
    exact ⟨result, answer_final hrt (htu.mono fun _ _ _ => trivial) h⟩

/-- The pool is closed while the worker is at the backend. -/
theorem shutdown_graceful_busy : ∃ s t,
    (system SpeechServer.exHelloLib Race.exKeyConfig {} {}).Reachable System.Any s ∧
    s.speech.pool.accepting = false ∧ s.speech.pool.Accepted 0 ∧
    answer SpeechServer.exHelloLib {} s 0 = none ∧
    (system SpeechServer.exHelloLib Race.exKeyConfig {} {}).Reaches Quiet s t ∧
    t.speech.pool.shutdown = .returned ∧
    ∃ result, answer SpeechServer.exHelloLib {} t 0 = some result := by
  have hclose : ∃ s, (system SpeechServer.exHelloLib Race.exKeyConfig {} {}).step (exBusy {})
      (.speech (.pool .close)) = some s ∧ s.speech.pool.accepting = false ∧
      s.speech.ShuttingDown ∧ s.speech.pool.submits 0 = .returned true ∧
      answer SpeechServer.exHelloLib {} s 0 = none ∧ s.requests.length = 1 :=
    ⟨_, rfl, rfl, .inl rfl, rfl, rfl, rfl⟩
  obtain ⟨s, hst, hclosed, hshutdown, hsubmit, hanswer, hlen⟩ := hclose
  have hr := exBusy_reachable.any.step trivial hst
  obtain ⟨_, _, hrest⟩ := shutdown_graceful SpeechServer.exHelloLib_documented hr hclosed
  obtain ⟨t, hreaches, _, hreturned, _, hanswers⟩ := hrest hshutdown
  exact ⟨s, t, hr, hclosed, .inr hsubmit, hanswer, hreaches, hreturned, hanswers 0 (by omega)⟩

end Service
end VoxtralServer
