import Mathlib.Data.Finset.Option
import VoxtralServer.Backend.Engine

/-!
# The resources of the engine

The life of a `VoxtralBackend` up to its destruction: any sequence of calls, with
any outcome of the path checks, of the engine and of building the WAV file. A
pointer that the engine returns is not one that is still allocated.

* `step_lost`: what each call does to the pointers that nothing will release.
* `released_once`: the runs in which contexts and buffers are released once.
* `resources_leaked`: a second load, and a WAV file that throws.
-/

namespace VoxtralServer

open Ownership

/-- What the engine allocates. -/
inductive Resource
  | context (p : Pointer)
  | buffer (p : Pointer)
deriving DecidableEq, Repr

namespace EngineCall

/-- What the call returns. -/
def returned : EngineCall → Option Resource
  | .load _ ctx => ctx.map .context
  | .generate _ _ _ samples => samples.map .buffer
  | _ => none

/-- What the call does to contexts and buffers. -/
def ops : EngineCall → List (Op Resource)
  | .load _ ctx => ctx.toList.map fun p => .acquire (.context p)
  | .ttsFree ctx => [.release (.context ctx)]
  | .generate ctx _ _ samples =>
    (ctx.toList.map fun p => .use (.context p)) ++
      samples.toList.map fun p => .acquire (.buffer p)
  | .free samples => [.release (.buffer samples)]

end EngineCall

/-- A backend and the calls it has made. -/
structure EngineRun where
  backend : EngineBackend := {}
  calls : List EngineCall := []
deriving DecidableEq, Repr

namespace EngineRun

/-- The trace of the resources. -/
def trace (calls : List EngineCall) : List (Op Resource) := calls.flatMap EngineCall.ops

/-- The resources that are allocated. -/
def held (s : EngineRun) : Finset Resource := (applyAll ∅ (trace s.calls)).getD ∅

/-- The calls up to the destruction of the backend. -/
def ended (s : EngineRun) : List EngineCall := s.calls ++ s.backend.destroy

/-- A call of the backend, with what it meets. -/
inductive Act
  | initializeBackend (modelPath : Str) (status : PathStatus) (loaded : Option Pointer)
  | synthesize (request : SynthesisRequest) (reply : EngineReply)

/-- The calls that the backend makes, and the backend it becomes. -/
def outcome (b : EngineBackend) : Act → List EngineCall × EngineBackend
  | .initializeBackend modelPath status loaded =>
    let (calls, _, b') := b.initializeBackend modelPath status loaded
    (calls, b')
  | .synthesize request reply => ((b.synthesize request reply).1, b)

/-- What the calls return is not allocated. -/
def fresh (held : Finset Resource) (calls : List EngineCall) : Bool :=
  calls.all fun call => call.returned.all fun r => decide (r ∉ held)

/-- One call. A run goes on after a result that is undefined, as if the backend had
freed the buffer and returned. -/
def step (s : EngineRun) (a : Act) : Option EngineRun :=
  let (calls, b') := outcome s.backend a
  if fresh s.held calls then some { backend := b', calls := s.calls ++ calls } else none

/-- All sequences of calls on a new backend. -/
def system : System EngineRun Act where
  init s := s = {}
  step := step

/-- A load finds no context, and no WAV file throws after the engine's samples. -/
def Careful (s : EngineRun) : Act → Prop
  | .initializeBackend modelPath status loaded =>
    PathStatus.passes status modelPath = true → loaded.isSome = true → s.backend.ctx = none
  | .synthesize _ reply => s.backend.initialized = true → s.backend.useRealEngine = true →
      reply.failed = false → reply.thrown = none

instance (s : EngineRun) (a : Act) : Decidable (Careful s a) :=
  match a with
  | .initializeBackend .. => inferInstanceAs (Decidable (_ → _ → _))
  | .synthesize .. => inferInstanceAs (Decidable (_ → _ → _ → _))

/-! ## What the calls do -/

/-- The context that the backend will free. -/
def owned (b : EngineBackend) : Finset Resource := (b.ctx.map .context).toFinset

/-- The allocated resources are the context that the backend will free and the
lost ones, which nothing will release. -/
structure Loses (s : EngineRun) (lost : Finset Resource) : Prop where
  held : applyAll ∅ (trace s.calls) = some (owned s.backend ∪ lost)
  apart : Disjoint (owned s.backend) lost
  engine : s.backend.useRealEngine = true → ∃ p, s.backend.ctx = some p

variable {s t u : EngineRun} {a : Act} {lost : Finset Resource}

theorem fresh_cons {held : Finset Resource} {call : EngineCall} {calls : List EngineCall}
    (h : fresh held (call :: calls) = true) {r : Resource} (hr : call.returned = some r) :
    r ∉ held := by
  rw [fresh, List.all_cons, hr, Bool.and_eq_true] at h
  simpa using h.1

theorem Loses.held_eq (h : s.Loses lost) : s.held = owned s.backend ∪ lost := by
  rw [EngineRun.held, h.held, Option.getD_some]

/-- Further calls start from what is allocated. -/
theorem Loses.applyAll_append (h : s.Loses lost) (calls : List EngineCall) :
    applyAll ∅ (trace (s.calls ++ calls)) =
      applyAll (owned s.backend ∪ lost) (trace calls) := by
  have happend : trace (s.calls ++ calls) = trace s.calls ++ trace calls := List.flatMap_append
  rw [happend, Ownership.applyAll_append, h.held, Option.bind_some]

/-- Loading a context loses the one that the backend had. -/
theorem loses_load (h : s.Loses lost) {path : CString} {loaded : Option Pointer}
    (hfresh : fresh s.held [.load path loaded] = true) {b' : EngineBackend}
    (hctx : b'.ctx = (loaded <|> s.backend.ctx)) (hreal : b'.useRealEngine = loaded.isSome) :
    Loses { backend := b', calls := s.calls ++ [.load path loaded] }
      ((if loaded.isSome then owned s.backend else ∅) ∪ lost) := by
  cases loaded with
  | none =>
    have howned : owned b' = owned s.backend := by
      rw [owned, hctx]
      rfl
    refine ⟨?_, ?_, fun hr => ?_⟩
    · simpa [howned, trace, EngineCall.ops] using h.held
    · simpa [howned] using h.apart
    · rw [hreal] at hr
      cases hr
  | some p =>
    have howned : owned b' = {.context p} := by
      rw [owned, hctx]
      rfl
    have hnew : Resource.context p ∉ owned s.backend ∪ lost := h.held_eq ▸ fresh_cons hfresh rfl
    refine ⟨?_, ?_, fun _ => ⟨p, hctx⟩⟩
    · have hops : trace [.load path (some p)] = [.acquire (.context p)] := rfl
      rw [h.applyAll_append, hops, howned]
      simp [applyAll, apply_acquire hnew]
    · rw [howned]
      simpa using hnew

/-- The engine's samples are lost unless they are freed. -/
theorem loses_generate (h : s.Loses lost) (hreal : s.backend.useRealEngine = true)
    {text voice : CString} {samples : Option Pointer} {freed : Bool} {calls : List EngineCall}
    (hcalls : calls = .generate s.backend.ctx text voice samples ::
      if freed then samples.toList.map .free else [])
    (hfresh : fresh s.held calls = true) :
    Loses { backend := s.backend, calls := s.calls ++ calls }
      ((if freed then ∅ else (samples.map .buffer).toFinset) ∪ lost) := by
  obtain ⟨ctx, hctx⟩ := h.engine hreal
  have huse : apply (owned s.backend ∪ lost) (.use (.context ctx)) =
      some (owned s.backend ∪ lost) := apply_use (by simp [owned, hctx])
  subst hcalls
  cases samples with
  | none =>
    refine ⟨?_, by simpa using h.apart, h.engine⟩
    rw [h.applyAll_append]
    cases freed <;> simp [trace, EngineCall.ops, hctx, applyAll, huse]
  | some p =>
    have hnew : Resource.buffer p ∉ owned s.backend ∪ lost := h.held_eq ▸ fresh_cons hfresh rfl
    cases freed with
    | true =>
      refine ⟨?_, by simpa using h.apart, h.engine⟩
      have hops : trace (.generate s.backend.ctx text voice (some p) :: [.free p]) =
          [.use (.context ctx), .acquire (.buffer p), .release (.buffer p)] := by
        simp [trace, EngineCall.ops, hctx]
      rw [h.applyAll_append]
      simp [hops, applyAll, huse, apply_acquire hnew, apply_release_insert hnew]
    | false =>
      refine ⟨?_, ?_, h.engine⟩
      · have hops : trace [.generate s.backend.ctx text voice (some p)] =
            [.use (.context ctx), .acquire (.buffer p)] := by
          simp [trace, EngineCall.ops, hctx]
        rw [h.applyAll_append]
        simp [hops, applyAll, huse, apply_acquire hnew]
      · have hbuffer : Resource.buffer p ∉ owned s.backend :=
          fun hmem => hnew (Finset.mem_union_left _ hmem)
        simpa [hbuffer] using h.apart

/-- **What a step loses.** It loses nothing exactly when it is careful, and what is
lost stays lost. -/
theorem step_lost (h : s.Loses lost) (hst : system.step s a = some t) :
    ∃ gone, t.Loses (gone ∪ lost) ∧ (Careful s a ↔ gone = ∅) := by
  simp only [system, step] at hst
  split at hst
  · next hfresh =>
    cases hst
    cases a with
    | initializeBackend modelPath status loaded =>
      simp only [outcome, EngineBackend.initializeBackend_eq] at hfresh ⊢
      cases hpass : status.passes modelPath with
      | false =>
        refine ⟨∅, ?_, iff_of_true (fun hp => absurd hp (by simp [hpass])) rfl⟩
        simpa using h
      | true =>
        rw [hpass] at hfresh
        refine ⟨_, loses_load h hfresh rfl rfl, ?_⟩
        simp only [Careful, hpass, true_implies]
        cases loaded with
        | none => simp
        | some p => cases hctx : s.backend.ctx <;> simp [owned, hctx]
    | synthesize request reply =>
      cases hengine : s.backend.initialized && s.backend.useRealEngine with
      | false =>
        refine ⟨∅, ?_, iff_of_true (fun hinit hreal => ?_) rfl⟩
        · simpa [outcome, EngineBackend.synthesize_stub hengine] using h
        · simp [hinit, hreal] at hengine
      | true =>
        obtain ⟨hinit, hreal⟩ := Bool.and_eq_true_iff.mp hengine
        have hcalls := EngineBackend.synthesize_calls hinit hreal request reply
        refine ⟨_, loses_generate h hreal hcalls hfresh, ?_⟩
        simp only [Careful, hinit, hreal, true_implies]
        cases hfailed : reply.failed with
        | true => simp
        | false => cases hthrown : reply.thrown <;> simp [reply.samples_of_succeeds hfailed]
  · cases hst

theorem loses_new : ({} : EngineRun).Loses ∅ := ⟨rfl, by decide, nofun⟩

/-- What is lost stays lost. -/
theorem reaches_lost (h : s.Loses lost) (hr : system.Reaches System.Any s t) :
    ∃ lost', t.Loses lost' ∧ lost ⊆ lost' := by
  refine System.reaches_inv (I := fun t => ∃ lost', t.Loses lost' ∧ lost ⊆ lost') ?_ hr
    ⟨lost, h, subset_rfl⟩
  rintro t a u ⟨lost', hlost, hsub⟩ _ hst
  obtain ⟨gone, hgone, _⟩ := step_lost hlost hst
  exact ⟨gone ∪ lost', hgone, hsub.trans Finset.subset_union_right⟩

/-- The steps of a careful run lose nothing. -/
theorem careful_lost (h : system.Reachable Careful s) : s.Loses ∅ := by
  refine System.reachable_inv (I := fun s => s.Loses ∅) ?_ ?_ h
  · rintro s rfl
    exact loses_new
  · intro s a t hs hcareful hst
    obtain ⟨gone, hgone, hiff⟩ := step_lost hs hst
    rw [hiff.mp hcareful] at hgone
    exact hgone

/-- After the destruction, what is lost is still allocated. -/
theorem Loses.ended (h : s.Loses lost) : applyAll ∅ (trace s.ended) = some lost := by
  rw [EngineRun.ended, h.applyAll_append]
  cases hctx : s.backend.ctx with
  | none => simp [EngineBackend.destroy, owned, hctx, trace, applyAll]
  | some p =>
    have hnew : Resource.context p ∉ lost := by
      simpa [owned, hctx] using h.apart
    simp [EngineBackend.destroy, owned, hctx, trace, EngineCall.ops, applyAll,
      apply_release_insert hnew]

/-- **The resources of the engine.** Every run of careful steps that ends in
destruction releases each context and each buffer exactly once, and uses none
after its release. A run with a step that is not careful never does. -/
theorem released_once (s : EngineRun) :
    (system.Reachable Careful s → ReleasedOnce (trace s.ended)) ∧
    (system.Reachable System.Any s → ∀ a t u, system.step s a = some t → ¬ Careful s a →
      system.Reaches System.Any t u → ¬ ReleasedOnce (trace u.ended)) := by
  constructor
  · intro hs
    exact Clean.releasedOnce (careful_lost hs).ended
  · rintro ⟨s₀, rfl, hreaches⟩ a t u hst hcareless hu
    obtain ⟨lost, hlost, _⟩ := reaches_lost loses_new hreaches
    obtain ⟨gone, hgone, hiff⟩ := step_lost hlost hst
    obtain ⟨r, hr⟩ := Finset.nonempty_iff_ne_empty.mpr (mt hiff.mpr hcareless)
    obtain ⟨lost', hlost', hsub⟩ := reaches_lost hgone hu
    exact not_releasedOnce hlost'.ended (hsub (Finset.mem_union_left _ hr))

def exPath : PathStatus where
  found := true
  failed := false
  regularFile := true
  directory := false

/-- The engine returns a buffer with one sample. -/
def exSample (rc : Int) (thrown : Option Str := none) : EngineReply where
  generated := ⟨rc, some [.finite 0], 1⟩
  address := 7
  inferenceTime := .finite 0
  thrown := thrown

/-- The model is not loaded at first, then it is. One call of the engine succeeds,
another one fails with a buffer. -/
def exCareful : List Act :=
  [.initializeBackend (utf8 "model") exPath none, .synthesize {} (exSample 0),
   .initializeBackend (utf8 "model") exPath (some 1), .synthesize {} (exSample 0),
   .synthesize {} (exSample 1)]

theorem released_once_careful : ∃ s, system.run Careful {} exCareful = some s ∧
    trace s.ended = [.acquire (.context 1), .use (.context 1), .acquire (.buffer 7),
      .release (.buffer 7), .use (.context 1), .acquire (.buffer 7), .release (.buffer 7),
      .release (.context 1)] ∧ ReleasedOnce (trace s.ended) := by
  obtain ⟨s, hrun, hreach⟩ :=
    System.exists_reachable (S := system) (G := Careful) exCareful rfl (by decide)
  have hreleased := (released_once s).1 hreach
  cases hrun
  exact ⟨_, rfl, rfl, hreleased⟩

/-- Two calls of `initialize` that load a context. -/
def exTwoLoads : List Act :=
  [.initializeBackend (utf8 "model") exPath (some 1),
   .initializeBackend (utf8 "model") exPath (some 2)]

/-- Building the WAV file of the engine's samples throws. -/
def exThrows : List Act :=
  [.initializeBackend (utf8 "model") exPath (some 1), .synthesize {} (exSample 0 (some []))]

/-- The first context is never freed, and neither is the buffer. -/
theorem resources_leaked :
    (∃ s, system.run System.Any {} exTwoLoads = some s ∧
      trace s.ended = [.acquire (.context 1), .acquire (.context 2), .release (.context 2)] ∧
      ¬ ReleasedOnce (trace s.ended)) ∧
    ∃ s, system.run System.Any {} exThrows = some s ∧
      trace s.ended = [.acquire (.context 1), .use (.context 1), .acquire (.buffer 7),
        .release (.context 1)] ∧
      ¬ ReleasedOnce (trace s.ended) := by
  constructor
  · refine ⟨_, rfl, rfl, fun hreleased => ?_⟩
    exact absurd (hreleased.released (.context 1)) (by decide)
  · refine ⟨_, rfl, rfl, fun hreleased => ?_⟩
    exact absurd (hreleased.released (.buffer 7)) (by decide)

end EngineRun
end VoxtralServer
