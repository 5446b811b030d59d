import VoxtralServer.Pool.Delivery
import VoxtralServer.Server.Response

/-!
# The lifecycle of the server

`TtsServer` between its calls of `initialize` and `shutdown`, which come one
after the other. The pool runs all the time: threads call `submit` and the worker
works, also while `shutdown` is under way. The readiness of the backend changes
at any time, and the construction of the pool may fail.

* `reachable_sound`: the server is initialized exactly when its pool accepts.
* `lifecycle_agrees`: both forms of readiness agree, a failed `initialize` changes
  nothing, no job is accepted after `shutdown`, and repeated calls do nothing.
-/

namespace VoxtralServer

/-! ## The server -/

/-- The constructor of `InferencePool` checks what it keeps of the configuration. -/
def InferencePool.Params.ofConfig (cfg : ServerConfig) : Option InferencePool.Params :=
  if h : 1 ≤ cfg.maxQueueDepth ∧ 1 ≤ cfg.requestTimeoutSeconds then
    some { maxQueueDepth := cfg.maxQueueDepth
           requestTimeoutSeconds := cfg.requestTimeoutSeconds
           depth_pos := h.1
           timeout_pos := h.2 }
  else none

/-- The steps of a call of `InferencePool::shutdown`. -/
def InferencePool.Act.ofShutdown {κ : Type} : InferencePool.Act κ → Bool
  | .close | .notifyAll | .join => true
  | _ => false

/-- A pool with its parameters. -/
structure ServerPool (κ : Type) where
  params : InferencePool.Params
  state : InferencePool κ

/-- `TtsServer`: its backend, null or with its readiness, its pool, and its flag. -/
structure TtsServer (κ : Type) where
  backend : Option Bool := none
  pool : Option (ServerPool κ) := none
  initialized : Bool := false

namespace TtsServer

variable {κ : Type}

/-- `initialize`, and whether it succeeds. The thread of the pool may not start.
A pool from before, which is shut down, is destroyed. -/
def initializeServer (cfg : ServerConfig) (s : TtsServer κ) (threadStarts : Bool) (now : Int) :
    Bool × TtsServer κ :=
  if s.initialized then (true, s)
  else
    match s.backend with
    | none => (false, s)
    | some false => (false, s)
    | some true =>
      match InferencePool.Params.ofConfig cfg, threadStarts with
      | some params, true =>
        (true, { s with pool := some ⟨params, { clock := now }⟩, initialized := true })
      | _, _ => (false, s)

/-- `shutdown`, when the pool takes the steps `acts` during the call. -/
def shutdown (s : TtsServer κ) (acts : List (InferencePool.Act κ)) : Option (TtsServer κ) :=
  if !s.initialized then some s
  else
    match s.pool with
    | none => some { s with initialized := false }
    | some pool =>
      match (InferencePool.system pool.params κ).run System.Any pool.state acts with
      | none => none
      | some state =>
        if state.shutdown = .returned then
          some { s with pool := some { pool with state := state }, initialized := false }
        else none

/-- `is_ready`. -/
def isReady (s : TtsServer κ) : Bool :=
  s.initialized && s.backend.getD false && s.pool.elim false fun pool => pool.state.accepting

/-- `make_deps`: the catalog and the configuration. -/
def makeDeps (cfg : ServerConfig) (catalog : VoiceCatalog) : HandlerDeps where
  voiceCatalog := some catalog
  config := some cfg

/-- `make_deps`: what `handle_ready` reads of the backend and the pool. -/
def readyView (s : TtsServer κ) : ServerView where
  modelLoaded := s.backend.getD false
  poolReady := s.pool.map fun pool => (pool.state.accepting, intOfSize pool.state.queue.length)

/-- `submit` of the server's pool has accepted the job. -/
def Accepted (s : TtsServer κ) (id : Nat) : Prop :=
  ∃ pool, s.pool = some pool ∧ pool.state.Accepted id

/-- The calls, a change of the backend, and a step of the pool outside a call. -/
inductive Act (κ : Type)
  | initializeServer (threadStarts : Bool) (now : Int)
  | shutdown (acts : List (InferencePool.Act κ))
  | backendChanges (ready : Bool)
  | pool (a : InferencePool.Act κ)

def step (cfg : ServerConfig) (s : TtsServer κ) : Act κ → Option (TtsServer κ)
  | .initializeServer threadStarts now => some (s.initializeServer cfg threadStarts now).2
  | .shutdown acts => s.shutdown acts
  | .backendChanges ready => s.backend.map fun _ => { s with backend := some ready }
  | .pool a =>
    match s.pool with
    | none => none
    | some pool =>
      if a.ofShutdown then none
      else
        (InferencePool.step pool.params pool.state a).map fun state =>
          { s with pool := some { pool with state := state } }

/-- All sequences of calls on a server that was constructed with some backend. -/
def system (cfg : ServerConfig) (κ : Type) : System (TtsServer κ) (Act κ) where
  init s := ∃ backend, s = { backend := backend }
  step := step cfg

/-! ## What the calls do -/

variable {cfg : ServerConfig} {s s' : TtsServer κ}

/-- The outcomes of `initialize`. -/
theorem initializeServer_cases (cfg : ServerConfig) (s : TtsServer κ) (threadStarts : Bool)
    (now : Int) :
    (s.initialized = true ∧ s.initializeServer cfg threadStarts now = (true, s)) ∨
    (s.initialized = false ∧ s.initializeServer cfg threadStarts now = (false, s)) ∨
    (s.initialized = false ∧ ∃ params, s.initializeServer cfg threadStarts now =
      (true, { s with pool := some ⟨params, { clock := now }⟩, initialized := true })) := by
  unfold initializeServer
  cases hinit : s.initialized with
  | true => exact .inl ⟨rfl, rfl⟩
  | false =>
    refine .inr ?_
    simp only [Bool.false_eq_true, if_false, true_and]
    split
    · exact .inl rfl
    · exact .inl rfl
    · split
      · exact .inr ⟨_, rfl⟩
      · exact .inl rfl

/-- The outcomes of `shutdown`. -/
theorem shutdown_cases {acts : List (InferencePool.Act κ)} (h : s.shutdown acts = some s') :
    (s.initialized = false ∧ s' = s) ∨
    (s.initialized = true ∧ s.pool = none ∧ s' = { s with initialized := false }) ∨
    ∃ pool state, s.pool = some pool ∧
      (InferencePool.system pool.params κ).Reaches System.Any pool.state state ∧
      state.shutdown = .returned ∧
      s' = { s with pool := some { pool with state := state }, initialized := false } := by
  unfold shutdown at h
  cases hinit : s.initialized with
  | false =>
    simp only [hinit, Bool.not_false, if_true, Option.some.injEq] at h
    exact .inl ⟨rfl, h.symm⟩
  | true =>
    refine .inr ?_
    simp only [hinit, Bool.not_true, Bool.false_eq_true, if_false] at h
    split at h
    · next hpool =>
      cases h
      exact .inl ⟨rfl, hpool, rfl⟩
    · next pool hpool =>
      split at h
      · cases h
      · next state hrun =>
        split at h
        · next hreturned =>
          cases h
          exact .inr ⟨pool, state, hpool, System.reaches_of_run acts hrun, hreturned, rfl⟩
        · cases h

/-- What the steps are. -/
inductive Moves (cfg : ServerConfig) (s : TtsServer κ) : Act κ → TtsServer κ → Prop
  | initializeServer {threadStarts : Bool} {now : Int} :
      Moves cfg s (.initializeServer threadStarts now) (s.initializeServer cfg threadStarts now).2
  | shutdown {acts : List (InferencePool.Act κ)} {s' : TtsServer κ} : s.shutdown acts = some s' →
      Moves cfg s (.shutdown acts) s'
  | backendChanges {ready : Bool} :
      Moves cfg s (.backendChanges ready) { s with backend := some ready }
  | pool {a : InferencePool.Act κ} {pool : ServerPool κ} {state : InferencePool κ} :
      s.pool = some pool → a.ofShutdown = false →
      (InferencePool.system pool.params κ).step pool.state a = some state →
      Moves cfg s (.pool a) { s with pool := some { pool with state := state } }

theorem step_moves {a : Act κ} (h : (system cfg κ).step s a = some s') : Moves cfg s a s' := by
  cases a with
  | initializeServer threadStarts now =>
    cases h
    exact .initializeServer
  | shutdown acts => exact .shutdown h
  | backendChanges ready =>
    obtain ⟨_, _, rfl⟩ := Option.map_eq_some_iff.mp h
    exact .backendChanges
  | pool a =>
    simp only [system, step] at h
    split at h
    · cases h
    next pool hpool =>
    split at h
    · cases h
    next hact =>
    obtain ⟨state, hstate, rfl⟩ := Option.map_eq_some_iff.mp h
    exact .pool hpool (by simpa using hact) hstate

/-! ## The invariant -/

/-- The pool runs as a pool does, and it accepts exactly when the server is
initialized. -/
structure Sound (s : TtsServer κ) : Prop where
  reachable : ∀ pool, s.pool = some pool →
    (InferencePool.system pool.params κ).Reachable System.Any pool.state
  initialized : s.initialized = true ↔ ∃ pool, s.pool = some pool ∧ pool.state.accepting = true

/-- Only a call of `shutdown` closes a pool. -/
theorem accepting_of_step {p : InferencePool.Params} {state state' : InferencePool κ}
    {a : InferencePool.Act κ} (h : (InferencePool.system p κ).step state a = some state')
    (ha : a.ofShutdown = false) : state'.accepting = state.accepting := by
  cases InferencePool.step_moves h with
  | close => cases ha
  | _ => rfl

theorem sound_step {a : Act κ} (hs : s.Sound) (h : Moves cfg s a s') : s'.Sound := by
  cases h with
  | @initializeServer threadStarts now =>
    rcases initializeServer_cases cfg s threadStarts now with
      ⟨_, heq⟩ | ⟨_, heq⟩ | ⟨_, params, heq⟩
    · rwa [heq]
    · rwa [heq]
    · rw [heq]
      refine ⟨?_, iff_of_true rfl ⟨_, rfl, rfl⟩⟩
      rintro pool ⟨⟩
      exact .init ⟨now, rfl⟩
  | shutdown hshutdown =>
    rcases shutdown_cases hshutdown with ⟨_, rfl⟩ | ⟨_, hpool, rfl⟩ |
      ⟨pool, state, hpool, hreaches, hreturned, rfl⟩
    · exact hs
    · refine ⟨hs.reachable, iff_of_false Bool.false_ne_true ?_⟩
      rintro ⟨pool, hsome, _⟩
      rw [show s.pool = some pool from hsome] at hpool
      cases hpool
    · have hreach := (hs.reachable pool hpool).trans hreaches
      -- a call of the pool's `shutdown` that has returned has closed it
      have hclosed := (InferencePool.reachable_closed hreach).closing (by simp [hreturned])
      refine ⟨?_, iff_of_false Bool.false_ne_true ?_⟩
      · rintro _ ⟨⟩
        exact hreach
      · rintro ⟨_, ⟨⟩, haccepting⟩
        rw [show state.accepting = true from haccepting] at hclosed
        cases hclosed
  | backendChanges => exact ⟨hs.reachable, hs.initialized⟩
  | @pool a pool state hpool hact hstate =>
    refine ⟨?_, hs.initialized.trans ?_⟩
    · rintro _ ⟨⟩
      exact (hs.reachable pool hpool).step trivial hstate
    · simp only [hpool, Option.some.injEq, exists_eq_left', accepting_of_step hstate hact]

theorem reachable_sound (h : (system cfg κ).Reachable System.Any s) : s.Sound := by
  refine System.reachable_inv (I := Sound) ?_
    (fun s a t hs _ hst => sound_step hs (step_moves hst)) h
  rintro s ⟨backend, rfl⟩
  refine ⟨?_, iff_of_false Bool.false_ne_true ?_⟩
  · rintro pool ⟨⟩
  · rintro ⟨pool, ⟨⟩, _⟩

/-! ## Between the calls -/

/-- No call of `initialize` succeeds. -/
def NoSuccess (cfg : ServerConfig) (s : TtsServer κ) : Act κ → Prop
  | .initializeServer threadStarts now => (s.initializeServer cfg threadStarts now).1 = false
  | _ => True

/-- `shutdown` is not called. -/
def NoShutdown (_ : TtsServer κ) : Act κ → Prop
  | .shutdown _ => False
  | _ => True

/-- A call of `initialize` that fails changes nothing. -/
theorem initializeServer_failed {threadStarts : Bool} {now : Int}
    (h : (s.initializeServer cfg threadStarts now).1 = false) :
    (s.initializeServer cfg threadStarts now).2 = s := by
  rcases initializeServer_cases cfg s threadStarts now with
    ⟨_, heq⟩ | ⟨_, heq⟩ | ⟨_, params, heq⟩
  · rw [heq]
  · rw [heq]
  · rw [heq] at h
    cases h

theorem initializeServer_again (h : s.initialized = true) (threadStarts : Bool) (now : Int) :
    s.initializeServer cfg threadStarts now = (true, s) := by
  simp [initializeServer, h]

theorem initializeServer_initialized {threadStarts : Bool} {now : Int}
    (h : s.initializeServer cfg threadStarts now = (true, s')) : s'.initialized = true := by
  rcases initializeServer_cases cfg s threadStarts now with
    ⟨hinit, heq⟩ | ⟨_, heq⟩ | ⟨_, params, heq⟩
  · cases heq ▸ h
    exact hinit
  · cases heq ▸ h
  · cases heq ▸ h
    rfl

/-- A server that is initialized stays so until `shutdown` is called. -/
theorem stays_initialized (hinit : s.initialized = true)
    (h : (system cfg κ).Reaches NoShutdown s s') : s'.initialized = true := by
  refine System.reaches_inv (I := fun t => t.initialized = true) ?_ h hinit
  intro t a u htinit hguard hst
  cases step_moves hst with
  | @initializeServer threadStarts now =>
    rw [initializeServer_again htinit threadStarts now]
    exact htinit
  | shutdown => cases hguard
  | backendChanges => exact htinit
  | pool => exact htinit

theorem shutdown_shut (h : s.initialized = false) (acts : List (InferencePool.Act κ)) :
    s.shutdown acts = some s := by
  simp [shutdown, h]

theorem shutdown_initialized {acts : List (InferencePool.Act κ)} (h : s.shutdown acts = some s') :
    s'.initialized = false := by
  rcases shutdown_cases h with ⟨hinit, rfl⟩ | ⟨_, _, rfl⟩ | ⟨_, _, _, _, _, rfl⟩
  · exact hinit
  · rfl
  · rfl

theorem accepted_iff_of_pool {pool : ServerPool κ} (h : s.pool = some pool) {id : Nat} :
    s.Accepted id ↔ pool.state.Accepted id := by
  rw [Accepted, h]
  simp only [Option.some.injEq, exists_eq_left']

/-- A server that is not initialized stays so and accepts no job, until a call of
`initialize` succeeds. -/
theorem stays_shut (hs : s.Sound) (hshut : s.initialized = false)
    (h : (system cfg κ).Reaches (NoSuccess cfg) s s') :
    s'.initialized = false ∧ ∀ id, s'.Accepted id → s.Accepted id := by
  refine (System.reaches_inv (I := fun t => t.Sound ∧ t.initialized = false ∧
    ∀ id, t.Accepted id → s.Accepted id) ?_ h ⟨hs, hshut, fun _ hid => hid⟩).2
  rintro t a u ⟨htsound, htshut, hold⟩ hguard hst
  have hmove := step_moves hst
  refine ⟨sound_step htsound hmove, ?_⟩
  cases hmove with
  | initializeServer =>
    rw [initializeServer_failed hguard]
    exact ⟨htshut, hold⟩
  | shutdown hcall =>
    rw [shutdown_shut htshut _] at hcall
    cases hcall
    exact ⟨htshut, hold⟩
  | backendChanges => exact ⟨htshut, hold⟩
  | @pool a pool state hpool _ hstate =>
    have hclosed : pool.state.accepting = false := by
      rw [Bool.eq_false_iff]
      intro haccepting
      rw [htsound.initialized.mpr ⟨pool, hpool, haccepting⟩] at htshut
      cases htshut
    have hlater := (InferencePool.closed_forever (.one trivial hstate) hclosed).2
    exact ⟨htshut, fun id hid => hold id ((accepted_iff_of_pool hpool).mpr
      (hlater id ((accepted_iff_of_pool rfl).mp hid)))⟩

/-! ## Agreement -/

/-- A server whose pool accepts is initialized, so `is_ready` tests nothing that
`handle_ready` does not. -/
theorem isReady_iff (hs : s.Sound) : s.isReady = true ↔
    s.readyView.modelLoaded = true ∧ s.readyView.poolReady.elim false Prod.fst = true := by
  cases hpool : s.pool with
  | none => simp [isReady, readyView, hpool]
  | some pool =>
    simp only [isReady, readyView, hpool, Option.elim_some, Option.map_some, Bool.and_eq_true]
    constructor
    · rintro ⟨⟨_, hbackend⟩, haccepting⟩
      exact ⟨hbackend, haccepting⟩
    · rintro ⟨hbackend, haccepting⟩
      exact ⟨⟨hs.initialized.mpr ⟨pool, hpool, haccepting⟩, hbackend⟩, haccepting⟩

/-- **Lifecycle.** In every state that a sequence of calls reaches

* the server is initialized exactly when it has a pool that accepts;
* `is_ready` holds exactly when `handle_ready` answers 200;
* an `initialize` that fails changes nothing;
* after a `shutdown` no job is accepted until an `initialize` succeeds, and until
  then a further `shutdown` changes nothing;
* after an `initialize` that succeeds, a further one changes nothing until
  `shutdown` is called. -/
theorem lifecycle_agrees {lib : JsonLib} (hlib : lib.Documented) (catalog : VoiceCatalog)
    (h : (system cfg κ).Reachable System.Any s) :
    (s.initialized = true ↔ ∃ pool, s.pool = some pool ∧ pool.state.accepting = true) ∧
    (s.isReady = true ↔ ∃ resp,
      handleReady lib (makeDeps cfg catalog) s.readyView = .ok resp ∧ resp.status = 200) ∧
    (∀ threadStarts now, (s.initializeServer cfg threadStarts now).1 = false →
      (s.initializeServer cfg threadStarts now).2 = s) ∧
    (∀ acts s', s.shutdown acts = some s' →
      ∀ s'', (system cfg κ).Reaches (NoSuccess cfg) s' s'' →
        (∀ id, s''.Accepted id → s'.Accepted id) ∧ ∀ acts', s''.shutdown acts' = some s'') ∧
    (∀ threadStarts now s', s.initializeServer cfg threadStarts now = (true, s') →
      ∀ s'', (system cfg κ).Reaches NoShutdown s' s'' →
        ∀ threadStarts' now', s''.initializeServer cfg threadStarts' now' = (true, s'')) := by
  have hs := reachable_sound h
  refine ⟨hs.initialized, (isReady_iff hs).trans (handleReady_status hlib).symm,
    fun _ _ => initializeServer_failed, ?_, ?_⟩
  · intro acts s' hcall s'' hreaches
    have hmove : Moves cfg s (.shutdown acts) s' := .shutdown hcall
    have hs' := sound_step hs hmove
    obtain ⟨hshut, hold⟩ := stays_shut hs' (shutdown_initialized hcall) hreaches
    exact ⟨hold, shutdown_shut hshut⟩
  · intro threadStarts now s' hcall s'' hreaches
    exact initializeServer_again
      (stays_initialized (initializeServer_initialized hcall) hreaches)

/-- The calls fail once, succeed, shut the server down while a job is refused,
and start it again. -/
def exLifecycle : List (Act Bool) :=
  [.initializeServer false 0, .initializeServer true 0, .pool (.stamp 0 InferencePool.exJob 0),
   .shutdown [.close, .lock 0, .notifyAll, .poll, .join], .backendChanges false,
   .initializeServer true 1, .backendChanges true, .initializeServer true 1]

/-- In the end the server is ready. -/
theorem lifecycle_agrees_restart : ∃ s : TtsServer Bool,
    (system {} Bool).Reachable System.Any s ∧ s.initialized = true ∧
    (∃ pool, s.pool = some pool ∧ pool.state.accepting = true) ∧
    ∃ resp, handleReady (exJson []) (makeDeps {} {}) s.readyView = .ok resp ∧
      resp.status = 200 := by
  obtain ⟨s, hrun, hreach⟩ :=
    System.exists_reachable (S := system {} Bool) (G := System.Any) exLifecycle ⟨some true, rfl⟩
      (by decide)
  obtain ⟨hinit, hready, _⟩ :=
    lifecycle_agrees (exJson_documented (List.forall_mem_nil _)) {} hreach
  cases hrun
  exact ⟨_, hreach, rfl, hinit.mp rfl, hready.mp rfl⟩

end TtsServer
end VoxtralServer
