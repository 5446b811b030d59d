import VoxtralServer.Server.ServiceLimits
import VoxtralServer.Startup

/-!
# The program

The service that `main` listens with, from the command line and the environment to
the backend.

* `fromFileAndEnv_decides`: what the environment decides in any configuration.
* `program_protects`: the key and the limits of the environment hold for the work
  of the service.
-/

namespace VoxtralServer
namespace Startup

/-- A start that gets to the listener, and what it listens with. -/
structure Serving (w : World) (program : CString) (args : List CString) where
  cfg : ServerConfig
  backend : EngineBackend
  server : TtsServer Nat
  calls : List EngineCall
  pool : ServerPool Nat
  listens : start w program args = .listens cfg backend server calls
  pooled : server.pool = some pool

variable {w : World} {program : CString} {args : List CString}

/-- The service with the configuration and the pool of that start. -/
def Serving.system (m : Serving w program args) (lib : JsonLib) (catalog : VoiceCatalog) :
    System Service Service.Act :=
  Service.system lib m.cfg (TtsServer.makeDeps m.cfg catalog) m.pool.params

/-- Authentication is switched on in the environment. -/
def RequiresAuth (env : Env) : Prop :=
  ∃ value, env (utf8 "TTS_REQUIRE_AUTH") = some value ∧
    (value.bytes = utf8 "true" ∨ value.bytes = utf8 "1")

/-- The variable is a number. -/
def Names (env : Env) (name : Str) (n : Int) : Prop :=
  ∃ value, env name = some value ∧ DenotesInt value.bytes n

theorem Names.le_max {env : Env} {name : Str} {n : Int} (h : Names env name n) :
    n < 2 ^ 31 := by
  obtain ⟨_, _, _, _, hmax⟩ := h
  exact Int.lt_of_le_of_lt hmax (by decide)

/-- The pool has the depth of the configuration. -/
theorem ofConfig_maxQueueDepth {cfg : ServerConfig} {params : InferencePool.Params}
    (h : InferencePool.Params.ofConfig cfg = some params) :
    params.maxQueueDepth = cfg.maxQueueDepth := by
  unfold InferencePool.Params.ofConfig at h
  split at h <;> cases h
  rfl

/-- What the environment decides, whatever the file and its path. -/
structure Decides (env : Env) (cfg : ServerConfig) : Prop where
  apiKey : cfg.apiKey = (env (utf8 "TTS_API_KEY")).elim [] CString.bytes
  requireAuth : RequiresAuth env → cfg.requireAuth = true
  requestRateLimitRpm {n : Int} : Names env (utf8 "TTS_RATE_LIMIT_RPM") n →
    cfg.requestRateLimitRpm = n
  maxQueueDepth {n : Int} : Names env (utf8 "TTS_MAX_QUEUE_DEPTH") n → cfg.maxQueueDepth = n

theorem fromFileAndEnv_decides {file : Str → TomlFile} {env : Env} {path : Str}
    {cfg : ServerConfig} (h : ServerConfig.fromFileAndEnv file env path = some cfg) :
    Decides env cfg := by
  have happly (cfg : ServerConfig) (hkey : cfg.apiKey = []) :
      Decides env (ServerConfig.applyEnvOverrides env cfg) := by
    refine ⟨by rw [ServerConfig.applyEnvOverrides, hkey]; rfl, ?_, ?_, ?_⟩
    · rintro ⟨value, hvalue, htrue⟩
      simpa [ServerConfig.applyEnvOverrides, hvalue, ServerConfig.envBool, parseBool] using htrue
    · rintro n ⟨value, hvalue, hn⟩
      rw [ServerConfig.applyEnvOverrides, hvalue]
      exact safeAtoi_denotes hn _
    · rintro n ⟨value, hvalue, hn⟩
      rw [ServerConfig.applyEnvOverrides, hvalue]
      exact safeAtoi_denotes hn _
  unfold ServerConfig.fromFileAndEnv at h
  split at h <;> cases h <;> exact happly _ rfl

theorem Serving.decides (m : Serving w program args) : Decides w.env m.cfg := by
  obtain ⟨items, _, hcfg, _⟩ := start_listens m.listens
  exact fromFileAndEnv_decides hcfg

theorem Serving.valid (m : Serving w program args) : m.cfg.Valid :=
  let ⟨_, _, _, h⟩ := start_listens m.listens
  h.valid

theorem Serving.params (m : Serving w program args) :
    InferencePool.Params.ofConfig m.cfg = some m.pool.params := by
  obtain ⟨_, _, _, h⟩ := start_listens m.listens
  obtain ⟨params, hparams, hserver⟩ := h.server
  have hpool := m.pooled
  rw [hserver, Option.some.injEq] at hpool
  rw [← hpool]
  exact hparams

/-- **The environment protects the backend.** Whatever the command line and the file
say, in every run of the service that `main` listens with:

* with authentication switched on in the environment, the environment has a key, and
  the backend works only for requests with this key or a token confusable with it;
* no 60 seconds admit more than `2 * n - 1` requests of an address, where `n` is the
  limit in the environment;
* the queue is no longer than the depth in the environment. -/
theorem program_protects (m : Serving w program args) {lib : JsonLib} {catalog : VoiceCatalog}
    {moments : List (Service × Service.Act)} {s : Service}
    (h : (m.system lib catalog).History System.Any moments s) :
    (RequiresAuth w.env → ∃ key, w.env (utf8 "TTS_API_KEY") = some key ∧ key.bytes ≠ [] ∧
      ∀ i request, (i, .worked (.called request)) ∈ s.speech.pool.trace →
        (s.own i).header (utf8 "authorization") = bearerPrefix ++ key.bytes ∨
          ∃ token, token ≠ [] ∧
            (s.own i).header (utf8 "authorization") = bearerPrefix ++ token ∧
            Confusable token key.bytes) ∧
    (∀ n, Names w.env (utf8 "TTS_RATE_LIMIT_RPM") n → ∀ ip a,
      (Window.within (seconds 60) ((Service.admitted m.cfg ip moments).map Prod.snd) a : Int) ≤
        2 * n - 1) ∧
    ∀ n, Names w.env (utf8 "TTS_MAX_QUEUE_DEPTH") n → (s.speech.pool.queue.length : Int) ≤ n := by
  have hdecides := m.decides
  have hvalid := m.valid
  refine ⟨fun hauth => ?_, fun n hn ip a => ?_, fun n hn => ?_⟩
  · have hrequire := hdecides.requireAuth hauth
    have hkey := hvalid.apiKey hrequire
    cases hvar : w.env (utf8 "TTS_API_KEY") with
    | none =>
      rw [hdecides.apiKey, hvar] at hkey
      exact absurd rfl hkey
    | some key =>
      have hbytes : m.cfg.apiKey = key.bytes := by rw [hdecides.apiKey, hvar]; rfl
      refine ⟨key, rfl, hbytes ▸ hkey, fun i request hcall => ?_⟩
      obtain ⟨job, hjob, _, _⟩ := Service.called_pushed h.reachable hcall
      have hpass := (Service.pushed_own h.reachable hjob).1
      rw [← hbytes]
      exact Service.letThrough_authorized h hrequire hpass
  · have hload := Service.history_load h ip a
    have hone := hvalid.requestRateLimitRpm
    have hrpm := hdecides.requestRateLimitRpm hn
    have hmax := hn.le_max
    have hsize : (sizeOfInt m.cfg.requestRateLimitRpm : Int) = n := by
      rw [hrpm, sizeOfInt, Int.emod_eq_of_lt (by omega) (by omega)]
      omega
    omega
  · have hdepth := hdecides.maxQueueDepth hn
    have hmax := hn.le_max
    have hparams : m.pool.params.maxQueueDepth = n := by
      rw [← hdepth, ofConfig_maxQueueDepth m.params]
    have hbound := InferencePool.reachable_queueLength
      (SpeechServer.reachable_pool (Service.reachable_speech h.reachable)) (by omega)
    rwa [hparams] at hbound

/-- Authentication with a key, three requests a minute, and a model. -/
def exWorld : World where
  version := utf8 "0.1.0"
  env name :=
    if name = utf8 "TTS_REQUIRE_AUTH" then some (cStr (utf8 "true"))
    else if name = utf8 "TTS_API_KEY" then some (cStr (utf8 "secret"))
    else if name = utf8 "TTS_RATE_LIMIT_RPM" then some (cStr (utf8 "3"))
    else if name = utf8 "TTS_MODEL_PATH" then some (cStr (utf8 "model"))
    else none
  file _ := .absent
  status _ := { found := true, failed := false, regularFile := true, directory := false }
  load _ := some 1
  threadStarts := true
  now := 0

/-- The configuration of that environment. -/
def exConfig : ServerConfig where
  modelPath := utf8 "model"
  apiKey := utf8 "secret"
  requireAuth := true
  requestRateLimitRpm := 3

/-- With it a request with the key is let through, as one of five at most. -/
theorem program_protects_hello : ∃ (m : Serving exWorld (cStr (utf8 "voxtral-server")) [])
    (moments : List (Service × Service.Act)) (s : Service),
    (m.system SpeechServer.exHelloLib {}).History System.Any moments s ∧
    s.letThrough 0 = true ∧
    (∃ key, exWorld.env (utf8 "TTS_API_KEY") = some key ∧ key.bytes ≠ []) ∧
    (Window.within (seconds 60)
      ((Service.admitted m.cfg (utf8 "127.0.0.1") moments).map Prod.snd) 0 : Int) ≤ 2 * 3 - 1 := by
  have hstart : start exWorld (cStr (utf8 "voxtral-server")) [] =
      .listens exConfig (loadedBackend exWorld exConfig)
        { backend := some true, pool := some ⟨{}, { clock := 0 }⟩, initialized := true }
        [.load (cStr (utf8 "model")) (some 1)] := by
    rfl
  let m : Serving exWorld (cStr (utf8 "voxtral-server")) [] := ⟨_, _, _, _, _, hstart, rfl⟩
  let s₀ : Service := { gate := { limiters := .ofConfig exConfig, clock := 0 } }
  have hpasses : ((Service.system SpeechServer.exHelloLib exConfig
      (TtsServer.makeDeps exConfig {}) {}).run System.Any
        { gate := { limiters := .ofConfig exConfig, clock := 0 } } Service.exAdmitRun).map
        (fun s => s.letThrough 0) = some true := by
    decide
  obtain ⟨s, hrun, hpass⟩ := Option.map_eq_some_iff.mp hpasses
  have hhistory : (m.system SpeechServer.exHelloLib {}).History System.Any _ s :=
    ⟨s₀, ⟨0, 0, rfl⟩, System.runs_of_run _ hrun⟩
  obtain ⟨hkey, hlimit, _⟩ := program_protects m hhistory
  obtain ⟨key, hvar, hne, _⟩ := hkey ⟨_, rfl, .inl rfl⟩
  exact ⟨m, _, s, hhistory, hpass, ⟨key, hvar, hne⟩,
    hlimit 3 ⟨_, rfl, stoi_whole.mp rfl⟩ (utf8 "127.0.0.1") 0⟩

end Startup
end VoxtralServer
