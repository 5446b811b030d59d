import Mathlib.Data.List.Basic
import VoxtralServer.Base

/-!
# Server configuration

`ServerConfig` with its defaults, and what `validate` checks.

* `validate_iff`: the configurations that pass.
-/

namespace VoxtralServer

/-- `ServerConfig`. An `int` is an integer. -/
structure ServerConfig where
  host : Str := utf8 "0.0.0.0"
  port : Int := 9090
  maxConnections : Int := 100
  modelPath : Str := []
  defaultVoice : Str := utf8 "neutral_female"
  maxQueueDepth : Int := 10
  workers : Int := 1
  maxInputChars : Int := 4096
  requestTimeoutSeconds : Int := 300
  apiKey : Str := []
  requireAuth : Bool := false
  authRateLimitMax : Int := 10
  authRateLimitWindow : Int := 60
  requestRateLimitRpm : Int := 10
  trustProxy : Bool := false
  trustedProxyHops : Int := 1
  logLevel : Str := utf8 "info"
  logFormat : Str := utf8 "text"
  configPath : Str := utf8 "config/server.toml"
deriving DecidableEq, Repr

namespace ServerConfig

/-- The levels that `validate` accepts. -/
def logLevels : List Str :=
  [utf8 "trace", utf8 "debug", utf8 "info", utf8 "warn", utf8 "error", utf8 "critical"]

/-- `validate`: the text of the `std::invalid_argument` it throws, if any. -/
def validate (cfg : ServerConfig) : Except Str Unit :=
  if cfg.port < 1 ∨ cfg.port > 65535 then
    .error (utf8 "Invalid port: must be 1-65535, got " ++ toStr cfg.port)
  else if cfg.maxConnections < 1 then
    .error (utf8 "max_connections must be >= 1")
  else if cfg.modelPath.isEmpty then
    .error (utf8 "model_path must not be empty — " ++
      utf8 "set [model].path in config or TTS_MODEL_PATH env var")
  else if cfg.maxInputChars < 1 then
    .error (utf8 "max_input_chars must be > 0")
  else if cfg.workers < 1 then
    .error (utf8 "workers must be >= 1")
  else if cfg.maxQueueDepth < 1 then
    .error (utf8 "max_queue_depth must be >= 1")
  else if cfg.requestTimeoutSeconds < 1 then
    .error (utf8 "request_timeout_seconds must be >= 1")
  else if cfg.authRateLimitMax < 1 then
    .error (utf8 "auth_rate_limit_max must be >= 1")
  else if cfg.authRateLimitWindow < 1 then
    .error (utf8 "auth_rate_limit_window must be >= 1")
  else if cfg.requestRateLimitRpm < 1 then
    .error (utf8 "request_rate_limit_rpm must be >= 1")
  else if cfg.trustedProxyHops < 1 then
    .error (utf8 "trusted_proxy_hops must be >= 1")
  else if cfg.requireAuth ∧ cfg.apiKey.isEmpty then
    .error (utf8 "TTS_REQUIRE_AUTH=true but TTS_API_KEY is empty — " ++
      utf8 "set TTS_API_KEY or disable auth with TTS_REQUIRE_AUTH=false")
  else if cfg.logLevel ∉ logLevels then
    .error (utf8 "Invalid log_level '" ++ cfg.logLevel ++
      utf8 "' — must be one of: trace, debug, info, warn, error, critical")
  else if cfg.logFormat ≠ utf8 "text" ∧ cfg.logFormat ≠ utf8 "json" then
    .error (utf8 "Invalid log_format '" ++ cfg.logFormat ++ utf8 "' — must be 'text' or 'json'")
  else
    .ok ()

/-- What `validate` makes sure of. -/
structure Valid (cfg : ServerConfig) : Prop where
  port : 1 ≤ cfg.port ∧ cfg.port ≤ 65535
  maxConnections : 1 ≤ cfg.maxConnections
  modelPath : cfg.modelPath ≠ []
  maxInputChars : 1 ≤ cfg.maxInputChars
  workers : 1 ≤ cfg.workers
  maxQueueDepth : 1 ≤ cfg.maxQueueDepth
  requestTimeoutSeconds : 1 ≤ cfg.requestTimeoutSeconds
  authRateLimitMax : 1 ≤ cfg.authRateLimitMax
  authRateLimitWindow : 1 ≤ cfg.authRateLimitWindow
  requestRateLimitRpm : 1 ≤ cfg.requestRateLimitRpm
  trustedProxyHops : 1 ≤ cfg.trustedProxyHops
  apiKey : cfg.requireAuth = true → cfg.apiKey ≠ []
  logLevel : cfg.logLevel ∈ logLevels
  logFormat : cfg.logFormat = utf8 "text" ∨ cfg.logFormat = utf8 "json"

/-- One check passes when its condition is false and the rest passes. -/
theorem check_ok {c : Prop} [Decidable c] {e : Str} {rest : Except Str Unit} :
    (if c then .error e else rest) = .ok () ↔ ¬ c ∧ rest = .ok () := by
  by_cases h : c <;> simp [h]

/-- The configurations that pass are the valid ones. -/
theorem validate_iff {cfg : ServerConfig} : cfg.validate = .ok () ↔ cfg.Valid := by
  simp only [validate, check_ok, not_or, not_and, Int.not_lt, not_not, List.isEmpty_iff, gt_iff_lt,
    ne_eq, and_true]
  constructor
  · rintro ⟨hport, hconn, hpath, hchars, hworkers, hdepth, htimeout, hmax, hwindow, hrpm, hhops,
      hkey, hlevel, hformat⟩
    exact ⟨hport, hconn, hpath, hchars, hworkers, hdepth, htimeout, hmax, hwindow, hrpm, hhops,
      hkey, hlevel, or_iff_not_imp_left.mpr hformat⟩
  · intro h
    exact ⟨h.port, h.maxConnections, h.modelPath, h.maxInputChars, h.workers, h.maxQueueDepth,
      h.requestTimeoutSeconds, h.authRateLimitMax, h.authRateLimitWindow, h.requestRateLimitRpm,
      h.trustedProxyHops, h.apiKey, h.logLevel, or_iff_not_imp_left.mp h.logFormat⟩

end ServerConfig
end VoxtralServer
