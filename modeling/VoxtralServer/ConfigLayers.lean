import VoxtralServer.Config
import VoxtralServer.Lib.Numeral

/-!
# The layers of the configuration

`from_file_and_env` starts from the defaults of `ServerConfig`, reads a TOML
document over them, and the environment over that. The TOML library is not part
of the repository: a document is what `value<T>()` returns for each of its keys.

* `safeAtoi_denotes`, `safeAtoi_other`: which integer variables are usable.
* `layered`: the value of each field, for every document and environment.
-/

namespace VoxtralServer

/-! ## Integers in strings -/

/-- `INT_MIN`. -/
def intMin : Int := -2147483648

/-- `INT_MAX`. -/
def intMax : Int := 2147483647

/-- The characters that `std::stoi` knows in base 10. -/
def decimal : Numeral UInt8 where
  blank := isSpace
  plus := ('+').toUInt8
  minus := ('-').toUInt8
  digit c := if 48 ≤ c.toNat ∧ c.toNat ≤ 57 then some (c.toNat - 48) else none
  plus_ne_minus := by decide
  plus_blank := by decide
  minus_blank := by decide
  plus_digit := by decide
  minus_digit := by decide
  digit_blank c h := by
    have hc : 48 ≤ c.toNat := by
      by_contra hlt
      rw [if_neg (fun hc => hlt hc.1)] at h
      cases h
    have hne : c ≠ (' ').toUInt8 := by
      rintro rfl
      exact absurd hc (by decide)
    have hgt : ¬ c ≤ 13 := fun hle => by
      have hle : c.toNat ≤ 13 := UInt8.le_iff_toNat_le.mp hle
      omega
    simp [isSpace, hne, hgt]

/-- `std::stoi`: the number at the front of the string, and how many bytes were
read. It throws when there is no number, and when the number is not an `int`. -/
def stoi (s : Str) : Option (Int × Nat) :=
  match decimal.read 10 s with
  | none => none
  | some (n, rest) =>
    if intMin ≤ n ∧ n ≤ intMax then some (n, s.length - rest.length) else none

/-- `safe_atoi` of a pointer that is not null. -/
def safeAtoi (str : CString) (defaultVal : Int) : Int :=
  if str.bytes.isEmpty then defaultVal
  else
    match stoi str.bytes with
    | none => defaultVal
    | some (result, pos) => if pos ≠ str.bytes.length then defaultVal else result

/-- `safe_narrow`, without the name that it logs. -/
def safeNarrow (val : Int) (defaultVal : Int) : Int :=
  if val < intMin ∨ val > intMax then defaultVal else val

/-- `parse_bool` of a pointer that is not null. -/
def parseBool (str : CString) : Bool :=
  decide (str.bytes = utf8 "true") || decide (str.bytes = utf8 "1")

/-! ## The layers -/

/-- `std::getenv`. -/
abbrev Env : Type := Str → Option CString

/-- A parsed document: what `tbl[section][key].value<T>()` returns for the three
types that the configuration asks for. It returns nothing for a key that is
absent or has an incompatible type. -/
structure TomlTable where
  string : Str → Str → Option Str
  integer : Str → Str → Option Int
  boolean : Str → Str → Option Bool

/-- What is at a path: no file, one that `toml::parse_file` rejects, one that it
parses, or a path for which `std::filesystem::exists` cannot tell and throws: it is too
long, goes round in symbolic links, or through a directory that may not be searched. -/
inductive TomlFile
  | absent
  | malformed
  | parsed (tbl : TomlTable)
  | inaccessible

namespace ServerConfig

/-- A string variable, over the value so far. -/
def envString (v : Option CString) (current : Str) : Str := v.elim current CString.bytes

/-- An integer variable, over the value so far. -/
def envInt (v : Option CString) (current : Int) : Int := v.elim current (safeAtoi · current)

/-- A boolean variable, over the value so far. -/
def envBool (v : Option CString) (current : Bool) : Bool := v.elim current parseBool

/-- An integer of the document, over the value so far. -/
def tomlInt (v : Option Int) (current : Int) : Int := v.elim current (safeNarrow · current)

/-- `apply_env_overrides`. Each assignment reads and writes one field. -/
def applyEnvOverrides (env : Env) (cfg : ServerConfig) : ServerConfig where
  host := envString (env (utf8 "TTS_HOST")) cfg.host
  port := envInt (env (utf8 "TTS_PORT")) cfg.port
  maxConnections := envInt (env (utf8 "TTS_MAX_CONNECTIONS")) cfg.maxConnections
  modelPath := envString (env (utf8 "TTS_MODEL_PATH")) cfg.modelPath
  defaultVoice := envString (env (utf8 "TTS_DEFAULT_VOICE")) cfg.defaultVoice
  maxQueueDepth := envInt (env (utf8 "TTS_MAX_QUEUE_DEPTH")) cfg.maxQueueDepth
  workers := envInt (env (utf8 "TTS_WORKERS")) cfg.workers
  maxInputChars := envInt (env (utf8 "TTS_MAX_INPUT_CHARS")) cfg.maxInputChars
  requestTimeoutSeconds := envInt (env (utf8 "TTS_REQUEST_TIMEOUT")) cfg.requestTimeoutSeconds
  apiKey := envString (env (utf8 "TTS_API_KEY")) cfg.apiKey
  requireAuth := envBool (env (utf8 "TTS_REQUIRE_AUTH")) cfg.requireAuth
  authRateLimitMax := envInt (env (utf8 "TTS_AUTH_RATE_LIMIT_MAX")) cfg.authRateLimitMax
  authRateLimitWindow := envInt (env (utf8 "TTS_AUTH_RATE_LIMIT_WINDOW")) cfg.authRateLimitWindow
  requestRateLimitRpm := envInt (env (utf8 "TTS_RATE_LIMIT_RPM")) cfg.requestRateLimitRpm
  trustProxy := envBool (env (utf8 "TTS_TRUST_PROXY")) cfg.trustProxy
  trustedProxyHops := envInt (env (utf8 "TTS_TRUSTED_PROXY_HOPS")) cfg.trustedProxyHops
  logLevel := envString (env (utf8 "TTS_LOG_LEVEL")) cfg.logLevel
  logFormat := envString (env (utf8 "TTS_LOG_FORMAT")) cfg.logFormat
  configPath := envString (env (utf8 "TTS_CONFIG_PATH")) cfg.configPath

/-- The assignments after `toml::parse_file`. The key of the API is not read. -/
def applyToml (tbl : TomlTable) (cfg : ServerConfig) : ServerConfig where
  host := (tbl.string (utf8 "server") (utf8 "host")).getD cfg.host
  port := tomlInt (tbl.integer (utf8 "server") (utf8 "port")) cfg.port
  maxConnections :=
    tomlInt (tbl.integer (utf8 "server") (utf8 "max_connections")) cfg.maxConnections
  modelPath := (tbl.string (utf8 "model") (utf8 "path")).getD cfg.modelPath
  defaultVoice := (tbl.string (utf8 "model") (utf8 "default_voice")).getD cfg.defaultVoice
  maxQueueDepth :=
    tomlInt (tbl.integer (utf8 "inference") (utf8 "max_queue_depth")) cfg.maxQueueDepth
  workers := tomlInt (tbl.integer (utf8 "inference") (utf8 "workers")) cfg.workers
  maxInputChars :=
    tomlInt (tbl.integer (utf8 "inference") (utf8 "max_input_chars")) cfg.maxInputChars
  requestTimeoutSeconds :=
    tomlInt (tbl.integer (utf8 "inference") (utf8 "request_timeout_seconds"))
      cfg.requestTimeoutSeconds
  apiKey := cfg.apiKey
  requireAuth := (tbl.boolean (utf8 "auth") (utf8 "require_auth")).getD cfg.requireAuth
  authRateLimitMax :=
    tomlInt (tbl.integer (utf8 "auth") (utf8 "rate_limit_max")) cfg.authRateLimitMax
  authRateLimitWindow :=
    tomlInt (tbl.integer (utf8 "auth") (utf8 "rate_limit_window")) cfg.authRateLimitWindow
  requestRateLimitRpm :=
    tomlInt (tbl.integer (utf8 "auth") (utf8 "request_rate_limit_rpm")) cfg.requestRateLimitRpm
  trustProxy := (tbl.boolean (utf8 "auth") (utf8 "trust_proxy")).getD cfg.trustProxy
  trustedProxyHops :=
    tomlInt (tbl.integer (utf8 "auth") (utf8 "trusted_proxy_hops")) cfg.trustedProxyHops
  logLevel := (tbl.string (utf8 "logging") (utf8 "level")).getD cfg.logLevel
  logFormat := (tbl.string (utf8 "logging") (utf8 "format")).getD cfg.logFormat
  configPath := cfg.configPath

/-- `ServerConfig::from_file_and_env`. `parse_file` throws before the first
assignment, which is caught. The call of `exists` is outside the `try`: when it throws,
so does the function. -/
def fromFileAndEnv (file : Str → TomlFile) (env : Env) (configPath : Str) :
    Option ServerConfig :=
  let cfg : ServerConfig := { configPath := configPath }
  match file configPath with
  | .parsed tbl => some (applyEnvOverrides env (applyToml tbl cfg))
  | .malformed => some (applyEnvOverrides env cfg)
  | .absent => some (applyEnvOverrides env cfg)
  | .inaccessible => none

end ServerConfig

/-! ## Usable variables -/

/-- The whole string is a decimal numeral of an `int`, with optional white space
and an optional sign in front. -/
def DenotesInt (s : Str) (n : Int) : Prop := decimal.Denotes 10 s n ∧ intMin ≤ n ∧ n ≤ intMax

theorem stoi_whole {s : Str} {n : Int} : stoi s = some (n, s.length) ↔ DenotesInt s n := by
  rw [DenotesInt, ← Numeral.read_whole]
  unfold stoi
  cases hr : decimal.read 10 s with
  | none => simp
  | some r =>
    obtain ⟨m, rest⟩ := r
    have hle := Numeral.read_suffix hr
    -- everything is read when nothing is left
    have hpos : s.length - rest.length = s.length ↔ rest = [] := by
      rw [← List.length_eq_zero_iff]
      omega
    dsimp only
    split
    · next hrange =>
      simp only [Option.some.injEq, Prod.mk.injEq, hpos]
      exact ⟨fun ⟨hm, hrest⟩ => ⟨⟨hm, hrest⟩, hm ▸ hrange⟩, fun h => h.1⟩
    · next hrange =>
      simp only [reduceCtorEq, Option.some.injEq, Prod.mk.injEq, false_iff]
      rintro ⟨⟨rfl, _⟩, h⟩
      exact hrange h

/-- A usable integer variable is read. -/
theorem safeAtoi_denotes {str : CString} {n : Int} (h : DenotesInt str.bytes n) (d : Int) :
    safeAtoi str d = n := by
  have hne : str.bytes.isEmpty = false := by
    obtain ⟨⟨_, _, digits, _, hs, _, _, hne, _⟩, _⟩ := h
    cases digits with
    | nil => exact absurd rfl hne
    | cons => simp [hs]
  simp [safeAtoi, hne, stoi_whole.mpr h]

/-- Any other leaves the value it is read over. -/
theorem safeAtoi_other {str : CString} (h : ¬ ∃ n, DenotesInt str.bytes n) (d : Int) :
    safeAtoi str d = d := by
  unfold safeAtoi
  split
  · rfl
  split
  · rfl
  · next n pos hstoi =>
    split
    · rfl
    · next hpos =>
      rw [not_not.mp hpos] at hstoi
      exact absurd ⟨n, stoi_whole.mp hstoi⟩ h

example : safeAtoi ⟨utf8 " +42", by decide⟩ 7 = 42 := by decide

example : safeAtoi ⟨utf8 "42abc", by decide⟩ 7 = 7 := by decide

/-! ## The value of each field -/

/-- A string field: the variable, else the document, else the default. -/
def LayeredString (var : Option CString) (toml : Option Str) (default value : Str) : Prop :=
  value = (var.map CString.bytes).getD (toml.getD default)

/-- A boolean field. The variable is true when it is `true` or `1`. -/
def LayeredBool (var : Option CString) (toml : Option Bool) (default value : Bool) : Prop :=
  value = (var.map fun s => decide (s.bytes = utf8 "true" ∨ s.bytes = utf8 "1")).getD
    (toml.getD default)

/-- An integer field: a usable variable, else a number of the document that is
an `int`, else the default. -/
structure LayeredInt (var : Option CString) (toml : Option Int) (default value : Int) : Prop where
  fromVariable : ∀ s n, var = some s → DenotesInt s.bytes n → value = n
  fromDocument : (¬ ∃ s n, var = some s ∧ DenotesInt s.bytes n) →
    ∀ n, toml = some n → intMin ≤ n → n ≤ intMax → value = n
  fromDefault : (¬ ∃ s n, var = some s ∧ DenotesInt s.bytes n) →
    (¬ ∃ n, toml = some n ∧ intMin ≤ n ∧ n ≤ intMax) → value = default

/-- What a document says of a key, when the file parses. -/
def TomlFile.string (file : TomlFile) (sect key : String) : Option Str :=
  match file with
  | .parsed tbl => tbl.string (utf8 sect) (utf8 key)
  | _ => none

def TomlFile.integer (file : TomlFile) (sect key : String) : Option Int :=
  match file with
  | .parsed tbl => tbl.integer (utf8 sect) (utf8 key)
  | _ => none

def TomlFile.boolean (file : TomlFile) (sect key : String) : Option Bool :=
  match file with
  | .parsed tbl => tbl.boolean (utf8 sect) (utf8 key)
  | _ => none

/-- The value of each field but the path itself. The key of the API has no
document below its variable. -/
structure Layered (file : TomlFile) (env : Env) (d cfg : ServerConfig) : Prop where
  host : LayeredString (env (utf8 "TTS_HOST")) (file.string "server" "host") d.host cfg.host
  port : LayeredInt (env (utf8 "TTS_PORT")) (file.integer "server" "port") d.port cfg.port
  maxConnections : LayeredInt (env (utf8 "TTS_MAX_CONNECTIONS"))
    (file.integer "server" "max_connections") d.maxConnections cfg.maxConnections
  modelPath : LayeredString (env (utf8 "TTS_MODEL_PATH")) (file.string "model" "path")
    d.modelPath cfg.modelPath
  defaultVoice : LayeredString (env (utf8 "TTS_DEFAULT_VOICE"))
    (file.string "model" "default_voice") d.defaultVoice cfg.defaultVoice
  maxQueueDepth : LayeredInt (env (utf8 "TTS_MAX_QUEUE_DEPTH"))
    (file.integer "inference" "max_queue_depth") d.maxQueueDepth cfg.maxQueueDepth
  workers : LayeredInt (env (utf8 "TTS_WORKERS")) (file.integer "inference" "workers")
    d.workers cfg.workers
  maxInputChars : LayeredInt (env (utf8 "TTS_MAX_INPUT_CHARS"))
    (file.integer "inference" "max_input_chars") d.maxInputChars cfg.maxInputChars
  requestTimeoutSeconds : LayeredInt (env (utf8 "TTS_REQUEST_TIMEOUT"))
    (file.integer "inference" "request_timeout_seconds") d.requestTimeoutSeconds
    cfg.requestTimeoutSeconds
  apiKey : LayeredString (env (utf8 "TTS_API_KEY")) none d.apiKey cfg.apiKey
  requireAuth : LayeredBool (env (utf8 "TTS_REQUIRE_AUTH")) (file.boolean "auth" "require_auth")
    d.requireAuth cfg.requireAuth
  authRateLimitMax : LayeredInt (env (utf8 "TTS_AUTH_RATE_LIMIT_MAX"))
    (file.integer "auth" "rate_limit_max") d.authRateLimitMax cfg.authRateLimitMax
  authRateLimitWindow : LayeredInt (env (utf8 "TTS_AUTH_RATE_LIMIT_WINDOW"))
    (file.integer "auth" "rate_limit_window") d.authRateLimitWindow cfg.authRateLimitWindow
  requestRateLimitRpm : LayeredInt (env (utf8 "TTS_RATE_LIMIT_RPM"))
    (file.integer "auth" "request_rate_limit_rpm") d.requestRateLimitRpm cfg.requestRateLimitRpm
  trustProxy : LayeredBool (env (utf8 "TTS_TRUST_PROXY")) (file.boolean "auth" "trust_proxy")
    d.trustProxy cfg.trustProxy
  trustedProxyHops : LayeredInt (env (utf8 "TTS_TRUSTED_PROXY_HOPS"))
    (file.integer "auth" "trusted_proxy_hops") d.trustedProxyHops cfg.trustedProxyHops
  logLevel : LayeredString (env (utf8 "TTS_LOG_LEVEL")) (file.string "logging" "level")
    d.logLevel cfg.logLevel
  logFormat : LayeredString (env (utf8 "TTS_LOG_FORMAT")) (file.string "logging" "format")
    d.logFormat cfg.logFormat

namespace ServerConfig

theorem layeredString (var : Option CString) (toml : Option Str) (d : Str) :
    LayeredString var toml d (envString var (toml.getD d)) := by
  cases var <;> rfl

theorem layeredBool (var : Option CString) (toml : Option Bool) (d : Bool) :
    LayeredBool var toml d (envBool var (toml.getD d)) := by
  cases var with
  | none => rfl
  | some s => simp [LayeredBool, envBool, parseBool]

/-- An unusable variable keeps what the document gave. -/
theorem layeredInt (var : Option CString) (toml : Option Int) (d : Int) :
    LayeredInt var toml d (envInt var (tomlInt toml d)) := by
  have hunusable (h : ¬ ∃ s n, var = some s ∧ DenotesInt s.bytes n) (current : Int) :
      envInt var current = current := by
    cases var with
    | none => rfl
    | some s => exact safeAtoi_other (fun ⟨n, hn⟩ => h ⟨s, n, rfl, hn⟩) current
  constructor
  · rintro s n rfl hn
    exact safeAtoi_denotes hn _
  · rintro h n rfl hmin hmax
    rw [hunusable h, tomlInt, Option.elim_some, safeNarrow, if_neg (by omega)]
  · intro h hnone
    rw [hunusable h]
    cases toml with
    | none => rfl
    | some n =>
      rw [tomlInt, Option.elim_some, safeNarrow, if_pos]
      by_contra hrange
      exact hnone ⟨n, rfl, by omega⟩

/-- Only a path of which nothing can be told has no configuration. -/
theorem fromFileAndEnv_none {file : Str → TomlFile} {env : Env} {configPath : Str} :
    fromFileAndEnv file env configPath = none ↔ file configPath = .inaccessible := by
  unfold fromFileAndEnv
  cases file configPath <;> simp

/-- The environment over a document. -/
theorem layered_parsed (tbl : TomlTable) (env : Env) (configPath : Str) :
    Layered (.parsed tbl) env {}
      (applyEnvOverrides env (applyToml tbl { configPath := configPath })) :=
  ⟨layeredString .., layeredInt .., layeredInt .., layeredString .., layeredString ..,
    layeredInt .., layeredInt .., layeredInt .., layeredInt .., layeredString ..,
    layeredBool .., layeredInt .., layeredInt .., layeredInt .., layeredBool ..,
    layeredInt .., layeredString .., layeredString ..⟩

/-- The environment over the defaults. -/
theorem layered_default {file : TomlFile} (h : file = .absent ∨ file = .malformed) (env : Env)
    (configPath : Str) :
    Layered file env {} (applyEnvOverrides env { configPath := configPath }) := by
  rcases h with rfl | rfl <;> exact
    ⟨layeredString .., layeredInt .., layeredInt .., layeredString .., layeredString ..,
      layeredInt .., layeredInt .., layeredInt .., layeredInt .., layeredString ..,
      layeredBool .., layeredInt .., layeredInt .., layeredInt .., layeredBool ..,
      layeredInt .., layeredString .., layeredString ..⟩

/-- **Layering.** Every field is the variable when it is usable, else what the
document says when it is parsed, else the default. There is a configuration unless
`exists` throws. -/
theorem layered (file : Str → TomlFile) (env : Env) (configPath : Str) :
    (fromFileAndEnv file env configPath = none ↔ file configPath = .inaccessible) ∧
    ∀ cfg ∈ fromFileAndEnv file env configPath, Layered (file configPath) env {} cfg := by
  refine ⟨fromFileAndEnv_none, fun cfg hcfg => ?_⟩
  rw [Option.mem_def, fromFileAndEnv] at hcfg
  cases hfile : file configPath <;> simp only [hfile, Option.some.injEq, reduceCtorEq] at hcfg
  case absent => exact hcfg ▸ layered_default (.inl rfl) env configPath
  case malformed => exact hcfg ▸ layered_default (.inr rfl) env configPath
  case parsed tbl => exact hcfg ▸ layered_parsed tbl env configPath

end ServerConfig
end VoxtralServer
