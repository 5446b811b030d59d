import VoxtralServer.Backend.Resources
import VoxtralServer.ConfigLayers
import VoxtralServer.Server.Lifecycle

/-!
# Start-up

`main` up to its listener: the command line, the configuration, the backend and
the server. Files, the environment, the model and the thread of the pool are what
they are in a `World`. The log is left out.

* `parseArgs_iff`: how the loop over the arguments ends, for every command line.
* `startup_exact`: when `main` gets to its listener, with what, and how it ends
  otherwise.
-/

namespace VoxtralServer.Startup

/-! ## The command line -/

def versionOption : Str := utf8 "--version"

def helpOption : Str := utf8 "--help"

def configOption : Str := utf8 "--config"

/-- How the loop over the arguments ends. -/
inductive Parsed
  | version
  | help
  | missingPath
  | config (path : Str)
deriving DecidableEq, Repr

/-- The loop, with the path so far. A path is taken whatever it reads. -/
def parseArgs (configPath : Str) : List CString → Parsed
  | [] => .config configPath
  | arg :: args =>
    if arg.bytes = versionOption then .version
    else if arg.bytes = helpOption then .help
    else if arg.bytes = configOption then
      match args with
      | [] => .missingPath
      | path :: args => parseArgs path.bytes args
    else parseArgs configPath args

/-- A part of a command line that the loop goes over: a word that is no option,
or the option of a path with its path. -/
inductive Item
  | word (w : CString) (plain : w.bytes ∉ [versionOption, helpOption, configOption])
  | path (option : CString) (isOption : option.bytes = configOption) (path : CString)

namespace Item

def args : Item → List CString
  | word w _ => [w]
  | path option _ p => [option, p]

def configPath : Item → Option Str
  | word _ _ => none
  | path _ _ p => some p.bytes

end Item

/-- The last path of the items. -/
def lastPath (d : Str) (items : List Item) : Str :=
  (items.filterMap Item.configPath).getLast?.getD d

/-- What ends a command line after its items. -/
inductive Ends : List CString → Str → Parsed → Prop
  | all {path : Str} : Ends [] path (.config path)
  | version {path : Str} {arg : CString} {args : List CString} : arg.bytes = versionOption →
      Ends (arg :: args) path .version
  | help {path : Str} {arg : CString} {args : List CString} : arg.bytes = helpOption →
      Ends (arg :: args) path .help
  | missingPath {path : Str} {arg : CString} : arg.bytes = configOption →
      Ends [arg] path .missingPath

theorem lastPath_word {d : Str} {w : CString} {plain} {items : List Item} :
    lastPath d (.word w plain :: items) = lastPath d items := rfl

theorem lastPath_path {d : Str} {option path : CString} {isOption} {items : List Item} :
    lastPath d (.path option isOption path :: items) = lastPath path.bytes items := by
  simp only [lastPath, Item.configPath, List.filterMap_cons]
  cases items.filterMap Item.configPath <;> rfl

/-- Every command line is items and one of the ends. -/
theorem parseArgs_ends (d : Str) (args : List CString) :
    ∃ items rest, args = items.flatMap Item.args ++ rest ∧
      Ends rest (lastPath d items) (parseArgs d args) := by
  fun_induction parseArgs d args with
  | case1 d => exact ⟨[], [], rfl, .all⟩
  | case2 d arg args h => exact ⟨[], _, rfl, .version h⟩
  | case3 d arg args _ h => exact ⟨[], _, rfl, .help h⟩
  | case4 d arg _ _ h => exact ⟨[], _, rfl, .missingPath h⟩
  | case5 d arg _ _ h path args ih =>
    obtain ⟨items, rest, rfl, hends⟩ := ih
    exact ⟨.path arg h path :: items, rest, rfl, lastPath_path ▸ hends⟩
  | case6 d arg args h₁ h₂ h₃ ih =>
    obtain ⟨items, rest, rfl, hends⟩ := ih
    exact ⟨.word arg (by simp [h₁, h₂, h₃]) :: items, rest, rfl, hends⟩

/-- The three options are different. -/
theorem options_ne : versionOption ≠ helpOption ∧ versionOption ≠ configOption ∧
    helpOption ≠ configOption := by decide

theorem parseArgs_rest {d : Str} {rest : List CString} {parsed : Parsed} (h : Ends rest d parsed) :
    parseArgs d rest = parsed := by
  obtain ⟨hvh, hvc, hhc⟩ := options_ne
  cases h with
  | all => rfl
  | version harg =>
    unfold parseArgs
    rw [if_pos harg]
  | help harg =>
    unfold parseArgs
    rw [harg, if_neg hvh.symm, if_pos rfl]
  | missingPath harg =>
    unfold parseArgs
    rw [harg, if_neg hvc.symm, if_neg hhc.symm, if_pos rfl]

/-- The loop goes over the items. -/
theorem parseArgs_items {d : Str} {rest : List CString} (items : List Item) :
    parseArgs d (items.flatMap Item.args ++ rest) = parseArgs (lastPath d items) rest := by
  obtain ⟨_, hvc, hhc⟩ := options_ne
  induction items generalizing d with
  | nil => rfl
  | cons item items ih =>
    rw [List.flatMap_cons, List.append_assoc]
    cases item with
    | word w plain =>
      simp only [List.mem_cons, List.not_mem_nil, or_false, not_or] at plain
      rw [lastPath_word, ← ih, Item.args, List.singleton_append, parseArgs.eq_def]
      simp only [plain, if_false]
    | path option isOption path =>
      rw [lastPath_path, ← ih, Item.args, List.cons_append, List.singleton_append,
        parseArgs.eq_def]
      simp only [isOption, hvc.symm, hhc.symm, if_false, if_true]

/-- **The command line.** The loop goes over plain words and paths, of which the last
one counts, up to the end, the option of a text, or an option without its path. -/
theorem parseArgs_iff {d : Str} {args : List CString} {parsed : Parsed} :
    parseArgs d args = parsed ↔ ∃ items rest, args = items.flatMap Item.args ++ rest ∧
      Ends rest (lastPath d items) parsed := by
  constructor
  · rintro rfl
    exact parseArgs_ends d args
  · rintro ⟨items, rest, rfl, hends⟩
    rw [parseArgs_items, parseArgs_rest hends]

example : parseArgs [] [cStr configOption, cStr helpOption] = .config helpOption := by decide

/-! ## The start -/

/-- What `main` finds: the version of the build, the environment, the files, what the
file system says of a path, what `tts_load` returns for one, whether the thread of
the pool starts, and when. -/
structure World where
  version : Str
  env : Env
  file : Str → TomlFile
  status : Str → PathStatus
  load : CString → Option Pointer
  threadStarts : Bool
  now : Int

/-- `print_usage`. -/
def printUsage (program : CString) : Str :=
  utf8 "Usage: " ++ program.bytes ++ utf8 " [OPTIONS]\n" ++ utf8 "\nOptions:\n" ++
    utf8 "  --config <path>   Path to TOML config file (default: config/server.toml)\n" ++
    utf8 "  --version         Print version and exit\n" ++
    utf8 "  --help            Print this help and exit\n" ++
    utf8 "\nEnvironment variables (TTS_* prefix) override config file values.\n" ++
    utf8 "See config/server.toml for all available options.\n"

/-- `main` returns before its listener, with what it has written to the two streams,
or an exception that nothing catches ends it, before the engine is called, or it gets
there. Where the engine is called these are the calls, also those of the destruction
on a return. -/
inductive Outcome
  | exits (code : Int) (out err : Str) (calls : List EngineCall)
  | terminates
  | listens (cfg : ServerConfig) (backend : EngineBackend) (server : TtsServer Nat)
      (calls : List EngineCall)

/-- `main` from the loaded configuration on. -/
def startServer (w : World) (cfg : ServerConfig) : Outcome :=
  match cfg.validate with
  | .error _ => .exits 1 [] [] []
  | .ok () =>
    if cfg.requireAuth && cfg.apiKey.isEmpty then .exits 1 [] [] []
    else
      match ({} : EngineBackend).initializeBackend cfg.modelPath (w.status cfg.modelPath)
        (w.load (cStr cfg.modelPath)) with
      | (calls, false, backend) => .exits 1 [] [] (calls ++ backend.destroy)
      | (calls, true, backend) =>
        match TtsServer.initializeServer cfg { backend := some backend.initialized }
          w.threadStarts w.now with
        | (false, _) => .exits 1 [] [] (calls ++ backend.destroy)
        | (true, server) => .listens cfg backend server calls

/-- The path before the arguments are read. -/
def defaultPath (env : Env) : Str :=
  (env (utf8 "TTS_CONFIG_PATH")).elim (utf8 "config/server.toml") CString.bytes

/-- `main` when its arguments are read. -/
def startWith (w : World) (program : CString) : Parsed → Outcome
  | .version => .exits 0 (utf8 "voxtral-server v" ++ w.version ++ utf8 "\n") [] []
  | .help => .exits 0 (printUsage program) [] []
  | .missingPath => .exits 1 [] (utf8 "Error: --config requires a path argument\n") []
  | .config path =>
    match ServerConfig.fromFileAndEnv w.file w.env path with
    | none => .terminates
    | some cfg => startServer w cfg

/-- `main` up to its listener. -/
def start (w : World) (program : CString) (args : List CString) : Outcome :=
  startWith w program (parseArgs (defaultPath w.env) args)

variable {w : World} {program : CString} {args : List CString} {cfg : ServerConfig}
  {backend : EngineBackend} {server : TtsServer Nat} {calls : List EngineCall}

/-- The backend after its model is loaded. -/
def loadedBackend (w : World) (cfg : ServerConfig) : EngineBackend where
  initialized := true
  modelPath := cfg.modelPath
  ctx := w.load (cStr cfg.modelPath)
  useRealEngine := (w.load (cStr cfg.modelPath)).isSome

/-- What `main` listens with. -/
structure Listens (w : World) (cfg : ServerConfig) (backend : EngineBackend)
    (server : TtsServer Nat) (calls : List EngineCall) : Prop where
  valid : cfg.Valid
  passes : (w.status cfg.modelPath).passes cfg.modelPath = true
  threadStarts : w.threadStarts = true
  backend : backend = loadedBackend w cfg
  server : ∃ params, InferencePool.Params.ofConfig cfg = some params ∧
    server = { backend := some true,
               pool := some ⟨params, { clock := w.now }⟩,
               initialized := true }
  calls : calls = [.load (cStr cfg.modelPath) (w.load (cStr cfg.modelPath))]

/-- A valid configuration has a pool. -/
theorem exists_params (h : cfg.Valid) :
    ∃ params, InferencePool.Params.ofConfig cfg = some params := by
  unfold InferencePool.Params.ofConfig
  rw [dif_pos ⟨h.maxQueueDepth, h.requestTimeoutSeconds⟩]
  exact ⟨_, rfl⟩

/-- The model of a new backend. -/
theorem initializeBackend_new (w : World) (cfg : ServerConfig) :
    ({} : EngineBackend).initializeBackend cfg.modelPath (w.status cfg.modelPath)
        (w.load (cStr cfg.modelPath)) =
      if (w.status cfg.modelPath).passes cfg.modelPath then
        ([.load (cStr cfg.modelPath) (w.load (cStr cfg.modelPath))], true, loadedBackend w cfg)
      else ([], false, {}) := by
  rw [EngineBackend.initializeBackend_eq, loadedBackend]
  cases w.load (cStr cfg.modelPath) <;> rfl

/-- The server of a backend that is ready. -/
theorem initializeServer_new {params : InferencePool.Params}
    (hparams : InferencePool.Params.ofConfig cfg = some params) (threadStarts : Bool) (now : Int) :
    TtsServer.initializeServer cfg { backend := some true } threadStarts now =
      if threadStarts then
        (true, ({ backend := some true, pool := some ⟨params, { clock := now }⟩,
                  initialized := true } : TtsServer Nat))
      else (false, { backend := some true }) := by
  cases threadStarts <;> simp [TtsServer.initializeServer, hparams]

/-- The calls of a start that fails after the model is loaded. -/
theorem clean_load (w : World) (cfg : ServerConfig) :
    Ownership.Clean (EngineRun.trace (.load (cStr cfg.modelPath) (w.load (cStr cfg.modelPath)) ::
      (loadedBackend w cfg).destroy)) := by
  unfold loadedBackend EngineBackend.destroy
  cases w.load (cStr cfg.modelPath) with
  | none => rfl
  | some p =>
    simp [Ownership.Clean, EngineRun.trace, EngineCall.ops, Ownership.applyAll, Ownership.apply]

/-- `main` exits and has released what it has loaded, or it listens. -/
theorem startServer_cases (w : World) (cfg : ServerConfig) :
    (∃ calls, startServer w cfg = .exits 1 [] [] calls ∧
      Ownership.Clean (EngineRun.trace calls) ∧ ∀ b server calls, ¬ Listens w cfg b server calls) ∨
    ∃ b server calls, startServer w cfg = .listens cfg b server calls ∧
      Listens w cfg b server calls := by
  unfold startServer
  cases hvalidate : cfg.validate with
  | error e =>
    refine .inl ⟨[], rfl, rfl, fun b server calls h => ?_⟩
    rw [ServerConfig.validate_iff.mpr h.valid] at hvalidate
    cases hvalidate
  | ok =>
    have hvalid := ServerConfig.validate_iff.mp hvalidate
    obtain ⟨params, hparams⟩ := exists_params hvalid
    have hkey : (cfg.requireAuth && cfg.apiKey.isEmpty) = false := by
      cases hrequire : cfg.requireAuth with
      | false => rfl
      | true => simpa using hvalid.apiKey hrequire
    simp only [hkey, Bool.false_eq_true, if_false, initializeBackend_new]
    cases hpasses : (w.status cfg.modelPath).passes cfg.modelPath with
    | false =>
      refine .inl ⟨[], rfl, rfl, fun b server calls h => ?_⟩
      rw [h.passes] at hpasses
      cases hpasses
    | true =>
      have hserver := initializeServer_new hparams w.threadStarts w.now
      have hready : (loadedBackend w cfg).initialized = true := rfl
      simp only [if_true, hready, hserver]
      cases hthread : w.threadStarts with
      | false =>
        refine .inl ⟨_, rfl, clean_load w cfg, fun b server calls h => ?_⟩
        rw [h.threadStarts] at hthread
        cases hthread
      | true =>
        exact .inr ⟨_, _, _, rfl, hvalid, hpasses, hthread, rfl, ⟨params, hparams, rfl⟩, rfl⟩

theorem startServer_listens {cfg' : ServerConfig} :
    startServer w cfg = .listens cfg' backend server calls ↔
      cfg' = cfg ∧ Listens w cfg backend server calls := by
  rcases startServer_cases w cfg with ⟨_, hexits, _, hnot⟩ | ⟨b, server', calls', hlistens, h⟩
  · rw [hexits]
    exact iff_of_false (by simp) fun h => hnot _ _ _ h.2
  · rw [hlistens]
    constructor
    · rintro ⟨⟩
      exact ⟨rfl, h⟩
    · rintro ⟨rfl, h'⟩
      -- the world decides what `main` listens with
      obtain ⟨params, hparams, hserver⟩ := h.server
      obtain ⟨params', hparams', hserver'⟩ := h'.server
      rw [hparams] at hparams'
      cases hparams'
      rw [h.backend, h'.backend, h.calls, h'.calls, hserver, hserver']

/-- A text is printed when one of its options ends the arguments. -/
theorem parseArgs_text {d : Str} : (∃ items : List Item, ∃ arg rest,
    args = items.flatMap Item.args ++ arg :: rest ∧
      (arg.bytes = versionOption ∨ arg.bytes = helpOption)) ↔
    parseArgs d args = .version ∨ parseArgs d args = .help := by
  constructor
  · rintro ⟨items, arg, rest, hargs, harg | harg⟩
    · exact .inl (parseArgs_iff.mpr ⟨items, _, hargs, .version harg⟩)
    · exact .inr (parseArgs_iff.mpr ⟨items, _, hargs, .help harg⟩)
  · rintro (h | h)
    · obtain ⟨items, rest, hargs, hends⟩ := parseArgs_iff.mp h
      cases hends with
      | version harg => exact ⟨items, _, _, hargs, .inl harg⟩
    · obtain ⟨items, rest, hargs, hends⟩ := parseArgs_iff.mp h
      cases hends with
      | help harg => exact ⟨items, _, _, hargs, .inr harg⟩

/-- What `main` exits with before its listener. -/
theorem startWith_exits {parsed : Parsed} {code : Int} {out err : Str}
    (h : startWith w program parsed = .exits code out err calls) :
    (code = 0 ∨ code = 1) ∧ (code = 0 ↔ parsed = .version ∨ parsed = .help) ∧
      Ownership.Clean (EngineRun.trace calls) := by
  cases parsed with
  | version =>
    cases h
    exact ⟨.inl rfl, by simp, rfl⟩
  | help =>
    cases h
    exact ⟨.inl rfl, by simp, rfl⟩
  | missingPath =>
    cases h
    exact ⟨.inr rfl, by simp, rfl⟩
  | config path =>
    rw [startWith] at h
    split at h
    · cases h
    · next cfg _ =>
      rcases startServer_cases w cfg with ⟨calls', hexits, hclean, _⟩ | ⟨_, _, _, hlistens, _⟩
      · rw [hexits] at h
        cases h
        exact ⟨.inr rfl, by simp, hclean⟩
      · rw [hlistens] at h
        cases h

/-- `main` with items for arguments reads the configuration at their last path. -/
theorem start_items {items : List Item} (hargs : args = items.flatMap Item.args) :
    start w program args = startWith w program (.config (lastPath (defaultPath w.env) items)) := by
  have hparsed : parseArgs (defaultPath w.env) args =
      .config (lastPath (defaultPath w.env) items) :=
    parseArgs_iff.mpr ⟨items, [], by simpa using hargs, .all⟩
  rw [start, hparsed]

/-- The arguments of a `main` that gets as far as its configuration are items. -/
theorem start_configured (h : ∀ code out err calls,
    start w program args ≠ .exits code out err calls) :
    ∃ items : List Item, args = items.flatMap Item.args := by
  obtain ⟨items, rest, hargs, hends⟩ := parseArgs_ends (defaultPath w.env) args
  unfold start at h
  generalize parseArgs (defaultPath w.env) args = parsed at h hends
  cases hends with
  | all => exact ⟨items, by simpa using hargs⟩
  | _ => exact absurd rfl (h _ _ _ _)

/-- What `main` listens with comes from the last path of its arguments. -/
theorem start_listens (h : start w program args = .listens cfg backend server calls) :
    ∃ items : List Item, args = items.flatMap Item.args ∧
      ServerConfig.fromFileAndEnv w.file w.env (lastPath (defaultPath w.env) items) = some cfg ∧
      Listens w cfg backend server calls := by
  obtain ⟨items, hargs⟩ := start_configured (by rw [h]; nofun)
  rw [start_items hargs, startWith] at h
  split at h
  · cases h
  · next cfg' hcfg =>
    obtain ⟨rfl, hlistens⟩ := startServer_listens.mp h
    exact ⟨items, hargs, hcfg, hlistens⟩

/-- An exception ends `main` when nothing can be told of the last path. -/
theorem start_terminates : start w program args = .terminates ↔
    ∃ items : List Item, args = items.flatMap Item.args ∧
      w.file (lastPath (defaultPath w.env) items) = .inaccessible := by
  constructor
  · intro h
    obtain ⟨items, hargs⟩ := start_configured (by rw [h]; nofun)
    rw [start_items hargs, startWith] at h
    split at h
    · next hnone => exact ⟨items, hargs, ServerConfig.fromFileAndEnv_none.mp hnone⟩
    · next cfg _ =>
      rcases startServer_cases w cfg with ⟨_, hexits, _⟩ | ⟨_, _, _, hlistens, _⟩
      · rw [hexits] at h
        cases h
      · rw [hlistens] at h
        cases h
  · rintro ⟨items, hargs, hfile⟩
    rw [start_items hargs, startWith, ServerConfig.fromFileAndEnv_none.mpr hfile]

/-- **The start.** `main` gets to its listener exactly when its arguments are words
and paths, the configuration that they lead to is valid, the model passes its checks
and the thread of the pool starts; it listens with that configuration. An exception
ends it exactly when its arguments are words and paths and the file system cannot tell
whether there is a file at the last path. Otherwise it exits, with 0 when a text is
asked for and 1 when not, and has released what it has loaded. -/
theorem startup_exact (w : World) (program : CString) (args : List CString) :
    (∀ cfg backend server calls, start w program args = .listens cfg backend server calls ↔
      ∃ items : List Item, args = items.flatMap Item.args ∧
        ServerConfig.fromFileAndEnv w.file w.env (lastPath (defaultPath w.env) items) = some cfg ∧
        Listens w cfg backend server calls) ∧
    (start w program args = .terminates ↔ ∃ items : List Item, args = items.flatMap Item.args ∧
      w.file (lastPath (defaultPath w.env) items) = .inaccessible) ∧
    ∀ code out err calls, start w program args = .exits code out err calls →
      (code = 0 ∨ code = 1) ∧
      (code = 0 ↔ ∃ items : List Item, ∃ arg rest, args = items.flatMap Item.args ++ arg :: rest ∧
        (arg.bytes = versionOption ∨ arg.bytes = helpOption)) ∧
      Ownership.ReleasedOnce (EngineRun.trace calls) := by
  refine ⟨fun cfg backend server calls => ⟨start_listens, ?_⟩, start_terminates, ?_⟩
  · rintro ⟨items, hargs, hcfg, h⟩
    rw [start_items hargs, startWith, hcfg]
    exact startServer_listens.mpr ⟨rfl, h⟩
  · intro code out err calls h
    obtain ⟨hcode, hzero, hclean⟩ := startWith_exits h
    exact ⟨hcode, hzero.trans parseArgs_text.symm, hclean.releasedOnce⟩

end VoxtralServer.Startup
