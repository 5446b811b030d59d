import VoxtralServer.JsonText
import VoxtralServer.Server.Response

/-!
# The log

`JsonFormatter` writes a record as the text of a JSON object and a newline.
Everything in the object is a string: the message, the name of the logger and the
request id of the thread are bytes from elsewhere.

* `record_logged`: a record becomes one line that parses as the record exactly
  when these three are valid UTF-8. For any other record the formatter throws.
* `invalid_lost`: a record of a file name that is not valid UTF-8.
* `log_recovered`: a log of several records splits into their lines.
-/

namespace VoxtralServer

/-! ## Timestamps -/

/-- The fields of `std::tm` that the log prints. -/
structure Tm where
  tmYear : Int
  tmMon : Int
  tmMday : Int
  tmHour : Int
  tmMin : Int
  tmSec : Int

/-- `safe_gmtime`, for seconds since the epoch. -/
def safeGmtime (time : Int) : Tm :=
  -- days since 0000-03-01, in eras of 400 years that end with the leap day
  let days := time / 86400 + 719468
  let era := days / 146097
  let dayOfEra := days % 146097
  let yearOfEra := (dayOfEra - dayOfEra / 1460 + dayOfEra / 36524 - dayOfEra / 146096) / 365
  let dayOfYear := dayOfEra - (365 * yearOfEra + yearOfEra / 4 - yearOfEra / 100)
  let month := (5 * dayOfYear + 2) / 153
  { tmYear := era * 400 + yearOfEra - (if month < 10 then 1900 else 1899)
    tmMon := if month < 10 then month + 2 else month - 10
    tmMday := dayOfYear - (153 * month + 2) / 5 + 1
    tmHour := time % 86400 / 3600
    tmMin := time % 3600 / 60
    tmSec := time % 60 }

/-- `%0<width>d`. -/
def printDec (width : Nat) (n : Int) : Str :=
  let chars :=
    if n < 0 then '-' :: Padded.numeral 10 (width - 1) n.natAbs
    else Padded.numeral 10 width n.natAbs
  chars.map Char.toUInt8

/-- What `format_timestamp` prints. -/
def timestampText (gmt : Tm) (ms : Int) : Str :=
  printDec 4 (gmt.tmYear + 1900) ++ utf8 "-" ++ printDec 2 (gmt.tmMon + 1) ++ utf8 "-" ++
    printDec 2 gmt.tmMday ++ utf8 "T" ++ printDec 2 gmt.tmHour ++ utf8 ":" ++
    printDec 2 gmt.tmMin ++ utf8 ":" ++ printDec 2 gmt.tmSec ++ utf8 "." ++ printDec 3 ms ++
    utf8 "Z"

/-- `format_timestamp`, for nanoseconds since the epoch. -/
def formatTimestamp (tp : Int) : Str :=
  let millis := tp.tdiv 1000000
  let secs := millis.tdiv 1000
  (snprintf 64 (timestampText (safeGmtime secs) (millis - secs * 1000))).bytes

example : formatTimestamp 1775007000000000000 = utf8 "2026-04-01T01:30:00.000Z" := by
  decide +kernel

example : formatTimestamp 1709251199987654321 = utf8 "2024-02-29T23:59:59.987Z" := by
  decide +kernel

theorem printDec_ascii {width : Nat} {n : Int} (hw : 1 < width) :
    ∀ c ∈ printDec width n, c < 128 := by
  have hdigit : ∀ d < 10, (Nat.digitChar d).toUInt8 < 128 := by decide
  have hnumeral {width : Nat} (hw : 0 < width) :
      ∀ c ∈ Padded.numeral 10 width n.natAbs, c.toUInt8 < 128 := by
    intro c hc
    obtain ⟨d, hd, rfl⟩ := Padded.mem_numeral (by decide) hw hc
    exact hdigit d hd
  rintro _ hc
  obtain ⟨char, hchar, rfl⟩ := List.mem_map.mp hc
  split at hchar
  · rcases List.mem_cons.mp hchar with rfl | hchar
    · decide
    · exact hnumeral (by omega) char hchar
  · exact hnumeral (by omega) char hchar

theorem timestampText_ascii (gmt : Tm) (ms : Int) : ∀ c ∈ timestampText gmt ms, c < 128 := by
  unfold timestampText
  simp only [List.forall_mem_append]
  refine ⟨⟨⟨⟨⟨⟨⟨⟨⟨⟨⟨⟨⟨?_, ?_⟩, ?_⟩, ?_⟩, ?_⟩, ?_⟩, ?_⟩, ?_⟩, ?_⟩, ?_⟩, ?_⟩, ?_⟩, ?_⟩, ?_⟩
  all_goals first | decide +kernel | exact printDec_ascii (by decide)

theorem formatTimestamp_utf8 (tp : Int) : ValidUtf8 (formatTimestamp tp) :=
  validUtf8_ascii fun c hc => timestampText_ascii _ _ c (mem_snprintf hc)

/-! ## Records -/

/-- `spdlog::level::level_enum`. -/
inductive Level
  | trace
  | debug
  | info
  | warn
  | err
  | critical
  | off
deriving DecidableEq

/-- What the formatter reads of `spdlog::details::log_msg`. The time is in
nanoseconds since the epoch. -/
structure LogMsg where
  loggerName : Str := []
  level : Level
  time : Int
  payload : Str

namespace JsonFormatter

/-- `j["component"]`. -/
def component (msg : LogMsg) : Str :=
  if msg.loggerName.length > 0 then msg.loggerName else utf8 "server"

/-- The object of a record, in key order. `levelText` is `to_string_view`, read as
a C string. -/
def record (levelText : Level → CString) (t : Thread) (msg : LogMsg) : Json :=
  .object ([(utf8 "component", .string (component msg)),
      (utf8 "level", .string (levelText msg.level).bytes),
      (utf8 "message", .string msg.payload)] ++
    (if !t.requestId.isEmpty then [(utf8 "request_id", .string t.requestId)] else []) ++
    [(utf8 "timestamp", .string (formatTimestamp msg.time))])

/-- `format`, on a thread. It throws what `dump` throws. -/
def format (lib : JsonLib) (levelText : Level → CString) (t : Thread) (msg : LogMsg) (dest : Str) :
    Except JsonError Str :=
  (lib.dump (record levelText t msg)).map fun text => dest ++ (text ++ [newline])

variable {lib : JsonLib} {levelText : Level → CString} {t : Thread} {msg : LogMsg}

/-- The three strings of a record that come from elsewhere are valid UTF-8. -/
structure Clean (t : Thread) (msg : LogMsg) : Prop where
  payload : ValidUtf8 msg.payload
  loggerName : ValidUtf8 msg.loggerName
  requestId : ValidUtf8 t.requestId

theorem component_utf8 : ValidUtf8 (component msg) ↔ ValidUtf8 msg.loggerName := by
  unfold component
  split
  · exact Iff.rfl
  · next hempty =>
    have hnil : msg.loggerName = [] := by simpa using hempty
    rw [hnil]
    exact ⟨fun _ => validUtf8_nil, fun _ => validUtf8_utf8 _⟩

theorem record_utf8 (hlevel : ∀ level, ValidUtf8 (levelText level).bytes) :
    (record levelText t msg).Utf8 ↔ Clean t msg := by
  have hid : (∀ f ∈ (if !t.requestId.isEmpty then [(utf8 "request_id", Json.string t.requestId)]
      else []), ValidUtf8 f.1 ∧ f.2.Utf8) ↔ ValidUtf8 t.requestId := by
    split
    · simp [validUtf8_utf8, Json.utf8_string]
    · next hempty =>
      have hnil : t.requestId = [] := by simpa using hempty
      simp [hnil, validUtf8_nil]
  rw [record, Json.utf8_object, List.forall_mem_append, List.forall_mem_append, hid]
  simp only [List.forall_mem_cons, List.not_mem_nil, false_imp_iff, forall_true_iff, and_true,
    validUtf8_utf8, true_and, Json.utf8_string, hlevel, component_utf8, formatTimestamp_utf8]
  exact ⟨fun ⟨⟨hname, hpayload⟩, hid⟩ => ⟨hpayload, hname, hid⟩,
    fun h => ⟨⟨h.loggerName, h.payload⟩, h.requestId⟩⟩

theorem record_textual : (record levelText t msg).Textual := by
  unfold record
  split
  · have hkeys : [utf8 "component", utf8 "level", utf8 "message", utf8 "request_id",
        utf8 "timestamp"].Pairwise (· < ·) := by decide
    refine .object hkeys ?_
    simp only [List.cons_append, List.nil_append, List.forall_mem_cons, List.not_mem_nil,
      false_imp_iff, forall_true_iff, and_true]
    exact ⟨.string _, .string _, .string _, .string _, .string _⟩
  · have hkeys : [utf8 "component", utf8 "level", utf8 "message", utf8 "timestamp"].Pairwise
        (· < ·) := by decide
    refine .object hkeys ?_
    simp only [List.cons_append, List.nil_append, List.forall_mem_cons, List.not_mem_nil,
      false_imp_iff, forall_true_iff, and_true]
    exact ⟨.string _, .string _, .string _, .string _⟩

/-! ## One line for each record -/

/-- The document has the fields of the record. -/
structure Records (levelText : Level → CString) (t : Thread) (msg : LogMsg) (document : Json) :
    Prop where
  isObject : document.isObject = true
  timestamp : document.field (utf8 "timestamp") = some (.string (formatTimestamp msg.time))
  level : document.field (utf8 "level") = some (.string (levelText msg.level).bytes)
  component : document.field (utf8 "component") = some (.string (component msg))
  message : ∃ text, document.field (utf8 "message") = some (.string text) ∧
    (ValidUtf8 msg.payload → text = msg.payload)
  requestId : t.requestId ≠ [] → document.field (utf8 "request_id") = some (.string t.requestId)
  noRequestId : t.requestId = [] → document.field (utf8 "request_id") = none

/-- The formatter appends one line: the text of an object with the fields of the
record, and the only newline. -/
def Logged (lib : JsonLib) (levelText : Level → CString) (t : Thread) (msg : LogMsg) : Prop :=
  ∀ dest, ∃ line document, format lib levelText t msg dest = .ok (dest ++ (line ++ [newline])) ∧
    newline ∉ line ∧ lib.parse line = .ok document ∧ Records levelText t msg document

theorem record_records : Records levelText t msg (record levelText t msg) := by
  unfold record
  split
  · next hid =>
    have hne : t.requestId ≠ [] := by simpa using hid
    exact ⟨rfl, rfl, rfl, rfl, ⟨_, rfl, fun _ => rfl⟩, fun _ => rfl, fun h => absurd h hne⟩
  · next hid =>
    have hnil : t.requestId = [] := by simpa using hid
    exact ⟨rfl, rfl, rfl, rfl, ⟨_, rfl, fun _ => rfl⟩, fun h => absurd hnil h, fun _ => rfl⟩

/-- A clean record is formatted, as a text that is read back. -/
theorem format_clean (hlib : lib.Documented) (hfaith : lib.Faithful)
    (hlevel : ∀ level, ValidUtf8 (levelText level).bytes) (h : Clean t msg) :
    ∃ line, newline ∉ line ∧ lib.parse line = .ok (record levelText t msg) ∧
      ∀ dest, format lib levelText t msg dest = .ok (dest ++ (line ++ [newline])) := by
  obtain ⟨line, hdump⟩ := hlib.dump_utf8 _ ((record_utf8 hlevel).mpr h)
  refine ⟨line, hfaith.dump_line _ _ hdump, hfaith.parse_dump _ _ record_textual hdump,
    fun dest => ?_⟩
  rw [format, hdump]
  rfl

/-- Any other record is not. -/
theorem format_throws (hfaith : lib.Faithful)
    (hlevel : ∀ level, ValidUtf8 (levelText level).bytes) (h : ¬ Clean t msg) (dest : Str) :
    format lib levelText t msg dest = .error .typeError := by
  rw [format, hfaith.dump_invalid _ fun hutf8 => h ((record_utf8 hlevel).mp hutf8)]
  rfl

/-- **One record, one line.** The formatter does not throw and appends one line with
the record exactly when the message, the name of the logger and the request id are
valid UTF-8. -/
theorem record_logged (hlib : lib.Documented) (hfaith : lib.Faithful)
    (hlevel : ∀ level, ValidUtf8 (levelText level).bytes) (t : Thread) (msg : LogMsg) :
    Logged lib levelText t msg ↔ Clean t msg := by
  constructor
  · intro h
    obtain ⟨line, document, hformat, _⟩ := h []
    by_contra hclean
    rw [format_throws hfaith hlevel hclean] at hformat
    cases hformat
  · intro h dest
    obtain ⟨line, hline, hparse, hformat⟩ := format_clean hlib hfaith hlevel h
    exact ⟨line, _, hformat dest, hline, hparse, record_records⟩

/-- The names of the levels that come with spdlog. -/
def exLevelText : Level → CString
  | .trace => cStr (utf8 "trace")
  | .debug => cStr (utf8 "debug")
  | .info => cStr (utf8 "info")
  | .warn => cStr (utf8 "warning")
  | .err => cStr (utf8 "error")
  | .critical => cStr (utf8 "critical")
  | .off => cStr (utf8 "off")

theorem exLevelText_utf8 : ∀ level, ValidUtf8 (exLevelText level).bytes := by
  intro level
  refine validUtf8_ascii ?_
  cases level <;> decide +kernel

open Json (textJson textJson_documented textJson_faithful)

/-- A message with a newline stays on its line. -/
theorem record_logged_newline : Logged textJson exLevelText { requestId := utf8 "4f6c" }
    { level := .info, time := 1775007000000000000, payload := utf8 "line1\nfake_line2" } :=
  (record_logged textJson_documented textJson_faithful exLevelText_utf8 _ _).mpr
    ⟨validUtf8_utf8 _, validUtf8_nil, validUtf8_utf8 _⟩

/-- What the backend logs about a model path that ends with the byte `0xFF`. -/
def exModelPath : LogMsg where
  level := .err
  time := 1775007000000000000
  payload := utf8 "VoxtralBackend::initialize — model_path does not exist: /models/" ++ [0xFF]

/-- The formatter throws, and nothing is appended. -/
theorem invalid_lost : textJson.Documented ∧ textJson.Faithful ∧
    (∀ level, ValidUtf8 (exLevelText level).bytes) ∧
    (∀ dest, format textJson exLevelText {} exModelPath dest = .error .typeError) ∧
    ¬ Logged textJson exLevelText {} exModelPath := by
  have hinvalid : ¬ ValidUtf8 exModelPath.payload := by decide +kernel
  have hthrows (dest : Str) : format textJson exLevelText {} exModelPath dest =
      .error .typeError :=
    format_throws textJson_faithful exLevelText_utf8 (fun h => hinvalid h.payload) dest
  refine ⟨textJson_documented, textJson_faithful, exLevelText_utf8, hthrows, fun h => ?_⟩
  obtain ⟨line, document, hformat, _⟩ := h []
  rw [hthrows] at hformat
  cases hformat

/-! ## The log of several records -/

/-- The records are formatted one after the other. -/
def formatAll (lib : JsonLib) (levelText : Level → CString) (records : List (Thread × LogMsg))
    (dest : Str) : Except JsonError Str :=
  records.foldlM (fun dest r => format lib levelText r.1 r.2 dest) dest

/-- **The log.** The lines of a log of clean records parse as the records, in their
order. -/
theorem log_recovered (hlib : lib.Documented) (hfaith : lib.Faithful)
    (hlevel : ∀ level, ValidUtf8 (levelText level).bytes) (records : List (Thread × LogMsg))
    (hclean : ∀ r ∈ records, Clean r.1 r.2) :
    ∃ log lines, (∀ dest, formatAll lib levelText records dest = .ok (dest ++ log)) ∧
      log.splitOn newline = lines ++ [[]] ∧
      lines.map lib.parse = records.map fun r => .ok (record levelText r.1 r.2) := by
  induction records with
  | nil => exact ⟨[], [], fun dest => by simp [formatAll, pure, Except.pure], rfl, rfl⟩
  | cons r records ih =>
    obtain ⟨log, lines, hlog, hsplit, hlines⟩ :=
      ih fun r hr => hclean r (List.mem_cons_of_mem _ hr)
    obtain ⟨line, hline, hparse, hformat⟩ :=
      format_clean hlib hfaith hlevel (hclean r List.mem_cons_self)
    refine ⟨line ++ newline :: log, line :: lines, fun dest => ?_, ?_, ?_⟩
    · rw [formatAll, List.foldlM_cons, hformat]
      exact (hlog (dest ++ (line ++ [newline]))).trans (by simp)
    · rw [List.splitOn_append_cons_self, List.splitOn_eq_singleton hline, hsplit]
      rfl
    · rw [List.map_cons, List.map_cons, hparse, hlines]

end JsonFormatter
end VoxtralServer
