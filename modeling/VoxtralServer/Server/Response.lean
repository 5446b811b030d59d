import VoxtralServer.Lib.Padded
import VoxtralServer.Server.AdaptRequest
import VoxtralServer.Server.SpeechHandler

/-!
# Responses of the routes

Request ids, the mandatory headers, the handlers of the small routes, and the
copy of a response into the one of the listener. Which header lines the listener
takes is left to it, except for plain ones (`Listener.Documented`).

* `formatRequestId_visible`: a request id is a plain header value.
* `adaptResponse_keeps`: what the listener takes is in the response that it sends.
* `handleHealth_ok`, `handleReady_ok`, `handleVoices_ok`: these handlers do not
  throw.
-/

namespace VoxtralServer

/-! ## Request ids -/

/-- `%0<width>x`. -/
def printHex (width n : Nat) : Str := (Padded.numeral 16 width n).map Char.toUInt8

/-- The text that `generate_request_id` makes of four numbers. -/
def formatRequestId (a b c d : UInt32) : Str :=
  let b := (b &&& 0xFFFF0FFF) ||| 0x00004000
  let c := (c &&& 0x3FFFFFFF) ||| 0x80000000
  printHex 8 a.toNat ++ utf8 "-" ++ printHex 4 ((b >>> 16) &&& 0xFFFF).toNat ++ utf8 "-" ++
    printHex 4 (b &&& 0xFFFF).toNat ++ utf8 "-" ++ printHex 4 ((c >>> 16) &&& 0xFFFF).toNat ++
    utf8 "-" ++ printHex 4 (c &&& 0xFFFF).toNat ++ printHex 8 d.toNat

/-- The state of a listener thread: its request id for the log, and how many
numbers it has drawn from its generator. -/
structure Thread where
  requestId : Str := []
  draws : Nat := 0
deriving DecidableEq

/-- `logging::set_request_id`. -/
def Thread.setRequestId (t : Thread) (requestId : Str) : Thread := { t with requestId := requestId }

/-- The id that the generator's numbers from the `n`th on give. -/
def requestIdAt (rng : Nat → UInt32) (n : Nat) : Str :=
  formatRequestId (rng n) (rng (n + 1)) (rng (n + 2)) (rng (n + 3))

/-- `generate_request_id`. -/
def generateRequestId (rng : Nat → UInt32) (t : Thread) : Str × Thread :=
  (requestIdAt rng t.draws, { t with draws := t.draws + 4 })

/-- A visible ASCII character. -/
def isVisible (c : UInt8) : Bool := decide (0x21 ≤ c) && decide (c ≤ 0x7E)

theorem digitChar_visible : ∀ d < 16, isVisible (Nat.digitChar d).toUInt8 = true := by
  decide

theorem printHex_visible {width n : Nat} (hw : 0 < width) :
    ∀ c ∈ printHex width n, isVisible c = true := by
  intro c hc
  obtain ⟨ch, hch, rfl⟩ := List.mem_map.mp hc
  obtain ⟨d, hd, rfl⟩ := Padded.mem_numeral (by decide) hw hch
  exact digitChar_visible d hd

theorem printHex_ne_nil (width n : Nat) : printHex width n ≠ [] := by
  have hdigits : Nat.toDigits 16 n ≠ [] := by
    rw [Nat.toDigits_eq_if (by decide)]
    split <;> simp
  simp [printHex, Padded.numeral, hdigits]

/-- A request id is a plain header value. -/
theorem formatRequestId_visible (a b c d : UInt32) :
    formatRequestId a b c d ≠ [] ∧ ∀ ch ∈ formatRequestId a b c d, isVisible ch = true := by
  have hdash : ∀ c ∈ utf8 "-", isVisible c = true := List.all_eq_true.mp (by decide)
  constructor
  · simp [formatRequestId, printHex_ne_nil]
  · intro c hc
    simp only [formatRequestId, List.mem_append] at hc
    rcases hc with ((((((((hc | hc) | hc) | hc) | hc) | hc) | hc) | hc) | hc) | hc <;>
      first
      | exact printHex_visible (by decide) c hc
      | exact hdash c hc

theorem requestIdAt_visible (rng : Nat → UInt32) (n : Nat) :
    requestIdAt rng n ≠ [] ∧ ∀ c ∈ requestIdAt rng n, isVisible c = true :=
  formatRequestId_visible _ _ _ _

/-- `apply_security_headers`. -/
def applySecurityHeaders (resp : HttpResponse) (requestId : Str) : HttpResponse :=
  { resp with
    headers := ((resp.headers.insert (utf8 "X-Content-Type-Options") (utf8 "nosniff")).insert
      (utf8 "Cache-Control") (utf8 "no-store")).insert (utf8 "X-Request-Id") requestId }

/-! ## Responses of the listener -/

/-- `httplib::Response`. -/
structure HttplibResponse where
  status : Int := -1
  headers : List (Str × Str) := []
  body : Str := []

/-- What the listener's library decides: which header lines `set_header` takes,
in which order a loop visits a map of headers, and what it answers when there is
no handler or when a handler throws. -/
structure Listener where
  isFieldName : Str → Bool
  isFieldValue : Str → Bool
  headerOrder : IterOrder Str Str
  unrouted : HttplibRequest → HttplibResponse
  thrown : HttplibRequest → JsonError → HttplibResponse

/-- A letter or a hyphen. -/
def isNameChar (c : UInt8) : Bool :=
  c == ('-').toUInt8 || (decide (('A').toUInt8 ≤ c) && decide (c ≤ ('Z').toUInt8)) ||
    (decide (('a').toUInt8 ≤ c) && decide (c ≤ ('z').toUInt8))

/-- Names of letters and hyphens, and values of visible characters, are taken. -/
structure Listener.Documented (listener : Listener) : Prop where
  fieldName : ∀ name, name ≠ [] → (∀ c ∈ name, isNameChar c = true) →
    listener.isFieldName name = true
  fieldValue : ∀ value, value ≠ [] → (∀ c ∈ value, isVisible c = true) →
    listener.isFieldValue value = true

namespace HttplibResponse

/-- `set_header`: adds a line, also when there is one of this name. -/
def setHeader (listener : Listener) (res : HttplibResponse) (line : Str × Str) :
    HttplibResponse :=
  if listener.isFieldName line.1 && listener.isFieldValue line.2 then
    { res with headers := res.headers ++ [line] }
  else res

/-- `set_content`: replaces the body and its type. -/
def setContent (listener : Listener) (res : HttplibResponse) (body contentType : Str) :
    HttplibResponse :=
  { res with
    body := body
    headers := res.headers.filter fun line =>
      !decide (toLower line.1 = utf8 "content-type") }.setHeader listener
    (utf8 "Content-Type", contentType)

/-- The loop of `set_header` over the headers of a response. -/
def setHeaders (listener : Listener) (res : HttplibResponse) (headers : Table Str Str) :
    HttplibResponse :=
  (headers.reorder listener.headerOrder).entries.foldl
    (fun res entry => res.setHeader listener (entry.1, entry.2)) res

end HttplibResponse

/-- `is_binary`. -/
def HttpResponse.isBinary (resp : HttpResponse) : Bool := !resp.binaryBody.isEmpty

/-- `adapt_response`. -/
def adaptResponse (listener : Listener) (resp : HttpResponse) (res : HttplibResponse) :
    HttplibResponse :=
  let res := { res with status := resp.status }.setHeaders listener resp.headers
  if resp.isBinary then
    res.setContent listener resp.binaryBody
      ((resp.headers.lookup (utf8 "Content-Type")).getD (utf8 "application/octet-stream"))
  else
    res.setContent listener resp.body
      ((resp.headers.lookup (utf8 "Content-Type")).getD (utf8 "text/plain"))

variable {listener : Listener} {res : HttplibResponse}

theorem mem_setHeader {line line' : Str × Str} (h : line ∈ res.headers) :
    line ∈ (res.setHeader listener line').headers := by
  unfold HttplibResponse.setHeader
  split
  · exact List.mem_append_left _ h
  · exact h

theorem setHeader_self {line : Str × Str} (hname : listener.isFieldName line.1 = true)
    (hvalue : listener.isFieldValue line.2 = true) :
    line ∈ (res.setHeader listener line).headers := by
  unfold HttplibResponse.setHeader
  rw [hname, hvalue]
  exact List.mem_append_right _ (List.mem_singleton_self _)

/-- `set_content` leaves the lines of other names. -/
theorem mem_setContent {line : Str × Str} {body contentType : Str} (h : line ∈ res.headers)
    (hname : toLower line.1 ≠ utf8 "content-type") :
    line ∈ (res.setContent listener body contentType).headers :=
  mem_setHeader (List.mem_filter.mpr ⟨h, by simpa using hname⟩)

theorem mem_setHeaders_of_mem {line : Str × Str} (entries : List (Sigma fun _ : Str => Str)) :
    ∀ {res : HttplibResponse}, line ∈ res.headers →
      line ∈ (entries.foldl (fun res entry => res.setHeader listener (entry.1, entry.2))
        res).headers := by
  induction entries with
  | nil => exact fun h => h
  | cons entry entries ih => exact fun h => ih (mem_setHeader h)

/-- The loop sets every header that the listener takes. -/
theorem mem_setHeaders {headers : Table Str Str} {name value : Str}
    (hlookup : headers.lookup name = some value) (hname : listener.isFieldName name = true)
    (hvalue : listener.isFieldValue value = true) :
    (name, value) ∈ (res.setHeaders listener headers).headers := by
  have hmem : (⟨name, value⟩ : Sigma fun _ : Str => Str) ∈
      (headers.reorder listener.headerOrder).entries :=
    AList.mem_lookup_iff.mp ((Table.lookup_reorder listener.headerOrder headers name).trans hlookup)
  unfold HttplibResponse.setHeaders
  generalize (headers.reorder listener.headerOrder).entries = entries at hmem
  induction entries generalizing res with
  | nil => cases hmem
  | cons entry entries ih =>
    rw [List.foldl_cons]
    rcases List.mem_cons.mp hmem with rfl | hmem
    · exact mem_setHeaders_of_mem entries (setHeader_self hname hvalue)
    · exact ih hmem

/-- What the listener takes is in the response that it sends. -/
theorem adaptResponse_keeps {resp : HttpResponse} {name value : Str}
    (hlookup : resp.headers.lookup name = some value) (hname : listener.isFieldName name = true)
    (hvalue : listener.isFieldValue value = true) (hother : toLower name ≠ utf8 "content-type") :
    (name, value) ∈ (adaptResponse listener resp res).headers := by
  unfold adaptResponse
  dsimp only
  split
  · exact mem_setContent (mem_setHeaders hlookup hname hvalue) hother
  · exact mem_setContent (mem_setHeaders hlookup hname hvalue) hother

/-! ## The handlers of the small routes -/

/-- What the handlers read of the server in one call: the time, the backend, the
pool (whether it accepts, and its depth) and the text of the metrics. -/
structure ServerView where
  now : Int := 0
  startTime : Int := 0
  modelLoaded : Bool := true
  poolReady : Option (Bool × Int) := none
  metricsText : Str := []

/-- `handle_health`. -/
def handleHealth (lib : JsonLib) (view : ServerView) : Except JsonError HttpResponse :=
  (lib.dump (.object
    [(utf8 "status", .string (utf8 "ok")),
     (utf8 "uptime_seconds", .integer (toSeconds (view.now - view.startTime))),
     (utf8 "version", .string (utf8 "0.1.0"))])).map (errorReply 200)

/-- `handle_ready`. -/
def handleReady (lib : JsonLib) (deps : HandlerDeps) (view : ServerView) :
    Except JsonError HttpResponse :=
  let poolAccepting := view.poolReady.elim false Prod.fst
  let ready := view.modelLoaded && poolAccepting
  (lib.dump (.object
    [(utf8 "model_loaded", .boolean view.modelLoaded),
     (utf8 "queue_capacity", .integer (deps.config.elim 0 ServerConfig.maxQueueDepth)),
     (utf8 "queue_depth", .integer (view.poolReady.elim 0 Prod.snd)),
     (utf8 "ready", .boolean ready)])).map (errorReply (if ready then 200 else 503))

/-- The object that lists a voice. -/
def voiceDocument (v : Voice) : Json :=
  .object [(utf8 "id", .string v.id), (utf8 "language", .string v.language),
    (utf8 "name", .string v.name)]

/-- `handle_voices`. -/
def handleVoices (lib : JsonLib) (deps : HandlerDeps) : Except JsonError HttpResponse :=
  (lib.dump (.object
    [(utf8 "voices", .array (deps.voiceCatalog.elim [] fun catalog =>
      catalog.voices.map voiceDocument))])).map (errorReply 200)

/-- `handle_metrics`. -/
def handleMetrics (view : ServerView) : HttpResponse where
  status := 200
  headers := (∅ : Table Str Str).insert (utf8 "Content-Type")
    (utf8 "text/plain; version=0.0.4; charset=utf-8")
  body := view.metricsText

variable {lib : JsonLib} {deps : HandlerDeps} {view : ServerView}

/-- A document of valid UTF-8 makes a reply. -/
theorem dump_reply (hlib : lib.Documented) {document : Json} (h : document.Utf8) (status : Int) :
    ∃ resp, (lib.dump document).map (errorReply status) = .ok resp := by
  obtain ⟨body, hbody⟩ := hlib.dump_utf8 _ h
  exact ⟨_, by rw [hbody]; rfl⟩

theorem handleHealth_ok (hlib : lib.Documented) : ∃ resp, handleHealth lib view = .ok resp := by
  refine dump_reply hlib ?_ 200
  exact .key (.string (validUtf8_utf8 _))
    (.key (.integer _) (.key (.string (validUtf8_utf8 _)) .empty))

theorem handleReady_ok (hlib : lib.Documented) :
    ∃ resp, handleReady lib deps view = .ok resp := by
  refine dump_reply hlib ?_ _
  exact .key (.boolean _) (.key (.integer _) (.key (.integer _) (.key (.boolean _) .empty)))

theorem status_of_map {dumped : Except JsonError Str} {status : Int} {resp : HttpResponse}
    (h : dumped.map (errorReply status) = .ok resp) : resp.status = status := by
  cases dumped with
  | error e => cases h
  | ok body =>
    cases h
    rfl

/-- The status of `handle_ready`. -/
theorem handleReady_status (hlib : lib.Documented) :
    (∃ resp, handleReady lib deps view = .ok resp ∧ resp.status = 200) ↔
      view.modelLoaded = true ∧ view.poolReady.elim false Prod.fst = true := by
  obtain ⟨resp, hresp⟩ : ∃ resp, handleReady lib deps view = .ok resp := handleReady_ok hlib
  have hstatus : resp.status =
      if view.modelLoaded && view.poolReady.elim false Prod.fst then 200 else 503 :=
    status_of_map hresp
  rw [← Bool.and_eq_true]
  constructor
  · rintro ⟨_, hresp', h200⟩
    cases hresp.symm.trans hresp'
    by_contra hready
    rw [hstatus, if_neg hready] at h200
    cases h200
  · intro hready
    exact ⟨resp, hresp, by rw [hstatus, if_pos hready]⟩

theorem presetVoices_utf8 : ∀ v ∈ presetVoices,
    ValidUtf8 v.id ∧ ValidUtf8 v.name ∧ ValidUtf8 v.language := by
  simp [presetVoices, validUtf8_utf8]

theorem voiceDocument_utf8 {v : Voice} (h : v ∈ presetVoices) : (voiceDocument v).Utf8 := by
  obtain ⟨hid, hname, hlanguage⟩ := presetVoices_utf8 v h
  exact .key (.string hid) (.key (.string hlanguage) (.key (.string hname) .empty))

theorem handleVoices_ok (hlib : lib.Documented) : ∃ resp, handleVoices lib deps = .ok resp := by
  refine dump_reply hlib (.key (.array fun j hj => ?_) .empty) 200
  cases hcatalog : deps.voiceCatalog with
  | none =>
    rw [hcatalog] at hj
    cases hj
  | some catalog =>
    rw [hcatalog] at hj
    obtain ⟨v, hv, rfl⟩ := List.mem_map.mp hj
    exact voiceDocument_utf8 (catalog.preset ▸ hv)

end VoxtralServer
