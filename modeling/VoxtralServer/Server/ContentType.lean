import VoxtralServer.Lib.Fields
import VoxtralServer.Server.AdaptRequest
import VoxtralServer.Server.Validation

/-!
# The JSON media type

`validate_content_type` searches the whole header for the text `application/json`.

* `isJson_iff`: the headers whose media type is JSON, by their text before the
  first `;`.
* `content_type_iff`: the headers for which the search finds the media type.
* `jsonp_accepted`: a header of another media type, which is accepted.
-/

namespace VoxtralServer

/-! ## The grammar -/

/-- A space or a tab. -/
def isBlank (c : UInt8) : Bool := c == (' ').toUInt8 || c == 9

/-- The media type of JSON. -/
def jsonType : Str := utf8 "application/json"

/-- The header is the media type of JSON in any case, between blanks, alone or
with parameters after a `;`. -/
def IsJson (header : Str) : Prop :=
  ∃ lead name trail rest, header = lead ++ name ++ trail ++ rest ∧
    (∀ c ∈ lead, isBlank c = true) ∧ toLower name = jsonType ∧
    (∀ c ∈ trail, isBlank c = true) ∧ (rest = [] ∨ rest.head? = some (';').toUInt8)

/-- The media type of the header: what is left of the first `;`, without blanks. -/
def mediaType (header : Str) : Str := Fields.trim isBlank (header.takeWhile (· ≠ (';').toUInt8))

/-- The parameters of the header, from the first `;` on. -/
def parameters (header : Str) : Str := header.dropWhile (· ≠ (';').toUInt8)

theorem parameters_cases (header : Str) :
    parameters header = [] ∨ ∃ rest, parameters header = (';').toUInt8 :: rest := by
  cases h : parameters header with
  | nil => exact .inl rfl
  | cons c rest =>
    have hc := Fields.dropWhile_head (congrArg List.head? h)
    exact .inr ⟨rest, by simpa using hc⟩

/-- The media type of JSON has no blank and no `;`. -/
theorem jsonType_plain : ∀ c ∈ jsonType, isBlank c = false ∧ c ≠ (';').toUInt8 := by
  have hall : (jsonType.all fun c => !isBlank c && c != (';').toUInt8) = true := by decide
  simpa using List.all_eq_true.mp hall

/-- Nor has it in any other case, since `tolower` keeps these characters. -/
theorem plain_of_toLower {name : Str} (h : toLower name = jsonType) :
    ∀ c ∈ name, isBlank c = false ∧ c ≠ (';').toUInt8 := by
  intro c hc
  have hlower := jsonType_plain _ (h.subst (motive := (_ ∈ ·)) (List.mem_map_of_mem hc))
  split at hlower
  · next hupper =>
    refine ⟨?_, fun he => ?_⟩
    · have hspace : c ≠ (' ').toUInt8 := fun he => absurd (he ▸ hupper.1) (by decide)
      have htab : c ≠ 9 := fun he => absurd (he ▸ hupper.1) (by decide)
      simp [isBlank, hspace, htab]
    · exact absurd (he ▸ hupper.1) (by decide)
  · exact hlower

/-- The header has the media type of JSON exactly when its text before the first
`;` is this media type. -/
theorem isJson_iff {header : Str} : IsJson header ↔ toLower (mediaType header) = jsonType := by
  constructor
  · rintro ⟨lead, name, trail, rest, rfl, hlead, hjson, htrail, hhead⟩
    have hname := plain_of_toLower hjson
    have hblank {c : UInt8} (hc : isBlank c = true) : decide (c ≠ (';').toUInt8) = true := by
      rw [decide_eq_true_iff]
      rintro rfl
      cases hc
    have hbefore : ∀ c ∈ lead ++ name ++ trail, decide (c ≠ (';').toUInt8) = true := by
      intro c hc
      rcases List.mem_append.mp hc with hc | hc
      · rcases List.mem_append.mp hc with hc | hc
        · exact hblank (hlead c hc)
        · exact decide_eq_true (hname c hc).2
      · exact hblank (htrail c hc)
    have hrest : rest.takeWhile (· ≠ (';').toUInt8) = [] := by
      rcases hhead with rfl | hhead
      · rfl
      · cases rest with
        | nil => rfl
        | cons c rest =>
          cases hhead
          rfl
    rw [mediaType, List.takeWhile_append_of_pos hbefore, hrest, List.append_nil,
      Fields.trim_append hlead (fun c hc => (hname c hc).1) htrail, hjson]
  · intro h
    obtain ⟨⟨lead, trail, hsplit, hlead, htrail⟩, -⟩ :=
      Fields.trim_spec isBlank (header.takeWhile (· ≠ (';').toUInt8))
    refine ⟨lead, mediaType header, trail, parameters header, ?_, hlead, h, htrail, ?_⟩
    · rw [mediaType, parameters, ← hsplit, List.takeWhile_append_dropWhile]
    · rcases parameters_cases header with hnil | ⟨rest, hcons⟩
      · exact .inl hnil
      · exact .inr (hcons ▸ rfl)

/-! ## The search -/

/-- The search finds the text in the media type or in the parameters. -/
theorem infix_jsonType (header : Str) :
    jsonType <:+: header ↔ jsonType <:+: mediaType header ∨ jsonType <:+: parameters header := by
  have hsemi : (';').toUInt8 ∉ jsonType := fun h => (jsonType_plain _ h).2 rfl
  have hsplit : header = header.takeWhile (· ≠ (';').toUInt8) ++ parameters header :=
    List.takeWhile_append_dropWhile.symm
  rw [mediaType, Fields.infix_trim fun c hc => (jsonType_plain c hc).1]
  conv_lhs => rw [hsplit]
  rcases parameters_cases header with hnil | ⟨rest, hcons⟩
  · rw [hnil, List.append_nil, List.infix_nil]
    exact (or_iff_left (by decide)).symm
  · have hrest := Fields.infix_append_cons (a := []) (b := rest) hsemi
    rw [List.nil_append, List.infix_nil, or_iff_right (by decide)] at hrest
    rw [hcons, Fields.infix_append_cons hsemi, hrest]

/-- The search goes wrong: it misses the media type of JSON in another case, or
finds its text in a longer media type or in the parameters of another one. -/
def SearchMisleads (header : Str) : Prop :=
  if toLower (mediaType header) = jsonType then
    mediaType header ≠ jsonType ∧ ¬ jsonType <:+: parameters header
  else jsonType <:+: mediaType header ∨ jsonType <:+: parameters header

instance (header : Str) : Decidable (SearchMisleads header) := by
  unfold SearchMisleads
  infer_instance

/-- In a media type of this length, the text occurs as the whole. -/
theorem infix_mediaType {name : Str} (h : toLower name = jsonType) :
    jsonType <:+: name ↔ name = jsonType := by
  have hlength : name.length = jsonType.length := by
    rw [← h, toLower, List.length_map]
  constructor
  · intro hfound
    exact (hfound.eq_of_length hlength.symm).symm
  · rintro rfl
    exact List.infix_refl _

/-- **The media type.** A header is accepted exactly when its media type is JSON,
unless the search goes wrong. -/
theorem content_type_iff (header : Str) :
    ((validateContentType header).valid = true ↔ IsJson header) ↔ ¬ SearchMisleads header := by
  rw [validateContentType_valid, isJson_iff, show utf8 "application/json" = jsonType from rfl,
    infix_jsonType, SearchMisleads]
  split
  · next hjson =>
    rw [infix_mediaType hjson]
    tauto
  · next hother => tauto

/-- A header of another media type is accepted. -/
theorem jsonp_accepted :
    (validateContentType (utf8 "application/jsonp")).valid = true ∧
    ¬ IsJson (utf8 "application/jsonp") := by
  refine ⟨by decide, ?_⟩
  rw [isJson_iff]
  decide

end VoxtralServer
