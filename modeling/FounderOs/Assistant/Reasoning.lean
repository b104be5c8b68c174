import FounderOs.Assistant.Retrieval
import FounderOs.Foundation.Dict
import FounderOs.Foundation.Outcome

namespace FounderOs.Assistant

/-- One value for each section of an answer. -/
structure Sections (α : Type) where
  fact : α
  interpretation : α
  objection : α
  recommendation : α

/-- A section as the provider answers it; its schema keeps the text collapsed. -/
structure AssistantLLMSection where
  text : Option Str
  factIds : List Str

structure ValidatedAssistantSection where
  text : Option Str
  citationIds : List Str

def assistantSectionTextMaxChars : Nat := 600
def assistantSectionFactLimit : Nat := 6

def rejectUnless (accepted : Bool) (detail : String) : Except String Unit :=
  if accepted then .ok () else .error detail

/-- `BoundedSectionText` and `normalize_text` -/
def textAccepted : Option Str → Bool
  | none => true
  | some value =>
    1 ≤ value.length && value.length ≤ assistantSectionTextMaxChars && Str.collapse value ≠ [] &&
      (Str.collapse value).all (32 ≤ ·)

/-- `BoundedFactId` and `validate_unique_fact_ids` -/
def factIdsAccepted (factIds : List Str) : Bool :=
  factIds.length ≤ assistantSectionFactLimit &&
    (factIds.all fun id => 1 ≤ id.length && id.length ≤ 80) && factIds.Nodup

/-- `validate_support_shape` -/
def supportShape (part : AssistantLLMSection) : Bool := part.text.isNone == part.factIds.isEmpty

def AssistantLLMSection.accepted (part : AssistantLLMSection) : Bool :=
  textAccepted part.text && factIdsAccepted part.factIds && supportShape part

def parseSection (raw : AssistantLLMSection) : Except String AssistantLLMSection := do
  rejectUnless raw.accepted "assistant provider output failed strict validation"
  return ⟨raw.text.map Str.collapse, raw.factIds⟩

section validate

variable (facts : List AssistantEvidenceFact)

/-- `fact_by_id[fact_id]` -/
def factById (factId : Str) : Except String AssistantEvidenceFact :=
  (Dict.get (Dict.index (·.id) facts) factId).elim
    (.error "assistant referenced an unknown evidence fact") .ok

def validateSection (isFact : Bool) (part : AssistantLLMSection) :
    Except String ValidatedAssistantSection := do
  let supportingFacts ← part.factIds.mapM (factById facts)
  rejectUnless (!isFact || part.text.all fun text => (supportingFacts.map (·.text)).contains text)
    "assistant factual statement was not copied from retrieval"
  let citationIds := (supportingFacts.flatMap (·.citationIds)).eraseDups
  rejectUnless (part.text.isNone || !citationIds.isEmpty)
    "assistant section has no canonical citation"
  return ⟨part.text, citationIds⟩

/-- The schema of the answer, and `validate_assistant_reasoning` behind it. -/
def validateAssistantReasoning (answer : Sections AssistantLLMSection) :
    Except String (Sections ValidatedAssistantSection) := do
  let fact ← parseSection answer.fact
  let interpretation ← parseSection answer.interpretation
  let objection ← parseSection answer.objection
  let recommendation ← parseSection answer.recommendation
  let fact ← validateSection facts true fact
  let interpretation ← validateSection facts false interpretation
  let objection ← validateSection facts false objection
  let recommendation ← validateSection facts false recommendation
  rejectUnless fact.text.isSome "assistant returned no supported fact"
  return ⟨fact, interpretation, objection, recommendation⟩

/-- What a validated section owes to the facts its answer cites. -/
structure Supports (raw : AssistantLLMSection) (validated : ValidatedAssistantSection) : Prop where
  text : validated.text = raw.text.map Str.collapse
  cites : validated.text ≠ none → ∃ fact ∈ facts, fact.id ∈ raw.factIds
  retrieved : ∀ id ∈ raw.factIds, ∃ fact ∈ facts, fact.id = id
  citations : ∀ citation, citation ∈ validated.citationIds ↔
    ∃ fact ∈ facts, fact.id ∈ raw.factIds ∧ citation ∈ fact.citationIds

structure EvidenceBound (answer : Sections AssistantLLMSection)
    (validated : Sections ValidatedAssistantSection) : Prop where
  fact : Supports facts answer.fact validated.fact
  interpretation : Supports facts answer.interpretation validated.interpretation
  objection : Supports facts answer.objection validated.objection
  recommendation : Supports facts answer.recommendation validated.recommendation
  copied : ∃ fact ∈ facts, fact.id ∈ answer.fact.factIds ∧ validated.fact.text = some fact.text

/-- The text of a fact has no control character. -/
def Printable (text : Str) : Prop := ∀ c ∈ text, 32 ≤ c

/-- A section that meets its schema and cites retrieved facts. -/
structure Cites (part : AssistantLLMSection) : Prop where
  accepted : part.accepted = true
  retrieved : ∀ id ∈ part.factIds, ∃ fact ∈ facts, fact.id = id

/-- An answer as it is asked for: its fact section copies a retrieved fact that it cites. -/
structure Copies (answer : Sections AssistantLLMSection) : Prop where
  copied : ∃ fact ∈ facts, answer.fact.text = some fact.text ∧ fact.id ∈ answer.fact.factIds ∧
    Printable fact.text
  limit : answer.fact.factIds.length ≤ assistantSectionFactLimit
  nodup : answer.fact.factIds.Nodup
  retrieved : ∀ id ∈ answer.fact.factIds, ∃ fact ∈ facts, fact.id = id
  interpretation : Cites facts answer.interpretation
  objection : Cites facts answer.objection
  recommendation : Cites facts answer.recommendation

/-- Reasoning is judged by the retrieved facts, and a copy of one of them is let through. -/
structure JudgedExactly : Prop where
  sound : ∀ answer validated, validateAssistantReasoning facts answer = .ok validated →
    EvidenceBound facts answer validated
  complete : ∀ answer, Copies facts answer →
    ∃ validated, validateAssistantReasoning facts answer = .ok validated

end validate

theorem rejectUnless_ok {accepted : Bool} {detail : String} {u : Unit}
    (h : rejectUnless accepted detail = .ok u) : accepted = true := by
  cases accepted with
  | true => rfl
  | false => cases h

variable {facts : List AssistantEvidenceFact} {raw part : AssistantLLMSection} {isFact : Bool}
  {validated : ValidatedAssistantSection}

theorem factById_ok (h : Retrieved facts) {factId : Str} {fact : AssistantEvidenceFact} :
    factById facts factId = .ok fact ↔ fact ∈ facts ∧ fact.id = factId := by
  rw [factById, ← Dict.get_index (Dict.Unique.of_nodup h.nodup)]
  cases Dict.get (Dict.index (·.id) facts) factId with
  | none => simp
  | some found => simp

theorem parseSection_ok (h : parseSection raw = .ok part) :
    raw.accepted = true ∧ part = ⟨raw.text.map Str.collapse, raw.factIds⟩ := by
  obtain ⟨_, haccepted, h⟩ := ok_of_bind_ok h
  cases h
  exact ⟨rejectUnless_ok haccepted, rfl⟩

theorem parseSection_accepted (h : raw.accepted = true) :
    parseSection raw = .ok ⟨raw.text.map Str.collapse, raw.factIds⟩ := by
  rw [parseSection, rejectUnless, if_pos h]
  rfl

/-- The facts a section is supported by. -/
theorem mem_supporting (h : Retrieved facts) {factIds : List Str}
    {supporting : List AssistantEvidenceFact} (hok : factIds.mapM (factById facts) = .ok supporting)
    (fact : AssistantEvidenceFact) : fact ∈ supporting ↔ fact ∈ facts ∧ fact.id ∈ factIds := by
  rw [mem_mapM_ok hok]
  simp only [factById_ok h]
  constructor
  · rintro ⟨id, hid, hfact, rfl⟩
    exact ⟨hfact, hid⟩
  · rintro ⟨hfact, hid⟩
    exact ⟨fact.id, hid, hfact, rfl⟩

theorem retrieved_of_supporting (h : Retrieved facts) {factIds : List Str}
    {supporting : List AssistantEvidenceFact}
    (hok : factIds.mapM (factById facts) = .ok supporting) :
    ∀ id ∈ factIds, ∃ fact ∈ facts, fact.id = id := by
  intro id hid
  obtain ⟨fact, -, hfact⟩ := mem_of_mapM_ok hok hid
  obtain ⟨hmem, hkey⟩ := (factById_ok h).1 hfact
  exact ⟨fact, hmem, hkey⟩

theorem factIds_ne_nil (h : raw.accepted = true) (htext : raw.text ≠ none) : raw.factIds ≠ [] := by
  simp only [AssistantLLMSection.accepted, supportShape, Bool.and_eq_true, beq_iff_eq] at h
  intro hnone
  have hshape := h.2
  rw [hnone] at hshape
  exact htext (Option.isNone_iff_eq_none.1 hshape)

theorem validateSection_supports (h : Retrieved facts) (hraw : parseSection raw = .ok part)
    (hok : validateSection facts isFact part = .ok validated) :
    Supports facts raw validated ∧ (isFact = true → ∀ text, validated.text = some text →
      ∃ fact ∈ facts, fact.id ∈ raw.factIds ∧ fact.text = text) := by
  obtain ⟨haccepted, rfl⟩ := parseSection_ok hraw
  obtain ⟨supporting, hsupporting, hok⟩ := ok_of_bind_ok hok
  obtain ⟨_, hcopied, hok⟩ := ok_of_bind_ok hok
  obtain ⟨_, hcited, hok⟩ := ok_of_bind_ok hok
  cases hok
  have hmem := mem_supporting h hsupporting
  refine ⟨⟨rfl, fun htext => ?_, retrieved_of_supporting h hsupporting, fun citation => ?_⟩,
    fun hfact text htext => ?_⟩
  · have hraw : raw.text ≠ none := by
      intro hnone
      rw [hnone] at htext
      exact htext rfl
    obtain ⟨id, hid⟩ := List.exists_mem_of_ne_nil _ (factIds_ne_nil haccepted hraw)
    obtain ⟨fact, hfact, rfl⟩ := retrieved_of_supporting h hsupporting id hid
    exact ⟨fact, hfact, hid⟩
  · rw [List.mem_eraseDups, List.mem_flatMap]
    simp only [hmem, and_assoc]
  · have hcopied := rejectUnless_ok hcopied
    have htext : raw.text.map Str.collapse = some text := htext
    rw [hfact, htext, Bool.not_true, Bool.false_or, Option.all_some, List.contains_iff_mem,
      List.mem_map] at hcopied
    obtain ⟨fact, hsupported, htext⟩ := hcopied
    exact ⟨fact, ((hmem fact).1 hsupported).1, ((hmem fact).1 hsupported).2, htext⟩

theorem validate_sound (h : Retrieved facts) {answer : Sections AssistantLLMSection}
    {validated : Sections ValidatedAssistantSection}
    (hok : validateAssistantReasoning facts answer = .ok validated) :
    EvidenceBound facts answer validated := by
  obtain ⟨_, hfact, hok⟩ := ok_of_bind_ok hok
  obtain ⟨_, hinterpretation, hok⟩ := ok_of_bind_ok hok
  obtain ⟨_, hobjection, hok⟩ := ok_of_bind_ok hok
  obtain ⟨_, hrecommendation, hok⟩ := ok_of_bind_ok hok
  obtain ⟨fact, hfact', hok⟩ := ok_of_bind_ok hok
  obtain ⟨_, hinterpretation', hok⟩ := ok_of_bind_ok hok
  obtain ⟨_, hobjection', hok⟩ := ok_of_bind_ok hok
  obtain ⟨_, hrecommendation', hok⟩ := ok_of_bind_ok hok
  obtain ⟨_, hsome, hok⟩ := ok_of_bind_ok hok
  cases hok
  obtain ⟨hsupports, hcopied⟩ := validateSection_supports h hfact hfact'
  refine ⟨hsupports, (validateSection_supports h hinterpretation hinterpretation').1,
    (validateSection_supports h hobjection hobjection').1,
    (validateSection_supports h hrecommendation hrecommendation').1, ?_⟩
  obtain ⟨text, htext⟩ := Option.isSome_iff_exists.1 (rejectUnless_ok hsome)
  obtain ⟨source, hsource, hid, hsame⟩ := hcopied rfl text htext
  exact ⟨source, hsource, hid, hsame ▸ htext⟩

/-- A section that cites retrieved facts is validated, where its text is copied if it has to be. -/
theorem validateSection_ok (h : Retrieved facts) (haccepted : raw.accepted = true)
    (hids : ∀ id ∈ raw.factIds, ∃ fact ∈ facts, fact.id = id)
    (hcopied : isFact = true → ∃ fact ∈ facts, fact.id ∈ raw.factIds ∧
      raw.text.map Str.collapse = some fact.text) :
    ∃ citationIds, validateSection facts isFact ⟨raw.text.map Str.collapse, raw.factIds⟩ =
      .ok ⟨raw.text.map Str.collapse, citationIds⟩ := by
  have hlookup : ∀ id ∈ raw.factIds, ∃ fact, factById facts id = .ok fact := by
    intro id hid
    obtain ⟨fact, hfact⟩ := hids id hid
    exact ⟨fact, (factById_ok h).2 hfact⟩
  obtain ⟨supporting, hsupporting⟩ := mapM_ok_iff.2 hlookup
  have hmem := mem_supporting h hsupporting
  have htexts : (!isFact || (raw.text.map Str.collapse).all fun text =>
      (supporting.map (·.text)).contains text) = true := by
    cases isFact with
    | false => rfl
    | true =>
      obtain ⟨fact, hfact, hid, htext⟩ := hcopied rfl
      rw [htext, Bool.not_true, Bool.false_or, Option.all_some, List.contains_iff_mem]
      exact List.mem_map_of_mem ((hmem fact).2 ⟨hfact, hid⟩)
  have hcited : ((raw.text.map Str.collapse).isNone ||
      !((supporting.flatMap (·.citationIds)).eraseDups).isEmpty) = true := by
    by_cases htext : raw.text = none
    · rw [htext]
      rfl
    · obtain ⟨id, hid⟩ := List.exists_mem_of_ne_nil _ (factIds_ne_nil haccepted htext)
      obtain ⟨fact, hfact, rfl⟩ := hids id hid
      obtain ⟨draft, hdraft⟩ := h.texts fact hfact
      obtain ⟨citation, hcitation⟩ := List.exists_mem_of_ne_nil _ hdraft.cited
      have hcite : citation ∈ (supporting.flatMap (·.citationIds)).eraseDups :=
        List.mem_eraseDups.2 (List.mem_flatMap.2 ⟨fact, (hmem fact).2 ⟨hfact, hid⟩, hcitation⟩)
      simp [List.ne_nil_of_mem hcite]
  refine ⟨(supporting.flatMap (·.citationIds)).eraseDups, ?_⟩
  rw [validateSection, hsupporting]
  show (rejectUnless _ _ >>= _) = _
  rw [rejectUnless, if_pos htexts]
  show (rejectUnless _ _ >>= _) = _
  rw [rejectUnless, if_pos hcited]
  rfl

theorem factIdsAccepted_of_retrieved (h : Retrieved facts) {factIds : List Str}
    (hlimit : factIds.length ≤ assistantSectionFactLimit) (hnodup : factIds.Nodup)
    (hids : ∀ id ∈ factIds, ∃ fact ∈ facts, fact.id = id) : factIdsAccepted factIds = true := by
  simp only [factIdsAccepted, Bool.and_eq_true, decide_eq_true_eq, List.all_eq_true]
  refine ⟨⟨hlimit, fun id hid => ?_⟩, hnodup⟩
  obtain ⟨fact, hfact, rfl⟩ := hids id hid
  exact ⟨List.length_pos_of_ne_nil (h.id_length hfact).1, (h.id_length hfact).2⟩

/-- The text of a retrieved fact passes the schema when it is its own collapsed form. -/
theorem textAccepted_of_retrieved (h : Retrieved facts) {fact : AssistantEvidenceFact}
    (hfact : fact ∈ facts) (hprintable : Printable fact.text)
    (hwhole : fact.text.getLast? ≠ some 32) : textAccepted (some fact.text) = true := by
  obtain ⟨draft, hdraft⟩ := h.texts fact hfact
  have hlength : fact.text.length ≤ 420 := by
    rw [hdraft.text]
    exact List.length_take_le 420 _
  have hpos := List.length_pos_of_ne_nil hdraft.text_ne_nil
  have hlimit : fact.text.length ≤ assistantSectionTextMaxChars := by
    rw [assistantSectionTextMaxChars]
    omega
  simp only [textAccepted, (h.collapse_text hfact).2 hwhole, Bool.and_eq_true, decide_eq_true_eq,
    List.all_eq_true]
  exact ⟨⟨⟨hpos, hlimit⟩, hdraft.text_ne_nil⟩, hprintable⟩

theorem Copies.accepted (h : Retrieved facts) {answer : Sections AssistantLLMSection}
    (hcopies : Copies facts answer)
    (hwhole : ∀ fact ∈ facts, Printable fact.text → fact.text.getLast? ≠ some 32) :
    ∃ validated, validateAssistantReasoning facts answer = .ok validated := by
  obtain ⟨fact, hfact, htext, hid, hprintable⟩ := hcopies.copied
  have huncut := hwhole fact hfact hprintable
  have hshape : answer.fact.accepted = true := by
    have hids := factIdsAccepted_of_retrieved h hcopies.limit hcopies.nodup hcopies.retrieved
    have hsome := textAccepted_of_retrieved h hfact hprintable huncut
    have hne : answer.fact.factIds ≠ [] := List.ne_nil_of_mem hid
    simp [AssistantLLMSection.accepted, supportShape, htext, hids, hsome, hne]
  have hcopied : answer.fact.text.map Str.collapse = some fact.text := by
    rw [htext, Option.map_some, (h.collapse_text hfact).2 huncut]
  have hfactPart : ∃ citationIds, validateSection facts true
      ⟨answer.fact.text.map Str.collapse, answer.fact.factIds⟩ =
        .ok ⟨answer.fact.text.map Str.collapse, citationIds⟩ :=
    validateSection_ok h hshape hcopies.retrieved fun _ => ⟨fact, hfact, hid, hcopied⟩
  have hother : ∀ {part : AssistantLLMSection}, Cites facts part → ∃ citationIds,
      validateSection facts false ⟨part.text.map Str.collapse, part.factIds⟩ =
        .ok ⟨part.text.map Str.collapse, citationIds⟩ := fun hpart =>
    validateSection_ok h hpart.accepted hpart.retrieved fun hfalse => by cases hfalse
  obtain ⟨ids₁, h₁⟩ := hfactPart
  obtain ⟨ids₂, h₂⟩ := hother hcopies.interpretation
  obtain ⟨ids₃, h₃⟩ := hother hcopies.objection
  obtain ⟨ids₄, h₄⟩ := hother hcopies.recommendation
  refine ⟨⟨⟨some fact.text, ids₁⟩, ⟨answer.interpretation.text.map Str.collapse, ids₂⟩,
    ⟨answer.objection.text.map Str.collapse, ids₃⟩,
    ⟨answer.recommendation.text.map Str.collapse, ids₄⟩⟩, ?_⟩
  rw [validateAssistantReasoning, parseSection_accepted hshape,
    parseSection_accepted hcopies.interpretation.accepted,
    parseSection_accepted hcopies.objection.accepted,
    parseSection_accepted hcopies.recommendation.accepted]
  show (validateSection _ _ _ >>= _) = _
  rw [h₁]
  show (validateSection _ _ _ >>= _) = _
  rw [h₂]
  show (validateSection _ _ _ >>= _) = _
  rw [h₃]
  show (validateSection _ _ _ >>= _) = _
  rw [h₄, hcopied]
  rfl

/-- The answer that copies one fact and leaves the other sections empty. -/
def copyOf (fact : AssistantEvidenceFact) : Sections AssistantLLMSection where
  fact := ⟨some fact.text, [fact.id]⟩
  interpretation := ⟨none, []⟩
  objection := ⟨none, []⟩
  recommendation := ⟨none, []⟩

theorem copies_copyOf {fact : AssistantEvidenceFact} (hfact : fact ∈ facts)
    (hprintable : Printable fact.text) : Copies facts (copyOf fact) := by
  have hempty : Cites facts ⟨none, []⟩ := ⟨by decide, by simp⟩
  refine ⟨⟨fact, hfact, rfl, List.mem_singleton_self _, hprintable⟩,
    (by decide : 1 ≤ assistantSectionFactLimit), List.nodup_singleton _, fun id hid => ?_,
    hempty, hempty, hempty⟩
  exact ⟨fact, hfact, (List.mem_singleton.1 hid).symm⟩

theorem whole_of_judged (h : Retrieved facts) (hjudged : JudgedExactly facts)
    {fact : AssistantEvidenceFact} (hfact : fact ∈ facts) (hprintable : Printable fact.text) :
    fact.text.getLast? ≠ some 32 := by
  obtain ⟨validated, hok⟩ := hjudged.complete _ (copies_copyOf hfact hprintable)
  have hbound := hjudged.sound _ _ hok
  obtain ⟨source, hsource, hid, htext⟩ := hbound.copied
  have hsame : source = fact := Dict.Unique.of_nodup h.nodup source hsource fact hfact
    (List.mem_singleton.1 hid)
  rw [hbound.fact.text, hsame] at htext
  exact (h.collapse_text hfact).1 (Option.some.inj htext)

/-- A mission of the longest title and summary, whose status breaks at the cut. -/
def longMission : Mission where
  title := some (List.replicate 180 97)
  summary := some (List.replicate 180 97)
  whyNow := none
  status := some (List.replicate 49 97 ++ [32, 97])
  evidenceRefs := [⟨some (Str.of "evidence_ref:1"), some (Str.of "canonical_evidence_ref"),
    some (Str.of "verified"), some (Str.of "evidence_ref"), true⟩]

def longSnapshot : Snapshot where
  id := some (Str.of "hqs1")
  priority := none
  queue := [longMission]
  sources := ⟨none, none, none⟩
  pulse := []
  onboarding := []
  workspaceName := none

theorem longSnapshot_cut : ((assistantRetrieval longSnapshot).any fun fact =>
    fact.text.all (32 ≤ ·) && fact.text.getLast? = some 32) = true := by
  decide +kernel

end FounderOs.Assistant
