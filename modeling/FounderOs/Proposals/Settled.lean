import FounderOs.Proposals.NonGithubItems

namespace FounderOs.Proposals

open Headquarters Execution

section citable

variable {Digest : Type} (rules : EvidenceRules Digest)

/-- One line, with no space but the plain one and no control character. -/
def PlainLine (text : Str) : Prop :=
  ∀ c ∈ text, (Str.isSpace c = true → c = 32) ∧ 32 ≤ c ∧ c ≠ 127

structure PlainUrl (url : Str) : Prop where
  line : PlainLine url
  length_le : url.length ≤ actionEvidenceUrlMaxLength
  backslash : 92 ∉ url
  space : ∀ c ∈ url, Str.isSpace c = false
  http : rules.httpUrl url = true

structure BriefingRef.Citable (ref : BriefingRef) : Prop where
  kind : PlainLine ref.kind
  kind_le : ref.kind.length ≤ actionEvidenceKindMaxLength
  source : PlainLine ref.source
  source_le : ref.source.length ≤ actionEvidenceSourceMaxLength
  label : PlainLine ref.label
  label_le : ref.label.length ≤ actionEvidenceSelectorMaxLength
  url : ∀ url ∈ ref.url, PlainUrl rules url

/-- The length of the references as `json.dumps` writes them. -/
def evidenceBytes (refs : List BriefingRef) : Nat :=
  (dumpsSize (.arr (refs.map BriefingRef.value))).getD 0

structure NonGithubItem.Citable (item : NonGithubItem) : Prop where
  refs : ∀ ref ∈ item.evidenceRefs, ref.Citable rules
  bytes : evidenceBytes item.evidenceRefs ≤ actionProposalEvidenceRefsMaxBytes

/-- A text as `_safe_text` returns it. -/
def Stripped (text : Str) : Prop := Str.strip text = text ∧ text ≠ []

structure BriefingRef.Stripped (ref : BriefingRef) : Prop where
  kind : Proposals.Stripped ref.kind
  source : Proposals.Stripped ref.source
  label : Proposals.Stripped ref.label
  url : ∀ url ∈ ref.url, Proposals.Stripped url

variable {text : Str} {ref : BriefingRef} {p : Str → Bool}

theorem stripped_of_textOf {raw : Str} (h : textOf raw = some text) : Stripped text := by
  have hvalue : (if Str.strip raw = [] then none else some (Str.strip raw)) = some text := h
  split at hvalue
  · cases hvalue
  · rename_i hne
    cases hvalue
    exact ⟨Str.strip_strip raw, hne⟩

theorem strictText_any (h : Stripped text) :
    (strictText (.str text)).any p = true ↔ PlainLine text ∧ p text = true := by
  have hplain : PlainLine text ↔ text.any (fun c => Str.isSpace c && c != 32) = false ∧
      text.any (fun c => c < 32 || c == 127) = false := by
    simp only [PlainLine, List.any_eq_false, Bool.and_eq_true, Bool.or_eq_true, bne_iff_ne,
      beq_iff_eq, decide_eq_true_eq]
    constructor
    · intro hall
      refine ⟨fun c hc hspace => hspace.2 ((hall c hc).1 hspace.1), fun c hc hcontrol => ?_⟩
      have hc := (hall c hc).2
      omega
    · rintro ⟨hspaces, hcontrols⟩ c hc
      have hcontrol := hcontrols c hc
      refine ⟨fun hspace => ?_, by omega⟩
      by_contra hne
      exact hspaces c hc ⟨hspace, hne⟩
  have hkept : ¬(text = [] ∨ text ≠ Str.strip text) :=
    not_or.2 ⟨h.2, fun hne => hne h.1.symm⟩
  simp only [strictText, Field.asStr, Option.bind_some, if_neg hkept, hplain]
  cases hspace : text.any (fun c => Str.isSpace c && c != 32) with
  | true => simp
  | false =>
    cases hcontrol : text.any (fun c => c < 32 || c == 127) with
    | true => simp
    | false => simp

theorem urlIsSafe_iff (h : Stripped text) :
    actionEvidenceUrlIsSafe rules (.str text) = true ↔ PlainUrl rules text := by
  rw [actionEvidenceUrlIsSafe, strictText_any h]
  simp only [Bool.and_eq_true, decide_eq_true_eq, Bool.not_eq_true', List.any_eq_false,
    List.contains_eq_mem, decide_eq_false_iff_not, Bool.not_eq_true]
  constructor
  · rintro ⟨hline, ⟨⟨hlength, hbackslash⟩, hspace⟩, hhttp⟩
    exact ⟨hline, hlength, hbackslash, hspace, hhttp⟩
  · rintro ⟨hline, hlength, hbackslash, hspace, hhttp⟩
    exact ⟨hline, ⟨⟨hlength, hbackslash⟩, hspace⟩, hhttp⟩

/-- The fields of a reference as the schema reads them. -/
def BriefingRef.fields (ref : BriefingRef) : Fields :=
  [(Str.of "kind", .str ref.kind), (Str.of "source", .str ref.source),
    (Str.of "ref", .str ref.label), (Str.of "url", textColumn ref.url)]

theorem evidenceRefMatches_fields (ref : BriefingRef) :
    evidenceRefMatches rules ref.value = actionEvidenceRefMatchesSchema rules ref.fields := by
  obtain ⟨kind, source, label, url⟩ := ref
  cases url <;> rfl

theorem matchesSchema_fields (ref : BriefingRef) :
    actionEvidenceRefMatchesSchema rules ref.fields =
      ((strictText (.str ref.kind)).any (fun kind => kind.length ≤ actionEvidenceKindMaxLength) &&
        (strictText (.str ref.source)).any
          (fun source => source.length ≤ actionEvidenceSourceMaxLength) &&
        (strictText (.str ref.label)).any
          (fun text => text.length ≤ actionEvidenceSelectorMaxLength) &&
        (textColumn ref.url = .null || actionEvidenceUrlIsSafe rules (textColumn ref.url))) := by
  have hallowed : ref.fields.all (fun f => decide (f.1 ∈ actionEvidenceAllowedKeys)) = true := rfl
  have hselectors : (selectorKeys.filter fun key => field ref.fields key ≠ .null) = ["ref"] := rfl
  have huuid : uuidSelectorKeys.all (fun key => field ref.fields key = .null ||
      (strictText (field ref.fields key)).any fun text => (rules.uuid text).isSome) = true := rfl
  unfold actionEvidenceRefMatchesSchema
  rw [hallowed, hselectors, huuid]
  simp only [List.map_cons, List.map_nil, List.isEmpty_cons, List.all_cons, List.all_nil,
    Bool.not_false, Bool.and_true, Bool.true_and]
  rfl

/-- The schema takes a reference of the briefing exactly when its texts are plain and short. -/
theorem evidenceRefMatches_value (h : ref.Stripped) :
    evidenceRefMatches rules ref.value = true ↔ ref.Citable rules := by
  have hurl : (textColumn ref.url = .null || actionEvidenceUrlIsSafe rules (textColumn ref.url)) =
      true ↔ ∀ url ∈ ref.url, PlainUrl rules url := by
    cases hsaved : ref.url with
    | none => simp [textColumn]
    | some url =>
      have hstripped := h.url url hsaved
      simp [textColumn, urlIsSafe_iff rules hstripped]
  rw [evidenceRefMatches_fields, matchesSchema_fields]
  simp only [Bool.and_eq_true, strictText_any h.kind, strictText_any h.source,
    strictText_any h.label, hurl, decide_eq_true_eq]
  constructor
  · rintro ⟨⟨⟨hkind, hsource⟩, hlabel⟩, hurl⟩
    exact ⟨hkind.1, hkind.2, hsource.1, hsource.2, hlabel.1, hlabel.2, hurl⟩
  · rintro ⟨hkind, hkindLe, hsource, hsourceLe, hlabel, hlabelLe, hurl⟩
    exact ⟨⟨⟨⟨hkind, hkindLe⟩, hsource, hsourceLe⟩, hlabel, hlabelLe⟩, hurl⟩

end citable

section sizes

variable {c limit : Nat} {text : Str} {texts : List Str} {refs : List BriefingRef}

theorem escapedSize_le (c : Nat) : escapedSize c ≤ 12 := by
  unfold escapedSize
  split_ifs <;> omega

theorem textSize_le (text : Str) : textSize text ≤ 12 * text.length + 2 := by
  induction text with
  | nil => exact Nat.le_refl 2
  | cons c text ih =>
    have hc := escapedSize_le c
    have hcons : textSize (c :: text) = escapedSize c + textSize text := rfl
    rw [hcons, List.length_cons]
    omega

theorem textSize_of_length_le (h : text.length ≤ limit) : textSize text ≤ 12 * limit + 2 := by
  have hsize := textSize_le text
  omega

theorem itemsSize_texts (h : ∀ text ∈ texts, text.length ≤ limit) :
    ∃ size, itemsSize (texts.map Value.str) = some size ∧
      size ≤ texts.length * (12 * limit + 4) := by
  induction texts with
  | nil => exact ⟨0, rfl, Nat.zero_le _⟩
  | cons text texts ih =>
    obtain ⟨size, hsize, hle⟩ := ih fun t ht => h t (List.mem_cons_of_mem text ht)
    have htext := textSize_of_length_le (h text List.mem_cons_self)
    refine ⟨_, by rw [List.map_cons, itemsSize, dumpsSize, hsize]; rfl, ?_⟩
    rw [List.length_cons, Nat.succ_mul]
    split <;> omega

theorem dumpsSize_ref (ref : BriefingRef) : (dumpsSize ref.value).isSome = true := by
  obtain ⟨kind, source, label, url⟩ := ref
  cases url <;> rfl

theorem itemsSize_refs (refs : List BriefingRef) :
    (itemsSize (refs.map BriefingRef.value)).isSome = true := by
  induction refs with
  | nil => rfl
  | cons ref refs ih =>
    obtain ⟨size, hsize⟩ := Option.isSome_iff_exists.1 (dumpsSize_ref ref)
    obtain ⟨rest, hrest⟩ := Option.isSome_iff_exists.1 ih
    rw [List.map_cons, itemsSize, hsize, hrest]
    rfl

theorem dumpsSize_refs (refs : List BriefingRef) :
    dumpsSize (.arr (refs.map BriefingRef.value)) = some (evidenceBytes refs) := by
  obtain ⟨size, hsize⟩ := Option.isSome_iff_exists.1 (itemsSize_refs refs)
  rw [evidenceBytes, dumpsSize, hsize]
  rfl

end sizes

section items

variable {casefold : Str → Str} {brain : Brain} {item : NonGithubItem} {ref : BriefingRef}
  {limit : Nat} {text raw : Str}

theorem stripped_briefingRef {source : SourceRef} (h : briefingRef source = some ref) :
    ref.Stripped := by
  have hdefault : ∀ {raw default : Str}, Stripped default →
      Stripped ((textOf raw).getD default) := by
    intro raw default hdefault
    cases htext : textOf raw with
    | none => exact hdefault
    | some text => exact stripped_of_textOf htext
  obtain ⟨label, hlabel, rfl⟩ := Option.map_eq_some_iff.1 h
  refine ⟨hdefault ⟨by decide +kernel, by decide +kernel⟩,
    hdefault ⟨by decide +kernel, by decide +kernel⟩, ?_, fun url hurl => ?_⟩
  · rcases Option.or_eq_some_iff.1 hlabel with htext | ⟨-, htext⟩
    · exact stripped_of_textOf htext
    · exact stripped_of_textOf htext
  · obtain ⟨htext, -⟩ := Option.filter_eq_some_iff.1 hurl
    obtain ⟨raw, -, htext⟩ := Option.bind_eq_some_iff.1 htext
    exact stripped_of_textOf htext

theorem evidence_of_rows (rows : List (List SourceRef)) :
    (companyBrainRowEvidenceRefs rows).length ≤ 20 ∧
      ∀ ref ∈ companyBrainRowEvidenceRefs rows, ref.Stripped := by
  refine ⟨List.length_take_le _ _, fun ref href => ?_⟩
  have hmem := List.mem_eraseDups.1 (List.mem_of_mem_take href)
  obtain ⟨source, -, hsource⟩ := List.mem_filterMap.1 hmem
  exact stripped_briefingRef hsource

theorem length_clipText (hlimit : 0 < limit) (h : clipText raw limit = some text) :
    text.length ≤ limit := by
  obtain ⟨clipped, -, rfl⟩ := Option.map_eq_some_iff.1 h
  split
  · assumption
  · rw [List.length_append, List.length_take, List.length_singleton]
    omega

theorem length_uniqueTexts {values : List (Option Str)} :
    ∀ text ∈ uniqueTexts values, text.length ≤ 120 := by
  intro text htext
  obtain ⟨value, -, hvalue⟩ := List.mem_filterMap.1 (List.mem_eraseDups.1 htext)
  obtain ⟨raw, -, hclip⟩ := Option.bind_eq_some_iff.1 hvalue
  exact length_clipText (Nat.zero_lt_succ 119) hclip

/-- What an item of the four has whatever is in the brain. -/
structure NonGithubItem.Bounded (item : NonGithubItem) : Prop where
  key : item.itemId ∈ actionableNonGithubBriefingItemKeys
  category : item.category.length ≤ 20
  severity : item.severity.length ≤ 20
  step : item.recommendedNextStep.length ≤ 400
  stripped : Stripped item.recommendedNextStep
  related : item.relatedEntities.length ≤ 5
  texts : ∀ text ∈ item.relatedEntities, text.length ≤ 120
  refs : item.evidenceRefs.length ≤ 20
  plain : ∀ ref ∈ item.evidenceRefs, ref.Stripped

/-- The steps that the four items recommend. -/
def recommendedSteps : List Str :=
  [Str.of ("Review local Jira issues in /jira or Company Brain and create " ++
      "evidence-backed internal follow-ups where needed."),
    Str.of ("Review unread local Gmail messages in /gmail and create " ++
      "evidence-backed internal follow-ups where needed."),
    Str.of ("Use /gmail as the local evidence surface before turning " ++
      "messages into follow-up actions."),
    Str.of ("Review local Drive file metadata in /drive and attach " ++
      "evidence-backed follow-ups for important documents."),
    Str.of ("Review internal documents in /documents; use their evidence-backed " ++
      "context when interpreting briefing items.")]

theorem recommendedSteps_plain : ∀ step ∈ recommendedSteps,
    step.length ≤ 400 ∧ Str.strip step = step ∧ step ≠ [] := by
  decide +kernel

/-- The categories and the severities of the four items. -/
def itemWords : List Str := ["next_step", "update", "medium", "low"].map Str.of

theorem itemWords_short : ∀ word ∈ itemWords, word.length ≤ 20 := by
  decide +kernel

theorem bounded_of_parts {rows : List (List SourceRef)}
    (hkey : item.itemId ∈ actionableNonGithubBriefingItemKeys)
    (hcategory : item.category ∈ itemWords) (hseverity : item.severity ∈ itemWords)
    (hstep : item.recommendedNextStep ∈ recommendedSteps)
    (hrefs : item.evidenceRefs = companyBrainRowEvidenceRefs rows)
    (hrelated : ∃ values, item.relatedEntities = (uniqueTexts values).take 5) : item.Bounded := by
  obtain ⟨values, hrelated⟩ := hrelated
  obtain ⟨hlength, hstrip, hne⟩ := recommendedSteps_plain _ hstep
  obtain ⟨hcount, hplain⟩ := evidence_of_rows rows
  refine ⟨hkey, itemWords_short _ hcategory, itemWords_short _ hseverity, hlength, ⟨hstrip, hne⟩,
    ?_, ?_, hrefs ▸ hcount, hrefs ▸ hplain⟩
  · rw [hrelated]
    exact List.length_take_le 5 _
  · rw [hrelated]
    exact fun text htext => length_uniqueTexts text (List.mem_of_mem_take htext)

theorem bounded_jira (h : jiraWorkItem casefold brain = some item) : item.Bounded := by
  unfold jiraWorkItem at h
  dsimp only at h
  split at h
  · cases h
  · cases h
    refine bounded_of_parts (List.mem_of_elem_eq_true rfl) (List.mem_of_elem_eq_true rfl)
      (List.mem_of_elem_eq_true rfl)
      (List.mem_of_getElem? (i := 0) rfl) rfl ?_
    dsimp only
    split
    · exact ⟨_, rfl⟩
    · exact ⟨_, rfl⟩

theorem bounded_gmail (h : gmailMessagesItem casefold brain = some item) : item.Bounded := by
  unfold gmailMessagesItem at h
  dsimp only at h
  split at h
  · cases h
  · cases h
    refine bounded_of_parts (List.mem_of_elem_eq_true rfl) ?_ ?_ ?_ rfl ⟨_, rfl⟩
    · dsimp only
      split
      · exact List.mem_of_elem_eq_true rfl
      · exact List.mem_of_elem_eq_true rfl
    · dsimp only
      split
      · exact List.mem_of_elem_eq_true rfl
      · exact List.mem_of_elem_eq_true rfl
    · dsimp only
      split
      · exact List.mem_of_getElem? (i := 1) rfl
      · exact List.mem_of_getElem? (i := 2) rfl

theorem bounded_drive (h : driveFilesItem casefold brain = some item) : item.Bounded := by
  unfold driveFilesItem at h
  dsimp only at h
  split at h
  · cases h
  · cases h
    exact bounded_of_parts (List.mem_of_elem_eq_true rfl) (List.mem_of_elem_eq_true rfl)
      (List.mem_of_elem_eq_true rfl)
      (List.mem_of_getElem? (i := 3) rfl) rfl ⟨_, rfl⟩

theorem bounded_internal (h : internalDocumentsItem brain = some item) : item.Bounded := by
  unfold internalDocumentsItem at h
  dsimp only at h
  split at h
  · cases h
  · cases h
    exact bounded_of_parts (List.mem_of_elem_eq_true rfl) (List.mem_of_elem_eq_true rfl)
      (List.mem_of_elem_eq_true rfl)
      (List.mem_of_getElem? (i := 4) rfl) rfl ⟨_, rfl⟩

theorem bounded_of_mem (h : item ∈ nonGithubCompanyBrainItems casefold brain) :
    item.Bounded := by
  obtain ⟨made, hmade, hitem⟩ := List.mem_filterMap.1 h
  obtain rfl : made = some item := hitem
  simp only [List.mem_cons, List.not_mem_nil, or_false] at hmade
  rcases hmade with hmade | hmade | hmade | hmade
  · exact bounded_jira hmade.symm
  · exact bounded_gmail hmade.symm
  · exact bounded_drive hmade.symm
  · exact bounded_internal hmade.symm

end items

section request

variable {Digest : Type} {rules : EvidenceRules Digest} {table : Nat → Str} {briefing : Briefing}
  {itemIds : Str → Uuid} {item : NonGithubItem} {fields : Object} {texts : List Str}

theorem fieldsSize_le {a b : Nat} (h : ∀ f ∈ fields, textSize f.1 ≤ a ∧
    ∃ size, dumpsSize f.2 = some size ∧ size ≤ b) :
    ∃ size, fieldsSize fields = some size ∧ size ≤ fields.length * (a + b + 4) := by
  induction fields with
  | nil => exact ⟨0, rfl, Nat.zero_le _⟩
  | cons f fields ih =>
    obtain ⟨rest, hrest, hle⟩ := ih fun f hf => h f (List.mem_cons_of_mem _ hf)
    obtain ⟨hkey, size, hsize, hvalue⟩ := h f List.mem_cons_self
    obtain ⟨key, value⟩ := f
    have hkey : textSize key ≤ a := hkey
    refine ⟨_, by rw [fieldsSize, hsize, hrest]; rfl, ?_⟩
    rw [List.length_cons, Nat.succ_mul]
    split <;> omega

theorem actionableKeys_short : ∀ key ∈ actionableNonGithubBriefingItemKeys,
    key.length ≤ 40 := by
  decide +kernel

theorem dumpsSize_text {text : Str} {limit : Nat} (h : text.length ≤ limit) (hlimit : limit ≤ 400) :
    ∃ size, dumpsSize (.str text) = some size ∧ size ≤ 8000 := by
  have hsize := textSize_of_length_le h
  exact ⟨_, rfl, by omega⟩

theorem payload_small (briefing : Briefing) (itemIds : Str → Uuid) (h : item.Bounded) :
    ∃ size, dumpsSize (.obj (proposalPayload briefing (persistItem itemIds item))) = some size ∧
      size ≤ actionProposalPayloadMaxBytes := by
  have hrelated : ∃ size, dumpsSize (.arr ((item.relatedEntities.map Value.str).take 20)) =
      some size ∧ size ≤ 8000 := by
    have htexts : ∀ text ∈ item.relatedEntities.take 20, text.length ≤ 120 :=
      fun text htext => h.texts text (List.mem_of_mem_take htext)
    obtain ⟨size, hsize, hle⟩ := itemsSize_texts htexts
    have hcount : (item.relatedEntities.take 20).length ≤ 5 :=
      Nat.le_trans (List.length_take_le' _ _) h.related
    have hmul := Nat.mul_le_mul_right (12 * 120 + 4) hcount
    refine ⟨size + 2, ?_, by omega⟩
    rw [dumpsSize, ← List.map_take, hsize]
    rfl
  have hkeys : ∀ key ∈ (proposalPayload briefing (persistItem itemIds item)).map (·.1),
      textSize key ≤ 300 := by
    have hpayload : (proposalPayload briefing (persistItem itemIds item)).map (·.1) =
        [Str.of "source", Str.of "briefing_id", Str.of "briefing_item_key", Str.of "category",
          Str.of "severity", Str.of "recommended_next_step", Str.of "related_entities"] := rfl
    rw [hpayload]
    decide +kernel
  have hfields : ∀ f ∈ proposalPayload briefing (persistItem itemIds item),
      textSize f.1 ≤ 300 ∧ ∃ size, dumpsSize f.2 = some size ∧ size ≤ 8000 := by
    intro f hf
    refine ⟨hkeys f.1 (List.mem_map_of_mem hf), ?_⟩
    simp only [proposalPayload, persistItem, List.mem_cons, List.not_mem_nil, or_false] at hf
    rcases hf with rfl | rfl | rfl | rfl | rfl | rfl | rfl
    · exact dumpsSize_text (by decide +kernel) (Nat.le_refl 400)
    · exact dumpsSize_text (Nat.le_of_eq (uuid_length briefing.id)) (by omega)
    · exact dumpsSize_text (actionableKeys_short _ h.key) (by omega)
    · exact dumpsSize_text h.category (by omega)
    · exact dumpsSize_text h.severity (by omega)
    · exact dumpsSize_text h.step (by omega)
    · exact hrelated
  obtain ⟨size, hsize, hle⟩ := fieldsSize_le hfields
  have hcount : (proposalPayload briefing (persistItem itemIds item)).length = 7 := rfl
  rw [hcount] at hle
  refine ⟨size + 2, by rw [dumpsSize, hsize]; rfl, ?_⟩
  simp only [actionProposalPayloadMaxBytes]
  omega

theorem walkItems_texts (casefold : Str → Str) (texts : List Str) :
    walkItems casefold (texts.map Value.str) = none := by
  induction texts with
  | nil => rfl
  | cons text texts ih => exact ih

theorem payload_clean : walkFields (Str.casefold table)
    (proposalPayload briefing (persistItem itemIds item)) = none := by
  have hclean : ∀ {key : Str} {value : Value} {rest : Object},
      secretLike (Str.casefold table) key = false → walkValue (Str.casefold table) value = none →
        walkFields (Str.casefold table) rest = none →
          walkFields (Str.casefold table) ((key, value) :: rest) = none := by
    intro key value rest hkey hvalue hrest
    rw [walkFields, hkey, if_neg Bool.false_ne_true, hvalue, hrest]
    rfl
  refine hclean rfl rfl (hclean rfl rfl (hclean rfl rfl (hclean rfl rfl (hclean rfl rfl
    (hclean rfl rfl (hclean rfl ?_ rfl))))))
  rw [walkValue, persistItem, ← List.map_take]
  exact walkItems_texts _ _

theorem title_given (itemIds : Str → Uuid) (h : item.Bounded) :
    (Str.strip (proposalTitle (persistItem itemIds item))).isEmpty = false := by
  obtain ⟨hstrip, hne⟩ := h.stripped
  have hclip : clipText item.recommendedNextStep 500 = some item.recommendedNextStep := by
    have hlength : item.recommendedNextStep.length ≤ 500 := Nat.le_trans h.step (by omega)
    rw [clipText, safeText_str hstrip hne, Option.map_some, if_pos hlength]
  have htitle : proposalTitle (persistItem itemIds item) = item.recommendedNextStep := by
    have hgiven : optionalTruthy (some item.recommendedNextStep) =
        some item.recommendedNextStep := by
      simp [optionalTruthy, hne]
    rw [proposalTitle, persistItem, hgiven, Option.getD_some, hclip]
    rfl
  rw [htitle, hstrip]
  exact List.isEmpty_eq_false_iff.2 hne

theorem rejectIf_ok {bad : Bool} {detail : String} :
    rejectIf bad detail = .ok () ↔ bad = false := by
  cases bad <;> simp [rejectIf]

theorem validateJsonByteSize_ok {value : Value} {name : String} {limit size : Nat}
    (h : dumpsSize value = some size) :
    validateJsonByteSize value name limit = .ok () ↔ size ≤ limit := by
  unfold validateJsonByteSize
  rw [h]
  simp [rejectIf_ok]

theorem validate_internal {R : EvidenceRules Digest} {title : Str} {payload : Object}
    {refs : List Value} {size : Nat} (hfold : R.casefold = Str.casefold table)
    (htitle : (Str.strip title).isEmpty = false) (hcount : refs.length ≤ 50)
    (hobjects : refs.any (fun ref => ref.asMapping.isNone) = false)
    (hsize : dumpsSize (.obj payload) = some size) (hle : size ≤ actionProposalPayloadMaxBytes)
    (hclean : walkFields (Str.casefold table) payload = none) :
    validateActionProposalInput R ⟨Str.of "internal", Str.of "internal_todo", title, .obj payload,
        .arr refs, Str.of "system"⟩ = .ok () ↔
      validateJsonByteSize (.arr refs) "evidence_refs" actionProposalEvidenceRefsMaxBytes =
          .ok () ∧
        refs.any (fun ref => !evidenceRefMatches R ref) = false := by
  have hprovider : normalizeValue R.casefold (Str.of "internal") = Str.of "internal" := by
    rw [hfold]
    rfl
  have haction : normalizeValue R.casefold (Str.of "internal_todo") = Str.of "internal_todo" := by
    rw [hfold]
    rfl
  have hcreator : normalizeValue R.casefold (Str.of "system") = Str.of "system" := by
    rw [hfold]
    rfl
  have hproviders : validTargetProviders.contains (Str.of "internal") = true := rfl
  have hactions : validActionTypes.contains (Str.of "internal_todo") = true := rfl
  have hpairs : validProviderActionPairs.contains
      (Str.of "internal", Str.of "internal_todo") = true := rfl
  have hcreators : validCreatedBy.contains (Str.of "system") = true := rfl
  have hlimit : decide (actionProposalEvidenceRefsMaxItems < refs.length) = false :=
    decide_eq_false (Nat.not_lt_of_le hcount)
  have hpayload : validateJsonByteSize (.obj payload) "payload" actionProposalPayloadMaxBytes =
      .ok () := (validateJsonByteSize_ok hsize).2 hle
  have hok : ∀ {f : Unit → Except Str Object}, ((.ok () : Except Str Unit) >>= f) = f () :=
    fun {_} => rfl
  have hkept : ∀ detail, rejectIf false detail = .ok () := fun _ => rfl
  have hcheck : checkActionProposalInput R ⟨Str.of "internal", Str.of "internal_todo", title,
      .obj payload, .arr refs, Str.of "system"⟩ = (do
        validateJsonByteSize (.arr refs) "evidence_refs" actionProposalEvidenceRefsMaxBytes
        rejectIf (refs.any fun ref => !evidenceRefMatches R ref)
          "evidence_refs items must match the evidence_ref.v1 schema"
        return payload) := by
    unfold checkActionProposalInput
    simp only [hprovider, haction, hcreator, hproviders, hactions, hpairs, hcreators, htitle,
      hlimit, hobjects, hpayload, Bool.not_true, hkept, hok]
  rw [validateActionProposalInput_ok]
  constructor
  · rintro ⟨fields, hfields, -⟩
    rw [hcheck] at hfields
    obtain ⟨_, hbytes, hfields⟩ := ok_of_bind_ok hfields
    obtain ⟨_, hschema, -⟩ := ok_of_bind_ok hfields
    exact ⟨hbytes, rejectIf_ok.1 hschema⟩
  · rintro ⟨hbytes, hschema⟩
    refine ⟨payload, ?_, hfold ▸ hclean⟩
    rw [hcheck, hbytes, hschema]
    rfl

/-- Of what the validator checks only the evidence depends on the brain. -/
theorem request_ok_iff (h : item.Bounded) :
    validateActionProposalInput (folding rules table)
        (proposalRequest briefing (persistItem itemIds item)).toActionProposalCreateInput = .ok () ↔
      item.Citable (folding rules table) := by
  obtain ⟨size, hsize, hle⟩ := payload_small briefing itemIds h
  have htaken : (item.evidenceRefs.map BriefingRef.value).take 20 =
      item.evidenceRefs.map BriefingRef.value :=
    List.take_of_length_le (by rw [List.length_map]; exact h.refs)
  have hcount : (item.evidenceRefs.map BriefingRef.value).length ≤ 50 := by
    rw [List.length_map]
    exact Nat.le_trans h.refs (by omega)
  have hobjects : (item.evidenceRefs.map BriefingRef.value).any
      (fun ref => ref.asMapping.isNone) = false := by
    rw [List.any_map, List.any_eq_false]
    intro ref href
    simp [BriefingRef.value, Value.asMapping]
  have hmatches : (item.evidenceRefs.map BriefingRef.value).any
      (fun ref => !evidenceRefMatches (folding rules table) ref) = false ↔
        ∀ ref ∈ item.evidenceRefs, ref.Citable (folding rules table) := by
    rw [List.any_map, List.any_eq_false]
    refine forall₂_congr fun ref href => ?_
    rw [← evidenceRefMatches_value _ (h.plain ref href)]
    simp
  have hfold : (folding rules table).casefold = Str.casefold table := rfl
  have hvalid := validate_internal hfold (title_given itemIds h) hcount hobjects hsize hle
    payload_clean
  rw [validateJsonByteSize_ok (dumpsSize_refs item.evidenceRefs), hmatches] at hvalid
  have hrequest : (proposalRequest briefing (persistItem itemIds item)).evidenceRefs =
      .arr (item.evidenceRefs.map BriefingRef.value) := congrArg Value.arr htaken
  have hinput : (proposalRequest briefing (persistItem itemIds item)).toActionProposalCreateInput =
      ⟨Str.of "internal", Str.of "internal_todo", proposalTitle (persistItem itemIds item),
        .obj (proposalPayload briefing (persistItem itemIds item)),
        .arr (item.evidenceRefs.map BriefingRef.value), Str.of "system"⟩ := by
    rw [← hrequest]
    rfl
  rw [hinput, hvalid]
  exact ⟨fun hboth => ⟨hboth.2, hboth.1⟩, fun hcitable => ⟨hcitable.bytes, hcitable.refs⟩⟩

end request

/-- The three ways in which an actionable item ends. -/
inductive Outcome where
  | created
  | missingEvidence
  | openAction
  deriving DecidableEq

def BriefingItem.actionable (item : BriefingItem) : Bool :=
  actionableNonGithubBriefingItemKeys.contains item.itemKey

def EndsIn (briefing : Briefing) (result : GenerationResult) (item : BriefingItem) :
    Outcome → Prop
  | .created =>
    ∃ proposal ∈ result.proposals, proposalItemKey briefing proposal = some item.itemKey
  | .missingEvidence => ⟨item.itemKey, item.title, "missing_evidence_refs"⟩ ∈ result.skipped
  | .openAction => ⟨item.itemKey, item.title, "open_action_exists"⟩ ∈ result.skipped

/-- A generation returns, every actionable item ends in one way, and one that has evidence and no
open action gets its proposal. -/
def Settles {Digest : Type} (rules : EvidenceRules Digest) (briefing : Briefing)
    (newId : Nat → Uuid) (openKeys : List Str) : Prop :=
  ∃ result, generateFromBriefing rules briefing newId openKeys = .ok result ∧
    ∀ item ∈ briefing.items, item.actionable = true →
      (∃! outcome, EndsIn briefing result item outcome) ∧
        (item.evidenceRefs ≠ [] → item.itemKey ∉ openKeys → EndsIn briefing result item .created)

def ending (openKeys : List Str) (item : BriefingItem) : Outcome :=
  if item.evidenceRefs.isEmpty then .missingEvidence
  else if openKeys.contains item.itemKey then .openAction
  else .created

def skipEntry (item : BriefingItem) : Outcome → Option SkippedItem
  | .created => none
  | .missingEvidence => some ⟨item.itemKey, item.title, "missing_evidence_refs"⟩
  | .openAction => some ⟨item.itemKey, item.title, "open_action_exists"⟩

section loop

variable {Digest : Type} {rules : EvidenceRules Digest} {table : Nat → Str} {briefing : Briefing}
  {newId : Nat → Uuid} {items : List BriefingItem} {openKeys : List Str} {key : Str}
  {start result : GenerationResult} {item : BriefingItem}

/-- The items that a generation looks at. -/
def actionables (items : List BriefingItem) : List BriefingItem := items.filter (·.actionable)

theorem generateItems_other (h : item.actionable = false) :
    generateItems rules briefing newId (item :: items) openKeys start =
      generateItems rules briefing newId items openKeys start := by
  have hother : (!actionableNonGithubBriefingItemKeys.contains item.itemKey) = true := by
    rw [Bool.not_eq_true']
    exact h
  rw [generateItems, if_pos hother]

theorem generateItems_skip (h : item.actionable = true) {outcome : Outcome}
    (hending : ending openKeys item = outcome) (hne : outcome ≠ .created) :
    generateItems rules briefing newId (item :: items) openKeys start =
      generateItems rules briefing newId items openKeys
        { start with skipped := start.skipped ++ (skipEntry item outcome).toList } := by
  have hactionable : ¬(!actionableNonGithubBriefingItemKeys.contains item.itemKey) = true := by
    rw [Bool.not_eq_true', Bool.not_eq_false]
    exact h
  rw [generateItems, if_neg hactionable]
  unfold ending at hending
  split at hending
  · rename_i hbare
    subst hending
    rw [if_pos hbare]
    rfl
  · rename_i hevidence
    split at hending
    · rename_i hopen
      subst hending
      rw [if_neg hevidence, if_pos hopen]
      rfl
    · exact absurd hending.symm hne

theorem generateItems_create (h : item.actionable = true)
    (hending : ending openKeys item = .created) :
    generateItems rules briefing newId (item :: items) openKeys start =
      (createActionProposal rules (newId start.proposals.length) (proposalRequest briefing item) >>=
        fun proposal => generateItems rules briefing newId items (item.itemKey :: openKeys)
          { start with proposals := start.proposals ++ [proposal] }) := by
  have hactionable : ¬(!actionableNonGithubBriefingItemKeys.contains item.itemKey) = true := by
    rw [Bool.not_eq_true', Bool.not_eq_false]
    exact h
  rw [generateItems, if_neg hactionable]
  unfold ending at hending
  split at hending
  · cases hending
  · rename_i hevidence
    split at hending
    · cases hending
    · rename_i hnew
      rw [if_neg hevidence, if_neg hnew]

theorem ending_cons (h : item.itemKey ≠ key) :
    ending (key :: openKeys) item = ending openKeys item := by
  have hkeys : (key :: openKeys).contains item.itemKey = openKeys.contains item.itemKey := by
    simp [h]
  rw [ending, ending, hkeys]

theorem actionables_cons (h : item.actionable = true) :
    actionables (item :: items) = item :: actionables items :=
  List.filter_cons_of_pos h

theorem actionables_other (h : item.actionable = false) :
    actionables (item :: items) = actionables items :=
  List.filter_cons_of_neg (by rw [h]; exact Bool.false_ne_true)

/-- What a generation that returns has made of the items. -/
structure Made (briefing : Briefing) (items : List BriefingItem) (openKeys : List Str)
    (start result : GenerationResult) : Prop where
  skipped : result.skipped = start.skipped ++
    (actionables items).filterMap fun item => skipEntry item (ending openKeys item)
  proposals : ∃ created, result.proposals = start.proposals ++ created ∧
    created.map (proposalItemKey briefing) =
      ((actionables items).filter fun item => decide (ending openKeys item = .created)).map
        fun item => some item.itemKey

theorem later_ending (hdistinct : ((actionables (item :: items)).map (·.itemKey)).Nodup)
    (h : item.actionable = true) {other : BriefingItem} (hother : other ∈ actionables items) :
    ending (item.itemKey :: openKeys) other = ending openKeys other := by
  rw [actionables_cons h, List.map_cons, List.nodup_cons] at hdistinct
  refine ending_cons fun heq => hdistinct.1 ?_
  rw [← heq]
  exact List.mem_map_of_mem hother

theorem generateItems_made (hdistinct : ((actionables items).map (·.itemKey)).Nodup)
    (h : generateItems (folding rules table) briefing newId items openKeys start = .ok result) :
    Made briefing items openKeys start result := by
  induction items generalizing openKeys start with
  | nil =>
    cases h
    exact ⟨(List.append_nil _).symm, [], (List.append_nil _).symm, rfl⟩
  | cons item items ih =>
    cases hactionable : item.actionable with
    | false =>
      rw [generateItems_other hactionable] at h
      have hrest : actionables (item :: items) = actionables items := actionables_other hactionable
      obtain ⟨hskipped, hproposals⟩ := ih (hrest ▸ hdistinct) h
      exact ⟨hrest ▸ hskipped, hrest ▸ hproposals⟩
    | true =>
      have hitems : actionables (item :: items) = item :: actionables items :=
        actionables_cons hactionable
      have htail : ((actionables items).map (·.itemKey)).Nodup := by
        rw [hitems, List.map_cons, List.nodup_cons] at hdistinct
        exact hdistinct.2
      by_cases hcreated : ending openKeys item = .created
      · rw [generateItems_create hactionable hcreated] at h
        obtain ⟨proposal, hcreate, h⟩ := ok_of_bind_ok h
        obtain ⟨hskipped, created, hproposals, hkeys⟩ := ih htail h
        have hlater : ∀ other ∈ actionables items,
            ending (item.itemKey :: openKeys) other = ending openKeys other :=
          fun other hother => later_ending hdistinct hactionable hother
        refine ⟨?_, proposal :: created, ?_, ?_⟩
        · rw [hskipped, hitems, List.filterMap_cons, hcreated]
          exact congrArg _ (List.filterMap_congr fun other hother => by rw [hlater other hother])
        · rw [hproposals, List.append_assoc]
          rfl
        · rw [List.map_cons, hkeys, (created_found hactionable hcreate).2, hitems,
            List.filter_cons, if_pos (decide_eq_true hcreated), List.map_cons]
          refine congrArg _ (congrArg _ (List.filter_congr fun other hother => ?_))
          rw [hlater other hother]
      · rw [generateItems_skip hactionable rfl hcreated] at h
        obtain ⟨hskipped, created, hproposals, hkeys⟩ := ih htail h
        refine ⟨?_, created, hproposals, ?_⟩
        · rw [hskipped, hitems, List.append_assoc, List.filterMap_cons]
          cases hending : ending openKeys item with
          | created => exact absurd hending hcreated
          | missingEvidence => rfl
          | openAction => rfl
        · rw [hkeys, hitems, List.filter_cons, if_neg (by simpa using hcreated)]

theorem generateItems_returns_iff (hdistinct : ((actionables items).map (·.itemKey)).Nodup) :
    (∃ result, generateItems rules briefing newId items openKeys start = .ok result) ↔
      ∀ item ∈ actionables items, ending openKeys item = .created →
        validateActionProposalInput rules
          (proposalRequest briefing item).toActionProposalCreateInput = .ok () := by
  induction items generalizing openKeys start with
  | nil => exact ⟨fun _ _ hitem => absurd hitem List.not_mem_nil, fun _ => ⟨start, rfl⟩⟩
  | cons item items ih =>
    cases hactionable : item.actionable with
    | false =>
      rw [generateItems_other hactionable]
      have hrest : actionables (item :: items) = actionables items := actionables_other hactionable
      rw [hrest] at hdistinct ⊢
      exact ih hdistinct
    | true =>
      have hitems : actionables (item :: items) = item :: actionables items :=
        actionables_cons hactionable
      have htail : ((actionables items).map (·.itemKey)).Nodup := by
        rw [hitems, List.map_cons, List.nodup_cons] at hdistinct
        exact hdistinct.2
      rw [hitems, List.forall_mem_cons]
      by_cases hcreated : ending openKeys item = .created
      · rw [generateItems_create hactionable hcreated]
        have hlater : (∀ other ∈ actionables items,
            ending (item.itemKey :: openKeys) other = .created →
              validateActionProposalInput rules
                (proposalRequest briefing other).toActionProposalCreateInput = .ok ()) ↔
            ∀ other ∈ actionables items, ending openKeys other = .created →
              validateActionProposalInput rules
                (proposalRequest briefing other).toActionProposalCreateInput = .ok () :=
          forall₂_congr fun other hother => by
            rw [later_ending hdistinct hactionable hother]
        rw [← hlater]
        constructor
        · rintro ⟨result, hresult⟩
          obtain ⟨proposal, hcreate, hrest⟩ := ok_of_bind_ok hresult
          obtain ⟨_, hvalid, -⟩ := ok_of_bind_ok hcreate
          exact ⟨fun _ => hvalid, (ih htail).1 ⟨result, hrest⟩⟩
        · rintro ⟨hvalid, hrest⟩
          unfold createActionProposal
          rw [hvalid hcreated]
          exact (ih htail).2 hrest
      · rw [generateItems_skip hactionable rfl hcreated, ih htail]
        exact ⟨fun hrest => ⟨fun h => absurd h hcreated, hrest⟩, fun hboth => hboth.2⟩

theorem ending_created_iff : ending openKeys item = .created ↔
    item.evidenceRefs ≠ [] ∧ item.itemKey ∉ openKeys := by
  unfold ending
  split
  · rename_i hbare
    simp [List.isEmpty_iff.1 hbare]
  · rename_i hevidence
    have hne : item.evidenceRefs ≠ [] := fun h => hevidence (List.isEmpty_iff.2 h)
    split
    · rename_i hopen
      simp [List.contains_iff_mem.1 hopen]
    · rename_i hnew
      have hnotMem : item.itemKey ∉ openKeys := fun h => hnew (List.contains_iff_mem.2 h)
      simp [hne, hnotMem]

theorem skipEntry_eq {other : BriefingItem} {outcome : Outcome} {entry : SkippedItem}
    (h : skipEntry other outcome = some entry) : entry.itemKey = other.itemKey := by
  cases outcome <;> cases h <;> rfl

/-- Every actionable item of a generation that returns ends in its own way and in no other. -/
theorem endsIn_iff (hdistinct : ((actionables items).map (·.itemKey)).Nodup)
    (hmade : Made briefing items openKeys ⟨[], []⟩ result) (hitem : item ∈ actionables items)
    (outcome : Outcome) :
    EndsIn briefing result item outcome ↔ outcome = ending openKeys item := by
  have hsame : ∀ other ∈ actionables items, other.itemKey = item.itemKey → other = item :=
    fun other hother heq => List.inj_on_of_nodup_map hdistinct hother hitem heq
  have hskip : ∀ entry : SkippedItem, entry.itemKey = item.itemKey →
      (entry ∈ result.skipped ↔ skipEntry item (ending openKeys item) = some entry) := by
    intro entry hkey
    rw [hmade.skipped, List.nil_append, List.mem_filterMap]
    constructor
    · rintro ⟨other, hother, hentry⟩
      obtain rfl := hsame other hother ((skipEntry_eq hentry).symm.trans hkey)
      exact hentry
    · exact fun hentry => ⟨item, hitem, hentry⟩
  cases outcome with
  | created =>
    obtain ⟨created, hproposals, hkeys⟩ := hmade.proposals
    have hfound : (∃ proposal ∈ result.proposals,
        proposalItemKey briefing proposal = some item.itemKey) ↔
          some item.itemKey ∈ created.map (proposalItemKey briefing) := by
      rw [hproposals, List.nil_append, List.mem_map]
    rw [EndsIn, hfound, hkeys, List.mem_map]
    constructor
    · rintro ⟨other, hother, heq⟩
      obtain ⟨hmem, hending⟩ := List.mem_filter.1 hother
      obtain rfl := hsame other hmem (Option.some.inj heq)
      exact (of_decide_eq_true hending).symm
    · exact fun hending => ⟨item, List.mem_filter.2 ⟨hitem, decide_eq_true hending.symm⟩, rfl⟩
  | missingEvidence =>
    refine (hskip _ rfl).trans ?_
    cases ending openKeys item <;> simp [skipEntry]
  | openAction =>
    refine (hskip _ rfl).trans ?_
    cases ending openKeys item <;> simp [skipEntry]

theorem settles_iff (hdistinct : ((actionables briefing.items).map (·.itemKey)).Nodup) :
    Settles (folding rules table) briefing newId openKeys ↔
      ∀ item ∈ actionables briefing.items, item.evidenceRefs ≠ [] → item.itemKey ∉ openKeys →
        validateActionProposalInput (folding rules table)
          (proposalRequest briefing item).toActionProposalCreateInput = .ok () := by
  have hreturns : (∃ result, generateFromBriefing (folding rules table) briefing newId openKeys =
      .ok result) ↔ _ := generateItems_returns_iff hdistinct
  simp only [ending_created_iff, and_imp] at hreturns
  rw [← hreturns]
  constructor
  · rintro ⟨result, hresult, -⟩
    exact ⟨result, hresult⟩
  · rintro ⟨result, hresult⟩
    refine ⟨result, hresult, fun item hitem hactionable => ?_⟩
    have hends := endsIn_iff hdistinct (generateItems_made hdistinct hresult)
      (List.mem_filter.2 ⟨hitem, hactionable⟩)
    refine ⟨⟨ending openKeys item, (hends _).2 rfl, fun other hother => (hends other).1 hother⟩, ?_⟩
    exact fun hne hnew => (hends _).2 (ending_created_iff.2 ⟨hne, hnew⟩).symm

end loop

section persisted

variable {Digest : Type} {casefold : Str → Str} {brain : Brain} {items : List NonGithubItem}

theorem github_not_actionable : ∀ key ∈ githubItemIds,
    actionableNonGithubBriefingItemKeys.contains key = false := by
  decide +kernel

theorem actionables_github (saved : List GithubItem) : actionables (saved.map (·.val)) = [] := by
  refine List.filter_eq_nil_iff.2 fun item hitem => ?_
  obtain ⟨github, -, rfl⟩ := List.mem_map.1 hitem
  rw [BriefingItem.actionable, github_not_actionable _ github.property]
  exact Bool.false_ne_true

theorem actionables_persisted (briefingId : Uuid) (itemIds : Str → Uuid)
    (before after : List GithubItem) (h : ∀ item ∈ items, item.Bounded) :
    actionables (persistBriefing briefingId itemIds before after items).items =
      items.map (persistItem itemIds) := by
  have hall : actionables (items.map (persistItem itemIds)) = items.map (persistItem itemIds) := by
    refine List.filter_eq_self.2 fun saved hsaved => ?_
    obtain ⟨item, hitem, rfl⟩ := List.mem_map.1 hsaved
    exact List.contains_iff_mem.2 (h item hitem).key
  have happend : ∀ first second : List BriefingItem,
      actionables (first ++ second) = actionables first ++ actionables second :=
    fun first second => List.filter_append _ _
  rw [persistBriefing, happend, happend, actionables_github, actionables_github, hall]
  simp

/-- Each of the builders has an id of its own. -/
theorem nonGithub_ids (casefold : Str → Str) (brain : Brain) :
    ((nonGithubCompanyBrainItems casefold brain).map (·.itemId)).Sublist
      (["jira-work-items", "gmail-message-signals", "drive-file-signals",
        "internal-document-context"].map Str.of) := by
  have hstep : ∀ {made : Option NonGithubItem} {rest : List (Option NonGithubItem)} {key : Str}
      {keys : List Str}, (∀ item, made = some item → item.itemId = key) →
        ((rest.filterMap id).map (·.itemId)).Sublist keys →
          (((made :: rest).filterMap id).map (·.itemId)).Sublist (key :: keys) := by
    intro made rest key keys hkey hrest
    cases made with
    | none => exact hrest.cons key
    | some item =>
      have hitems : ((some item :: rest).filterMap id).map (·.itemId) =
          key :: (rest.filterMap id).map (·.itemId) := by
        rw [← hkey item rfl]
        rfl
      rw [hitems]
      exact hrest.cons_cons key
  refine hstep (fun item h => ?_) (hstep (fun item h => ?_) (hstep (fun item h => ?_)
    (hstep (fun item h => ?_) (List.Sublist.refl []))))
  · unfold jiraWorkItem at h
    dsimp only at h
    split at h <;> cases h
    rfl
  · unfold gmailMessagesItem at h
    dsimp only at h
    split at h <;> cases h
    rfl
  · unfold driveFilesItem at h
    dsimp only at h
    split at h <;> cases h
    rfl
  · unfold internalDocumentsItem at h
    dsimp only at h
    split at h <;> cases h
    rfl

theorem nonGithub_distinct (itemIds : Str → Uuid) (casefold : Str → Str) (brain : Brain) :
    (((nonGithubCompanyBrainItems casefold brain).map (persistItem itemIds)).map
      (·.itemKey)).Nodup := by
  have hkeys : ((nonGithubCompanyBrainItems casefold brain).map (persistItem itemIds)).map
      (·.itemKey) = (nonGithubCompanyBrainItems casefold brain).map (·.itemId) := by
    rw [List.map_map]
    rfl
  rw [hkeys]
  exact (nonGithub_ids casefold brain).nodup (by decide +kernel)

end persisted

/-- A generation from a saved briefing settles every actionable item exactly when each of the four
items that has evidence and no open action cites plain and short references only. -/
theorem generation_settles_iff_citable {Digest : Type} (rules : EvidenceRules Digest)
    (table : Nat → Str) (brain : Brain) (id : Uuid) (itemIds : Str → Uuid)
    (before after : List GithubItem) (newId : Nat → Uuid) (proposals : List ActionProposal) :
    Settles (folding rules table)
        (persistBriefing id itemIds before after
          (nonGithubCompanyBrainItems (Str.casefold table) brain)) newId
        (existingOpenItemKeys (persistBriefing id itemIds before after
          (nonGithubCompanyBrainItems (Str.casefold table) brain)) proposals) ↔
      ∀ item ∈ nonGithubCompanyBrainItems (Str.casefold table) brain, item.evidenceRefs ≠ [] →
        item.itemId ∉ existingOpenItemKeys (persistBriefing id itemIds before after
          (nonGithubCompanyBrainItems (Str.casefold table) brain)) proposals →
          item.Citable (folding rules table) := by
  have hbounded : ∀ item ∈ nonGithubCompanyBrainItems (Str.casefold table) brain, item.Bounded :=
    fun item hitem => bounded_of_mem hitem
  have hactionables := actionables_persisted id itemIds before after hbounded
  rw [settles_iff (by rw [hactionables]; exact nonGithub_distinct itemIds _ brain), hactionables,
    List.forall_mem_map]
  refine forall₂_congr fun item hitem => ?_
  have hrefs : (persistItem itemIds item).evidenceRefs ≠ [] ↔ item.evidenceRefs ≠ [] := by
    rw [persistItem, ne_eq, List.map_eq_nil_iff]
  rw [hrefs, request_ok_iff (hbounded item hitem)]
  rfl

section tabbed

def plainDocumentRules : Documents.DocumentRules := ⟨id, Str.casefold fun c => [c]⟩

/-- A document whose title has a tab between its words. -/
def tabbedInput : Documents.DocumentCreateInput :=
  ⟨Str.of "Q3" ++ 9 :: Str.of "plan", [], [], Str.of "draft"⟩

def tabbedContent : Documents.Content :=
  ⟨Str.of "Q3" ++ 9 :: Str.of "plan", [], [], Str.of "draft", []⟩

def importedIssue : IssueRow where
  sourceProvider := Str.of "jira"
  externalId := some (Str.of "OPS-1")
  number := none
  title := Str.of "Rotate keys"
  projectKey := some (Str.of "OPS")
  sourceRefs :=
    [⟨sampleWorkspace.text ++ Str.of ":source-record", Str.of "source_record", Str.of "jira",
      Str.of "OPS-1", none, Str.of "issue", sampleWorkspace⟩]

def issueBrain (notes : List NoteRow) : Brain := ⟨[], [importedIssue], [], [], notes⟩

def savedBriefing (notes : List NoteRow) : Briefing :=
  persistBriefing sampleWorkspace (fun _ => sampleUuid (Fin.last 9)) [] []
    (nonGithubCompanyBrainItems (Str.casefold fun c => [c]) (issueBrain notes))

/-- The document is stored, and with it in the brain the proposal for the issue is not made. -/
theorem tabbed_title_blocks :
    tabbedInput.content plainDocumentRules = .ok tabbedContent ∧
      (∃ result, generateFromBriefing (folding asciiRules fun c => [c]) (savedBriefing [])
        (fun _ => sampleWorkspace) [] = .ok result) ∧
      ¬Settles (folding asciiRules fun c => [c])
        (savedBriefing [internalDocumentPayload (sampleUuid (Fin.last 9)) tabbedContent])
        (fun _ => sampleWorkspace) [] := by
  refine ⟨by decide +kernel, ?_, ?_⟩
  · have hmade : (generateFromBriefing (folding asciiRules fun c => [c]) (savedBriefing [])
        (fun _ => sampleWorkspace) []).toOption.isSome = true := by
      decide +kernel
    obtain ⟨result, hresult⟩ := Option.isSome_iff_exists.1 hmade
    exact ⟨result, ok_of_toOption hresult⟩
  · rintro ⟨result, hresult, -⟩
    have hfailed : (generateFromBriefing (folding asciiRules fun c => [c])
        (savedBriefing [internalDocumentPayload (sampleUuid (Fin.last 9)) tabbedContent])
        (fun _ => sampleWorkspace) []).toOption.isSome = false := by
      decide +kernel
    rw [hresult] at hfailed
    cases hfailed

end tabbed

end FounderOs.Proposals
