import FounderOs.Execution.Model
import FounderOs.Proposals.SecretKeys

namespace FounderOs.Proposals

open Headquarters Execution

def actionableNonGithubBriefingItemKeys : List Str :=
  ["internal-document-context", "jira-work-items", "gmail-message-signals",
    "drive-file-signals"].map Str.of

def openActionStatuses : List ProposalStatus := [.approved, .executed, .proposed]

structure BriefingItem where
  id : Uuid
  itemKey : Str
  category : Str
  title : Str
  summary : Str
  severity : Str
  recommendedNextStep : Option Str
  evidenceRefs : List Value
  relatedEntities : List Value

structure Briefing where
  id : Uuid
  items : List BriefingItem

/-- A row of `action_proposals`. -/
structure ActionProposal where
  id : Uuid
  briefingItemId : Option Uuid
  targetProvider : Str
  actionType : Str
  title : Str
  description : Option Str
  payload : Value
  status : ProposalStatus
  evidenceRefs : Value
  createdBy : Str

/-- The input with what the validator does not read. -/
structure ProposalRequest extends ActionProposalCreateInput where
  description : Option Str
  briefingItemId : Option Uuid

structure SkippedItem where
  itemKey : Str
  title : Str
  reason : String
  deriving DecidableEq

structure GenerationResult where
  proposals : List ActionProposal
  skipped : List SkippedItem

/-- The rules with the table of `str.casefold`. -/
def folding {Digest : Type} (rules : EvidenceRules Digest) (table : Nat → Str) :
    EvidenceRules Digest :=
  { rules with casefold := Str.casefold table }

/-- `_safe_text`. -/
def safeText (value : Value) : Option Str := optionalText value

def optionalTruthy (text : Option Str) : Option Str := text.filter (· ≠ [])

def clipText (text : Str) (limit : Nat) : Option Str :=
  (safeText (.str text)).map fun text =>
    if text.length ≤ limit then text else text.take (limit - 1) ++ [8230]

def proposalTitle (item : BriefingItem) : Str :=
  (clipText ((optionalTruthy item.recommendedNextStep).getD item.title) 500).getD item.itemKey

def proposalDescription (item : BriefingItem) : Str :=
  let parts := [item.title, item.summary] ++
    ((optionalTruthy item.recommendedNextStep).map fun step =>
      Str.of "Recommended next step: " ++ step).toList
  [10, 10].intercalate (parts.filter (· ≠ []))

def proposalPayload (briefing : Briefing) (item : BriefingItem) : Object :=
  [(Str.of "source", .str (Str.of "briefing_non_github_signal")),
    (Str.of "briefing_id", .str briefing.id.text),
    (Str.of "briefing_item_key", .str item.itemKey),
    (Str.of "category", .str item.category),
    (Str.of "severity", .str item.severity),
    (Str.of "recommended_next_step", (item.recommendedNextStep.map Value.str).getD .null),
    (Str.of "related_entities", .arr (item.relatedEntities.take 20))]

def proposalRequest (briefing : Briefing) (item : BriefingItem) : ProposalRequest where
  targetProvider := Str.of "internal"
  actionType := Str.of "internal_todo"
  title := proposalTitle item
  description := some (proposalDescription item)
  payload := .obj (proposalPayload briefing item)
  evidenceRefs := .arr (item.evidenceRefs.take 20)
  briefingItemId := some item.id
  createdBy := Str.of "system"

section generate

variable {Digest : Type} (rules : EvidenceRules Digest) (briefing : Briefing)

/-- The row that `create_action_proposal` inserts. -/
def createActionProposal (id : Uuid) (request : ProposalRequest) : Except Str ActionProposal := do
  validateActionProposalInput rules request.toActionProposalCreateInput
  return {
    id := id
    briefingItemId := request.briefingItemId
    targetProvider := normalizeValue rules.casefold request.targetProvider
    actionType := normalizeValue rules.casefold request.actionType
    title := Str.strip request.title
    description := request.description.bind fun text => safeText (.str text)
    payload := request.payload
    status := .proposed
    evidenceRefs := request.evidenceRefs
    createdBy := normalizeValue rules.casefold request.createdBy }

/-- The filter of the query for the open proposals. -/
def ActionProposal.isOpen (proposal : ActionProposal) : Bool :=
  openActionStatuses.contains proposal.status && proposal.targetProvider = Str.of "internal" &&
    proposal.actionType = Str.of "internal_todo"

def itemIdsByKey : List (Str × Uuid) :=
  Dict.ofPairs (briefing.items.map fun item => (item.itemKey, item.id))

/-- The key of the item that the lookup takes the proposal to be for. -/
def proposalItemKey (proposal : ActionProposal) : Option Str :=
  let payload := proposal.payload.asMapping.getD []
  let payloadBriefingId := safeText (get payload "briefing_id")
  let payloadItemKey := safeText (get payload "briefing_item_key")
  if payloadBriefingId = some briefing.id.text ∧ payloadItemKey.isSome then payloadItemKey
  else ((itemIdsByKey briefing).find? fun entry =>
    proposal.briefingItemId = some entry.2).map (·.1)

/-- The keys with their repetitions, which the set of the source drops. -/
def existingOpenItemKeys (proposals : List ActionProposal) : List Str :=
  (proposals.filter (·.isOpen)).filterMap (proposalItemKey briefing)

def generateItems (newId : Nat → Uuid) :
    List BriefingItem → List Str → GenerationResult → Except Str GenerationResult
  | [], _, result => .ok result
  | item :: items, openKeys, result =>
    if !actionableNonGithubBriefingItemKeys.contains item.itemKey then
      generateItems newId items openKeys result
    else if item.evidenceRefs.isEmpty then
      generateItems newId items openKeys
        { result with
          skipped := result.skipped ++ [⟨item.itemKey, item.title, "missing_evidence_refs"⟩] }
    else if openKeys.contains item.itemKey then
      generateItems newId items openKeys
        { result with
          skipped := result.skipped ++ [⟨item.itemKey, item.title, "open_action_exists"⟩] }
    else do
      let proposal ← createActionProposal rules (newId result.proposals.length)
        (proposalRequest briefing item)
      generateItems newId items (item.itemKey :: openKeys)
        { result with proposals := result.proposals ++ [proposal] }

/-- What is left of `generate_action_proposals_from_briefing` once the open keys are read. -/
def generateFromBriefing (newId : Nat → Uuid) (openKeys : List Str) :
    Except Str GenerationResult :=
  generateItems rules briefing newId briefing.items openKeys ⟨[], []⟩

end generate

/-- The items of which a generation makes proposals, by their keys. -/
def wantedKeys (items : List BriefingItem) : List Str :=
  (items.filter fun item => actionableNonGithubBriefingItemKeys.contains item.itemKey &&
    !item.evidenceRefs.isEmpty).map (·.itemKey)

section generated

variable {Digest : Type} {rules : EvidenceRules Digest} {table : Nat → Str} {briefing : Briefing}
  {newId : Nat → Uuid} {items : List BriefingItem} {openKeys : List Str}
  {start result : GenerationResult} {item : BriefingItem} {proposal : ActionProposal} {id : Uuid}

theorem strip_uuid (id : Uuid) : Str.strip id.text = id.text := by
  refine Str.strip_eq_self fun c hc => ?_
  obtain ⟨hprinted, hascii⟩ := uuid_graphic id c hc
  exact Str.isSpace_printable c hascii hprinted

theorem uuid_ne_nil (id : Uuid) : id.text ≠ [] := by
  intro hnil
  have hcanonical := id.canonical
  rw [hnil] at hcanonical
  cases hcanonical

theorem strip_actionable {key : Str} (h : actionableNonGithubBriefingItemKeys.contains key = true) :
    Str.strip key = key ∧ key ≠ [] := by
  have hmem := List.contains_iff_mem.1 h
  simp only [actionableNonGithubBriefingItemKeys, List.map_cons, List.map_nil, List.mem_cons,
    List.not_mem_nil, or_false] at hmem
  rcases hmem with rfl | rfl | rfl | rfl <;> exact ⟨by decide +kernel, by decide +kernel⟩

theorem safeText_str {text : Str} (hstrip : Str.strip text = text) (hne : text ≠ []) :
    safeText (.str text) = some text := by
  rw [safeText, optionalText, hstrip, if_neg hne]

/-- The lookup finds what a generation has created. -/
theorem created_found (hkey : actionableNonGithubBriefingItemKeys.contains item.itemKey = true)
    (h : createActionProposal (folding rules table) id (proposalRequest briefing item) =
      .ok proposal) :
    proposal.isOpen = true ∧ proposalItemKey briefing proposal = some item.itemKey := by
  obtain ⟨-, -, h⟩ := ok_of_bind_ok h
  cases h
  have hid : safeText (.str briefing.id.text) = some briefing.id.text :=
    safeText_str (strip_uuid briefing.id) (uuid_ne_nil briefing.id)
  obtain ⟨hstrip, hne⟩ := strip_actionable hkey
  have hitem : safeText (.str item.itemKey) = some item.itemKey := safeText_str hstrip hne
  refine ⟨rfl, ?_⟩
  have hbriefing : get (proposalPayload briefing item) "briefing_id" = .str briefing.id.text := rfl
  have hname : get (proposalPayload briefing item) "briefing_item_key" = .str item.itemKey := rfl
  simp only [proposalItemKey, proposalRequest, Value.asMapping, Option.getD_some, hbriefing, hname,
    hid, hitem]
  simp

theorem wantedKeys_cons : wantedKeys (item :: items) =
    if actionableNonGithubBriefingItemKeys.contains item.itemKey && !item.evidenceRefs.isEmpty then
      item.itemKey :: wantedKeys items else wantedKeys items := by
  unfold wantedKeys
  rw [List.filter_cons]
  split <;> rfl

theorem existing_cons {rest : List ActionProposal} {key : Str}
    (h : proposal.isOpen = true ∧ proposalItemKey briefing proposal = some key) :
    existingOpenItemKeys briefing (proposal :: rest) =
      key :: existingOpenItemKeys briefing rest := by
  rw [existingOpenItemKeys, List.filter_cons, if_pos h.1, List.filterMap_cons, h.2]
  rfl

theorem existing_append (proposals created : List ActionProposal) :
    existingOpenItemKeys briefing (proposals ++ created) =
      existingOpenItemKeys briefing proposals ++ existingOpenItemKeys briefing created := by
  rw [existingOpenItemKeys, List.filter_append, List.filterMap_append]
  rfl

/-- What a generation adds: one open proposal for each wanted item that has none. -/
structure Generated (briefing : Briefing) (items : List BriefingItem) (openKeys : List Str)
    (created : List ActionProposal) : Prop where
  wanted : ∀ key ∈ existingOpenItemKeys briefing created, key ∈ wantedKeys items
  new : ∀ key ∈ existingOpenItemKeys briefing created, key ∉ openKeys
  once : (existingOpenItemKeys briefing created).Nodup
  covers : ∀ key ∈ wantedKeys items,
    key ∈ openKeys ∨ key ∈ existingOpenItemKeys briefing created
  length : created.length = (existingOpenItemKeys briefing created).length

theorem Generated.skip {created : List ActionProposal}
    (h : Generated briefing items openKeys created)
    (hitem : ∀ key ∈ wantedKeys (item :: items), key ∈ openKeys ∨ key ∈ wantedKeys items)
    (hkeep : ∀ key ∈ wantedKeys items, key ∈ wantedKeys (item :: items)) :
    Generated briefing (item :: items) openKeys created where
  wanted key hkey := hkeep key (h.wanted key hkey)
  new := h.new
  once := h.once
  covers key hkey := (hitem key hkey).elim .inl (h.covers key)
  length := h.length

theorem Generated.cons {created : List ActionProposal}
    (h : Generated briefing items (item.itemKey :: openKeys) created)
    (hwanted : wantedKeys (item :: items) = item.itemKey :: wantedKeys items)
    (hfound : proposal.isOpen = true ∧ proposalItemKey briefing proposal = some item.itemKey)
    (hnew : item.itemKey ∉ openKeys) :
    Generated briefing (item :: items) openKeys (proposal :: created) := by
  have hkeys : existingOpenItemKeys briefing (proposal :: created) =
      item.itemKey :: existingOpenItemKeys briefing created := existing_cons hfound
  refine ⟨?_, ?_, ?_, ?_, ?_⟩
  · rw [hkeys, hwanted]
    intro key hkey
    rcases List.mem_cons.1 hkey with rfl | hkey
    · exact List.mem_cons_self
    · exact List.mem_cons_of_mem _ (h.wanted key hkey)
  · rw [hkeys]
    intro key hkey
    rcases List.mem_cons.1 hkey with rfl | hkey
    · exact hnew
    · exact fun hopen => h.new key hkey (List.mem_cons_of_mem _ hopen)
  · rw [hkeys]
    exact List.nodup_cons.2 ⟨fun hkey => h.new _ hkey List.mem_cons_self, h.once⟩
  · rw [hkeys, hwanted]
    intro key hkey
    rcases List.mem_cons.1 hkey with rfl | hkey
    · exact .inr List.mem_cons_self
    · rcases h.covers key hkey with hopen | hcreated
      · rcases List.mem_cons.1 hopen with rfl | hopen
        · exact .inr List.mem_cons_self
        · exact .inl hopen
      · exact .inr (List.mem_cons_of_mem _ hcreated)
  · rw [hkeys, List.length_cons, List.length_cons, h.length]

theorem generateItems_ok
    (h : generateItems (folding rules table) briefing newId items openKeys start = .ok result) :
    ∃ created, result.proposals = start.proposals ++ created ∧
      Generated briefing items openKeys created := by
  induction items generalizing openKeys start with
  | nil =>
    cases h
    refine ⟨[], (List.append_nil _).symm, ?_, ?_, List.nodup_nil, ?_, rfl⟩
    · exact fun _ hkey => absurd hkey List.not_mem_nil
    · exact fun _ hkey => absurd hkey List.not_mem_nil
    · exact fun _ hkey => absurd hkey List.not_mem_nil
  | cons item items ih =>
    unfold generateItems at h
    split at h
    · rename_i hother
      have hwanted : wantedKeys (item :: items) = wantedKeys items := by
        rw [wantedKeys_cons, if_neg (by simp_all)]
      obtain ⟨created, hproposals, hgenerated⟩ := ih h
      exact ⟨created, hproposals, hgenerated.skip (fun _ hkey => .inr (hwanted ▸ hkey))
        (fun _ hkey => hwanted ▸ hkey)⟩
    rename_i hactionable
    split at h
    · rename_i hbare
      have hwanted : wantedKeys (item :: items) = wantedKeys items := by
        rw [wantedKeys_cons, if_neg (by simp_all)]
      obtain ⟨created, hproposals, hgenerated⟩ := ih h
      exact ⟨created, hproposals, hgenerated.skip (fun _ hkey => .inr (hwanted ▸ hkey))
        (fun _ hkey => hwanted ▸ hkey)⟩
    rename_i hevidence
    have hwanted : wantedKeys (item :: items) = item.itemKey :: wantedKeys items := by
      rw [wantedKeys_cons, if_pos (by simp_all)]
    split at h
    · rename_i hopen
      obtain ⟨created, hproposals, hgenerated⟩ := ih h
      refine ⟨created, hproposals, hgenerated.skip (fun key hkey => ?_) (fun key hkey => ?_)⟩
      · rw [hwanted] at hkey
        rcases List.mem_cons.1 hkey with rfl | hkey
        · exact .inl (List.contains_iff_mem.1 hopen)
        · exact .inr hkey
      · rw [hwanted]
        exact List.mem_cons_of_mem _ hkey
    · rename_i hnew
      obtain ⟨proposal, hcreate, h⟩ := ok_of_bind_ok h
      obtain ⟨created, hproposals, hgenerated⟩ := ih h
      refine ⟨proposal :: created, ?_, hgenerated.cons hwanted
        (created_found (by simpa using hactionable) hcreate) ?_⟩
      · rw [hproposals, List.append_assoc]
        rfl
      · exact fun hmem => hnew (List.contains_iff_mem.2 hmem)

theorem generateItems_nothing (h : ∀ key ∈ wantedKeys items, key ∈ openKeys) :
    ∃ skipped, generateItems (folding rules table) briefing newId items openKeys start =
      .ok ⟨start.proposals, skipped⟩ := by
  induction items generalizing start with
  | nil => exact ⟨start.skipped, rfl⟩
  | cons item items ih =>
    have hrest : ∀ key ∈ wantedKeys items, key ∈ openKeys := by
      intro key hkey
      refine h key ?_
      rw [wantedKeys_cons]
      split
      · exact List.mem_cons_of_mem _ hkey
      · exact hkey
    unfold generateItems
    split
    · exact ih hrest
    rename_i hactionable
    split
    · exact ih hrest
    rename_i hevidence
    have hopen : openKeys.contains item.itemKey = true := by
      refine List.contains_iff_mem.2 (h _ ?_)
      rw [wantedKeys_cons, if_pos (by simp_all)]
      exact List.mem_cons_self
    rw [if_pos hopen]
    exact ih hrest

end generated

end FounderOs.Proposals
