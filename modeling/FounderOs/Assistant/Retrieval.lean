import FounderOs.Foundation.Collapsed
import Mathlib.Data.List.Nodup

namespace FounderOs.Assistant

/-- `_safe_text`; a value that is not a string reads as `none`. -/
def safeText (value : Option Str) (limit : Nat) : Str := (Str.collapse (value.getD [])).take limit

structure EvidenceRef where
  id : Option Str
  provenance : Option Str
  trust : Option Str
  referenceType : Option Str
  workspaceScoped : Bool

structure Mission where
  title : Option Str
  summary : Option Str
  whyNow : Option Str
  status : Option Str
  evidenceRefs : List EvidenceRef

/-- A counted value under its key, where `_safe_count` reads `none` for what is no count. -/
structure Metric where
  key : Option Str
  value : Option Nat

structure SourceCounts where
  total : Option Nat
  healthy : Option Nat
  attentionCount : Option Nat

/-- What `_assistant_retrieval` reads of a headquarters snapshot. -/
structure Snapshot where
  id : Option Str
  priority : Option Mission
  queue : List Mission
  sources : SourceCounts
  pulse : List Metric
  onboarding : List (List Metric)
  workspaceName : Option Str

structure AssistantEvidenceFact where
  id : Str
  text : Str
  citationIds : List Str

def assistantCitationLimit : Nat := 8
def assistantFactLimit : Nat := 16

def allowedProvenance : List Str :=
  ["briefing_item", "canonical_evidence_ref", "canonical_repository", "canonical_source_record",
    "company_world_projection", "headquarters_aggregate", "integration_connection"].map Str.of

def allowedReferenceTypes : List Str :=
  ["briefing_item", "company_world_candidate", "evidence_ref", "headquarters_snapshot",
    "integration_connection", "repository", "source_record", "sync_job"].map Str.of

def allowedTrust : List Str := ["aggregate", "verified"].map Str.of

def EvidenceRef.citable (ref : EvidenceRef) (seen : List Str) : Bool :=
  safeText ref.id 180 ≠ [] && !seen.contains (safeText ref.id 180) &&
    allowedProvenance.contains (safeText ref.provenance 80) &&
    allowedTrust.contains (safeText ref.trust 40) &&
    allowedReferenceTypes.contains (safeText ref.referenceType 80) && ref.workspaceScoped

/-- `_evidence`: the identifiers it normalises, up to the limit. -/
def evidenceFrom (seen : List Str) : List EvidenceRef → List Str
  | [] => seen
  | ref :: refs =>
    if ref.citable seen then
      let normalized := seen ++ [safeText ref.id 180]
      if normalized.length = assistantCitationLimit then normalized
      else evidenceFrom normalized refs
    else evidenceFrom seen refs

def evidence (refs : List EvidenceRef) : List Str := evidenceFrom [] refs

/-- `_snapshot_citation`, by its identifier. -/
def snapshotCitation (snapshot : Snapshot) (part : String) : Str :=
  Str.of "headquarters_snapshot:" ++ safeText snapshot.id 80 ++ Str.of (":" ++ part)

/-- The facts so far, and the identifiers of the citations they share. -/
structure Retrieval where
  facts : List AssistantEvidenceFact
  citations : List Str

/-- One step of the loop over `raw_citations`: the citations, and those the fact retains. -/
def retainCitation (state : List Str × List Str) (raw : Str) : List Str × List Str :=
  let citationId := safeText (some raw) 180
  if citationId = [] then state
  else if state.1.contains citationId then (state.1, state.2 ++ [citationId])
  else if assistantCitationLimit ≤ state.1.length then state
  else (state.1 ++ [citationId], state.2 ++ [citationId])

/-- The arguments of one call of `add_fact`. -/
structure Draft where
  factId : Str
  text : Str
  rawCitations : List Str

def Draft.normalizedText (draft : Draft) : Str := safeText (some draft.text) 420

def Retrieval.addFact (retrieval : Retrieval) (draft : Draft) : Retrieval :=
  if draft.normalizedText = [] ∨ assistantFactLimit ≤ retrieval.facts.length then retrieval
  else
    let retained := draft.rawCitations.foldl retainCitation (retrieval.citations, [])
    if retained.2 = [] then ⟨retrieval.facts, retained.1⟩
    else
      ⟨retrieval.facts ++ [⟨draft.factId, draft.normalizedText, retained.2.eraseDups⟩], retained.1⟩

/-- `" ".join(part for part in parts if part)` -/
def joinParts (parts : List Str) : Str := [32].intercalate (parts.filter (· ≠ []))

def priorityDrafts (mission : Mission) : List Draft :=
  [⟨Str.of "priority.summary",
      joinParts [safeText mission.title 180, safeText mission.summary 220],
      evidence mission.evidenceRefs⟩,
    ⟨Str.of "priority.why_now", safeText mission.whyNow 420, evidence mission.evidenceRefs⟩]

def statusText (mission : Mission) : Str :=
  if safeText mission.status 60 = [] then []
  else Str.of "Статус: " ++ safeText mission.status 60 ++ Str.of "."

def queueDraft (factId : Str) (mission : Mission) : Draft where
  factId := factId
  text := joinParts [safeText mission.title 180, safeText mission.summary 180, statusText mission]
  rawCitations := evidence mission.evidenceRefs

/-- `f"queue.{index}"` of the first three missions. -/
def queueFactIds : List Str := ["queue.0", "queue.1", "queue.2"].map Str.of

def decimal (n : Nat) : Str := Str.of (toString n)

def sourcesDraft (snapshot : Snapshot) : Option Draft := do
  let total ← snapshot.sources.total
  let healthy ← snapshot.sources.healthy
  let attention ← snapshot.sources.attentionCount
  return ⟨Str.of "sources.status",
    Str.of "Источники: всего " ++ decimal total ++ Str.of ", работают " ++ decimal healthy ++
      Str.of ", требуют внимания " ++ decimal attention ++ Str.of ".",
    [snapshotCitation snapshot "sources"]⟩

/-- `_pulse_metric` and `_onboarding_count`: the first under the key decides. -/
def countUnder (metrics : List Metric) (key : String) : Option Nat :=
  (metrics.find? fun metric => metric.key = some (Str.of key)).bind (·.value)

def waitingDraft (snapshot : Snapshot) : Option Draft :=
  (countUnder snapshot.pulse "waiting_decisions").map fun waiting =>
    ⟨Str.of "decisions.waiting",
      Str.of "Решений с проверяемыми основаниями ждёт: " ++ decimal waiting ++ Str.of ".",
      [snapshotCitation snapshot "decisions"]⟩

def briefingsDraft (snapshot : Snapshot) : Option Draft :=
  (countUnder snapshot.onboarding.flatten "briefings").map fun count =>
    ⟨Str.of "briefings.count",
      Str.of "В текущем снимке подтверждено брифингов: " ++ decimal count ++ Str.of ".",
      [snapshotCitation snapshot "briefing"]⟩

def workspaceDraft (snapshot : Snapshot) : Option Draft :=
  let name := safeText snapshot.workspaceName 180
  if name = [] then none
  else some ⟨Str.of "workspace.name", Str.of "Текущая компания: " ++ name ++ Str.of ".",
    [snapshotCitation snapshot "identity"]⟩

/-- The calls of `add_fact`, in order. -/
def drafts (snapshot : Snapshot) : List Draft :=
  snapshot.priority.elim [] priorityDrafts ++ List.zipWith queueDraft queueFactIds snapshot.queue ++
    (sourcesDraft snapshot).toList ++ (waitingDraft snapshot).toList ++
    (briefingsDraft snapshot).toList ++ (workspaceDraft snapshot).toList

/-- `_assistant_retrieval`, its facts. -/
def assistantRetrieval (snapshot : Snapshot) : List AssistantEvidenceFact :=
  ((drafts snapshot).foldl Retrieval.addFact ⟨[], []⟩).facts

/-- What a retrieved fact keeps of the call that added it. -/
structure AssistantEvidenceFact.From (fact : AssistantEvidenceFact) (draft : Draft) : Prop where
  id : fact.id = draft.factId
  text : fact.text = draft.normalizedText
  text_ne_nil : fact.text ≠ []
  cited : fact.citationIds ≠ []

theorem addFact_cases (retrieval : Retrieval) (draft : Draft) :
    (retrieval.addFact draft).facts = retrieval.facts ∨
      retrieval.facts.length < assistantFactLimit ∧ ∃ fact : AssistantEvidenceFact,
        fact.From draft ∧ (retrieval.addFact draft).facts = retrieval.facts ++ [fact] := by
  unfold Retrieval.addFact
  dsimp only
  split
  · exact .inl rfl
  · rename_i hdraft
    rw [not_or, not_le] at hdraft
    split
    · exact .inl rfl
    · rename_i hretained
      refine .inr ⟨hdraft.2, _, ⟨rfl, rfl, hdraft.1, ?_⟩, rfl⟩
      obtain ⟨citation, hcitation⟩ := List.exists_mem_of_ne_nil _ hretained
      exact List.ne_nil_of_mem (List.mem_eraseDups.2 hcitation)

/-- Each call of `add_fact` adds at most one fact, under the call's identifier. -/
theorem addFacts_spec (retrieval : Retrieval) (calls : List Draft)
    (hlength : retrieval.facts.length ≤ assistantFactLimit) :
    ∃ added : List AssistantEvidenceFact,
      (calls.foldl Retrieval.addFact retrieval).facts = retrieval.facts ++ added ∧
        (added.map (·.id)).Sublist (calls.map (·.factId)) ∧
        (∀ fact ∈ added, ∃ draft ∈ calls, fact.From draft) ∧
        (retrieval.facts ++ added).length ≤ assistantFactLimit := by
  induction calls generalizing retrieval with
  | nil => exact ⟨[], by simp, by simp, by simp, by simpa using hlength⟩
  | cons draft calls ih =>
    rcases addFact_cases retrieval draft with hsame | ⟨hroom, fact, hfact, hadded⟩
    · obtain ⟨added, hfacts, hids, hfrom, hall⟩ := ih (retrieval.addFact draft) (hsame ▸ hlength)
      rw [hsame] at hfacts hall
      refine ⟨added, hfacts, hids.trans (List.sublist_cons_self _ _), fun fact hfact => ?_, hall⟩
      obtain ⟨call, hcall, hfact⟩ := hfrom fact hfact
      exact ⟨call, List.mem_cons_of_mem draft hcall, hfact⟩
    · have hgrown : (retrieval.addFact draft).facts.length ≤ assistantFactLimit := by
        rw [hadded, List.length_append, List.length_singleton]
        exact hroom
      obtain ⟨added, hfacts, hids, hfrom, hall⟩ := ih (retrieval.addFact draft) hgrown
      rw [hadded, List.append_assoc, List.singleton_append] at hfacts hall
      refine ⟨fact :: added, hfacts, ?_, ?_, hall⟩
      · rw [List.map_cons, List.map_cons, hfact.id]
        exact hids.cons_cons _
      · refine List.forall_mem_cons.2 ⟨⟨draft, List.mem_cons_self, hfact⟩, fun other hother => ?_⟩
        obtain ⟨call, hcall, hother⟩ := hfrom other hother
        exact ⟨call, List.mem_cons_of_mem draft hcall, hother⟩

def retrievalFactIds : List Str :=
  ["priority.summary", "priority.why_now"].map Str.of ++ queueFactIds ++
    ["sources.status", "decisions.waiting", "briefings.count", "workspace.name"].map Str.of

theorem retrievalFactIds_nodup : retrievalFactIds.Nodup := by
  have hnodup : (["priority.summary", "priority.why_now", "queue.0", "queue.1", "queue.2",
    "sources.status", "decisions.waiting", "briefings.count", "workspace.name"].map Str.of).Nodup :=
    List.Nodup.map (fun _ _ => Str.of_inj) (by decide)
  exact hnodup

theorem retrievalFactIds_length : ∀ id ∈ retrievalFactIds, id ≠ [] ∧ id.length ≤ 80 := by
  decide

theorem priority_ids (priority : Option Mission) :
    ((priority.elim [] priorityDrafts).map (·.factId)).Sublist
      (["priority.summary", "priority.why_now"].map Str.of) := by
  cases priority with
  | none => exact List.nil_sublist _
  | some mission => exact List.Sublist.refl _

theorem queue_ids (ids : List Str) (queue : List Mission) :
    ((List.zipWith queueDraft ids queue).map (·.factId)).Sublist ids := by
  induction ids generalizing queue with
  | nil => simp
  | cons id ids ih =>
    cases queue with
    | nil => simp
    | cons mission queue => exact (ih queue).cons_cons id

theorem drafts_ids (snapshot : Snapshot) :
    ((drafts snapshot).map (·.factId)).Sublist retrievalFactIds := by
  have hsources : ((sourcesDraft snapshot).toList.map (·.factId)).Sublist
      [Str.of "sources.status"] := by
    unfold sourcesDraft
    cases snapshot.sources.total <;> cases snapshot.sources.healthy <;>
      cases snapshot.sources.attentionCount <;> simp
  have hwaiting : ((waitingDraft snapshot).toList.map (·.factId)).Sublist
      [Str.of "decisions.waiting"] := by
    unfold waitingDraft
    cases countUnder snapshot.pulse "waiting_decisions" <;> simp
  have hbriefings : ((briefingsDraft snapshot).toList.map (·.factId)).Sublist
      [Str.of "briefings.count"] := by
    unfold briefingsDraft
    cases countUnder snapshot.onboarding.flatten "briefings" <;> simp
  have hworkspace : ((workspaceDraft snapshot).toList.map (·.factId)).Sublist
      [Str.of "workspace.name"] := by
    unfold workspaceDraft
    dsimp only
    split <;> simp
  have hall := ((((priority_ids snapshot.priority).append
    (queue_ids queueFactIds snapshot.queue)).append hsources).append hwaiting).append
      hbriefings |>.append hworkspace
  simpa [drafts, retrievalFactIds] using hall

/-- What every list of retrieved facts keeps. -/
structure Retrieved (facts : List AssistantEvidenceFact) : Prop where
  ids : (facts.map (·.id)).Sublist retrievalFactIds
  texts : ∀ fact ∈ facts, ∃ draft : Draft, fact.From draft
  length : facts.length ≤ assistantFactLimit

theorem retrieved (snapshot : Snapshot) : Retrieved (assistantRetrieval snapshot) := by
  obtain ⟨added, hfacts, hids, hfrom, hlength⟩ :=
    addFacts_spec ⟨[], []⟩ (drafts snapshot) (Nat.zero_le _)
  rw [List.nil_append] at hfacts hlength
  rw [assistantRetrieval, hfacts]
  refine ⟨hids.trans (drafts_ids snapshot), fun fact hfact => ?_, hlength⟩
  obtain ⟨draft, -, hdraft⟩ := hfrom fact hfact
  exact ⟨draft, hdraft⟩

variable {facts : List AssistantEvidenceFact} {fact other : AssistantEvidenceFact}

theorem Retrieved.nodup (h : Retrieved facts) : (facts.map (·.id)).Nodup :=
  retrievalFactIds_nodup.sublist h.ids

theorem Retrieved.id_length (h : Retrieved facts) (hfact : fact ∈ facts) :
    fact.id ≠ [] ∧ fact.id.length ≤ 80 :=
  retrievalFactIds_length _ (h.ids.mem (List.mem_map_of_mem hfact))

/-- A retrieved text is its own collapsed form unless its cut left a space at the end. -/
theorem Retrieved.collapse_text (h : Retrieved facts) (hfact : fact ∈ facts) :
    Str.collapse fact.text = fact.text ↔ fact.text.getLast? ≠ some 32 := by
  obtain ⟨draft, hdraft⟩ := h.texts fact hfact
  rw [hdraft.text]
  exact Str.collapse_take_iff draft.text 420

end FounderOs.Assistant
