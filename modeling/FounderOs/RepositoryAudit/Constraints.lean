import FounderOs.RepositoryAudit.Checks
import FounderOs.RepositoryAudit.Replay

namespace FounderOs.RepositoryAudit

open Headquarters Transition
open Execution (Instant UserId)

section contract

variable {Digest : Type} {rules : EvidenceRules Digest} {text : Str} {least most : Nat}

theorem contains_zero_of_safe (h : safe text = true) : text.contains 0 = false := by
  have hcontrol : text.any isControl = false := by
    simpa using (Bool.and_eq_true_iff.1 h).2
  rw [← Bool.not_eq_true, List.contains_iff_mem]
  intro hmem
  have hnot := List.any_eq_false.1 hcontrol 0 hmem
  simp [isControl] at hnot

theorem contains_zero_of_chars {first later : Nat → Bool} (hfirst : first 0 = false)
    (hlater : later 0 = false) (hhead : text.head?.any first = true)
    (htail : text.tail.all later = true) : text.contains 0 = false := by
  rw [← Bool.not_eq_true, List.contains_iff_mem]
  cases text with
  | nil => simp
  | cons c text =>
    intro hmem
    rcases List.mem_cons.1 hmem with rfl | hmem
    · rw [List.head?_cons, Option.any_some, hfirst] at hhead
      cases hhead
    · have hall := List.all_eq_true.1 htail 0 hmem
      rw [hlater] at hall
      cases hall

theorem storable_of_length (hlength : text.length ≤ most) (hzero : text.contains 0 = false) :
    storable most text = true := by
  simp only [storable, hzero, Bool.not_false, Bool.and_true, decide_eq_true_eq]
  exact hlength

theorem storable_of_safe (hlength : lengthWithin least most text = true)
    (hsafe : safe text = true) : storable most text = true :=
  storable_of_length (of_decide_eq_true (Bool.and_eq_true_iff.1 hlength).2)
    (contains_zero_of_safe hsafe)

theorem storable_of_claimId (h : claimIdValid text = true) : storable 128 text = true := by
  simp only [claimIdValid, Bool.and_eq_true] at h
  exact storable_of_safe h.1.1 h.1.2

theorem storable_of_safeKey (h : safeKey most text = true) : storable most text = true := by
  simp only [safeKey, Bool.and_eq_true, decide_eq_true_eq] at h
  exact storable_of_length h.2 (contains_zero_of_chars (by decide) (by decide) h.1.1 h.1.2)

theorem storable_of_profile (h : profileText text = true) : storable 80 text = true := by
  simp only [profileText, Bool.and_eq_true, decide_eq_true_eq] at h
  exact storable_of_length h.2 (contains_zero_of_chars (by decide) (by decide) h.1.1 h.1.2)

theorem contains_zero_uuid (id : Uuid) : id.text.contains 0 = false := by
  rw [← Bool.not_eq_true, List.contains_iff_mem]
  intro hmem
  exact absurd (uuid_graphic id 0 hmem).1 (by decide)

theorem storable_take (hzero : text.contains 0 = false) : storable most (text.take most) = true := by
  refine storable_of_length (List.length_take_le ..) ?_
  rw [← Bool.not_eq_true, List.contains_iff_mem] at hzero ⊢
  exact fun hmem => hzero (List.mem_of_mem_take hmem)

theorem storable_of_ref {ref : EvidenceRefV1} (h : ref.valid rules = true) : ref.Storable := by
  simp only [EvidenceRefV1.valid, Bool.and_eq_true] at h
  obtain ⟨⟨⟨href, hid⟩, hurl⟩, -⟩ := h
  constructor
  · unfold evidenceSelector
    cases hrefText : ref.ref with
    | some text =>
      rw [hrefText, Option.all_some, Bool.and_eq_true] at href
      exact storable_take (contains_zero_of_safe href.2)
    | none =>
      cases hidText : ref.id with
      | some text =>
        rw [hidText, Option.all_some, Bool.and_eq_true] at hid
        exact storable_take (contains_zero_of_safe hid.2)
      | none =>
        cases ref.recordId with
        | some recordId => exact storable_take (contains_zero_uuid recordId)
        | none =>
          cases ref.sourceRecordId with
          | some sourceRecordId => exact storable_take (contains_zero_uuid sourceRecordId)
          | none => rfl
  · cases hurlText : ref.url with
    | none => rfl
    | some text =>
      rw [hurlText, Option.all_some, Bool.and_eq_true] at hurl
      exact storable_of_safe hurl.1 hurl.2

theorem citations_nodup {supporting contradicting : List EvidenceRefV1} (h : supporting.Nodup)
    (h' : contradicting.Nodup) : (citations supporting contradicting).Nodup := by
  rw [citations, List.nodup_append]
  refine ⟨h.map fun _ _ heq => (Prod.mk.inj heq).2, h'.map fun _ _ heq => (Prod.mk.inj heq).2, ?_⟩
  rintro _ hleft _ hright rfl
  obtain ⟨ref, -, rfl⟩ := List.mem_map.1 hleft
  obtain ⟨ref', -, heq⟩ := List.mem_map.1 hright
  cases heq

/-- Evidence that can be cited: it is listed once in each role, and it can be stored. -/
structure Citable (cited : List (EvidenceRole × EvidenceRefV1)) : Prop where
  nodup : cited.Nodup
  storable : ∀ citation ∈ cited, citation.2.Storable

theorem citable_of_valid {supporting contradicting : List EvidenceRefV1}
    (h : evidenceListValid rules supporting = true)
    (h' : evidenceListValid rules contradicting = true) :
    Citable (citations supporting contradicting) := by
  simp only [evidenceListValid, Bool.and_eq_true, decide_eq_true_eq, List.all_eq_true] at h h'
  refine ⟨citations_nodup h.2 h'.2, fun citation hmem => ?_⟩
  rcases List.mem_append.1 hmem with hleft | hright
  · obtain ⟨ref, href, rfl⟩ := List.mem_map.1 hleft
    exact storable_of_ref (h.1.2 ref href)
  · obtain ⟨ref, href, rfl⟩ := List.mem_map.1 hright
    exact storable_of_ref (h'.1.2 ref href)

end contract

section upsert

variable {Item Key Row : Type} [DecidableEq Key] (kind : RecordKind Item Key Row)

/-- What the constraints on the rows of a kind leave behind, in the repository of the run. -/
structure RecordKind.Keeps (repositoryId : Uuid) (Kept : Row → Prop) : Prop where
  writes : ∀ {run : AuditRun} {item : Item} {write : Option Row → Row} {old : Option Row}
    {w : WorkspaceRows}, run.scope.repositoryId = repositoryId → kind.write run item = .ok write →
      verify (kind.constraints w (write old)) = .ok () → (∀ row, old = some row → Kept row) →
        ∀ links, Kept (kind.withLinks (write old) links)
  retires : ∀ time row, Kept row → Kept (kind.retire time row)

/-- What is checked of an item, on its own and against its row. -/
def RecordKind.Writes (before : WorkspaceRows) (run : StoredRun) (Kept : Row → Prop) (item : Item)
    (refusals broken : List (Bool × AuditError)) : Prop :=
  Mirrors (kind.write run.toAuditRun item) refusals fun write => ∀ old w,
    w.repositories = before.repositories → (∀ row, old = some row → Kept row) →
      Mirrors (verify (kind.constraints w (write old))) broken fun _ => True

def RecordKind.citedChecks (before : WorkspaceRows) (run : StoredRun) (item : Item) :
    List (Bool × AuditError) :=
  citationChecks before run kind.parentType [] (kind.citations item)

/-- The rows are kept as they are, and evidence has been added for the references. -/
def Upserted (draw : Nat → Uuid) (before : WorkspaceRows) (refs : List EvidenceRefV1)
    (run : StoredRun) (Kept : Row → Prop) (state : WorkspaceRows × List (Key × Row)) : Prop :=
  Extends draw before refs run state.1 ∧ ∀ entry ∈ state.2, Kept entry.2

variable {kind} {repositoryId : Uuid} {Kept : Row → Prop} {draw : Nat → Uuid}
variable {before : WorkspaceRows} {refs : List EvidenceRefV1} {run : StoredRun} {runs : List StoredRun}
variable {state state' : WorkspaceRows × List (Key × Row)} {item : Item} {items : List Item}
variable {refusals broken : Item → List (Bool × AuditError)} {table : List (Key × Row)}

theorem kept_get (h : ∀ entry ∈ table, Kept entry.2) {key : Key} :
    ∀ row, Dict.get table key = some row → Kept row :=
  fun _ hrow => h _ (Dict.mem_of_get hrow)

theorem kept_set (h : ∀ entry ∈ table, Kept entry.2) {key : Key} {row : Row} (hrow : Kept row) :
    ∀ entry ∈ Dict.set table key row, Kept entry.2 := by
  intro entry hentry
  rcases Dict.mem_of_mem_set hentry with rfl | hentry
  · exact hrow
  · exact h entry hentry

theorem upsert_mirrors (hkeeps : kind.Keeps repositoryId Kept)
    (hrepository : run.scope.repositoryId = repositoryId) (hfresh : FreshDraws draw before refs)
    (hwrites : kind.Writes before run Kept item (refusals item) (broken item))
    (hcitable : Citable (kind.citations item))
    (hrefs : ∀ citation ∈ kind.citations item, citation.2 ∈ refs)
    (h : Upserted draw before refs run Kept state) :
    Mirrors (kind.upsert run draw state item)
      (refusals item ++ (broken item ++ kind.citedChecks before run item))
      (Upserted draw before refs run Kept) := by
  obtain ⟨hextends, hkept⟩ := h
  have hlinked : Linked draw before refs run [] (state.1, []) := ⟨hextends, .nil⟩
  refine hwrites.bind fun write hwrite hrow => ?_
  have hold : ∀ row, Dict.get state.2 (kind.key item) = some row → Kept row := kept_get hkept
  refine (hrow _ _ hextends.repositories hold).bind fun _ hverify _ => ?_
  rw [RecordKind.citedChecks, ← List.append_nil (citationChecks ..)]
  refine (links_mirror hfresh (by simpa using hcitable.nodup)
    (fun citation hmem => ⟨hrefs citation hmem, hcitable.storable citation hmem⟩) hlinked).bind
      fun cited _ hcited => .pure ⟨hcited.1, ?_⟩
  exact kept_set hkept (hkeeps.writes hrepository hwrite hverify hold _)

theorem upsertAll_mirrors (hkeeps : kind.Keeps repositoryId Kept)
    (hrepository : run.scope.repositoryId = repositoryId) (hfresh : FreshDraws draw before refs)
    (hwrites : ∀ item ∈ items, kind.Writes before run Kept item (refusals item) (broken item))
    (hcitable : ∀ item ∈ items, Citable (kind.citations item))
    (hrefs : ∀ item ∈ items, ∀ citation ∈ kind.citations item, citation.2 ∈ refs)
    (h : Upserted draw before refs run Kept state) :
    Mirrors (kind.upsertAll run draw state items)
      (items.flatMap fun item =>
        refusals item ++ (broken item ++ kind.citedChecks before run item))
      (Upserted draw before refs run Kept) := by
  refine Mirrors.foldlM (fun next item hmem hnext => ?_) h
  exact upsert_mirrors hkeeps hrepository hfresh (hwrites item hmem) (hcitable item hmem)
    (hrefs item hmem) hnext

theorem upsert_keeps (hkeeps : kind.Keeps repositoryId Kept)
    (hrepository : run.scope.repositoryId = repositoryId)
    (h : kind.upsert run draw state item = .ok state') (hkept : ∀ entry ∈ state.2, Kept entry.2) :
    ∀ entry ∈ state'.2, Kept entry.2 := by
  obtain ⟨write, hwrite, h⟩ := ok_of_bind_ok h
  obtain ⟨_, hverify, h⟩ := ok_of_bind_ok h
  obtain ⟨cited, -, h⟩ := ok_of_bind_ok h
  cases h
  exact kept_set hkept (hkeeps.writes hrepository hwrite hverify (kept_get hkept) _)

theorem upsertAll_keeps (hkeeps : kind.Keeps repositoryId Kept)
    (hrepository : run.scope.repositoryId = repositoryId)
    (h : kind.upsertAll run draw state items = .ok state')
    (hkept : ∀ entry ∈ state.2, Kept entry.2) : ∀ entry ∈ state'.2, Kept entry.2 := by
  unfold RecordKind.upsertAll at h
  induction items generalizing state with
  | nil =>
    cases h
    exact hkept
  | cons item items ih =>
    rw [List.foldlM_cons] at h
    obtain ⟨next, hnext, h⟩ := ok_of_bind_ok h
    exact ih h (upsert_keeps hkeeps hrepository hnext hkept)

omit [DecidableEq Key] in
theorem retireAll_keeps (hkeeps : kind.Keeps repositoryId Kept) {prior : Uuid → Bool}
    {time : Instant} (hkept : ∀ entry ∈ table, Kept entry.2) :
    ∀ entry ∈ kind.retireAll prior time table, Kept entry.2 := by
  intro entry hentry
  obtain ⟨old, hold, rfl⟩ := List.mem_map.1 hentry
  simp only [Retained.Rows.retireIf]
  split
  · exact hkeeps.retires time _ (hkept old hold)
  · exact hkept old hold

end upsert

section kinds

variable {Digest : Type} {rules : EvidenceRules Digest} {repositoryId : Uuid}
variable {before : WorkspaceRows} {run : StoredRun}

structure Confident (confidence : Rat) : Prop where
  least : 0 ≤ confidence
  most : confidence ≤ 1

theorem accepted_item {item : AnalyzerItem} (h : item.valid rules = true) :
    Confident item.confidence ∧
      Citable (citations item.evidenceRefs item.contradictingEvidenceRefs) := by
  simp only [AnalyzerItem.valid, Bool.and_eq_true, decide_eq_true_eq] at h
  obtain ⟨⟨⟨⟨hleast, hmost⟩, hrefs⟩, hcontradicting⟩, -⟩ := h
  exact ⟨⟨hleast, hmost⟩, citable_of_valid hrefs hcontradicting⟩

theorem evidenceListValid_nil : evidenceListValid rules [] = true := rfl

structure FactMaterial.Accepted (fact : FactMaterial) : Prop where
  claimId : storable 128 fact.claimId = true
  confident : Confident fact.confidence
  citable : Citable (factKind.citations fact)

theorem accepted_purpose {purpose : PurposeClaim} (h : purpose.valid rules = true) :
    purpose.material.Accepted := by
  simp only [PurposeClaim.valid, Bool.and_eq_true, and_assoc] at h
  obtain ⟨hitem, hclaimId, -⟩ := h
  obtain ⟨hconfident, hcitable⟩ := accepted_item hitem
  exact ⟨storable_of_claimId hclaimId, hconfident, hcitable⟩

theorem accepted_claim {claim : RepositoryClaim} (factType : FactType)
    (h : claim.valid rules = true) : (claim.material factType).Accepted := by
  simp only [RepositoryClaim.valid, Bool.and_eq_true, and_assoc] at h
  obtain ⟨hitem, hclaimId, -⟩ := h
  obtain ⟨hconfident, hcitable⟩ := accepted_item hitem
  exact ⟨storable_of_claimId hclaimId, hconfident, hcitable⟩

theorem accepted_unknown {unknown : RepositoryUnknown} (h : unknown.valid rules = true) :
    unknown.material.Accepted := by
  simp only [RepositoryUnknown.valid, Bool.and_eq_true, and_assoc] at h
  obtain ⟨hunknownId, -, -, hrefs⟩ := h
  have hconfident : Confident (0 : Rat) := ⟨Rat.le_refl, by decide⟩
  exact ⟨storable_of_claimId hunknownId, hconfident, citable_of_valid hrefs evidenceListValid_nil⟩

theorem accepted_facts {result : AnalyzerResult} (hpurpose : result.purpose.valid rules = true)
    (hsections : ∀ claim ∈ result.sections, claim.valid rules = true)
    (hunknowns : ∀ unknown ∈ result.unknowns, unknown.valid rules = true) :
    ∀ fact ∈ result.factMaterial, fact.Accepted := by
  intro fact hfact
  simp only [AnalyzerResult.sections, List.forall_mem_append] at hsections
  obtain ⟨⟨⟨⟨hresponsibilities, hinterfaces⟩, hdependencies⟩, hunits⟩, howners⟩ := hsections
  simp only [AnalyzerResult.factMaterial, List.mem_cons, List.mem_append, List.mem_map] at hfact
  rcases hfact with rfl | (((((⟨claim, hmem, rfl⟩ | ⟨claim, hmem, rfl⟩) | ⟨claim, hmem, rfl⟩) |
    ⟨claim, hmem, rfl⟩) | ⟨claim, hmem, rfl⟩) | ⟨unknown, hmem, rfl⟩)
  · exact accepted_purpose hpurpose
  · exact accepted_claim _ (hresponsibilities claim hmem)
  · exact accepted_claim _ (hinterfaces claim hmem)
  · exact accepted_claim _ (hdependencies claim hmem)
  · exact accepted_claim _ (hunits claim hmem)
  · exact accepted_claim _ (howners claim hmem)
  · exact accepted_unknown (hunknowns unknown hmem)

/-- What is kept of a row, beside what an item writes to it. -/
def FactRow.Kept (row : FactRow) : Prop := storable 128 row.claimId = true

theorem fact_keeps : factKind.Keeps repositoryId FactRow.Kept where
  writes := by
    intro run fact write old w _ hwrite hverify _ links
    cases hwrite
    have hclaimId := verify_ok.1 hverify _ (List.mem_cons_self ..)
    change storable 128 (fact.write run.id old).claimId = true
    simpa [column, check] using hclaimId
  retires _ _ hkept := hkept

theorem fact_writes {fact : FactMaterial} (h : fact.Accepted) :
    factKind.Writes before run FactRow.Kept fact [] [] := by
  refine .pure fun old w _ hold => mirrors_passed ?_
  have hclaimId : storable 128 (fact.write run.id old).claimId = true := by
    cases old with
    | none => exact h.claimId
    | some row => exact hold row rfl
  have hconfidence : (fact.write run.id old).confidence = fact.confidence := by
    cases old <;> rfl
  simp [factKind, FactRow.constraints, verify, column, check, confidenceCheck, hclaimId,
    hconfidence, h.confident.least, h.confident.most]

/-- What the store cannot hold of a relationship, whose ends nobody compares by their ids. -/
def Relationship.refusals (run : StoredRun) (relationship : Relationship) :
    List (Bool × AuditError) :=
  [(relationship.status = .insufficientEvidence, insufficientRelationship),
    (relationship.fromRepository.repositoryId ≠ some run.scope.repositoryId, foreignRelationship)]

def Relationship.broken (before : WorkspaceRows) (run : StoredRun) (relationship : Relationship) :
    List (Bool × AuditError) :=
  [check "ck_repository_relationships_no_self_edge"
      (relationship.toRepository.repositoryId.all (· ≠ run.scope.repositoryId)),
    check "fk_repository_relationships_workspace_to_repository"
      (relationship.toRepository.repositoryId.all before.repositories.contains)]

structure Relationship.Accepted (relationship : Relationship) : Prop where
  externalId : storable 255 relationship.toRepository.externalId = true
  fullName : storable 500 relationship.toRepository.fullName = true
  summary : relationship.summary.all (storable 1000) = true
  confident : Confident relationship.confidence
  resolution : (relationship.toRepository.resolutionStatus == .canonical) =
    relationship.toRepository.repositoryId.isSome
  citable : Citable (relationshipKind.citations relationship)

theorem storable_of_summary {text : Option Str}
    (h : text.all (fun text => summaryText text && safe text) = true) :
    text.all (storable 1000) = true := by
  cases text with
  | none => rfl
  | some text =>
    obtain ⟨hlength, hsafe⟩ := Bool.and_eq_true_iff.1 h
    exact storable_of_safe hlength hsafe

theorem accepted_relationship {relationship : Relationship}
    (h : relationship.valid rules = true) : relationship.Accepted := by
  simp only [Relationship.valid, RepositoryReference.valid, Bool.and_eq_true, and_assoc] at h
  obtain ⟨hitem, -, -, -, -, -, -, -, hexternal, hexternalSafe, hfull, hfullSafe, -, hresolution,
    hsummary, -⟩ := h
  obtain ⟨hconfident, hcitable⟩ := accepted_item hitem
  refine ⟨storable_of_safe hexternal hexternalSafe, storable_of_safe hfull hfullSafe,
    storable_of_summary hsummary, hconfident, ?_, hcitable⟩
  cases hstatus : relationship.toRepository.resolutionStatus with
  | canonical =>
    simp only [hstatus] at hresolution
    exact hresolution.symm
  | candidate =>
    simp only [hstatus, Option.isNone_iff_eq_none] at hresolution
    rw [hresolution]
    rfl

def RelationshipRow.Kept (repositoryId : Uuid) (row : RelationshipRow) : Prop :=
  row.fromRepositoryId = repositoryId

theorem relationship_keeps :
    relationshipKind.Keeps repositoryId (RelationshipRow.Kept repositoryId) where
  writes := by
    intro run relationship write old w hrepository hwrite _ hold links
    obtain ⟨_, -, hwrite⟩ := ok_of_bind_ok hwrite
    obtain ⟨_, -, hwrite⟩ := ok_of_bind_ok hwrite
    cases hwrite
    cases old with
    | none => exact hrepository
    | some row => exact hold row rfl
  retires _ _ hkept := hkept

/-- The constraints that the contract does not settle come last. -/
theorem verify_relationship {row : RelationshipRow} {w : WorkspaceRows}
    (hexternalId : storable 255 row.targetExternalId = true)
    (hfullName : storable 500 row.targetFullName = true)
    (hsummary : row.summary.all (storable 1000) = true)
    (hstatus : row.claimStatus ≠ .insufficientEvidence) (hconfident : Confident row.confidence)
    (hresolution : (row.resolutionStatus == .canonical) = row.toRepositoryId.isSome) :
    verify (row.constraints w) = verify
      [check "ck_repository_relationships_no_self_edge"
          (row.toRepositoryId.all (· ≠ row.fromRepositoryId)),
        check "fk_repository_relationships_workspace_to_repository"
          (row.toRepositoryId.all w.repositories.contains)] := by
  have hsettled : verify
      [column "repository_relationships.target_external_id" 255 row.targetExternalId,
        column "repository_relationships.target_full_name" 500 row.targetFullName,
        nullableColumn "repository_relationships.summary" 1000 row.summary,
        check "ck_repository_relationships_claim_status"
          (row.claimStatus != .insufficientEvidence),
        confidenceCheck "ck_repository_relationships_confidence" row.confidence,
        check "ck_repository_relationships_resolution_shape"
          ((row.resolutionStatus == .canonical) == row.toRepositoryId.isSome)] = .ok () := by
    simp [verify, column, nullableColumn, check, confidenceCheck, hexternalId, hfullName, hsummary,
      hstatus, hconfident.least, hconfident.most, hresolution]
  exact verify_append_of_ok hsettled

theorem relationship_writes {relationship : Relationship} (h : relationship.Accepted) :
    relationshipKind.Writes before run (RelationshipRow.Kept run.scope.repositoryId) relationship
      (relationship.refusals run) (relationship.broken before run) := by
  refine mirrors_rejectIf.bind fun _ _ hsufficient => mirrors_rejectIf.bind fun _ _ _ => .pure ?_
  intro old w hrepositories hold
  have hstatus : relationship.status ≠ .insufficientEvidence := of_decide_eq_false hsufficient
  have hverify : verify ((relationship.write run.toAuditRun old).constraints w) =
      verify (relationship.broken before run) := by
    cases old with
    | none =>
      rw [verify_relationship h.externalId h.fullName h.summary hstatus h.confident h.resolution,
        hrepositories]
      rfl
    | some row =>
      have hfrom : (relationship.write run.toAuditRun (some row)).fromRepositoryId =
          run.scope.repositoryId := hold row rfl
      rw [verify_relationship h.externalId h.fullName h.summary hstatus h.confident h.resolution,
        hrepositories, hfrom]
      rfl
  change Mirrors (verify (RelationshipRow.constraints _ w)) _ _
  rw [hverify]
  exact mirrors_verify.imp fun _ _ => trivial

structure Finding.Accepted (finding : Finding) : Prop where
  findingId : storable 128 finding.findingId = true
  ruleId : storable 128 finding.ruleId = true
  category : storable 80 finding.category = true
  title : storable 500 finding.title = true
  summary : finding.summary.contains 0 = false
  recommendedNextStep : finding.recommendedNextStep.all (storable 1000) = true
  confident : Confident finding.confidence
  citable : Citable (findingKind.citations finding)

theorem accepted_finding {finding : Finding} (h : finding.valid rules = true) :
    finding.Accepted := by
  simp only [Finding.valid, Bool.and_eq_true, and_assoc] at h
  obtain ⟨hitem, hfindingId, hruleId, hcategory, hcategorySafe, -, htitle, htitleSafe, -,
    hsummarySafe, hstep, -⟩ := h
  obtain ⟨hconfident, hcitable⟩ := accepted_item hitem
  exact ⟨storable_of_claimId hfindingId, storable_of_claimId hruleId,
    storable_of_safe hcategory hcategorySafe, storable_of_safe htitle htitleSafe,
    contains_zero_of_safe hsummarySafe, storable_of_summary hstep, hconfident, hcitable⟩

/-- Nobody has decided on the finding. -/
def FindingLifecycleStatus.undecided (status : FindingLifecycleStatus) : Bool :=
  status != .acceptedRisk && status != .falsePositive

structure FindingRow.Kept (row : FindingRow) : Prop where
  findingId : storable 128 row.findingId = true
  ruleId : storable 128 row.ruleId = true
  category : storable 80 row.category = true
  status : row.status.undecided = true

theorem finding_keeps : findingKind.Keeps repositoryId FindingRow.Kept where
  writes := by
    intro run finding write old w _ hwrite hverify _ links
    cases hwrite
    have hentries := verify_ok.1 hverify
    simp only [findingKind, FindingRow.constraints, column, nullableColumn, check,
      List.forall_mem_cons, Bool.not_eq_eq_eq_not, Bool.not_false] at hentries
    obtain ⟨hfindingId, hruleId, hcategory, -, -, -, -, hstatus, -⟩ := hentries
    exact ⟨hfindingId, hruleId, hcategory, hstatus⟩
  retires _ _ hkept := ⟨hkept.findingId, hkept.ruleId, hkept.category, rfl⟩

theorem undecided_incomingStatus (finding : Finding) :
    finding.incomingStatus.undecided = true := by
  unfold Finding.incomingStatus
  split <;> rfl

theorem undecided_write {finding : Finding} {runId : Uuid} {row : FindingRow}
    (h : row.status.undecided = true) :
    (finding.write runId (some row)).status.undecided = true := by
  unfold Finding.write
  dsimp only
  split
  · rfl
  · rename_i hstatus
    rw [hstatus] at h
    cases h
  · rename_i hstatus
    rw [hstatus] at h
    cases h
  · exact undecided_incomingStatus finding

theorem kept_write {finding : Finding} (h : finding.Accepted) {runId : Uuid}
    {old : Option FindingRow} (hold : ∀ row, old = some row → row.Kept) :
    (finding.write runId old).Kept := by
  cases old with
  | none => exact ⟨h.findingId, h.ruleId, h.category, undecided_incomingStatus finding⟩
  | some row =>
    have hrow := hold row rfl
    have hkey : (finding.write runId (some row)).findingId = row.findingId ∧
        (finding.write runId (some row)).ruleId = row.ruleId ∧
        (finding.write runId (some row)).category = row.category := by
      unfold Finding.write
      dsimp only
      split <;> exact ⟨rfl, rfl, rfl⟩
    obtain ⟨hfindingId, hruleId, hcategory⟩ := hkey
    exact ⟨hfindingId ▸ hrow.findingId, hruleId ▸ hrow.ruleId, hcategory ▸ hrow.category,
      undecided_write hrow.status⟩

theorem finding_writes {finding : Finding} (h : finding.Accepted) :
    findingKind.Writes before run FindingRow.Kept finding [] [] := by
  refine .pure fun old w _ hold => mirrors_passed ?_
  have hkept : (finding.write run.id old).Kept := kept_write h hold
  obtain ⟨-, -, hcontent⟩ := finding.write_spec run.id old hkept.status
  simp only [Prod.mk.injEq] at hcontent
  obtain ⟨-, hconfidence, htitle, hsummary, hstep⟩ := hcontent
  have hstatus : ((finding.write run.id old).status != .acceptedRisk &&
      (finding.write run.id old).status != .falsePositive) = true := hkept.status
  simp only [findingKind, FindingRow.constraints, verify, column, nullableColumn, check,
    confidenceCheck, hkept.findingId, hkept.ruleId, hkept.category, hstatus, hconfidence, htitle,
    hsummary, hstep, h.title, h.summary, h.recommendedNextStep, h.confident.least,
    h.confident.most, decide_true, Bool.and_self, Bool.not_true, Bool.not_false,
    Bool.false_eq_true, if_false]

def LocatedContradiction.refusals (located : LocatedContradiction) : List (Bool × AuditError) :=
  [(located.left.isNone || located.right.isNone, missingFact)]

structure LocatedContradiction.Accepted (located : LocatedContradiction) : Prop where
  contradictionId : storable 128 located.contradiction.contradictionId = true
  summary : storable 1000 located.contradiction.summary = true
  confident : Confident located.contradiction.confidence
  distinct : ∀ left right, located.left = some left → located.right = some right → left ≠ right
  citable : Citable (contradictionKind.citations located)

def ContradictionRow.Kept (row : ContradictionRow) : Prop := storable 128 row.contradictionId = true

theorem contradiction_keeps : contradictionKind.Keeps repositoryId ContradictionRow.Kept where
  writes := by
    intro run located write old w _ hwrite hverify _ links
    have hcontradictionId := verify_ok.1 hverify _ (List.mem_cons_self ..)
    change storable 128 (write old).contradictionId = true
    simpa [column, check] using hcontradictionId
  retires _ _ hkept := hkept

theorem contradiction_writes {located : LocatedContradiction} (h : located.Accepted) :
    contradictionKind.Writes before run ContradictionRow.Kept located located.refusals [] := by
  obtain ⟨contradiction, left, right⟩ := located
  cases left with
  | none => exact rfl
  | some left =>
    cases right with
    | none => exact rfl
    | some right =>
      refine ⟨_, rfl, fun old w _ hold => mirrors_passed ?_⟩
      have hne : left ≠ right := h.distinct left right rfl rfl
      have hcontradictionId : storable 128
          (contradiction.write run.id left right old).contradictionId = true := by
        cases old with
        | none => exact h.contradictionId
        | some row => exact hold row rfl
      have hrow : (contradiction.write run.id left right old).leftFact = left ∧
          (contradiction.write run.id left right old).rightFact = right ∧
          (contradiction.write run.id left right old).summary = contradiction.summary ∧
          (contradiction.write run.id left right old).confidence = contradiction.confidence := by
        cases old <;> exact ⟨rfl, rfl, rfl, rfl⟩
      obtain ⟨hleft, hright, hsummary, hconfidence⟩ := hrow
      have hstorable : storable 1000 contradiction.summary = true := h.summary
      have hconfident : Confident contradiction.confidence := h.confident
      simp [contradictionKind, ContradictionRow.constraints, verify, column, check,
        confidenceCheck, hcontradictionId, hleft, hright, hsummary, hconfidence, hstorable, hne,
        hconfident.least, hconfident.most]

end kinds

section payload

variable {Digest : Type} {rules : EvidenceRules Digest} {result : AnalyzerResult}

theorem key_of_factByClaimId {claimId : Str} {key : FactKey}
    (h : Dict.get result.factByClaimId claimId = some key) : key.2 = claimId := by
  have hpair := Dict.mem_of_mem_ofPairs (Dict.mem_of_get h)
  obtain ⟨fact, -, heq⟩ := List.mem_map.1 hpair
  obtain ⟨rfl, rfl⟩ := Prod.mk.inj heq
  rfl

theorem accepted_contradiction {contradiction : Contradiction}
    (h : contradiction.valid rules = true) :
    LocatedContradiction.Accepted ⟨contradiction,
      Dict.get result.factByClaimId contradiction.leftClaimId,
      Dict.get result.factByClaimId contradiction.rightClaimId⟩ := by
  simp only [Contradiction.valid, Bool.and_eq_true, decide_eq_true_eq, and_assoc] at h
  obtain ⟨hcontradictionId, -, -, hleast, hmost, hsummary, hsafe, hrefs, -, hdistinct⟩ := h
  refine ⟨storable_of_claimId hcontradictionId, storable_of_safe hsummary hsafe, ⟨hleast, hmost⟩,
    ?_, citable_of_valid hrefs evidenceListValid_nil⟩
  rintro left _ hleft hright rfl
  have hsame := (key_of_factByClaimId hleft).symm.trans (key_of_factByClaimId hright)
  simp [hsame] at hdistinct

/-- What the contract says of a result, as far as its rows go. -/
structure AnalyzerResult.Accepted (result : AnalyzerResult) : Prop where
  facts : ∀ fact ∈ result.factMaterial, fact.Accepted
  relationships : ∀ relationship ∈ result.relationshipCandidates, relationship.Accepted
  findings : ∀ finding ∈ result.findings, finding.Accepted
  contradictions : ∀ located ∈ result.locatedContradictions, located.Accepted

theorem accepted_result (h : result.valid rules = true) : result.Accepted := by
  simp only [AnalyzerResult.valid, Bool.and_eq_true, List.all_eq_true, and_assoc] at h
  obtain ⟨hpurpose, -, -, -, -, -, hsections, -, hrelationships, -, hfindings, -,
    hcontradictions, -, hunknowns, -⟩ := h
  refine ⟨accepted_facts hpurpose hsections hunknowns, fun relationship hmem =>
    accepted_relationship (hrelationships relationship hmem), fun finding hmem =>
      accepted_finding (hfindings finding hmem), fun located hmem => ?_⟩
  obtain ⟨contradiction, hcontradiction, rfl⟩ := List.mem_map.1 hmem
  exact accepted_contradiction (hcontradictions contradiction hcontradiction)

def RecordKind.references {Item Key Row : Type} (kind : RecordKind Item Key Row)
    (items : List Item) : List EvidenceRefV1 :=
  items.flatMap fun item => (kind.citations item).map (·.2)

/-- All the evidence that a result cites. -/
def AnalyzerResult.references (result : AnalyzerResult) : List EvidenceRefV1 :=
  factKind.references result.factMaterial ++
    (relationshipKind.references result.relationshipCandidates ++
      (findingKind.references result.findings ++
        contradictionKind.references result.locatedContradictions))

/-- What a persist checks of a result, in order, against the rows that are there before it. -/
def AnalyzerResult.checks (before : WorkspaceRows) (run : StoredRun) (result : AnalyzerResult) :
    List (Bool × AuditError) :=
  result.factMaterial.flatMap (factKind.citedChecks before run) ++
    (result.relationshipCandidates.flatMap (fun relationship => relationship.refusals run ++
        (relationship.broken before run ++ relationshipKind.citedChecks before run relationship)) ++
      (result.findings.flatMap (findingKind.citedChecks before run) ++
        result.locatedContradictions.flatMap fun located =>
          located.refusals ++ contradictionKind.citedChecks before run located))

theorem mem_references {Item Key Row : Type} {kind : RecordKind Item Key Row} {items : List Item}
    {refs : List EvidenceRefV1} (h : kind.references items ⊆ refs) :
    ∀ item ∈ items, ∀ citation ∈ kind.citations item, citation.2 ∈ refs :=
  fun item hitem _ hcitation =>
    h (List.mem_flatMap.2 ⟨item, hitem, List.mem_map_of_mem hcitation⟩)

/-- What is kept of the rows of a repository. -/
structure Store.Kept (repositoryId : Uuid) (store : Store) : Prop where
  facts : ∀ entry ∈ store.facts, entry.2.Kept
  relationships : ∀ entry ∈ store.relationships, entry.2.Kept repositoryId
  findings : ∀ entry ∈ store.findings, entry.2.Kept
  contradictions : ∀ entry ∈ store.contradictions, entry.2.Kept

variable {store store' : Store} {runs : List StoredRun} {run : StoredRun} {draw : Nat → Uuid}

/-- The rows of the workspace once the source record of the run is inserted. -/
def WorkspaceRows.withRun (w : WorkspaceRows) (run : StoredRun) : WorkspaceRows :=
  { w with sourceRecords := w.sourceRecords ++ [run.sourceRecordId] }

theorem persistRecords_mirrors (hrun : verify (run.constraints runs store.workspace) = .ok ())
    (hevidence : (store.workspace.evidence.map (·.id)).Nodup)
    (hkept : store.Kept run.scope.repositoryId) (haccepted : run.resultHash.result.Accepted)
    (hfresh : FreshDraws draw (store.workspace.withRun run) run.resultHash.result.references) :
    Mirrors (persistRecords store runs run draw)
      (run.resultHash.result.checks (store.workspace.withRun run) run) fun _ => True := by
  have hrefs : run.resultHash.result.references ⊆ run.resultHash.result.references :=
    List.Subset.refl _
  unfold AnalyzerResult.references at hrefs
  obtain ⟨hfactRefs, hrefs⟩ := List.append_subset.1 hrefs
  obtain ⟨hrelationshipRefs, hrefs⟩ := List.append_subset.1 hrefs
  obtain ⟨hfindingRefs, hcontradictionRefs⟩ := List.append_subset.1 hrefs
  have hstart : Extends draw (store.workspace.withRun run) run.resultHash.result.references run
      (store.workspace.withRun run) := .refl hevidence
  unfold persistRecords AnalyzerResult.checks
  rw [hrun]
  change Mirrors (factKind.upsertAll run draw (store.workspace.withRun run, store.facts) _ >>=
    fun facts => _) _ _
  refine (upsertAll_mirrors fact_keeps rfl hfresh
    (fun fact hmem => fact_writes (haccepted.facts fact hmem))
    (fun fact hmem => (haccepted.facts fact hmem).citable) (mem_references hfactRefs)
    ⟨hstart, hkept.facts⟩).bind fun facts _ hfacts => ?_
  refine (upsertAll_mirrors relationship_keeps rfl hfresh
    (fun relationship hmem => relationship_writes (haccepted.relationships relationship hmem))
    (fun relationship hmem => (haccepted.relationships relationship hmem).citable)
    (mem_references hrelationshipRefs)
    ⟨hfacts.1, hkept.relationships⟩).bind fun relationships _ hrelationships => ?_
  refine (upsertAll_mirrors finding_keeps rfl hfresh
    (fun finding hmem => finding_writes (haccepted.findings finding hmem))
    (fun finding hmem => (haccepted.findings finding hmem).citable) (mem_references hfindingRefs)
    ⟨hrelationships.1, hkept.findings⟩).bind fun findings _ hfindings => ?_
  rw [← List.append_nil (List.flatMap ..)]
  refine (upsertAll_mirrors contradiction_keeps rfl hfresh
    (fun located hmem => contradiction_writes (haccepted.contradictions located hmem))
    (fun located hmem => (haccepted.contradictions located hmem).citable)
    (mem_references hcontradictionRefs)
    ⟨hfindings.1, hkept.contradictions⟩).bind fun contradictions _ _ => ?_
  exact .pure trivial

/-- A persist that goes through keeps the rows. -/
theorem persistRecords_keeps {repositoryId : Uuid}
    (h : persistRecords store runs run draw = .ok store')
    (hrepository : run.scope.repositoryId = repositoryId) (hkept : store.Kept repositoryId) :
    store'.Kept repositoryId := by
  obtain ⟨_, -, h⟩ := ok_of_bind_ok h
  obtain ⟨facts, hfacts, h⟩ := ok_of_bind_ok h
  obtain ⟨relationships, hrelationships, h⟩ := ok_of_bind_ok h
  obtain ⟨findings, hfindings, h⟩ := ok_of_bind_ok h
  obtain ⟨contradictions, hcontradictions, h⟩ := ok_of_bind_ok h
  have hfactRows := upsertAll_keeps fact_keeps hrepository hfacts hkept.facts
  have hrelationshipRows :=
    upsertAll_keeps relationship_keeps hrepository hrelationships hkept.relationships
  have hfindingRows := upsertAll_keeps finding_keeps hrepository hfindings hkept.findings
  have hcontradictionRows :=
    upsertAll_keeps contradiction_keeps hrepository hcontradictions hkept.contradictions
  cases h
  split
  · have hfactKeeps : factKind.Keeps repositoryId FactRow.Kept := fact_keeps
    have hfindingKeeps : findingKind.Keeps repositoryId FindingRow.Kept := finding_keeps
    have hcontradictionKeeps : contradictionKind.Keeps repositoryId ContradictionRow.Kept :=
      contradiction_keeps
    exact ⟨retireAll_keeps hfactKeeps hfactRows,
      retireAll_keeps relationship_keeps hrelationshipRows,
      retireAll_keeps hfindingKeeps hfindingRows,
      retireAll_keeps hcontradictionKeeps hcontradictionRows⟩
  · exact ⟨hfactRows, hrelationshipRows, hfindingRows, hcontradictionRows⟩

end payload

end FounderOs.RepositoryAudit
