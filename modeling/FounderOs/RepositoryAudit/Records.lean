import FounderOs.Foundation.Retained
import FounderOs.RepositoryAudit.Job

namespace FounderOs.RepositoryAudit

open Headquarters
open Execution (Instant)

section checks

/-- The checks of a statement, in order: the first that fails raises its error. -/
def verify : List (Bool × AuditError) → Except AuditError Unit
  | [] => .ok ()
  | (failed, error) :: rest => if failed then .error error else verify rest

def check (name : String) (holds : Bool) : Bool × AuditError := (!holds, .constraint name)

/-- What `String(most)` can store. -/
def storable (most : Nat) (text : Str) : Bool := text.length ≤ most && !text.contains 0

def column (name : String) (most : Nat) (text : Str) : Bool × AuditError :=
  check name (storable most text)

def nullableColumn (name : String) (most : Nat) (text : Option Str) : Bool × AuditError :=
  check name (text.all (storable most))

end checks

inductive EvidenceRole where
  | supporting | contradicting
  deriving DecidableEq, Repr

structure EvidenceLink where
  evidenceRefId : Uuid
  role : EvidenceRole
  deriving DecidableEq

/-- `evidence_key` is represented by what it is the hash of; rows that no audit wrote have none. -/
structure EvidenceRow where
  id : Uuid
  sourceRecordId : Uuid
  evidenceKey : Option (Uuid × EvidenceRefV1)
  selector : Option Str
  sourceUrl : Option Str
  deriving DecidableEq

/-- The rows of the workspace that an audit refers to. -/
structure WorkspaceRows where
  repositories : List Uuid
  sourceRecords : List Uuid
  evidence : List EvidenceRow

inductive LifecycleStatus where
  | current | stale
  deriving DecidableEq, Repr

inductive ContradictionStatus where
  | current | resolved
  deriving DecidableEq, Repr

inductive FactType where
  | purpose | responsibility | interfaceProvided | dependencyConsumed | deploymentUnit
  | ownerCandidate | unknown
  deriving DecidableEq, Repr

inductive FactValue where
  | purpose (summary operationalSummary : Option Str) (repositoryType : RepositoryType)
  | claim (claimType : Str) (summary : Option Str) (details : List Str)
  | unknown (question : Str)
  deriving DecidableEq

/-- A fingerprint is represented by what it is the hash of, and the id of a row by its
fingerprint. -/
abbrev FactKey := FactType × Str
abbrev RelationshipKey := RelationshipType × Str × Str
abbrev FindingKey := Str × Str × Str
abbrev ContradictionKey := Str × Str

/-- The links of a row are kept with it, here and below. -/
structure FactRow where
  claimId : Str
  factType : FactType
  value : FactValue
  claimStatus : AnalyzerClaimStatus
  confidence : Rat
  lifecycleStatus : LifecycleStatus
  firstSeenRunId : Uuid
  lastSeenRunId : Uuid
  staleAt : Option Instant
  links : List EvidenceLink
  deriving DecidableEq

structure RelationshipRow where
  fromRepositoryId : Uuid
  toRepositoryId : Option Uuid
  relationshipType : RelationshipType
  targetExternalId : Str
  targetFullName : Str
  resolutionStatus : ResolutionStatus
  summary : Option Str
  claimStatus : AnalyzerClaimStatus
  confidence : Rat
  lifecycleStatus : LifecycleStatus
  firstSeenRunId : Uuid
  lastSeenRunId : Uuid
  staleAt : Option Instant
  links : List EvidenceLink
  deriving DecidableEq

structure FindingRow where
  findingId : Str
  ruleId : Str
  category : Str
  severity : FindingSeverity
  confidence : Rat
  status : FindingLifecycleStatus
  title : Str
  summary : Str
  recommendedNextStep : Option Str
  firstSeenRunId : Uuid
  lastSeenRunId : Uuid
  resolvedAt : Option Instant
  links : List EvidenceLink
  deriving DecidableEq

structure ContradictionRow where
  contradictionId : Str
  leftFact : FactKey
  rightFact : FactKey
  status : ContradictionStatus
  confidence : Rat
  summary : Str
  firstSeenRunId : Uuid
  lastSeenRunId : Uuid
  resolvedAt : Option Instant
  links : List EvidenceLink
  deriving DecidableEq

/-- A run with the source record that is inserted for it. -/
structure StoredRun extends AuditRun where
  sourceRecordId : Uuid
  deriving DecidableEq

/-- The columns whose values two runs share when one may retire what the other saw last. -/
structure Lineage where
  profile : Str
  auditLevel : AuditLevel
  policyHash : Str
  engineVersion : Str
  deriving DecidableEq

def AuditScope.lineage (scope : AuditScope) : Lineage :=
  ⟨scope.profile, scope.auditLevel, scope.policyHash, scope.engineVersion⟩

section constraints

-- Constraints that the type of a column implies, as on an enumeration, are left out, and so are
-- those on columns that no code writes.
def confidenceCheck (name : String) (confidence : Rat) : Bool × AuditError :=
  check name (decide (0 ≤ confidence) && decide (confidence ≤ 1))

def AuditScope.targetShape (scope : AuditScope) : Bool :=
  match scope.targetStatus with
  | .exact => scope.commitSha.isSome && scope.metadataSnapshotId.isNone
  | .unavailable => scope.commitSha.isNone && scope.metadataSnapshotId.isSome

def AuditScope.constraints (scope : AuditScope) (table hashes : String) :
    List (Bool × AuditError) :=
  [nullableColumn (table ++ ".metadata_snapshot_id") 255 scope.metadataSnapshotId,
    column (table ++ ".profile") 80 scope.profile,
    column (table ++ ".engine_version") 80 scope.engineVersion,
    check ("ck_" ++ table ++ "_target_shape") scope.targetShape,
    check ("ck_" ++ table ++ "_exact_deep_target")
      (scope.auditLevel == .l0 || scope.targetStatus == .exact),
    check ("ck_" ++ table ++ "_commit_sha") (scope.commitSha.all (lowerHex 40)),
    check hashes (lowerHex 64 scope.policyHash)]

def AnalysisJob.constraints (job : AnalysisJob) : List (Bool × AuditError) :=
  column "repository_analysis_jobs.idempotency_key" 128 job.idempotencyKey ::
    nullableColumn "repository_analysis_jobs.lease_owner" 64 job.leaseOwner ::
    nullableColumn "repository_analysis_jobs.error_code" 80 job.errorCode ::
    check "ck_repository_analysis_jobs_attempts"
      (1 ≤ job.maxAttempts && job.attemptCount ≤ job.maxAttempts) ::
    check "ck_repository_analysis_jobs_lease_shape"
      (job.leaseOwner.isSome == job.leaseExpiresAt.isSome) ::
    check "ck_repository_analysis_jobs_completed_status"
      (job.completedAt.isNone || job.status.terminal) ::
    job.scope.constraints "repository_analysis_jobs" "ck_repository_analysis_jobs_hashes"

def StoredRun.constraints (run : StoredRun) (runs : List StoredRun) (workspace : WorkspaceRows) :
    List (Bool × AuditError) :=
  check "source_records_pkey" (!workspace.sourceRecords.contains run.sourceRecordId) ::
    check "repository_audit_runs_pkey" (!runs.any (·.id = run.id)) ::
    check "uq_repository_audit_runs_workspace_job_id" (!runs.any (·.jobId = run.jobId)) ::
    check "ck_repository_audit_runs_time_order" (run.startedAt ≤ run.completedAt) ::
    check "ck_repository_audit_runs_reconciliation"
      (!run.reconciliationApplied || run.status = .succeeded) ::
    run.scope.constraints "repository_audit_runs" "ck_repository_audit_runs_policy_hash"

def EvidenceRow.constraints (row : EvidenceRow) (workspace : WorkspaceRows) :
    List (Bool × AuditError) :=
  [check "evidence_refs_pkey" (!workspace.evidence.any (·.id = row.id)),
    check "uq_evidence_refs_workspace_evidence_key"
      (row.evidenceKey.isNone || !workspace.evidence.any (·.evidenceKey = row.evidenceKey)),
    check "fk_evidence_refs_workspace_source_record"
      (workspace.sourceRecords.contains row.sourceRecordId),
    nullableColumn "evidence_refs.selector" 500 row.selector,
    nullableColumn "evidence_refs.source_url" 1000 row.sourceUrl]

def FactRow.constraints (row : FactRow) : List (Bool × AuditError) :=
  [column "repository_facts.claim_id" 128 row.claimId,
    confidenceCheck "ck_repository_facts_confidence" row.confidence]

def RelationshipRow.constraints (row : RelationshipRow) (workspace : WorkspaceRows) :
    List (Bool × AuditError) :=
  [column "repository_relationships.target_external_id" 255 row.targetExternalId,
    column "repository_relationships.target_full_name" 500 row.targetFullName,
    nullableColumn "repository_relationships.summary" 1000 row.summary,
    check "ck_repository_relationships_claim_status" (row.claimStatus != .insufficientEvidence),
    confidenceCheck "ck_repository_relationships_confidence" row.confidence,
    check "ck_repository_relationships_resolution_shape"
      ((row.resolutionStatus == .canonical) == row.toRepositoryId.isSome),
    check "ck_repository_relationships_no_self_edge"
      (row.toRepositoryId.all (· ≠ row.fromRepositoryId)),
    check "fk_repository_relationships_workspace_to_repository"
      (row.toRepositoryId.all workspace.repositories.contains)]

/-- Who decides on a finding is a column that no code writes. -/
def FindingRow.constraints (row : FindingRow) : List (Bool × AuditError) :=
  [column "repository_audit_findings.finding_id" 128 row.findingId,
    column "repository_audit_findings.rule_id" 128 row.ruleId,
    column "repository_audit_findings.category" 80 row.category,
    column "repository_audit_findings.title" 500 row.title,
    check "repository_audit_findings.summary" (!row.summary.contains 0),
    nullableColumn "repository_audit_findings.recommended_next_step" 1000 row.recommendedNextStep,
    confidenceCheck "ck_repository_audit_findings_confidence" row.confidence,
    check "ck_repository_audit_findings_human_decision"
      (row.status != .acceptedRisk && row.status != .falsePositive)]

def ContradictionRow.constraints (row : ContradictionRow) : List (Bool × AuditError) :=
  [column "repository_contradictions.contradiction_id" 128 row.contradictionId,
    column "repository_contradictions.summary" 1000 row.summary,
    check "ck_repository_contradictions_distinct_facts" (row.leftFact != row.rightFact),
    confidenceCheck "ck_repository_contradictions_confidence" row.confidence]

end constraints

section evidence

variable (run : StoredRun) (draw : Nat → Uuid) (workspace : WorkspaceRows)

def evidenceSelector (evidence : EvidenceRefV1) : Option Str :=
  (evidence.ref <|> evidence.id <|> evidence.recordId.map (·.text) <|>
    evidence.sourceRecordId.map (·.text)).map (·.take 500)

def unavailableEvidence : AuditError :=
  evidenceError "evidence_ref_id is unavailable in the trusted workspace"

def unavailableSourceRecord : AuditError :=
  evidenceError "evidence source record is unavailable in the trusted workspace"

def missingSelector : AuditError := evidenceError "evidence is missing a durable selector"

/-- The id of a row that is inserted is drawn. -/
def resolveEvidence (evidence : EvidenceRefV1) : Except AuditError (WorkspaceRows × Uuid) :=
  match evidence.evidenceRefId with
  | some evidenceRefId =>
    match workspace.evidence.find? (·.id = evidenceRefId) with
    | none => .error unavailableEvidence
    | some row => .ok (workspace, row.id)
  | none =>
    let sourceRecordId := evidence.sourceRecordId.getD run.sourceRecordId
    if workspace.sourceRecords.contains sourceRecordId then
      match workspace.evidence.find? (·.evidenceKey = some (sourceRecordId, evidence)) with
      | some row => .ok (workspace, row.id)
      | none =>
        match evidenceSelector evidence with
        | none => .error missingSelector
        | some selector => do
          let row : EvidenceRow :=
            { id := draw workspace.evidence.length
              sourceRecordId := sourceRecordId
              evidenceKey := some (sourceRecordId, evidence)
              selector := some selector
              sourceUrl := evidence.url }
          verify (row.constraints workspace)
          return ({ workspace with evidence := workspace.evidence ++ [row] }, row.id)
    else .error unavailableSourceRecord

/-- The next query flushes the link. -/
def linkEvidence (parentType : String) (state : WorkspaceRows × List EvidenceLink)
    (cited : EvidenceRole × EvidenceRefV1) :
    Except AuditError (WorkspaceRows × List EvidenceLink) := do
  let resolved ← resolveEvidence run draw state.1 cited.2
  let link : EvidenceLink := ⟨resolved.2, cited.1⟩
  verify [check ("uq_repository_evidence_links_" ++ parentType) (!state.2.contains link)]
  return (resolved.1, state.2 ++ [link])

def citations (supporting contradicting : List EvidenceRefV1) :
    List (EvidenceRole × EvidenceRefV1) :=
  supporting.map (EvidenceRole.supporting, ·) ++ contradicting.map (EvidenceRole.contradicting, ·)

/-- The links of the parent that are there are deleted first. -/
def replaceEvidenceLinks (parentType : String) (supporting contradicting : List EvidenceRefV1) :
    Except AuditError (WorkspaceRows × List EvidenceLink) :=
  (citations supporting contradicting).foldlM (linkEvidence run draw parentType) (workspace, [])

end evidence

/-- One kind of record: the row that an item is written to, and the evidence that it cites. -/
structure RecordKind (Item Key Row : Type) extends Retained.Rows Uuid Instant Row where
  parentType : String
  key : Item → Key
  /-- What is raised for an item before its row is looked up, or what becomes of the row. -/
  write : AuditRun → Item → Except AuditError (Option Row → Row)
  constraints : WorkspaceRows → Row → List (Bool × AuditError)
  supporting : Item → List EvidenceRefV1
  contradicting : Item → List EvidenceRefV1
  withLinks : Row → List EvidenceLink → Row

section upsert

variable {Item Key Row : Type} [DecidableEq Key] (kind : RecordKind Item Key Row)
variable (run : StoredRun) (draw : Nat → Uuid)

def RecordKind.upsert (state : WorkspaceRows × List (Key × Row)) (item : Item) :
    Except AuditError (WorkspaceRows × List (Key × Row)) := do
  let write ← kind.write run.toAuditRun item
  let row := write (Dict.get state.2 (kind.key item))
  verify (kind.constraints state.1 row)
  let cited ← replaceEvidenceLinks run draw state.1 kind.parentType (kind.supporting item)
    (kind.contradicting item)
  return (cited.1, Dict.set state.2 (kind.key item) (kind.withLinks row cited.2))

def RecordKind.upsertAll (state : WorkspaceRows × List (Key × Row)) (items : List Item) :
    Except AuditError (WorkspaceRows × List (Key × Row)) :=
  items.foldlM (kind.upsert run draw) state

end upsert

section facts

/-- One entry of `material`. -/
structure FactMaterial where
  claimId : Str
  factType : FactType
  value : FactValue
  claimStatus : AnalyzerClaimStatus
  confidence : Rat
  evidenceRefs : List EvidenceRefV1
  contradictingEvidenceRefs : List EvidenceRefV1
  deriving DecidableEq

def PurposeClaim.material (purpose : PurposeClaim) : FactMaterial :=
  ⟨purpose.claimId, .purpose,
    .purpose purpose.summary purpose.operationalSummary purpose.repositoryType, purpose.status,
    purpose.confidence, purpose.evidenceRefs, purpose.contradictingEvidenceRefs⟩

def RepositoryClaim.material (factType : FactType) (claim : RepositoryClaim) : FactMaterial :=
  ⟨claim.claimId, factType, .claim claim.claimType claim.summary claim.details, claim.status,
    claim.confidence, claim.evidenceRefs, claim.contradictingEvidenceRefs⟩

def RepositoryUnknown.material (unknown : RepositoryUnknown) : FactMaterial :=
  ⟨unknown.unknownId, .unknown, .unknown unknown.question, .insufficientEvidence, 0,
    unknown.evidenceRefs, []⟩

def AnalyzerResult.factMaterial (result : AnalyzerResult) : List FactMaterial :=
  result.purpose.material ::
    (result.responsibilities.map (RepositoryClaim.material .responsibility) ++
      result.interfacesProvided.map (RepositoryClaim.material .interfaceProvided) ++
      result.dependenciesConsumed.map (RepositoryClaim.material .dependencyConsumed) ++
      result.deploymentUnits.map (RepositoryClaim.material .deploymentUnit) ++
      result.ownershipCandidates.map (RepositoryClaim.material .ownerCandidate) ++
      result.unknowns.map (·.material))

def FactMaterial.key (fact : FactMaterial) : FactKey := (fact.factType, fact.claimId)

def FactMaterial.write (runId : Uuid) (fact : FactMaterial) : Option FactRow → FactRow
  | none =>
    { claimId := fact.claimId
      factType := fact.factType
      value := fact.value
      claimStatus := fact.claimStatus
      confidence := fact.confidence
      lifecycleStatus := .current
      firstSeenRunId := runId
      lastSeenRunId := runId
      staleAt := none
      links := [] }
  | some row =>
    { row with
      value := fact.value
      claimStatus := fact.claimStatus
      confidence := fact.confidence
      lifecycleStatus := .current
      lastSeenRunId := runId
      staleAt := none }

def factKind : RecordKind FactMaterial FactKey FactRow where
  parentType := "fact"
  key := FactMaterial.key
  write run fact := .ok (fact.write run.id)
  constraints _ row := row.constraints
  supporting := (·.evidenceRefs)
  contradicting := (·.contradictingEvidenceRefs)
  withLinks row links := { row with links := links }
  lastSeen := (·.lastSeenRunId)
  active row := row.lifecycleStatus = .current
  retire time row := { row with lifecycleStatus := .stale, staleAt := some time }
  lastSeen_retire _ _ := rfl
  active_retire _ _ := rfl

/-- `fact_by_claim_id`. -/
def AnalyzerResult.factByClaimId (result : AnalyzerResult) : List (Str × FactKey) :=
  Dict.ofPairs (result.factMaterial.map fun fact => (fact.claimId, fact.key))

end facts

section relationships

def insufficientRelationship : AuditError :=
  evidenceError "insufficient evidence cannot create a repository relationship"

def foreignRelationship : AuditError :=
  stateError "relationship source must match the persisted repository"

def Relationship.write (run : AuditRun) (relationship : Relationship) :
    Option RelationshipRow → RelationshipRow
  | none =>
    { fromRepositoryId := run.scope.repositoryId
      toRepositoryId := relationship.toRepository.repositoryId
      relationshipType := relationship.relationshipType
      targetExternalId := relationship.toRepository.externalId
      targetFullName := relationship.toRepository.fullName
      resolutionStatus := relationship.toRepository.resolutionStatus
      summary := relationship.summary
      claimStatus := relationship.status
      confidence := relationship.confidence
      lifecycleStatus := .current
      firstSeenRunId := run.id
      lastSeenRunId := run.id
      staleAt := none
      links := [] }
  | some row =>
    { row with
      toRepositoryId := relationship.toRepository.repositoryId
      targetExternalId := relationship.toRepository.externalId
      targetFullName := relationship.toRepository.fullName
      resolutionStatus := relationship.toRepository.resolutionStatus
      summary := relationship.summary
      claimStatus := relationship.status
      confidence := relationship.confidence
      lifecycleStatus := .current
      lastSeenRunId := run.id
      staleAt := none }

def relationshipKind : RecordKind Relationship RelationshipKey RelationshipRow where
  parentType := "relationship"
  key := Relationship.normalizedIdentity
  write run relationship := do
    rejectIf (relationship.status = .insufficientEvidence) insufficientRelationship
    rejectIf (relationship.fromRepository.repositoryId ≠ some run.scope.repositoryId)
      foreignRelationship
    return relationship.write run
  constraints workspace row := row.constraints workspace
  supporting := (·.evidenceRefs)
  contradicting := (·.contradictingEvidenceRefs)
  withLinks row links := { row with links := links }
  lastSeen := (·.lastSeenRunId)
  active row := row.lifecycleStatus = .current
  retire time row := { row with lifecycleStatus := .stale, staleAt := some time }
  lastSeen_retire _ _ := rfl
  active_retire _ _ := rfl

end relationships

section findings

def Finding.key (finding : Finding) : FindingKey :=
  (finding.ruleId, finding.category, finding.findingId)

def Finding.incomingStatus (finding : Finding) : FindingLifecycleStatus :=
  if finding.lifecycleStatus = .insufficientEvidence then .insufficientEvidence else .new

/-- No code sets the last two; a finding in one of them is neither reopened nor resolved. -/
def FindingLifecycleStatus.unresolved : FindingLifecycleStatus → Bool
  | .resolved | .acceptedRisk | .falsePositive => false
  | _ => true

def Finding.write (runId : Uuid) (finding : Finding) : Option FindingRow → FindingRow
  | none =>
    { findingId := finding.findingId
      ruleId := finding.ruleId
      category := finding.category
      severity := finding.severity
      confidence := finding.confidence
      status := finding.incomingStatus
      title := finding.title
      summary := finding.summary
      recommendedNextStep := finding.recommendedNextStep
      firstSeenRunId := runId
      lastSeenRunId := runId
      resolvedAt := none
      links := [] }
  | some row =>
    let refreshed :=
      { row with
        severity := finding.severity
        confidence := finding.confidence
        title := finding.title
        summary := finding.summary
        recommendedNextStep := finding.recommendedNextStep
        lastSeenRunId := runId }
    match row.status with
    | .resolved => { refreshed with status := .regressed, resolvedAt := none }
    | .acceptedRisk | .falsePositive => refreshed
    | _ => { refreshed with status := finding.incomingStatus }

def findingKind : RecordKind Finding FindingKey FindingRow where
  parentType := "finding"
  key := Finding.key
  write run finding := .ok (finding.write run.id)
  constraints _ row := row.constraints
  supporting := (·.evidenceRefs)
  contradicting := (·.contradictingEvidenceRefs)
  withLinks row links := { row with links := links }
  lastSeen := (·.lastSeenRunId)
  active row := row.status.unresolved
  retire time row := { row with status := .resolved, resolvedAt := some time }
  lastSeen_retire _ _ := rfl
  active_retire _ _ := rfl

end findings

section contradictions

/-- A contradiction with the facts that `fact_by_claim_id` has for its claims. -/
structure LocatedContradiction where
  contradiction : Contradiction
  left : Option FactKey
  right : Option FactKey
  deriving DecidableEq

def AnalyzerResult.locatedContradictions (result : AnalyzerResult) : List LocatedContradiction :=
  result.contradictions.map fun contradiction =>
    ⟨contradiction, Dict.get result.factByClaimId contradiction.leftClaimId,
      Dict.get result.factByClaimId contradiction.rightClaimId⟩

def missingFact : AuditError := stateError "contradiction references a missing persisted fact"

def Contradiction.write (runId : Uuid) (contradiction : Contradiction) (left right : FactKey) :
    Option ContradictionRow → ContradictionRow
  | none =>
    { contradictionId := contradiction.contradictionId
      leftFact := left
      rightFact := right
      status := .current
      confidence := contradiction.confidence
      summary := contradiction.summary
      firstSeenRunId := runId
      lastSeenRunId := runId
      resolvedAt := none
      links := [] }
  | some row =>
    { row with
      leftFact := left
      rightFact := right
      status := .current
      confidence := contradiction.confidence
      summary := contradiction.summary
      lastSeenRunId := runId
      resolvedAt := none }

def contradictionKind : RecordKind LocatedContradiction ContradictionKey ContradictionRow where
  parentType := "contradiction"
  key located := located.contradiction.normalizedPair
  write run located :=
    match located.left, located.right with
    | some left, some right => .ok (located.contradiction.write run.id left right)
    | _, _ => .error missingFact
  constraints _ row := row.constraints
  supporting located := located.contradiction.evidenceRefs
  contradicting _ := []
  withLinks row links := { row with links := links }
  lastSeen := (·.lastSeenRunId)
  active row := row.status = .current
  retire time row := { row with status := .resolved, resolvedAt := some time }
  lastSeen_retire _ _ := rfl
  active_retire _ _ := rfl

end contradictions

/-- The records of one repository, in its workspace. -/
structure Store where
  workspace : WorkspaceRows
  facts : List (FactKey × FactRow)
  relationships : List (RelationshipKey × RelationshipRow)
  findings : List (FindingKey × FindingRow)
  contradictions : List (ContradictionKey × ContradictionRow)

section persist

variable (store : Store) (runs : List StoredRun) (run : StoredRun) (draw : Nat → Uuid)

/-- The runs of the lineage other than the run itself. -/
def priorRuns (runId : Uuid) : Bool :=
  runs.any fun prior => prior.scope.lineage = run.scope.lineage && prior.id ≠ run.id &&
    prior.id = runId

def reconcileAbsentRecords : Store where
  workspace := store.workspace
  facts := factKind.retireAll (priorRuns runs run) run.completedAt store.facts
  relationships :=
    relationshipKind.retireAll (priorRuns runs run) run.completedAt store.relationships
  findings := findingKind.retireAll (priorRuns runs run) run.completedAt store.findings
  contradictions :=
    contradictionKind.retireAll (priorRuns runs run) run.completedAt store.contradictions

/-- `persist_repository_intelligence_result` once it is to store the run. -/
def persistRecords : Except AuditError Store := do
  verify (run.constraints runs store.workspace)
  let workspace :=
    { store.workspace with
      sourceRecords := store.workspace.sourceRecords ++ [run.sourceRecordId] }
  let result := run.resultHash.result
  let facts ← factKind.upsertAll run draw (workspace, store.facts) result.factMaterial
  let relationships ← relationshipKind.upsertAll run draw (facts.1, store.relationships)
    result.relationshipCandidates
  let findings ← findingKind.upsertAll run draw (relationships.1, store.findings) result.findings
  let contradictions ← contradictionKind.upsertAll run draw (findings.1, store.contradictions)
    result.locatedContradictions
  let written : Store :=
    ⟨contradictions.1, facts.2, relationships.2, findings.2, contradictions.2⟩
  return if run.status = .succeeded then reconcileAbsentRecords written runs run else written

end persist

end FounderOs.RepositoryAudit
