import FounderOs.Foundation.Grouping
import FounderOs.RepositoryAudit.LevelZero
import FounderOs.RepositoryAudit.Records

namespace FounderOs.RepositoryAudit

open Headquarters
open Execution (Instant)

def maxPortfolioLimit : Nat := 200
def maxDetailFacts : Nat := 100
def maxDetailRelationships : Nat := 100
def maxDetailFindings : Nat := 100
def maxDetailContradictions : Nat := 50
def maxDetailConfirmations : Nat := 100
def maxEvidencePerItem : Nat := 20

/-- No code writes a decision. -/
inductive HumanResolutionStatus where
  | pending | confirmed | rejected
  deriving DecidableEq, Repr

structure FactRecord extends FactRow where
  id : Uuid
  workspaceId : Uuid
  repositoryId : Uuid
  fingerprint : FactKey
  humanResolutionStatus : HumanResolutionStatus
  updatedAt : Instant

structure RelationshipRecord extends RelationshipRow where
  id : Uuid
  workspaceId : Uuid
  humanResolutionStatus : HumanResolutionStatus
  updatedAt : Instant

structure FindingRecord extends FindingRow where
  id : Uuid
  workspaceId : Uuid
  repositoryId : Uuid
  updatedAt : Instant

structure ContradictionRecord extends ContradictionRow where
  id : Uuid
  workspaceId : Uuid
  repositoryId : Uuid
  updatedAt : Instant

/-- The tables that the views read, of every workspace. -/
structure IntelligenceTables where
  repositories : List CanonicalRepository
  runs : List AuditRun
  facts : List FactRecord
  relationships : List RelationshipRecord
  findings : List FindingRecord
  contradictions : List ContradictionRecord
  evidence : List EvidenceRow

def FactType.value : FactType → String
  | purpose => "purpose"
  | responsibility => "responsibility"
  | interfaceProvided => "interface_provided"
  | dependencyConsumed => "dependency_consumed"
  | deploymentUnit => "deployment_unit"
  | ownerCandidate => "owner_candidate"
  | unknown => "unknown"

def RelationshipType.value : RelationshipType → String
  | callsApiOf => "calls_api_of"
  | importsPackageFrom => "imports_package_from"
  | consumesEventFrom => "consumes_event_from"
  | deployedBy => "deployed_by"
  | usesImageFrom => "uses_image_from"
  | generatesClientFor => "generates_client_for"
  | tests => "tests"
  | documents => "documents"
  | replaces => "replaces"
  | forkedFrom => "forked_from"
  | duplicateCandidateOf => "duplicate_candidate_of"
  | operationallyCoupledWith => "operationally_coupled_with"
  | sharesSchemaWith => "shares_schema_with"
  | sharesDatabaseWith => "shares_database_with"
  | ownsMigrationsFor => "owns_migrations_for"

section order

variable {R : Type}

/-- `ORDER BY` of these keys. -/
def sortedBy (keys : List (R → R → Ordering)) (rows : List R) : List R :=
  rows.mergeSort fun a b => (keys.foldr (fun key rest => (key a b).then rest) .eq) != .gt

def byText (text : R → Str) (a b : R) : Ordering :=
  if text a = text b then .eq else if Str.le (text a) (text b) then .lt else .gt

def byId (id : R → Uuid) : R → R → Ordering := byText fun row => (id row).text

/-- `case((matches, 0), else_=1)`. -/
def first (matched : R → Bool) (a b : R) : Ordering := compare (matched b) (matched a)

def newest (time : R → Instant) (a b : R) : Ordering := compare (time b) (time a)

end order

section texts

/-- `_safe_optional_text`. -/
def safeOptionalText (limit : Nat) (value : Option Str) : Option Str :=
  l0SafeText limit (Connectors.optional value)

def safeStringList (limit : Nat) (value : List Str) : List Str :=
  (value.take limit).filterMap fun item => safeOptionalText 500 (some item)

inductive FactValueView where
  | purpose (summary operationalSummary : Option Str) (repositoryType : Str)
  | claim (claimType summary : Option Str) (details : List Str)
  | unknown (question : Str)
  deriving DecidableEq

/-- `_fact_value`. -/
def FactValue.view : FactValue → FactValueView
  | purpose summary operationalSummary repositoryType =>
    .purpose (safeOptionalText 1000 summary) (safeOptionalText 2000 operationalSummary)
      ((safeOptionalText 80 (some (Str.of repositoryType.value))).getD (Str.of "unknown"))
  | unknown question =>
    .unknown ((safeOptionalText 1000 (some question)).getD (Str.of "Unknown repository question"))
  | claim claimType summary details =>
    .claim (safeOptionalText 80 (some claimType)) (safeOptionalText 1000 summary)
      (safeStringList 20 details)

/-- `_fact_label`. -/
def FactValueView.label (factType : FactType) (value : FactValueView) : Str :=
  let texts := match value with
    | .purpose summary _ repositoryType => [summary, some repositoryType]
    | .claim _ summary _ => [summary]
    | .unknown question => [some question]
  (texts.findSome? (safeOptionalText 1000)).getD (Str.of factType.value)

def FactValue.claimSummary : FactValue → Option Str
  | purpose summary _ _ | claim _ summary _ => safeOptionalText 1000 summary
  | unknown _ => none

end texts

section payloads

structure IdentityPayload where
  id : Uuid
  externalId : Str
  name : Str
  fullName : Str
  defaultBranch : Option Str
  visibility : Option Str
  archived : Bool
  sourceUrl : Option Str
  lastActivityAt : Option Str

inductive ArtifactStatus where
  | purged | retained
  deriving DecidableEq, Repr

structure LatestAuditPayload where
  id : Uuid
  scope : AuditScope
  status : RunStatus
  coverageComplete : Bool
  reconciliationApplied : Bool
  completedAt : Instant
  artifactStatus : ArtifactStatus

structure EvidencePayload where
  id : Uuid
  role : EvidenceRole
  kind : EvidenceKind
  source : EvidenceSource
  ref : Option Str
  recordId : Uuid
  url : Option Str

structure FactPayload where
  id : Uuid
  factType : FactType
  claimId : Str
  value : FactValueView
  claimStatus : AnalyzerClaimStatus
  confidence : Rat
  lifecycleStatus : LifecycleStatus
  humanResolutionStatus : HumanResolutionStatus
  firstSeenAt : Option Instant
  lastSeenAt : Option Instant
  staleAt : Option Instant
  evidence : List EvidencePayload

inductive Direction where
  | outbound | inbound
  deriving DecidableEq, Repr

structure RelationshipPayload where
  id : Uuid
  direction : Direction
  fromRepository : Uuid × Str
  toRepository : Option (Uuid × Str)
  targetFullName : Str
  relationshipType : RelationshipType
  resolutionStatus : ResolutionStatus
  summary : Option Str
  claimStatus : AnalyzerClaimStatus
  confidence : Rat
  lifecycleStatus : LifecycleStatus
  humanResolutionStatus : HumanResolutionStatus
  firstSeenAt : Option Instant
  lastSeenAt : Option Instant
  staleAt : Option Instant
  evidence : List EvidencePayload

structure FindingPayload where
  id : Uuid
  findingId : Str
  ruleId : Str
  category : Str
  severity : FindingSeverity
  confidence : Rat
  status : FindingLifecycleStatus
  title : Str
  summary : Str
  recommendedNextStep : Option Str
  firstSeenAt : Option Instant
  lastSeenAt : Option Instant
  resolvedAt : Option Instant
  evidence : List EvidencePayload

structure ContradictionFactPayload where
  id : Uuid
  factType : FactType
  claimId : Str
  value : FactValueView
  claimStatus : AnalyzerClaimStatus

structure ContradictionPayload where
  id : Uuid
  contradictionId : Str
  status : ContradictionStatus
  confidence : Rat
  summary : Str
  leftFact : Option ContradictionFactPayload
  rightFact : Option ContradictionFactPayload
  firstSeenAt : Option Instant
  lastSeenAt : Option Instant
  resolvedAt : Option Instant
  evidence : List EvidencePayload

inductive ConfirmationKind where
  | fact | relationship
  deriving DecidableEq, Repr

structure ConfirmationPayload where
  kind : ConfirmationKind
  id : Uuid
  label : Str
  claimStatus : AnalyzerClaimStatus
  humanResolutionStatus : HumanResolutionStatus
  evidence : List EvidencePayload

structure OpenFindings where
  critical : Nat
  high : Nat
  medium : Nat
  low : Nat
  info : Nat

def OpenFindings.total (counts : OpenFindings) : Nat :=
  counts.critical + counts.high + counts.medium + counts.low + counts.info

structure PortfolioPayload extends IdentityPayload where
  purposeSummary : Option Str
  operationalSummary : Option Str
  repositoryType : Str
  purposeStatus : Option AnalyzerClaimStatus
  purposeConfidence : Rat
  ownerCandidates : List Str
  hasConfirmedOwner : Bool
  latestAudit : Option LatestAuditPayload
  openFindings : OpenFindings
  openFindingsTotal : Nat
  outboundRelationshipCount : Nat
  inboundRelationshipCount : Nat
  unknownCount : Nat
  pendingConfirmationCount : Nat
  hasStaleIntelligence : Bool

structure Portfolio where
  repositories : List PortfolioPayload
  limit : Nat
  truncated : Bool

structure DetailTruncated where
  facts : Bool
  relationships : Bool
  findings : Bool
  contradictions : Bool
  confirmationQueue : Bool
  deriving DecidableEq

def DetailTruncated.any (truncated : DetailTruncated) : Bool :=
  truncated.facts || truncated.relationships || truncated.findings || truncated.contradictions ||
    truncated.confirmationQueue

/-- The comparisons with other sources are left out. -/
structure Detail where
  repository : IdentityPayload
  purpose : Option FactPayload
  latestAudit : Option LatestAuditPayload
  facts : List FactPayload
  relationships : List RelationshipPayload
  findings : List FindingPayload
  contradictions : List ContradictionPayload
  unknowns : List FactPayload
  confirmationQueue : List ConfirmationPayload
  limitations : List Str
  truncated : DetailTruncated

end payloads

section rows

variable {Digest : Type} (rules : EvidenceRules Digest)

def identityPayload (repository : CanonicalRepository) : IdentityPayload where
  id := repository.id
  externalId := repository.externalId
  name := repository.name
  fullName := repository.fullName
  defaultBranch := repository.defaultBranch
  visibility := repository.visibility
  archived := repository.archived
  sourceUrl := repository.sourceUrl.filter rules.safeUrl
  lastActivityAt := repository.lastActivityAt

def latestAuditPayload (run : AuditRun) : LatestAuditPayload where
  id := run.id
  scope := run.scope
  status := run.status
  coverageComplete := run.coverage.isCompleteFor run.scope.auditLevel
  reconciliationApplied := run.reconciliationApplied
  completedAt := run.completedAt
  artifactStatus := if run.artifactPurgedAt.isSome then .purged else .retained

/-- A row of evidence that no audit wrote has no kind and no source. -/
def evidencePayload (link : EvidenceLink) (row : EvidenceRow) : EvidencePayload where
  id := row.id
  role := link.role
  kind := (row.evidenceKey.map (·.2.kind)).getD .repositoryMetadata
  source := (row.evidenceKey.map (·.2.source)).getD .internal
  ref := safeOptionalText 500 row.selector
  recordId := row.sourceRecordId
  url := row.sourceUrl.filter rules.safeUrl

variable (db : IntelligenceTables) (workspaceId : Uuid)

/-- `_run_times`. -/
def IntelligenceTables.runTime (runId : Uuid) : Option Instant :=
  (db.runs.find? fun run => run.scope.workspaceId = workspaceId && run.id = runId).map
    (·.completedAt)

/-- `_evidence_by_parent`, for the links of one row. -/
def IntelligenceTables.evidenceOf (links : List EvidenceLink) : List EvidencePayload :=
  (links.filterMap fun link =>
    (db.evidence.find? (·.id = link.evidenceRefId)).map (evidencePayload rules link)).take
      maxEvidencePerItem

/-- `_repository_names`. -/
def IntelligenceTables.repositoryName (id : Uuid) : Option Str :=
  (db.repositories.find? fun repository => repository.workspaceId = workspaceId &&
    repository.id = id).map (·.fullName)

def factPayload (fact : FactRecord) : FactPayload where
  id := fact.id
  factType := fact.factType
  claimId := fact.claimId
  value := fact.value.view
  claimStatus := fact.claimStatus
  confidence := fact.confidence
  lifecycleStatus := fact.lifecycleStatus
  humanResolutionStatus := fact.humanResolutionStatus
  firstSeenAt := db.runTime workspaceId fact.firstSeenRunId
  lastSeenAt := db.runTime workspaceId fact.lastSeenRunId
  staleAt := fact.staleAt
  evidence := db.evidenceOf rules fact.links

def relationshipPayload (selectedRepositoryId : Uuid) (relationship : RelationshipRecord) :
    RelationshipPayload where
  id := relationship.id
  direction :=
    if relationship.fromRepositoryId = selectedRepositoryId then .outbound else .inbound
  fromRepository := (relationship.fromRepositoryId,
    (db.repositoryName workspaceId relationship.fromRepositoryId).getD (Str.of "unknown"))
  toRepository := relationship.toRepositoryId.map fun id =>
    (id, (db.repositoryName workspaceId id).getD relationship.targetFullName)
  targetFullName := relationship.targetFullName
  relationshipType := relationship.relationshipType
  resolutionStatus := relationship.resolutionStatus
  summary := safeOptionalText 1000 relationship.summary
  claimStatus := relationship.claimStatus
  confidence := relationship.confidence
  lifecycleStatus := relationship.lifecycleStatus
  humanResolutionStatus := relationship.humanResolutionStatus
  firstSeenAt := db.runTime workspaceId relationship.firstSeenRunId
  lastSeenAt := db.runTime workspaceId relationship.lastSeenRunId
  staleAt := relationship.staleAt
  evidence := db.evidenceOf rules relationship.links

def findingPayload (finding : FindingRecord) : FindingPayload where
  id := finding.id
  findingId := finding.findingId
  ruleId := finding.ruleId
  category := finding.category
  severity := finding.severity
  confidence := finding.confidence
  status := finding.status
  title := finding.title
  summary := finding.summary
  recommendedNextStep := finding.recommendedNextStep
  firstSeenAt := db.runTime workspaceId finding.firstSeenRunId
  lastSeenAt := db.runTime workspaceId finding.lastSeenRunId
  resolvedAt := finding.resolvedAt
  evidence := db.evidenceOf rules finding.links

def contradictionFactPayload (fact : FactRecord) : ContradictionFactPayload :=
  ⟨fact.id, fact.factType, fact.claimId, fact.value.view, fact.claimStatus⟩

/-- A fact that is not among the selected ones is left out. -/
def contradictionPayload (facts : List FactRecord) (contradiction : ContradictionRecord) :
    ContradictionPayload where
  id := contradiction.id
  contradictionId := contradiction.contradictionId
  status := contradiction.status
  confidence := contradiction.confidence
  summary := contradiction.summary
  leftFact := (facts.find? (·.fingerprint = contradiction.leftFact)).map contradictionFactPayload
  rightFact := (facts.find? (·.fingerprint = contradiction.rightFact)).map contradictionFactPayload
  firstSeenAt := db.runTime workspaceId contradiction.firstSeenRunId
  lastSeenAt := db.runTime workspaceId contradiction.lastSeenRunId
  resolvedAt := contradiction.resolvedAt
  evidence := db.evidenceOf rules contradiction.links

end rows

section confirmations

/-- What awaits a decision: `_fact_requires_confirmation_payload`, and the filter of
`_pending_confirmation_counts`. No fact is a product candidate. -/
def factAwaits (lifecycleStatus : LifecycleStatus) (humanResolutionStatus : HumanResolutionStatus)
    (claimStatus : AnalyzerClaimStatus) (factType : FactType) : Bool :=
  lifecycleStatus == .current && humanResolutionStatus == .pending &&
    (claimStatus == .inferred || factType == .ownerCandidate)

def relationshipAwaits (lifecycleStatus : LifecycleStatus)
    (humanResolutionStatus : HumanResolutionStatus) (claimStatus : AnalyzerClaimStatus)
    (resolutionStatus : ResolutionStatus) : Bool :=
  lifecycleStatus == .current && humanResolutionStatus == .pending &&
    (claimStatus == .inferred || resolutionStatus == .candidate)

def FactRecord.awaits (fact : FactRecord) : Bool :=
  factAwaits fact.lifecycleStatus fact.humanResolutionStatus fact.claimStatus fact.factType

def FactPayload.awaits (fact : FactPayload) : Bool :=
  factAwaits fact.lifecycleStatus fact.humanResolutionStatus fact.claimStatus fact.factType

def RelationshipRecord.awaits (relationship : RelationshipRecord) : Bool :=
  relationshipAwaits relationship.lifecycleStatus relationship.humanResolutionStatus
    relationship.claimStatus relationship.resolutionStatus

def RelationshipPayload.awaits (relationship : RelationshipPayload) : Bool :=
  relationshipAwaits relationship.lifecycleStatus relationship.humanResolutionStatus
    relationship.claimStatus relationship.resolutionStatus

def FactPayload.confirmation (fact : FactPayload) : ConfirmationPayload :=
  ⟨.fact, fact.id, fact.value.label fact.factType, fact.claimStatus, fact.humanResolutionStatus,
    fact.evidence⟩

def RelationshipPayload.confirmation (relationship : RelationshipPayload) : ConfirmationPayload :=
  ⟨.relationship, relationship.id,
    relationship.summary.getD (relationship.fromRepository.2 ++ 32 ::
      Str.of relationship.relationshipType.value ++ 32 :: relationship.targetFullName),
    relationship.claimStatus, relationship.humanResolutionStatus, relationship.evidence⟩

def FindingLifecycleStatus.isOpen : FindingLifecycleStatus → Bool
  | .new | .open | .regressed => true
  | _ => false

end confirmations

section views

variable {Digest : Type} (rules : EvidenceRules Digest) (collate : Str → Str → Ordering)
variable (db : IntelligenceTables) (workspaceId : Uuid)

def severityRank : FindingSeverity → Nat
  | .critical => 0
  | .high => 1
  | .medium => 2
  | .low => 3
  | .info => 4

namespace IntelligenceTables

def factsOf (repositoryId : Uuid) : List FactRecord :=
  db.facts.filter fun fact => fact.workspaceId = workspaceId && fact.repositoryId = repositoryId

def findingsOf (repositoryId : Uuid) : List FindingRecord :=
  db.findings.filter fun finding =>
    finding.workspaceId = workspaceId && finding.repositoryId = repositoryId

/-- Of either end. -/
def relationshipsOf (repositoryId : Uuid) : List RelationshipRecord :=
  db.relationships.filter fun relationship => relationship.workspaceId = workspaceId &&
    (relationship.fromRepositoryId = repositoryId || relationship.toRepositoryId = some repositoryId)

def contradictionsOf (repositoryId : Uuid) : List ContradictionRecord :=
  db.contradictions.filter fun contradiction =>
    contradiction.workspaceId = workspaceId && contradiction.repositoryId = repositoryId

def latestRun (repositoryId : Uuid) : Option AuditRun :=
  (sortedBy [newest (·.completedAt), fun a b => byId (·.id) b a] <| db.runs.filter fun run =>
    run.scope.workspaceId = workspaceId && run.scope.repositoryId = repositoryId).head?

/-- `_portfolio_facts`, for one repository. -/
def portfolioFacts (repositoryId : Uuid) : List FactRecord :=
  sortedBy [fun a b => collate (Str.of a.factType.value) (Str.of b.factType.value),
      newest (·.updatedAt), byId (·.id)] <|
    (db.factsOf workspaceId repositoryId).filter fun fact => fact.lifecycleStatus = .current &&
      [FactType.purpose, .ownerCandidate].contains fact.factType

variable (repositoryIds : List Uuid)

def portfolioFindingCounts : List ((Uuid × FindingSeverity) × Nat) :=
  Dict.countBy (fun finding => (finding.repositoryId, finding.severity)) <|
    db.findings.filter fun finding => finding.workspaceId = workspaceId &&
      repositoryIds.contains finding.repositoryId && finding.status.isOpen

def portfolioUnknownCounts : List (Uuid × Nat) :=
  Dict.countBy (·.repositoryId) <| db.facts.filter fun fact => fact.workspaceId = workspaceId &&
    repositoryIds.contains fact.repositoryId && fact.factType = .unknown &&
      fact.lifecycleStatus = .current

def outboundCounts : List (Uuid × Nat) :=
  Dict.countBy (·.fromRepositoryId) <| db.relationships.filter fun relationship =>
    relationship.workspaceId = workspaceId &&
      repositoryIds.contains relationship.fromRepositoryId &&
        relationship.lifecycleStatus = .current

def inboundCounts : List (Option Uuid × Nat) :=
  Dict.countBy (·.toRepositoryId) <| db.relationships.filter fun relationship =>
    relationship.workspaceId = workspaceId &&
      relationship.toRepositoryId.any repositoryIds.contains &&
        relationship.lifecycleStatus = .current

def hasStale (repositoryId : Uuid) : Bool :=
  (db.facts.any fun fact => fact.workspaceId = workspaceId && fact.repositoryId = repositoryId &&
      fact.lifecycleStatus = .stale) ||
    db.relationships.any fun relationship => relationship.workspaceId = workspaceId &&
      relationship.fromRepositoryId = repositoryId && relationship.lifecycleStatus = .stale

def pendingFactCounts : List (Uuid × Nat) :=
  Dict.countBy (·.repositoryId) <| db.facts.filter fun fact => fact.workspaceId = workspaceId &&
    repositoryIds.contains fact.repositoryId && fact.awaits

/-- Under the repository that the relationship starts from. -/
def pendingRelationshipCounts : List (Uuid × Nat) :=
  Dict.countBy (·.fromRepositoryId) <| db.relationships.filter fun relationship =>
    relationship.workspaceId = workspaceId &&
      repositoryIds.contains relationship.fromRepositoryId && relationship.awaits

/-- `_pending_confirmation_counts`, at one repository. -/
def pendingConfirmationCount (repositoryId : Uuid) : Nat :=
  (Dict.get (db.pendingFactCounts workspaceId repositoryIds) repositoryId).getD 0 +
    (Dict.get (db.pendingRelationshipCounts workspaceId repositoryIds) repositoryId).getD 0

def openFindings (repositoryId : Uuid) : OpenFindings :=
  let count (severity : FindingSeverity) : Nat :=
    (Dict.get (db.portfolioFindingCounts workspaceId repositoryIds) (repositoryId, severity)).getD 0
  ⟨count .critical, count .high, count .medium, count .low, count .info⟩

end IntelligenceTables

def portfolioRepositoryPayload (repositoryIds : List Uuid) (repository : CanonicalRepository) :
    PortfolioPayload :=
  let facts := db.portfolioFacts collate workspaceId repository.id
  let purpose := facts.find? (·.factType = .purpose)
  let owners := facts.filter (·.factType = .ownerCandidate)
  let openFindings := db.openFindings workspaceId repositoryIds repository.id
  { toIdentityPayload := identityPayload rules repository
    purposeSummary := purpose.bind fun fact => fact.value.claimSummary
    operationalSummary := purpose.bind fun fact => match fact.value with
      | .purpose _ operationalSummary _ => safeOptionalText 2000 operationalSummary
      | _ => none
    repositoryType := (purpose.bind fun fact => match fact.value with
      | .purpose _ _ repositoryType => safeOptionalText 80 (some (Str.of repositoryType.value))
      | _ => none).getD (Str.of "unknown")
    purposeStatus := purpose.map (·.claimStatus)
    purposeConfidence := (purpose.map (·.confidence)).getD 0
    ownerCandidates := (owners.filterMap fun fact =>
      fact.value.claimSummary.filter (· ≠ [])).take 20
    hasConfirmedOwner := owners.any (·.humanResolutionStatus = .confirmed)
    latestAudit := (db.latestRun workspaceId repository.id).map latestAuditPayload
    openFindings
    openFindingsTotal := openFindings.total
    outboundRelationshipCount :=
      (Dict.get (db.outboundCounts workspaceId repositoryIds) repository.id).getD 0
    inboundRelationshipCount :=
      (Dict.get (db.inboundCounts workspaceId repositoryIds) (some repository.id)).getD 0
    unknownCount :=
      (Dict.get (db.portfolioUnknownCounts workspaceId repositoryIds) repository.id).getD 0
    pendingConfirmationCount := db.pendingConfirmationCount workspaceId repositoryIds repository.id
    hasStaleIntelligence := db.hasStale workspaceId repository.id }

def IntelligenceTables.portfolioRows (boundedLimit : Nat) : List CanonicalRepository :=
  (sortedBy [fun a b => compare a.archived b.archived,
      fun a b => collate a.fullName b.fullName, byId (·.id)]
    (db.repositories.filter (·.workspaceId = workspaceId))).take (boundedLimit + 1)

/-- `build_repository_intelligence_portfolio`; `_bounded_limit` has a limit of at least one. -/
def buildRepositoryIntelligencePortfolio (limit : Int) : Portfolio :=
  let boundedLimit := (max 1 (min limit maxPortfolioLimit)).toNat
  let rows := db.portfolioRows collate workspaceId boundedLimit
  let repositories := rows.take boundedLimit
  { repositories := repositories.map
      (portfolioRepositoryPayload rules collate db workspaceId (repositories.map (·.id)))
    limit := boundedLimit
    truncated := boundedLimit < rows.length }

/-- `build_repository_intelligence_detail`; `none` where the workspace has no such repository. -/
def buildRepositoryIntelligenceDetail (repositoryId : Uuid) : Option Detail :=
  (db.repositories.find? fun repository => repository.workspaceId = workspaceId &&
      repository.id = repositoryId).map fun repository =>
    let latestRun := db.latestRun workspaceId repositoryId
    let facts := (sortedBy [first (·.lifecycleStatus = .current),
        fun a b => collate (Str.of a.factType.value) (Str.of b.factType.value),
        newest (·.updatedAt), byId (·.id)] (db.factsOf workspaceId repositoryId)).take
      (maxDetailFacts + 1)
    let relationships := (sortedBy [first (·.lifecycleStatus = .current), newest (·.updatedAt),
        byId (·.id)] (db.relationshipsOf workspaceId repositoryId)).take
      (maxDetailRelationships + 1)
    let findings := (sortedBy [fun a b => compare (severityRank a.severity)
          (severityRank b.severity), newest (·.updatedAt), byId (·.id)]
        (db.findingsOf workspaceId repositoryId)).take (maxDetailFindings + 1)
    let contradictions := (sortedBy [first (·.status = .current), newest (·.updatedAt),
        byId (·.id)] (db.contradictionsOf workspaceId repositoryId)).take
      (maxDetailContradictions + 1)
    let selectedFacts := facts.take maxDetailFacts
    let factRows := selectedFacts.map (factPayload rules db workspaceId)
    let relationshipRows := (relationships.take maxDetailRelationships).map
      (relationshipPayload rules db workspaceId repositoryId)
    let confirmationQueue := (factRows.filter (·.awaits)).map (·.confirmation) ++
      (relationshipRows.filter (·.awaits)).map (·.confirmation)
    { repository := identityPayload rules repository
      purpose := factRows.find? fun fact => fact.factType = .purpose &&
        fact.lifecycleStatus = .current
      latestAudit := latestRun.map latestAuditPayload
      facts := factRows
      relationships := relationshipRows
      findings := (findings.take maxDetailFindings).map (findingPayload rules db workspaceId)
      contradictions := (contradictions.take maxDetailContradictions).map
        (contradictionPayload rules db workspaceId selectedFacts)
      unknowns := factRows.filter (·.factType = .unknown)
      confirmationQueue := confirmationQueue.take maxDetailConfirmations
      limitations := (latestRun.map fun run => safeStringList 50 run.limitations).getD []
      truncated := {
        facts := maxDetailFacts < facts.length
        relationships := maxDetailRelationships < relationships.length
        findings := maxDetailFindings < findings.length
        contradictions := maxDetailContradictions < contradictions.length
        confirmationQueue := maxDetailConfirmations < confirmationQueue.length } }

end views

end FounderOs.RepositoryAudit
