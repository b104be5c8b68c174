import FounderOs.Foundation.Dict
import FounderOs.Foundation.JsonText
import FounderOs.Foundation.Outcome
import FounderOs.Proposals.SecretKeys
import FounderOs.RepositoryAudit.Views
import Mathlib.Algebra.Order.Ring.Unbundled.Rat

namespace FounderOs.RepositoryAudit.CrossSource

open Headquarters
open Execution (Instant)
open Proposals (Value Object)

def claimSetSchema : Str := Str.of "repository_cross_source_claim_set.v1"
def claimSchema : Str := Str.of "repository_cross_source_claim.v1"
def metadataKey : Str := Str.of "repository_intelligence_claims"
def documentTag : Str := Str.of "repository-intelligence"

def maxSources : Nat := 200
def maxClaimsPerSource : Nat := 20
def maxComparisons : Nat := 200
def maxRejections : Nat := 100
def maxClaimBytes : Nat := 16384
/-- The bound of the query for the facts. -/
def maxFacts : Nat := 500

def supportedFactTypes : List FactType :=
  [.purpose, .responsibility, .interfaceProvided, .dependencyConsumed, .deploymentUnit,
    .ownerCandidate]

section claims

inductive ComparisonField where
  | repositoryType | claimType
  deriving DecidableEq, Repr

def ComparisonField.value : ComparisonField → String
  | repositoryType => "repository_type"
  | claimType => "claim_type"

/-- `RepositoryCrossSourceClaimV1`. -/
structure Claim where
  repositoryId : Uuid
  repositoryFullName : Str
  factType : FactType
  claimId : Str
  field : ComparisonField
  expectedValue : Str
  summary : Str
  confidence : Rat
  deriving DecidableEq

inductive SourceType where
  | task | pullRequest | document
  deriving DecidableEq, Repr

structure SourcePayload where
  sourceType : SourceType
  provider : Str
  recordId : Uuid
  ref : Str
  url : Option Str
  observedAt : Instant
  deriving DecidableEq

/-- What the id of a comparison is the digest of. -/
structure ComparisonKey where
  source : SourcePayload
  claim : Claim
  factId : Option Uuid

inductive LoadFailure where
  /-- `JSONDecodeError` or `UnicodeError`. -/
  | invalid
  /-- Any other exception, as where the nesting is too deep. -/
  | raised
  deriving DecidableEq

/-- `encodedSize` is the length of `json.dumps` in UTF-8, `none` where it raises; `number` reads the
text of a number, `uuid` what a model takes as an id, and `safeUrl` is
`sanitize_headquarters_evidence_url`. -/
structure CrossSourceRules (Digest : Type) extends EvidenceRules Digest where
  loads : Str → Except LoadFailure Value
  encodedSize : Value → Option Nat
  number : Str → Rat
  comparisonId : ComparisonKey → Str

variable {Digest : Type} (rules : CrossSourceRules Digest)

def textOf : Option Value → Option Str
  | some (.str text) => some text
  | _ => none

/-- A text between two lengths that `validate_safe_text` takes. -/
def safeField (least most : Nat) (value : Option Value) : Option Str :=
  (textOf value).filter fun text => lengthWithin least most text && safe text

/-- A `schema_version` may be left out. -/
def versionIs (version : Str) : Option Value → Bool
  | none => true
  | some (.str text) => text == version
  | some _ => false

def claimKeys : List Str :=
  ["schema_version", "repository_id", "repository_full_name", "fact_type", "claim_id", "field",
    "expected_value", "summary", "confidence"].map Str.of

def repositoryTypes : List RepositoryType :=
  [.frontendApplication, .backendService, .worker, .library, .sdk, .cli, .dataPipeline, .collector,
    .infrastructure, .deploymentConfiguration, .machineLearning, .testHarness, .documentation,
    .website, .prototype, .monorepo, .legacyReference, .unknown]

/-- `validate_fact_field`. -/
def Claim.fieldValid (claim : Claim) : Bool :=
  if claim.factType = .purpose then
    claim.claimId = Str.of "purpose.primary" && claim.field = .repositoryType &&
      repositoryTypes.any fun type => type ≠ .unknown && Str.of type.value = claim.expectedValue
  else claim.field = .claimType && stableKey claim.expectedValue

def confidenceOf : Option Value → Option Rat
  | some (.num text) => some (rules.number text)
  | _ => none

def claimOf : Value → Option Claim
  | .obj fields => do
    let get := fun key => Dict.get fields (Str.of key)
    guard (fields.all fun entry => claimKeys.contains entry.1)
    guard (versionIs claimSchema (get "schema_version"))
    let repositoryId ← (textOf (get "repository_id")).bind rules.uuid
    let repositoryFullName ← safeField 3 500 (get "repository_full_name")
    guard (gitHubFullName repositoryFullName)
    let factText ← textOf (get "fact_type")
    let factType ← supportedFactTypes.find? fun type => Str.of type.value = factText
    let claimId ← safeField 1 128 (get "claim_id")
    guard (stableKey claimId)
    let fieldText ← textOf (get "field")
    let field ← [ComparisonField.repositoryType, .claimType].find? fun field =>
      Str.of field.value = fieldText
    let expectedValue ← safeField 1 255 (get "expected_value")
    let summary ← safeField 1 1000 (get "summary")
    let confidence ← confidenceOf rules (get "confidence")
    guard (0 ≤ confidence ∧ confidence ≤ 1)
    let claim : Claim := ⟨repositoryId, repositoryFullName, factType, claimId, field,
      expectedValue, summary, confidence⟩
    guard claim.fieldValid
    return claim
  | _ => none

/-- `validate_unique_claims`: one comparison is asked for once, and of one repository. -/
def claimsValid (claims : List Claim) : Bool :=
  (claims.map fun claim => (claim.factType, claim.claimId, claim.field)).Nodup &&
    claims.all fun claim => claims.all fun other =>
      claim.repositoryId = other.repositoryId &&
        rules.casefold claim.repositoryFullName = rules.casefold other.repositoryFullName

/-- `RepositoryCrossSourceClaimSetV1.model_validate`. -/
def claimSetOf : Value → Option (List Claim)
  | .obj fields => do
    guard (fields.all fun entry => [Str.of "schema_version", Str.of "claims"].contains entry.1)
    guard (versionIs claimSetSchema (Dict.get fields (Str.of "schema_version")))
    match Dict.get fields (Str.of "claims") with
    | some (.arr items) =>
      guard (1 ≤ items.length ∧ items.length ≤ maxClaimsPerSource)
      let claims ← items.mapM (claimOf rules)
      guard (claimsValid rules claims)
      return claims
    | _ => none
  | _ => none

end claims

section sources

/-- A task or a pull request, with what its source record says. The update of a task and the
creation of a pull request, which a row always has, are `writtenAt`; a pull request has no provider
of its own. -/
structure WorkRow where
  id : Uuid
  workspaceId : Uuid
  provider : Str
  sourceRecordId : Uuid
  recordProvider : Str
  recordType : Str
  recordDeleted : Bool
  externalId : Option Str
  title : Str
  sourceUrl : Option Str
  sourceUpdatedAt : Option Instant
  writtenAt : Instant
  metadata : Value

structure DocumentRow where
  id : Uuid
  workspaceId : Uuid
  title : Str
  archived : Bool
  tags : List Str
  bodyMarkdown : Str
  updatedAt : Instant

structure Source where
  sourceType : SourceType
  provider : Str
  recordId : Uuid
  ref : Str
  url : Option Str
  observedAt : Instant
  claimSet : Value

structure CrossSourceTables extends IntelligenceTables where
  tasks : List WorkRow
  pullRequests : List WorkRow
  documents : List DocumentRow

/-- `_safe_text`. -/
def safeText (limit : Nat) (text : Str) : Option Str :=
  let stripped := Str.strip text
  if stripped = [] || limit < stripped.length || stripped.any isControl then none
  else some stripped

variable {Digest : Type} (rules : CrossSourceRules Digest)

/-- `_source_payload`. -/
def Source.payload (source : Source) : SourcePayload where
  sourceType := source.sourceType
  provider := source.provider
  recordId := source.recordId
  ref := (safeText 500 source.ref).getD (Str.of "unknown")
  url := source.url.filter rules.safeUrl
  observedAt := source.observedAt

/-- `nullslast()` of a time in descending order. -/
def newestKnown (time : WorkRow → Option Instant) (a b : WorkRow) : Ordering :=
  match time a, time b with
  | some x, some y => compare y x
  | some _, none => .lt
  | none, some _ => .gt
  | none, none => .eq

def lastId {R : Type} (id : R → Uuid) (a b : R) : Ordering := byId id b a

/-- The source that a row of work is, where its metadata has claims. -/
def WorkRow.source (sourceType : SourceType) (row : WorkRow) : Option Source :=
  match row.metadata with
  | .obj fields => (Dict.get fields metadataKey).map fun claimSet =>
    { sourceType := sourceType
      provider := if sourceType = .pullRequest then Str.of "github" else row.provider
      recordId := row.sourceRecordId
      ref := (row.externalId.filter (· ≠ [])).getD row.title
      url := row.sourceUrl.filter rules.safeUrl
      observedAt := row.sourceUpdatedAt.getD row.writtenAt
      claimSet := claimSet }
  | _ => none

def DocumentRow.source (row : DocumentRow) : Option Source :=
  if (row.tags.map rules.casefold).contains documentTag then
    some
      { sourceType := .document
        provider := Str.of "internal"
        recordId := row.id
        ref := row.title
        url := none
        observedAt := row.updatedAt
        claimSet := .str row.bodyMarkdown }
  else none

variable (db : CrossSourceTables) (workspaceId : Uuid)

/-- The query for tasks, before its bound. -/
def CrossSourceTables.orderedTasks : List WorkRow :=
  sortedBy [newestKnown (·.sourceUpdatedAt), newest (·.writtenAt), lastId (·.id)]
    (db.tasks.filter fun row => row.workspaceId = workspaceId &&
      [Str.of "github", Str.of "jira"].contains row.provider &&
        row.recordProvider = row.provider && row.recordType = Str.of "issue" && !row.recordDeleted)

def CrossSourceTables.orderedPullRequests : List WorkRow :=
  sortedBy [newestKnown (·.sourceUpdatedAt), newest (·.writtenAt), lastId (·.id)]
    (db.pullRequests.filter fun row => row.workspaceId = workspaceId &&
      row.recordProvider = Str.of "github" && row.recordType = Str.of "pull_request" &&
        !row.recordDeleted)

def CrossSourceTables.orderedDocuments : List DocumentRow :=
  sortedBy [newest (·.updatedAt), lastId (·.id)]
    (db.documents.filter fun row => row.workspaceId = workspaceId && !row.archived)

def gatherSources (tasks pullRequests : List WorkRow) (documents : List DocumentRow) :
    List Source :=
  sortedBy [newest (·.observedAt), lastId (·.recordId)]
    (tasks.filterMap (WorkRow.source rules .task) ++
      pullRequests.filterMap (WorkRow.source rules .pullRequest) ++
        documents.filterMap (DocumentRow.source rules))

/-- `_cross_source_records`. -/
def CrossSourceTables.crossSourceRecords : List Source × Bool :=
  let tasks := (db.orderedTasks workspaceId).take (maxSources + 1)
  let pullRequests := (db.orderedPullRequests workspaceId).take (maxSources + 1)
  let documents := (db.orderedDocuments workspaceId).take (maxSources + 1)
  let sources := gatherSources rules (tasks.take maxSources) (pullRequests.take maxSources)
    (documents.take maxSources)
  (sources.take maxSources, maxSources < tasks.length || maxSources < pullRequests.length ||
    maxSources < documents.length || maxSources < sources.length)

end sources

section comparisons

variable {Digest : Type} (rules : CrossSourceRules Digest)

/-- The claims of a source, or the error code of a claim set that is rejected. -/
def claimsOfValue (value : Value) : Except String (List Claim) :=
  match rules.encodedSize value with
  | none => .error "claim_set_invalid"
  | some size =>
    if maxClaimBytes < size then .error "claim_set_too_large"
    else
      match claimSetOf rules value with
      | none => .error "claim_set_invalid"
      | some claims => .ok claims

/-- `_claim_set_from_source`; the outer error is an exception that nothing catches. -/
def claimSetFromSource (source : Source) : Except LoadFailure (Except String (List Claim)) :=
  match source.sourceType, source.claimSet with
  | .document, .str text =>
    if maxClaimBytes < JsonText.utf8Size text then .ok (.error "claim_set_too_large")
    else
      match rules.loads text with
      | .ok value => .ok (claimsOfValue rules value)
      | .error .invalid => .ok (.error "claim_set_invalid_json")
      | .error .raised => .error .raised
  | .document, _ => .ok (.error "claim_set_invalid")
  | _, value => .ok (claimsOfValue rules value)

inductive ComparisonStatus where
  | agreement | contradiction | insufficientEvidence
  deriving DecidableEq, Repr

/-- `fact.value.get(field)`. -/
def fieldText (field : ComparisonField) : FactValue → Option Str
  | .purpose _ _ repositoryType =>
    if field = .repositoryType then some (Str.of repositoryType.value) else none
  | .claim claimType _ _ => if field = .claimType then some claimType else none
  | .unknown _ => none

/-- `_fact_field_value`. -/
def factFieldValue (fact : FactRecord) (field : ComparisonField) : Option Str :=
  (fieldText field fact.value).bind (safeText 255)

/-- The value of a fact that can agree with a claim or contradict it. -/
def settledValue (fact : FactRecord) (field : ComparisonField) : Option Str :=
  if fact.claimStatus = .insufficientEvidence || fact.humanResolutionStatus = .rejected then none
  else (factFieldValue fact field).filter (· ≠ Str.of "unknown")

def statusFrom (fact : Option FactRecord) (claim : Claim) : ComparisonStatus :=
  match fact.bind (settledValue · claim.field) with
  | none => .insufficientEvidence
  | some value => if value = claim.expectedValue then .agreement else .contradiction

structure ComparedFact where
  id : Uuid
  factType : FactType
  claimId : Str
  field : ComparisonField
  actualValue : Str
  claimStatus : AnalyzerClaimStatus
  confidence : Rat
  humanResolutionStatus : HumanResolutionStatus

structure SourceEvidence where
  id : Uuid
  kind : EvidenceKind
  source : Str
  ref : Option Str
  url : Option Str
  role : EvidenceRole
  confidence : Rat

structure Comparison where
  id : Str
  status : ComparisonStatus
  summary : Str
  source : SourcePayload
  sourceClaim : Claim
  repositoryFact : Option ComparedFact
  sourceEvidence : SourceEvidence
  repositoryEvidence : List EvidencePayload

def comparisonSummary (status : ComparisonStatus) (claim : Claim) (actualValue : Option Str) :
    Str :=
  let field := claim.claimId ++ Str.of "." ++ Str.of claim.field.value
  match status with
  | .insufficientEvidence => Str.of "No current RI fact exactly matches " ++
      Str.of claim.factType.value ++ Str.of ":" ++ field ++ Str.of "."
  | .agreement => Str.of "Source claim agrees with RI: " ++ field ++ Str.of "=" ++
      claim.expectedValue ++ Str.of "."
  | .contradiction => Str.of "Source claim asserts " ++ field ++ Str.of "=" ++
      claim.expectedValue ++ Str.of ", while RI records " ++ actualValue.getD [] ++ Str.of "."

/-- `_source_evidence_payload`. -/
def sourceEvidencePayload (source : Source) (role : EvidenceRole) (confidence : Rat) :
    SourceEvidence where
  id := source.recordId
  kind :=
    if source.sourceType = .pullRequest then .githubPullRequest
    else if source.provider = Str.of "github" then .githubIssue
    else if source.provider = Str.of "jira" then .jiraIssue
    else .document
  source := source.provider
  ref := safeText 500 source.ref
  url := source.url.filter rules.safeUrl
  role := role
  confidence := confidence

/-- `_comparison_payload`. -/
def comparisonPayload (source : Source) (claim : Claim) (fact : Option FactRecord)
    (repositoryEvidence : List EvidencePayload) : Comparison :=
  let actualValue := fact.bind (factFieldValue · claim.field)
  let status := statusFrom fact claim
  { id := rules.comparisonId ⟨source.payload rules, claim, fact.map (·.id)⟩
    status := status
    summary := comparisonSummary status claim actualValue
    source := source.payload rules
    sourceClaim := claim
    repositoryFact := fact.bind fun fact => actualValue.map fun value =>
      ⟨fact.id, fact.factType, fact.claimId, claim.field, value, fact.claimStatus, fact.confidence,
        fact.humanResolutionStatus⟩
    sourceEvidence := sourceEvidencePayload rules source
      (if status = .contradiction then .contradicting else .supporting) claim.confidence
    repositoryEvidence := repositoryEvidence }

end comparisons

section build

variable {Digest : Type} (rules : CrossSourceRules Digest) (collate : Str → Str → Ordering)
variable (db : CrossSourceTables) (workspaceId : Uuid) (repository : CanonicalRepository)

/-- The query for the facts, before its bound. -/
def CrossSourceTables.currentFacts : List FactRecord :=
  sortedBy [fun a b => collate (Str.of a.factType.value) (Str.of b.factType.value),
      fun a b => collate a.claimId b.claimId, byId (·.id)]
    (db.facts.filter fun fact => fact.workspaceId = workspaceId &&
      fact.repositoryId = repository.id && fact.lifecycleStatus = .current &&
        supportedFactTypes.contains fact.factType)

def factIdentity (fact : FactRecord) : FactType × Str := (fact.factType, fact.claimId)

def Claim.identity (claim : Claim) : FactType × Str := (claim.factType, claim.claimId)

/-- The state of the loop over the sources. -/
structure Reading where
  comparisons : List Comparison
  rejected : List (SourcePayload × String)
  rejectedTotal : Nat
  comparisonsTruncated : Bool

def Reading.start : Reading := ⟨[], [], 0, false⟩

def Reading.reject (reading : Reading) (source : Source) (errorCode : String) : Reading :=
  { reading with
    rejectedTotal := reading.rejectedTotal + 1
    rejected :=
      if reading.rejected.length < maxRejections then
        reading.rejected ++ [(source.payload rules, errorCode)]
      else reading.rejected }

def targets (claims : List Claim) : Bool :=
  claims.head?.any fun claim => claim.repositoryId = repository.id &&
    rules.casefold claim.repositoryFullName = rules.casefold repository.fullName

def compareOne (facts : List FactRecord) (source : Source) (claim : Claim) : Comparison :=
  let fact := Dict.get (Dict.index factIdentity facts) claim.identity
  comparisonPayload rules source claim fact
    (fact.elim [] fun fact => db.evidenceOf rules.toEvidenceRules fact.links)

/-- A loop that was broken off does nothing more. -/
def Reading.compare (facts : List FactRecord) (source : Source) (reading : Reading)
    (claim : Claim) : Reading :=
  if reading.comparisonsTruncated then reading
  else if maxComparisons ≤ reading.comparisons.length then
    { reading with comparisonsTruncated := true }
  else { reading with
    comparisons := reading.comparisons ++ [compareOne rules db facts source claim] }

def Reading.visit (facts : List FactRecord) (reading : Reading) (source : Source) :
    Except LoadFailure Reading :=
  if reading.comparisonsTruncated then .ok reading
  else do
    match ← claimSetFromSource rules source with
    | .error errorCode => return reading.reject rules source errorCode
    | .ok claims =>
      if targets rules repository claims then
        return claims.foldl (Reading.compare rules db facts source) reading
      else return reading.reject rules source "repository_identity_mismatch"

structure CrossSourceSummary where
  sourcesConsidered : Nat
  comparisons : Nat
  agreements : Nat
  contradictions : Nat
  insufficientEvidence : Nat
  rejectedClaimSets : Nat

structure CrossSourceTruncated where
  sources : Bool
  comparisons : Bool
  rejectedClaimSets : Bool
  deriving DecidableEq

/-- The statement of the contract, which is the same every time, is left out. -/
structure CrossSourceResult where
  summary : CrossSourceSummary
  comparisons : List Comparison
  rejectedClaimSets : List (SourcePayload × String)
  truncated : CrossSourceTruncated

def CrossSourceTruncated.none (truncated : CrossSourceTruncated) : Bool :=
  !truncated.sources && !truncated.comparisons && !truncated.rejectedClaimSets

/-- `build_repository_cross_source_comparisons`. -/
def buildRepositoryCrossSourceComparisons : Except LoadFailure CrossSourceResult := do
  let facts := (db.currentFacts collate workspaceId repository).take maxFacts
  let sources := db.crossSourceRecords rules workspaceId
  let reading ← sources.1.foldlM (Reading.visit rules db repository facts) Reading.start
  let count := fun status => reading.comparisons.countP (·.status = status)
  return {
    summary :=
      { sourcesConsidered := sources.1.length
        comparisons := reading.comparisons.length
        agreements := count .agreement
        contradictions := count .contradiction
        insufficientEvidence := count .insufficientEvidence
        rejectedClaimSets := reading.rejectedTotal }
    comparisons := reading.comparisons
    rejectedClaimSets := reading.rejected
    truncated :=
      { sources := sources.2
        comparisons := reading.comparisonsTruncated
        rejectedClaimSets := reading.rejected.length < reading.rejectedTotal } }

end build

end FounderOs.RepositoryAudit.CrossSource
