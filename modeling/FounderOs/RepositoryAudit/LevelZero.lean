import FounderOs.Connectors.Normalize
import FounderOs.RepositoryAudit.Contract

namespace FounderOs.RepositoryAudit

open Headquarters Proposals Connectors

def repositoryIntelligenceL0EngineVersion : Str := Str.of "repository-intelligence-l0.v1"
def repositoryIntelligenceL0Profile : Str := Str.of "repository_l0"

/-- The SHA-256 of `repository-intelligence-l0.v1:canonical-only`. -/
def repositoryIntelligenceL0PolicyHash : Str :=
  Str.of "eba8c7df051a1bcd7991411a2adee06efeaf94526d127523dceddd1c0ef980b9"

def repositoryIntelligenceL0MaxRepositories : Nat := 1000

/-- A row of `repositories`; the provider, always GitHub, is left out, and a time is kept as its
text. -/
structure CanonicalRepository where
  id : Uuid
  workspaceId : Uuid
  externalId : Str
  name : Str
  fullName : Str
  defaultBranch : Option Str
  visibility : Option Str
  archived : Bool
  sourceUrl : Option Str
  lastActivityAt : Option Str
  updatedAt : Str
  deriving DecidableEq

/-- A row of `source_records`. -/
structure CanonicalRecord where
  id : Uuid
  workspaceId : Uuid
  provider : Str
  externalId : Str
  recordType : Str
  isDeleted : Bool
  sourceUrl : Option Str
  payload : Value
  payloadHash : Str
  observedAt : Str

/-- `casefold` is that of the evidence rules. `plainUrl` is what `_safe_http_url` asks beyond the
scheme and the host: no user, no password, a query that parses and names no credential. -/
structure L0Rules (Digest : Type) extends EvidenceRules Digest where
  plainUrl : Str → Bool
  repositoryDigest : CanonicalRepository → Str
  recordDigest : CanonicalRecord → Str
  repositoryDigest_hex : ∀ repository, lowerHex 64 (repositoryDigest repository) = true
  recordDigest_hex : ∀ record, lowerHex 64 (recordDigest record) = true

structure CanonicalStore where
  repositories : List CanonicalRepository
  records : List CanonicalRecord
  record_name : Dict.Unique (fun r => (r.workspaceId, r.provider, r.externalId)) records

def RepositoryType.value : RepositoryType → String
  | frontendApplication => "frontend_application"
  | backendService => "backend_service"
  | worker => "worker"
  | library => "library"
  | sdk => "sdk"
  | cli => "cli"
  | dataPipeline => "data_pipeline"
  | collector => "collector"
  | infrastructure => "infrastructure"
  | deploymentConfiguration => "deployment_configuration"
  | machineLearning => "machine_learning"
  | testHarness => "test_harness"
  | documentation => "documentation"
  | website => "website"
  | prototype => "prototype"
  | monorepo => "monorepo"
  | legacyReference => "legacy_reference"
  | unknown => "unknown"

def repositoryTypes : List RepositoryType :=
  [.frontendApplication, .backendService, .worker, .library, .sdk, .cli, .dataPipeline, .collector,
    .infrastructure, .deploymentConfiguration, .machineLearning, .testHarness, .documentation,
    .website, .prototype, .monorepo, .legacyReference, .unknown]

inductive L0Error where
  | tooMany
  | invalidRow
  deriving DecidableEq

/-- `_safe_text` of this module: too long a text is no text. -/
def l0SafeText (limit : Nat) : Value → Option Str
  | .str value =>
    let text := Str.strip value
    if text = [] ∨ limit < text.length then none
    else if text.any isControl then none
    else some text
  | _ => none

/-- `value is True`. -/
def isTrue : Value → Bool
  | .bool value => value
  | _ => false

structure SourceContext where
  record : CanonicalRecord
  normalizedRepository : Object
  evidence : EvidenceRefV1

section project

variable {Digest : Type} (rules : L0Rules Digest)

def safeHttpUrl (value : Option Str) : Option Str :=
  (l0SafeText 1000 (Connectors.optional value)).filter fun text =>
    !text.contains 92 && !text.any Str.isSpace && rules.httpUrl text && rules.plainUrl text

def repositoryRef (repository : CanonicalRepository) : Str :=
  Str.of "repository:" ++ repository.externalId

def contextEvidence (repository : CanonicalRepository) (record : CanonicalRecord) :
    EvidenceRefV1 where
  kind := .repositoryMetadata
  source := .github
  evidenceRefId := none
  sourceRecordId := some record.id
  recordId := none
  ref := some (repositoryRef repository)
  id := none
  url := safeHttpUrl rules record.sourceUrl

def sourceContext (repository : CanonicalRepository) (record : Option CanonicalRecord) :
    Option SourceContext :=
  record.bind fun record =>
    match get (mapping record.payload) "normalized_repository" with
    | .obj normalized =>
      let externalId := l0SafeText 255 (firstTruthy (pick normalized ["external_id", "id"]))
      let fullName := l0SafeText 500 (get normalized "full_name")
      if externalId ≠ some repository.externalId then none
      else if fullName.map rules.casefold ≠ some (rules.casefold repository.fullName) then none
      else some ⟨record, normalized, contextEvidence rules repository record⟩
    | _ => none

def repositoryTypeCandidate (context : Option SourceContext) : RepositoryType :=
  match context with
  | none => .unknown
  | some context =>
    let candidate := get context.normalizedRepository "repository_type_candidate"
    let candidate := if candidate matches .null then
        get (mapping (get context.normalizedRepository "metadata")) "repository_type_candidate"
      else candidate
    match candidate with
    | .str text =>
      (repositoryTypes.find? fun type => Str.of type.value == Str.strip text).getD .unknown
    | _ => .unknown

def purposeClaim (workspaceId : Uuid) (repositoryType : RepositoryType)
    (evidence : List EvidenceRefV1) : PurposeClaim :=
  if repositoryType = .unknown ∨ evidence = [] then
    { workspaceId, status := .insufficientEvidence, confidence := 0, evidenceRefs := [],
      contradictingEvidenceRefs := [], claimId := Str.of "purpose.primary", summary := none,
      operationalSummary := none, repositoryType := .unknown }
  else
    let readableType := replaceChar 95 32 (Str.of repositoryType.value)
    { workspaceId, status := .inferred, confidence := 13 / 20, evidenceRefs := evidence,
      contradictingEvidenceRefs := [], claimId := Str.of "purpose.primary",
      summary := some (Str.of "Canonical metadata supports a " ++ readableType ++
        Str.of " repository type candidate."),
      operationalSummary := none, repositoryType }

def unknowns (workspaceId : Uuid) (repository : CanonicalRepository)
    (context : Option SourceContext) (purpose : PurposeClaim) : List RepositoryUnknown :=
  let evidence := (context.map (·.evidence)).toList
  let unknown (unknownId question : String) (refs : List EvidenceRefV1) : RepositoryUnknown :=
    ⟨Str.of unknownId, workspaceId, Str.of question, refs⟩
  [unknown "unknown.exact-sha" "The exact default-branch commit SHA is unavailable." evidence] ++
    (if context.isNone then
      [unknown "unknown.canonical-evidence"
        "No active identity-matching canonical repository evidence is available." []]
    else []) ++
    (if purpose.status = .insufficientEvidence then
      [unknown "unknown.purpose"
        "Repository purpose and type are not established by canonical L0 metadata." evidence]
    else []) ++
    if (l0SafeText 255 (Connectors.optional repository.defaultBranch)).isNone then
      [unknown "unknown.default-branch" "The canonical default branch is unavailable." evidence]
    else []

def findings (workspaceId : Uuid) (repository : CanonicalRepository)
    (context : Option SourceContext) : List Finding :=
  match context with
  | none => []
  | some context =>
    if isTrue (get context.normalizedRepository "archived") && repository.archived then
      [{ workspaceId, status := .observed, confidence := 1, evidenceRefs := [context.evidence],
         contradictingEvidenceRefs := [], findingId := Str.of "finding.repository-archived",
         ruleId := Str.of "ri.l0.repository-archived", category := Str.of "lifecycle",
         severity := .info, lifecycleStatus := .new, title := Str.of "Repository is archived",
         summary := Str.of "Canonical repository metadata marks this repository as archived.",
         recommendedNextStep := none }]
    else []

def metadataSnapshotId (repository : CanonicalRepository) : Option SourceContext → Str
  | none => Str.of "canonical-repository-" ++ rules.repositoryDigest repository
  | some context => Str.of "canonical-source-record-" ++ rules.recordDigest context.record

def limitationTexts : List Str :=
  ["L0 reads only canonical workspace-scoped Repository and active repository SourceRecord rows.",
    "No filesystem snapshot, provider call, checkout, target execution or LLM analysis was used.",
    "No active canonical repository SourceRecord was available.",
    "The active repository SourceRecord failed exact identity validation and was not used as evidence."].map
    Str.of

def limitations (record : Option CanonicalRecord) (context : Option SourceContext) : List Str :=
  limitationTexts.take 2 ++
    if record.isNone then (limitationTexts.drop 2).take 1
    else if context.isNone then (limitationTexts.drop 2).drop 1
    else []

def projected (workspaceId : Uuid) (repository : CanonicalRepository)
    (record : Option CanonicalRecord) : RepositoryIntelligence :=
  let context := sourceContext rules repository record
  let evidence := (context.map (·.evidence)).toList
  let purpose := purposeClaim workspaceId (repositoryTypeCandidate context) evidence
  { workspaceId
    repositoryId := repository.id
    repository := {
      externalId := repository.externalId
      fullName := repository.fullName
      defaultBranch := l0SafeText 255 (Connectors.optional repository.defaultBranch)
      sourceUrl := safeHttpUrl rules repository.sourceUrl }
    auditLevel := .l0
    analysisTarget := ⟨.unavailable, none, none,
      some (metadataSnapshotId rules repository context)⟩
    profile := repositoryIntelligenceL0Profile
    policyHash := repositoryIntelligenceL0PolicyHash
    engineVersion := repositoryIntelligenceL0EngineVersion
    result := {
      purpose
      responsibilities := []
      interfacesProvided := []
      dependenciesConsumed := []
      deploymentUnits := []
      ownershipCandidates := []
      relationshipCandidates := []
      findings := findings workspaceId repository context
      contradictions := []
      unknowns := unknowns workspaceId repository context purpose
      limitations := limitations record context } }

/-- The models raise a `ValueError` at the first of their fields that is not valid. -/
def projectRepository (workspaceId : Uuid) (repository : CanonicalRepository)
    (record : Option CanonicalRecord) : Except Unit RepositoryIntelligence :=
  let payload := projected rules workspaceId repository record
  if payload.valid rules.toEvidenceRules then .ok payload else .error ()

def CanonicalStore.repositoriesOf (store : CanonicalStore) (workspaceId : Uuid) :
    List CanonicalRepository :=
  store.repositories.filter (·.workspaceId = workspaceId)

/-- The active repository record that the outer join finds; the index on the names of records leaves
at most one. -/
def CanonicalStore.recordOf (store : CanonicalStore) (repository : CanonicalRepository) :
    Option CanonicalRecord :=
  store.records.find? fun record =>
    record.workspaceId = repository.workspaceId && record.provider = Str.of "github" &&
      record.externalId = repository.externalId && record.recordType = Str.of "repository" &&
      !record.isDeleted

/-- `collate` is the order of the texts in the database. -/
def CanonicalStore.ordered (collate : Str → Str → Bool) (store : CanonicalStore)
    (workspaceId : Uuid) : List CanonicalRepository :=
  (store.repositoriesOf workspaceId).mergeSort fun a b =>
    if a.fullName = b.fullName then Str.le a.id.text b.id.text else collate a.fullName b.fullName

def buildWorkspaceRepositoryIntelligenceL0 (collate : Str → Str → Bool) (store : CanonicalStore)
    (workspaceId : Uuid) : Except L0Error (List RepositoryIntelligence) :=
  let rows := (store.ordered collate workspaceId).take (repositoryIntelligenceL0MaxRepositories + 1)
  if repositoryIntelligenceL0MaxRepositories < rows.length then .error .tooMany
  else rows.mapM fun repository =>
    (projectRepository rules workspaceId repository (store.recordOf repository)).mapError
      fun _ => .invalidRow

end project

end FounderOs.RepositoryAudit
