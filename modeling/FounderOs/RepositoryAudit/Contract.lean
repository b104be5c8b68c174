import FounderOs.Headquarters.Evidence

namespace FounderOs.RepositoryAudit

open Headquarters

inductive AuditLevel where
  | l0 | l1 | l2
  deriving DecidableEq, Repr

inductive TargetStatus where
  | exact | unavailable
  deriving DecidableEq, Repr

inductive CommitAlgorithm where
  | sha1
  deriving DecidableEq, Repr

inductive AnalyzerClaimStatus where
  | observed | inferred | insufficientEvidence
  deriving DecidableEq, Repr

inductive FindingLifecycleStatus where
  | new | «open» | resolved | regressed | acceptedRisk | falsePositive | insufficientEvidence
  deriving DecidableEq, Repr

inductive ResolutionStatus where
  | canonical | candidate
  deriving DecidableEq, Repr

inductive RepositoryType where
  | frontendApplication | backendService | worker | library | sdk | cli | dataPipeline | collector
  | infrastructure | deploymentConfiguration | machineLearning | testHarness | documentation
  | website | prototype | monorepo | legacyReference | unknown
  deriving DecidableEq, Repr

inductive RelationshipType where
  | callsApiOf | importsPackageFrom | consumesEventFrom | deployedBy | usesImageFrom
  | generatesClientFor | tests | documents | replaces | forkedFrom | duplicateCandidateOf
  | operationallyCoupledWith | sharesSchemaWith | sharesDatabaseWith | ownsMigrationsFor
  deriving DecidableEq, Repr

def symmetricRelationshipTypes : List RelationshipType :=
  [.duplicateCandidateOf, .operationallyCoupledWith, .sharesDatabaseWith, .sharesSchemaWith]

inductive EvidenceKind where
  | repositoryMetadata | repositoryFile | repositoryManifest | repositorySymbol
  | repositoryWorkflow | repositoryDependency | repositoryDeployment | repositoryTestResult
  | repositoryScannerResult | githubPullRequest | githubIssue | jiraIssue | document
  deriving DecidableEq, Repr

def EvidenceKind.value : EvidenceKind → String
  | repositoryMetadata => "repository_metadata"
  | repositoryFile => "repository_file"
  | repositoryManifest => "repository_manifest"
  | repositorySymbol => "repository_symbol"
  | repositoryWorkflow => "repository_workflow"
  | repositoryDependency => "repository_dependency"
  | repositoryDeployment => "repository_deployment"
  | repositoryTestResult => "repository_test_result"
  | repositoryScannerResult => "repository_scanner_result"
  | githubPullRequest => "github_pull_request"
  | githubIssue => "github_issue"
  | jiraIssue => "jira_issue"
  | document => "document"

inductive EvidenceSource where
  | github | jira | gmail | drive | internal
  deriving DecidableEq, Repr

def EvidenceSource.value : EvidenceSource → String
  | github => "github"
  | jira => "jira"
  | gmail => "gmail"
  | drive => "drive"
  | internal => "internal"

inductive FindingSeverity where
  | info | low | medium | high | critical
  deriving DecidableEq, Repr

def repositoryIntelligenceMaxItems : Nat := 50
def repositoryIntelligenceMaxEvidenceRefs : Nat := 50

structure EvidenceRefV1 where
  kind : EvidenceKind
  source : EvidenceSource
  evidenceRefId : Option Uuid
  sourceRecordId : Option Uuid
  recordId : Option Uuid
  ref : Option Str
  id : Option Str
  url : Option Str
  deriving DecidableEq

structure AnalysisTarget where
  targetStatus : TargetStatus
  commitAlgorithm : Option CommitAlgorithm
  commitSha : Option Str
  metadataSnapshotId : Option Str
  deriving DecidableEq

/-- The provider, always GitHub, is left out here and in a reference. -/
structure RepositoryIdentity where
  externalId : Str
  fullName : Str
  defaultBranch : Option Str
  sourceUrl : Option Str
  deriving DecidableEq

structure RepositoryReference where
  workspaceId : Uuid
  repositoryId : Option Uuid
  externalId : Str
  fullName : Str
  resolutionStatus : ResolutionStatus
  deriving DecidableEq

/-- What the analyzer items share; the fields that have one value only are left out. -/
structure AnalyzerItem where
  workspaceId : Uuid
  status : AnalyzerClaimStatus
  confidence : Rat
  evidenceRefs : List EvidenceRefV1
  contradictingEvidenceRefs : List EvidenceRefV1
  deriving DecidableEq

structure PurposeClaim extends AnalyzerItem where
  claimId : Str
  summary : Option Str
  operationalSummary : Option Str
  repositoryType : RepositoryType
  deriving DecidableEq

structure RepositoryClaim extends AnalyzerItem where
  claimId : Str
  claimType : Str
  summary : Option Str
  details : List Str
  deriving DecidableEq

structure Relationship extends AnalyzerItem where
  relationshipId : Str
  fromRepository : RepositoryReference
  toRepository : RepositoryReference
  relationshipType : RelationshipType
  summary : Option Str
  deriving DecidableEq

structure Finding extends AnalyzerItem where
  findingId : Str
  ruleId : Str
  category : Str
  severity : FindingSeverity
  lifecycleStatus : FindingLifecycleStatus
  title : Str
  summary : Str
  recommendedNextStep : Option Str
  deriving DecidableEq

structure RepositoryUnknown where
  unknownId : Str
  workspaceId : Uuid
  question : Str
  evidenceRefs : List EvidenceRefV1
  deriving DecidableEq

structure Contradiction where
  contradictionId : Str
  workspaceId : Uuid
  leftClaimId : Str
  rightClaimId : Str
  confidence : Rat
  summary : Str
  evidenceRefs : List EvidenceRefV1
  deriving DecidableEq

structure AnalyzerResult where
  purpose : PurposeClaim
  responsibilities : List RepositoryClaim
  interfacesProvided : List RepositoryClaim
  dependenciesConsumed : List RepositoryClaim
  deploymentUnits : List RepositoryClaim
  ownershipCandidates : List RepositoryClaim
  relationshipCandidates : List Relationship
  findings : List Finding
  contradictions : List Contradiction
  unknowns : List RepositoryUnknown
  limitations : List Str
  deriving DecidableEq

structure RepositoryIntelligence where
  workspaceId : Uuid
  repositoryId : Uuid
  repository : RepositoryIdentity
  auditLevel : AuditLevel
  analysisTarget : AnalysisTarget
  profile : Str
  policyHash : Str
  engineVersion : Str
  result : AnalyzerResult
  deriving DecidableEq

/-- `stable_identity`, without the provider. -/
def RepositoryReference.stableIdentity (reference : RepositoryReference) : Str :=
  reference.externalId

def Relationship.normalizedIdentity (relationship : Relationship) : RelationshipType × Str × Str :=
  (relationship.relationshipType, relationship.fromRepository.stableIdentity,
    relationship.toRepository.stableIdentity)

/-- The pair of claims, in the order of their text. -/
def Contradiction.normalizedPair (contradiction : Contradiction) : Str × Str :=
  if Str.le contradiction.leftClaimId contradiction.rightClaimId then
    (contradiction.leftClaimId, contradiction.rightClaimId)
  else (contradiction.rightClaimId, contradiction.leftClaimId)

def AnalyzerResult.sections (result : AnalyzerResult) : List RepositoryClaim :=
  result.responsibilities ++ result.interfacesProvided ++ result.dependenciesConsumed ++
    result.deploymentUnits ++ result.ownershipCandidates

/-- The ids of `claims()`, with the supporting evidence of each. -/
def AnalyzerResult.claims (result : AnalyzerResult) : List (Str × List EvidenceRefV1) :=
  (result.purpose.claimId, result.purpose.evidenceRefs) ::
    result.sections.map fun claim => (claim.claimId, claim.evidenceRefs)

section text

def isControl (c : Nat) : Bool := c < 32 || c == 127

/-- `_reject_unsafe_text` lets the text through. -/
def safe (text : Str) : Bool := Str.strip text == text && !text.any isControl

def lengthWithin (least most : Nat) (text : Str) : Bool :=
  least ≤ text.length && text.length ≤ most

def shortText (text : Str) : Bool := lengthWithin 1 255 text
def summaryText (text : Str) : Bool := lengthWithin 1 1000 text
def detailText (text : Str) : Bool := lengthWithin 1 2000 text
def refText (text : Str) : Bool := lengthWithin 1 500 text

def isLower (c : Nat) : Bool := 97 ≤ c && c ≤ 122
def isUpper (c : Nat) : Bool := 65 ≤ c && c ≤ 90
def isDigit (c : Nat) : Bool := 48 ≤ c && c ≤ 57

def lowerHex (length : Nat) (text : Str) : Bool :=
  text.length == length && text.all fun c => isDigit c || (97 ≤ c && c ≤ 102)

def profileChar (c : Nat) : Bool := isLower c || isDigit c || c == 95 || c == 46 || c == 45

/-- `_PROFILE` matches all of it. -/
def profileText (text : Str) : Bool :=
  text.head?.any isLower && text.tail.all profileChar && text.length ≤ 80

/-- `_STABLE_KEY` matches all of it. -/
def stableKey (text : Str) : Bool :=
  text.head?.any isLower && text.tail.all (fun c => profileChar c || c == 58) && text.length ≤ 128

def nameChar (c : Nat) : Bool := isLower c || isUpper c || isDigit c

def namePart (text : Str) : Bool :=
  text.head?.any nameChar && text.length ≤ 255 &&
    text.tail.all fun c => nameChar c || c == 95 || c == 46 || c == 45

/-- `_GITHUB_FULL_NAME` matches all of it. -/
def gitHubFullName (text : Str) : Bool :=
  (text.splitOn 47).length == 2 && (text.splitOn 47).all namePart

end text

section validate

variable {Digest : Type} (rules : EvidenceRules Digest)

def EvidenceRefV1.material (evidence : EvidenceRefV1) : Fields :=
  let optional : String → Option Str → Fields := fun key value =>
    (value.map fun text => (Str.of key, Field.str text)).toList
  [(Str.of "kind", .str (Str.of evidence.kind.value)),
    (Str.of "source", .str (Str.of evidence.source.value))] ++
    optional "evidence_ref_id" (evidence.evidenceRefId.map (·.text)) ++
    optional "source_record_id" (evidence.sourceRecordId.map (·.text)) ++
    optional "record_id" (evidence.recordId.map (·.text)) ++ optional "ref" evidence.ref ++
    optional "id" evidence.id ++ optional "url" evidence.url

def EvidenceRefV1.valid (evidence : EvidenceRefV1) : Bool :=
  evidence.ref.all (fun text => refText text && safe text) &&
    evidence.id.all (fun text => refText text && safe text) &&
    evidence.url.all (fun text => lengthWithin 1 1000 text && safe text) &&
    actionEvidenceRefMatchesSchema rules evidence.material

def evidenceListValid (refs : List EvidenceRefV1) : Bool :=
  refs.length ≤ repositoryIntelligenceMaxEvidenceRefs && refs.all (·.valid rules) &&
    decide refs.Nodup

def AnalysisTarget.valid (target : AnalysisTarget) : Bool :=
  target.commitSha.all (lowerHex 40) && target.metadataSnapshotId.all shortText &&
    match target.targetStatus with
    | .unavailable => target.commitAlgorithm.isNone && target.commitSha.isNone
    | .exact => target.commitAlgorithm == some .sha1 && target.commitSha.isSome

def RepositoryIdentity.valid (identity : RepositoryIdentity) : Bool :=
  shortText identity.externalId && safe identity.externalId &&
    lengthWithin 3 500 identity.fullName && safe identity.fullName &&
    gitHubFullName identity.fullName &&
    identity.defaultBranch.all (fun text => shortText text && safe text) &&
    identity.sourceUrl.all fun text => lengthWithin 1 1000 text && safe text &&
      actionEvidenceRefMatchesSchema rules
        [(Str.of "kind", .str (Str.of "repository_metadata")),
          (Str.of "source", .str (Str.of "github")),
          (Str.of "ref", .str (Str.of "repository-identity")), (Str.of "url", .str text)]

def RepositoryReference.valid (reference : RepositoryReference) : Bool :=
  shortText reference.externalId && safe reference.externalId &&
    lengthWithin 3 500 reference.fullName && safe reference.fullName &&
    gitHubFullName reference.fullName &&
    match reference.resolutionStatus with
    | .canonical => reference.repositoryId.isSome
    | .candidate => reference.repositoryId.isNone

def AnalyzerItem.valid (item : AnalyzerItem) : Bool :=
  decide (0 ≤ item.confidence) && decide (item.confidence ≤ 1) &&
    evidenceListValid rules item.evidenceRefs &&
    evidenceListValid rules item.contradictingEvidenceRefs &&
    (item.status == .insufficientEvidence || !item.evidenceRefs.isEmpty)

def claimIdValid (claimId : Str) : Bool :=
  lengthWithin 1 128 claimId && safe claimId && stableKey claimId

def PurposeClaim.valid (purpose : PurposeClaim) : Bool :=
  purpose.toAnalyzerItem.valid rules && claimIdValid purpose.claimId &&
    purpose.summary.all (fun text => summaryText text && safe text) &&
    purpose.operationalSummary.all (fun text => detailText text && safe text) &&
    if purpose.status = .insufficientEvidence then purpose.repositoryType == .unknown
    else purpose.summary.isSome

def RepositoryClaim.valid (claim : RepositoryClaim) : Bool :=
  claim.toAnalyzerItem.valid rules && claimIdValid claim.claimId &&
    lengthWithin 1 80 claim.claimType && safe claim.claimType && stableKey claim.claimType &&
    claim.summary.all (fun text => summaryText text && safe text) && claim.details.length ≤ 20 &&
    decide claim.details.Nodup && claim.details.all (fun text => summaryText text && safe text) &&
    (claim.status == .insufficientEvidence || claim.summary.isSome)

/-- `ordering_key`; a full name is of ASCII letters, whose `casefold` is the lower case. -/
def RepositoryReference.orderingKey (reference : RepositoryReference) : Str × Str :=
  (reference.externalId, reference.fullName.map fun c => if isUpper c then c + 32 else c)

/-- The validator turns a symmetric relationship so that its ends are in order. -/
def Relationship.inOrder (relationship : Relationship) : Bool :=
  let first := relationship.fromRepository.orderingKey
  let second := relationship.toRepository.orderingKey
  !symmetricRelationshipTypes.contains relationship.relationshipType ||
    if first.1 == second.1 then Str.le first.2 second.2 else Str.le first.1 second.1

def Relationship.valid (relationship : Relationship) : Bool :=
  relationship.toAnalyzerItem.valid rules && claimIdValid relationship.relationshipId &&
    relationship.fromRepository.valid && relationship.toRepository.valid &&
    relationship.summary.all (fun text => summaryText text && safe text) &&
    relationship.fromRepository.workspaceId == relationship.workspaceId &&
    relationship.toRepository.workspaceId == relationship.workspaceId &&
    relationship.fromRepository.stableIdentity != relationship.toRepository.stableIdentity &&
    relationship.inOrder

def Finding.valid (finding : Finding) : Bool :=
  finding.toAnalyzerItem.valid rules && claimIdValid finding.findingId &&
    claimIdValid finding.ruleId && lengthWithin 1 80 finding.category && safe finding.category &&
    stableKey finding.category && lengthWithin 1 500 finding.title && safe finding.title &&
    detailText finding.summary && safe finding.summary &&
    finding.recommendedNextStep.all (fun text => summaryText text && safe text) &&
    finding.lifecycleStatus == if finding.status = .insufficientEvidence then .insufficientEvidence
      else .new

def RepositoryUnknown.valid (unknown : RepositoryUnknown) : Bool :=
  claimIdValid unknown.unknownId && summaryText unknown.question && safe unknown.question &&
    evidenceListValid rules unknown.evidenceRefs

def Contradiction.valid (contradiction : Contradiction) : Bool :=
  claimIdValid contradiction.contradictionId && claimIdValid contradiction.leftClaimId &&
    claimIdValid contradiction.rightClaimId && decide (0 ≤ contradiction.confidence) &&
    decide (contradiction.confidence ≤ 1) && summaryText contradiction.summary &&
    safe contradiction.summary && evidenceListValid rules contradiction.evidenceRefs &&
    !contradiction.evidenceRefs.isEmpty && contradiction.leftClaimId != contradiction.rightClaimId

/-- `validate_identity_sets_and_contradictions`. -/
def AnalyzerResult.identitiesValid (result : AnalyzerResult) : Bool :=
  decide (result.claims.map (·.1)).Nodup &&
    decide (result.relationshipCandidates.map (·.relationshipId)).Nodup &&
    decide (result.relationshipCandidates.map (·.normalizedIdentity)).Nodup &&
    decide (result.findings.map (·.findingId)).Nodup &&
    decide (result.unknowns.map (·.unknownId)).Nodup &&
    decide (result.contradictions.map (·.contradictionId)).Nodup &&
    decide (result.contradictions.map (·.normalizedPair)).Nodup &&
    result.contradictions.all fun contradiction =>
      [contradiction.leftClaimId, contradiction.rightClaimId].all fun claimId =>
        (Dict.get result.claims claimId).any fun evidenceRefs => !evidenceRefs.isEmpty

def AnalyzerResult.valid (result : AnalyzerResult) : Bool :=
  let few {R : Type} (rows : List R) : Bool := rows.length ≤ repositoryIntelligenceMaxItems
  result.purpose.valid rules && few result.responsibilities && few result.interfacesProvided &&
    few result.dependenciesConsumed && few result.deploymentUnits &&
    few result.ownershipCandidates && result.sections.all (·.valid rules) &&
    few result.relationshipCandidates && result.relationshipCandidates.all (·.valid rules) &&
    few result.findings && result.findings.all (·.valid rules) && few result.contradictions &&
    result.contradictions.all (·.valid rules) && few result.unknowns &&
    result.unknowns.all (·.valid rules) && few result.limitations &&
    decide result.limitations.Nodup &&
    result.limitations.all (fun text => detailText text && safe text) && result.identitiesValid

/-- The contract of a result, without its bound on the bytes of the whole. -/
def RepositoryIntelligence.valid (payload : RepositoryIntelligence) : Bool :=
  payload.repository.valid rules && payload.analysisTarget.valid &&
    lengthWithin 1 80 payload.profile && safe payload.profile && profileText payload.profile &&
    lowerHex 64 payload.policyHash && lengthWithin 1 80 payload.engineVersion &&
    safe payload.engineVersion && payload.result.valid rules &&
    (payload.auditLevel == .l0 || payload.analysisTarget.targetStatus == .exact) &&
    payload.result.purpose.workspaceId == payload.workspaceId &&
    payload.result.sections.all (·.workspaceId == payload.workspaceId) &&
    payload.result.relationshipCandidates.all (·.workspaceId == payload.workspaceId) &&
    payload.result.findings.all (·.workspaceId == payload.workspaceId) &&
    payload.result.contradictions.all (·.workspaceId == payload.workspaceId) &&
    payload.result.unknowns.all (·.workspaceId == payload.workspaceId)

end validate

end FounderOs.RepositoryAudit
