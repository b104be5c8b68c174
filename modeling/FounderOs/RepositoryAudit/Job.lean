import FounderOs.RepositoryAudit.Contract

namespace FounderOs.RepositoryAudit

open Headquarters
open Execution (Instant UserId)

/-- Instants are in microseconds. -/
def seconds (n : Nat) : Nat := n * 1000000

inductive JobStatus where
  | queued | running | succeeded | failed | partially | cancelled
  deriving DecidableEq, Repr

def JobStatus.terminal : JobStatus → Bool
  | .queued | .running => false
  | .succeeded | .failed | .partially | .cancelled => true

/-- The columns of a job that a payload must repeat. -/
structure AuditScope where
  workspaceId : Uuid
  repositoryId : Uuid
  targetStatus : TargetStatus
  commitSha : Option Str
  metadataSnapshotId : Option Str
  auditLevel : AuditLevel
  profile : Str
  policyHash : Str
  engineVersion : Str
  deriving DecidableEq

def RepositoryIntelligence.scope (payload : RepositoryIntelligence) : AuditScope where
  workspaceId := payload.workspaceId
  repositoryId := payload.repositoryId
  targetStatus := payload.analysisTarget.targetStatus
  commitSha := payload.analysisTarget.commitSha
  metadataSnapshotId := payload.analysisTarget.metadataSnapshotId
  auditLevel := payload.auditLevel
  profile := payload.profile
  policyHash := payload.policyHash
  engineVersion := payload.engineVersion

structure AnalysisRequest where
  workspaceId : Uuid
  repositoryId : Uuid
  idempotencyKey : Str
  auditLevel : AuditLevel
  analysisTarget : AnalysisTarget
  profile : Str
  policyHash : Str
  engineVersion : Str
  maxAttempts : Nat
  deriving DecidableEq

def AnalysisRequest.scope (request : AnalysisRequest) : AuditScope where
  workspaceId := request.workspaceId
  repositoryId := request.repositoryId
  targetStatus := request.analysisTarget.targetStatus
  commitSha := request.analysisTarget.commitSha
  metadataSnapshotId := request.analysisTarget.metadataSnapshotId
  auditLevel := request.auditLevel
  profile := request.profile
  policyHash := request.policyHash
  engineVersion := request.engineVersion

def safeKeyChar (c : Nat) : Bool := nameChar c || c == 46 || c == 95 || c == 58 || c == 45

/-- `_SAFE_KEY`, and with 64 for 128 `_SAFE_WORKER_ID`, matches all of it. -/
def safeKey (most : Nat) (text : Str) : Bool :=
  text.head?.any nameChar && text.tail.all safeKeyChar && text.length ≤ most

/-- `_SAFE_ERROR_CODE` matches all of it. -/
def safeErrorCode (text : Str) : Bool :=
  text.head?.any isLower && text.tail.all profileChar && text.length ≤ 80

def AnalysisRequest.valid (request : AnalysisRequest) : Bool :=
  lengthWithin 1 128 request.idempotencyKey && safe request.idempotencyKey &&
    safeKey 128 request.idempotencyKey && request.analysisTarget.valid &&
    lengthWithin 1 80 request.profile && profileText request.profile &&
    lowerHex 64 request.policyHash && lengthWithin 1 80 request.engineVersion &&
    safe request.engineVersion && 1 ≤ request.maxAttempts && request.maxAttempts ≤ 10 &&
    (request.auditLevel == .l0 || request.analysisTarget.targetStatus == .exact)

/-- `request_hash` is represented by the request, without its key. -/
structure AnalysisJob where
  id : Uuid
  scope : AuditScope
  requestedByUserId : Option UserId
  idempotencyKey : Str
  requestHash : AnalysisRequest
  status : JobStatus
  attemptCount : Nat
  maxAttempts : Nat
  nextAttemptAt : Instant
  leaseOwner : Option Str
  leaseExpiresAt : Option Instant
  cancelRequestedAt : Option Instant
  startedAt : Option Instant
  completedAt : Option Instant
  errorCode : Option Str
  deriving DecidableEq

inductive ErrorClass where
  | conflict | state | evidence
  deriving DecidableEq, Repr

/-- What a call raises: an error that the module declares, or that of a constraint or a column. -/
inductive AuditError where
  | declared (errorClass : ErrorClass) (detail : String)
  | constraint (name : String)
  deriving DecidableEq, Repr

def stateError (detail : String) : AuditError := .declared .state detail
def conflictError (detail : String) : AuditError := .declared .conflict detail
def evidenceError (detail : String) : AuditError := .declared .evidence detail

def rejectIf (bad : Bool) (error : AuditError) : Except AuditError Unit :=
  if bad then .error error else .ok ()

namespace AnalysisJob

variable (job : AnalysisJob)

def finishCancelled (completedAt : Instant) : AnalysisJob :=
  { job with
    status := .cancelled
    completedAt := some completedAt
    leaseOwner := none
    leaseExpiresAt := none
    errorCode := none }

/-- The job of a request, as the insert leaves it. -/
def queued (id : Uuid) (request : AnalysisRequest) (requestedByUserId : UserId) (now : Instant) :
    AnalysisJob where
  id := id
  scope := request.scope
  requestedByUserId := some requestedByUserId
  idempotencyKey := request.idempotencyKey
  requestHash := { request with idempotencyKey := [] }
  status := .queued
  attemptCount := 0
  maxAttempts := request.maxAttempts
  nextAttemptAt := now
  leaseOwner := none
  leaseExpiresAt := none
  cancelRequestedAt := none
  startedAt := none
  completedAt := none
  errorCode := none

/-- `claim_repository_analysis_job` under the lock of the row: the row as it is left, and whether
the claim is granted. -/
def claim (workerId : Str) (now : Instant) (leaseSeconds : Nat) :
    Except AuditError (AnalysisJob × Bool) := do
  rejectIf (!safeKey 64 workerId) (stateError "analysis worker identity is invalid")
  rejectIf (leaseSeconds = 0 || 3600 < leaseSeconds)
    (stateError "analysis lease duration is invalid")
  return if job.status.terminal then (job, false)
  else if job.cancelRequestedAt.isSome then (job.finishCancelled now, false)
  else if now < job.nextAttemptAt then (job, false)
  else if job.leaseExpiresAt.any (now < ·) then (job, false)
  else if job.maxAttempts ≤ job.attemptCount then
    ({ job with
       status := .failed
       completedAt := some now
       errorCode := some (Str.of "attempts_exhausted")
       leaseOwner := none
       leaseExpiresAt := none }, false)
  else
    ({ job with
       status := .running
       attemptCount := job.attemptCount + 1
       startedAt := some (job.startedAt.getD now)
       leaseOwner := some workerId
       leaseExpiresAt := some (now + seconds leaseSeconds)
       errorCode := none }, true)

/-- The arguments of `fail_repository_analysis_job` beside the job. -/
structure FailInput where
  workerId : Str
  errorCode : Str
  retryable : Bool
  now : Instant
  retryDelaySeconds : Nat
  deriving DecidableEq

def FailInput.check (input : FailInput) : Except AuditError Unit := do
  rejectIf (!safeErrorCode input.errorCode) (stateError "analysis error code is invalid")
  rejectIf (!safeKey 64 input.workerId) (stateError "analysis worker identity is invalid")
  rejectIf (86400 < input.retryDelaySeconds) (stateError "analysis retry delay is invalid")

def failed (input : FailInput) : AnalysisJob :=
  let released :=
    { job with errorCode := some input.errorCode, leaseOwner := none, leaseExpiresAt := none }
  if input.retryable && job.attemptCount < job.maxAttempts then
    { released with
      status := .queued
      nextAttemptAt := input.now + seconds input.retryDelaySeconds }
  else { released with status := .failed, completedAt := some input.now }

/-- `fail_repository_analysis_job` under the lock of the row. -/
def fail (input : FailInput) : Except AuditError AnalysisJob := do
  input.check
  rejectIf (job.status ≠ .running)
    (stateError "only a running analysis job can record worker failure")
  rejectIf (job.leaseOwner ≠ some input.workerId)
    (stateError "analysis worker does not own the active lease")
  return job.failed input

/-- `request_repository_analysis_cancellation` under the lock of the row. -/
def requestCancellation (now : Instant) : AnalysisJob :=
  if job.status.terminal then job
  else
    let requested := { job with cancelRequestedAt := some now }
    if job.status = .queued then requested.finishCancelled now else requested

end AnalysisJob

inductive RunStatus where
  | succeeded | partially
  deriving DecidableEq, Repr

inductive CoverageCheck where
  | canonicalMetadata | manifest | entrypoint | dependency | interface | deployment | testCi
  | documentation | migration | relationship | isolatedExecution
  deriving DecidableEq, Repr

/-- The checks are unique, sorted and disjoint as `RepositoryCoverageV1` leaves them. -/
structure Coverage where
  completedChecks : List CoverageCheck
  failedChecks : List CoverageCheck
  skippedChecks : List CoverageCheck
  deriving DecidableEq

def requiredCoverage : AuditLevel → List CoverageCheck
  | .l0 => [.canonicalMetadata]
  | .l1 => [.manifest, .entrypoint, .dependency, .interface, .deployment, .testCi, .documentation,
      .migration, .relationship]
  | .l2 => [.manifest, .entrypoint, .dependency, .interface, .deployment, .testCi, .documentation,
      .migration, .relationship, .isolatedExecution]

def Coverage.isCompleteFor (coverage : Coverage) (auditLevel : AuditLevel) : Bool :=
  let required := requiredCoverage auditLevel
  required.all coverage.completedChecks.contains && coverage.failedChecks.isEmpty &&
    !required.any coverage.skippedChecks.contains

def runStatus (complete : Bool) : RunStatus := if complete then .succeeded else .partially

inductive ArtifactType where
  | collectorResult | relationshipResult | scannerResult | report
  deriving DecidableEq, Repr

structure Artifact where
  artifactType : ArtifactType
  storageRef : Str
  contentHash : Str
  sizeBytes : Nat
  deriving DecidableEq

/-- `result_hash` and `artifact_manifest_hash` are represented by the payload and the manifest. -/
structure AuditRun where
  id : Uuid
  jobId : Uuid
  scope : AuditScope
  resultHash : RepositoryIntelligence
  status : RunStatus
  coverage : Coverage
  reconciliationApplied : Bool
  limitations : List Str
  artifactManifest : List Artifact
  artifactManifestHash : List Artifact
  artifactExpiresAt : Instant
  artifactPurgedAt : Option Instant
  startedAt : Instant
  completedAt : Instant
  deriving DecidableEq

def RunStatus.ofJob : RunStatus → JobStatus
  | .succeeded => .succeeded
  | .partially => .partially

def AnalysisJob.finishFromRun (job : AnalysisJob) (run : AuditRun) : AnalysisJob :=
  { job with
    status := run.status.ofJob
    completedAt := some run.completedAt
    leaseOwner := none
    leaseExpiresAt := none
    errorCode := none }

/-- The arguments of `persist_repository_intelligence_result` beside the job. -/
structure PersistInput where
  workerId : Str
  payload : RepositoryIntelligence
  coverage : Coverage
  artifactManifest : List Artifact
  startedAt : Instant
  completedAt : Instant
  deriving DecidableEq

/-- What `persist_repository_intelligence_result` decides under the lock of the job, before it
stores anything. A pending cancellation is written to the job and raised. -/
inductive PersistVerdict where
  | refused (error : AuditError)
  | cancelled (job : AnalysisJob)
  | replayed (run : AuditRun) (job : AnalysisJob)
  | store
  deriving DecidableEq

def artifactRetentionDays : Nat := 30

/-- The row that a persist inserts. -/
def AuditRun.ofInput (id : Uuid) (job : AnalysisJob) (input : PersistInput) : AuditRun where
  id := id
  jobId := job.id
  scope := input.payload.scope
  resultHash := input.payload
  status := runStatus (input.coverage.isCompleteFor input.payload.auditLevel)
  coverage := input.coverage
  reconciliationApplied := input.coverage.isCompleteFor input.payload.auditLevel
  limitations := input.payload.result.limitations
  artifactManifest := input.artifactManifest
  artifactManifestHash := input.artifactManifest
  artifactExpiresAt := input.completedAt + seconds (artifactRetentionDays * 86400)
  artifactPurgedAt := none
  startedAt := input.startedAt
  completedAt := input.completedAt

section persist

variable (manifestSize : List Artifact → Nat) (job : AnalysisJob) (existing : Option AuditRun)
variable (input : PersistInput)

def artifactManifestMaxBytes : Nat := 32 * 1024

def cancelledResult : AuditError := stateError "cancelled analysis result cannot be persisted"

def persistVerdict : PersistVerdict :=
  if !safeKey 64 input.workerId then
    .refused (stateError "analysis worker identity is invalid")
  else if input.completedAt < input.startedAt then
    .refused (stateError "analysis completion cannot precede its start")
  else if job.scope ≠ input.payload.scope then
    .refused (conflictError "analysis result does not match its trusted job request")
  else if job.cancelRequestedAt.isSome then .cancelled (job.finishCancelled input.completedAt)
  else if artifactManifestMaxBytes < manifestSize input.artifactManifest then
    .refused (stateError "artifact manifest exceeds the configured byte bound")
  else match existing with
    | some run =>
      if run.resultHash ≠ input.payload ∨ run.coverage ≠ input.coverage ∨
          run.artifactManifestHash ≠ input.artifactManifest ∨
          run.status ≠ runStatus (input.coverage.isCompleteFor input.payload.auditLevel) then
        .refused (conflictError "analysis run identity produced a different result")
      else .replayed run (job.finishFromRun run)
    | none =>
      if job.status ≠ .running then
        .refused (stateError "new analysis result requires a running job")
      else if job.leaseOwner ≠ some input.workerId then
        .refused (stateError "analysis worker does not own the active lease")
      else .store

end persist

def sampleRepository : Uuid := sampleUuid (Fin.last 9)

def sampleRequest : AnalysisRequest where
  workspaceId := sampleWorkspace
  repositoryId := sampleRepository
  idempotencyKey := Str.of "audit-1"
  auditLevel := .l0
  analysisTarget := ⟨.unavailable, none, none, some (Str.of "snapshot-1")⟩
  profile := Str.of "standard"
  policyHash := List.replicate 64 48
  engineVersion := Str.of "1"
  maxAttempts := 3

def emptyResult : AnalyzerResult where
  purpose :=
    { workspaceId := sampleWorkspace
      status := .insufficientEvidence
      confidence := 0
      evidenceRefs := []
      contradictingEvidenceRefs := []
      claimId := Str.of "purpose"
      summary := none
      operationalSummary := none
      repositoryType := .unknown }
  responsibilities := []
  interfacesProvided := []
  dependenciesConsumed := []
  deploymentUnits := []
  ownershipCandidates := []
  relationshipCandidates := []
  findings := []
  contradictions := []
  unknowns := []
  limitations := []

/-- The payload that answers the request. -/
def samplePayload (result : AnalyzerResult) : RepositoryIntelligence where
  workspaceId := sampleWorkspace
  repositoryId := sampleRepository
  repository := ⟨Str.of "7", Str.of "acme/app", none, none⟩
  auditLevel := sampleRequest.auditLevel
  analysisTarget := sampleRequest.analysisTarget
  profile := sampleRequest.profile
  policyHash := sampleRequest.policyHash
  engineVersion := sampleRequest.engineVersion
  result := result

def sampleCoverage : Coverage := ⟨[.canonicalMetadata], [], []⟩

end FounderOs.RepositoryAudit
