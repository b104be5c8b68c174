import Mathlib.Algebra.Ring.Nat
import Mathlib.Data.List.Infix
import Mathlib.Data.List.Nodup

namespace FounderOs.SyncWorker

inductive SyncJobStatus where
  | queued | running | succeeded | failed | partially | cancelled
  deriving DecidableEq, Repr

/-- Microseconds. -/
abbrev Instant := Nat

def seconds (n : Nat) : Nat := n * 1000000

/-- `worker_id:uuid4`: one value per claim, so the claims issued so far number the tokens. -/
abbrev LeaseToken := Nat

structure Settings where
  leaseSeconds : Nat
  retryBaseSeconds : Nat
  deriving DecidableEq, Repr

inductive WorkerError where
  | providerRead | configuration | unexpected
  deriving DecidableEq, Repr

def WorkerError.retryable : WorkerError → Bool
  | .providerRead | .unexpected => true
  | .configuration => false

inductive ProgressPhase where
  | ofStatus (status : SyncJobStatus)
  | retryScheduled
  deriving DecidableEq, Repr

structure Counts where
  repositories : Nat
  issues : Nat
  pullRequests : Nat
  skippedPullRequests : Nat
  deriving DecidableEq, Repr

def Counts.zero : Counts := ⟨0, 0, 0, 0⟩

def Counts.add (c d : Counts) : Counts where
  repositories := c.repositories + d.repositories
  issues := c.issues + d.issues
  pullRequests := c.pullRequests + d.pullRequests
  skippedPullRequests := c.skippedPullRequests + d.skippedPullRequests

variable {R K : Type}

structure RepositorySummary (R : Type) where
  fullName : R
  syncedIssues : Nat
  syncedPullRequests : Nat
  skippedPullRequests : Nat
  deriving DecidableEq, Repr

structure Progress (R : Type) where
  phase : Option ProgressPhase
  completedRepositories : List R
  totalRepositories : Option Nat
  repositories : List (RepositorySummary R)
  counts : Counts
  isPartial : Bool
  updatedAt : Option Instant
  deriving DecidableEq, Repr

def Progress.empty : Progress R := ⟨none, [], none, [], .zero, false, none⟩

structure NormalizationOptions (R : Type) where
  includeRepositories : Bool
  includeIssues : Bool
  includePullRequests : Bool
  persistIfSupported : Bool
  snapshotObservedAt : Option Instant
  providerAttested : Bool
  authoritativeIssueRepositories : List R
  authoritativePullRequestRepositories : List R
  deriving DecidableEq, Repr

/-- How many records a normalization finds, and how many rows its persistence creates and updates. -/
structure NormalizationRead where
  repositories : Nat
  issues : Nat
  pullRequests : Nat
  recordsCreated : Nat
  recordsUpdated : Nat
  deriving DecidableEq, Repr

structure NormalizationSummary where
  status : SyncJobStatus
  repositories : Nat
  issues : Nat
  pullRequests : Nat
  recordsCreated : Nat
  recordsUpdated : Nat
  deriving DecidableEq, Repr

inductive CursorAfter (R : Type) where
  | liveSync (progress : Progress R)
  | normalized (providerAttested persisted : Bool) (summary : NormalizationSummary)
  deriving DecidableEq, Repr

def progress : CursorAfter R → Progress R
  | .liveSync p => p
  | .normalized _ _ _ => .empty

def withProgressPhase (cursor : CursorAfter R) (phase : ProgressPhase) (now : Instant) :
    CursorAfter R :=
  .liveSync { progress cursor with phase := some phase, updatedAt := some now }

inductive IssueState where
  | opened | closed | all
  deriving DecidableEq, Repr

inductive PullRequestState where
  | opened | closed | merged | all
  deriving DecidableEq, Repr

def completeIssueScope (states : List IssueState) : Bool :=
  decide (.all ∈ states) || decide (.opened ∈ states ∧ .closed ∈ states)

def completePullRequestScope (states : List PullRequestState) : Bool :=
  decide (.all ∈ states) ||
    decide (.opened ∈ states ∧ .closed ∈ states ∧ .merged ∈ states)

structure LiveSyncRequest (casefold : R → K) where
  repositories : List R
  includeIssues : Bool
  includePullRequests : Bool
  issueStates : List IssueState
  pullRequestStates : List PullRequestState
  nonempty : repositories ≠ []
  distinct : (repositories.map casefold).Nodup

section NormalizeRepositories

variable {Raw : Type} [DecidableEq K] (casefold : R → K)
  (normalizeRepositoryFullName : Raw → Option R)

def normalizeRepositoriesFrom : List R → List Raw → Option (List R)
  | normalized, [] => some normalized
  | normalized, raw :: rest =>
    (normalizeRepositoryFullName raw).bind fun repository =>
      if casefold repository ∈ normalized.map casefold then normalizeRepositoriesFrom normalized rest
      else normalizeRepositoriesFrom (normalized ++ [repository]) rest

def normalizeRepositories (repositories : List Raw) : Option (List R) :=
  (normalizeRepositoriesFrom casefold normalizeRepositoryFullName [] repositories).filter
    (fun normalized => !normalized.isEmpty)

variable {casefold normalizeRepositoryFullName}

theorem normalizeRepositoriesFrom_distinct {raw : List Raw} {normalized result : List R}
    (h : normalizeRepositoriesFrom casefold normalizeRepositoryFullName normalized raw = some result)
    (hn : (normalized.map casefold).Nodup) : (result.map casefold).Nodup := by
  induction raw generalizing normalized with
  | nil =>
    have he : normalized = result := Option.some.inj h
    exact he ▸ hn
  | cons name rest ih =>
    obtain ⟨repository, -, hrest⟩ := Option.bind_eq_some_iff.1 h
    split at hrest
    · exact ih hrest hn
    · rename_i hnew
      refine ih hrest ?_
      rw [List.map_append, List.map_singleton]
      exact hn.append (List.nodup_singleton _) (List.disjoint_singleton.2 hnew)

theorem normalizeRepositories_distinct {raw : List Raw} {result : List R}
    (h : normalizeRepositories casefold normalizeRepositoryFullName raw = some result) :
    result ≠ [] ∧ (result.map casefold).Nodup := by
  obtain ⟨hrun, hne⟩ := Option.filter_eq_some_iff.1 h
  refine ⟨by simpa using hne, normalizeRepositoriesFrom_distinct hrun ?_⟩
  exact List.nodup_nil

end NormalizeRepositories

inductive JobErrorMessage where
  | willRetry | failed
  deriving DecidableEq, Repr

inductive LogEntry where
  | queued (repositoryCount : Nat) (now : Instant)
  | claimed (attempt : Nat) (now : Instant)
  | invalidRequest (now : Instant)
  | attemptEnded (phase : ProgressPhase) (attempt : Nat) (error : WorkerError) (now : Instant)
  | repositoryCompleted (index count issues pullRequests : Nat) (now : Instant)
  | cancelled (now : Instant)
  | cancellationRequested (now : Instant)
  | localNormalization (summary : NormalizationSummary)
  deriving DecidableEq, Repr

/-- One `sync_jobs` row of a live GitHub sync; `request` is `none` where `_parse_job_request`
raises. -/
structure SyncJob (casefold : R → K) where
  status : SyncJobStatus
  request : Option (LiveSyncRequest casefold)
  cursorAfter : CursorAfter R
  startedAt : Option Instant
  finishedAt : Option Instant
  recordsSeen : Nat
  recordsCreated : Nat
  recordsUpdated : Nat
  errorMessage : Option JobErrorMessage
  logs : List LogEntry
  attemptCount : Nat
  maxAttempts : Nat
  nextAttemptAt : Instant
  leaseOwner : Option LeaseToken
  leaseExpiresAt : Option Instant
  cancelRequestedAt : Option Instant

variable {casefold : R → K}

def enqueue (request : LiveSyncRequest casefold) (maxAttempts : Nat) (queuedAt : Instant) :
    SyncJob casefold where
  status := .queued
  request := some request
  cursorAfter := .liveSync
    { phase := some (.ofStatus .queued)
      completedRepositories := []
      totalRepositories := some request.repositories.length
      repositories := []
      counts := .zero
      isPartial := false
      updatedAt := some queuedAt }
  startedAt := none
  finishedAt := none
  recordsSeen := 0
  recordsCreated := 0
  recordsUpdated := 0
  errorMessage := none
  logs := [.queued request.repositories.length queuedAt]
  attemptCount := 0
  maxAttempts := maxAttempts
  nextAttemptAt := queuedAt
  leaseOwner := none
  leaseExpiresAt := none
  cancelRequestedAt := none

namespace SyncJob

variable (job : SyncJob casefold)

def leaseExpired (now : Instant) : Bool := job.leaseExpiresAt.any (· ≤ now)

def heldBy (token : LeaseToken) : Prop := job.status = .running ∧ job.leaseOwner = some token

instance (token : LeaseToken) : Decidable (job.heldBy token) :=
  inferInstanceAs (Decidable (_ ∧ _))

def expireExhaustedLeases (now : Instant) : SyncJob casefold :=
  if job.status = .running ∧ job.leaseExpired now = true ∧ job.maxAttempts ≤ job.attemptCount then
    { job with
      status := .failed
      finishedAt := some now
      errorMessage := some .failed
      leaseOwner := none
      leaseExpiresAt := none }
  else job

def eligible (now : Instant) : Bool :=
  decide (job.status = .queued ∧ job.nextAttemptAt ≤ now) ||
    decide (job.status = .running ∧ job.leaseExpired now = true)

def claimable (now : Instant) : Bool :=
  job.cancelRequestedAt.isNone && decide (job.attemptCount < job.maxAttempts) && job.eligible now

def failInvalidRequest (now : Instant) : SyncJob casefold :=
  { job with
    status := .failed
    finishedAt := some now
    errorMessage := some .failed
    leaseOwner := none
    leaseExpiresAt := none
    cursorAfter := withProgressPhase job.cursorAfter (.ofStatus .failed) now
    logs := job.logs ++ [.invalidRequest now] }

def claimed (settings : Settings) (token : LeaseToken) (now : Instant) : SyncJob casefold :=
  { job with
    status := .running
    startedAt := some (job.startedAt.getD now)
    finishedAt := none
    attemptCount := job.attemptCount + 1
    leaseOwner := some token
    leaseExpiresAt := some (now + seconds settings.leaseSeconds)
    errorMessage := none
    cursorAfter := withProgressPhase job.cursorAfter (.ofStatus .running) now
    logs := job.logs ++ [.claimed (job.attemptCount + 1) now] }

/-- `picked` is whether the ordered, lock-skipping query of `claim_next_github_sync_job` comes to
this row. -/
def claimNext (settings : Settings) (token : LeaseToken) (picked : Bool) (now : Instant) :
    SyncJob casefold × Option (LiveSyncRequest casefold) :=
  let swept := job.expireExhaustedLeases now
  if picked && swept.claimable now then
    match swept.request with
    | none => (swept.failInvalidRequest now, none)
    | some request => (swept.claimed settings token now, some request)
  else (swept, none)

def markCancelled (now : Instant) : SyncJob casefold :=
  { job with
    status := .cancelled
    finishedAt := some now
    errorMessage := none
    leaseOwner := none
    leaseExpiresAt := none
    cursorAfter := withProgressPhase job.cursorAfter (.ofStatus .cancelled) now
    logs := job.logs ++ [.cancelled now] }

def lockedClaimJob (token : LeaseToken) : Option (SyncJob casefold) :=
  if job.heldBy token then some job else none

end SyncJob

inductive WorkerStop where
  | cancelled
  | lostLease
  | raised (error : WorkerError)
  deriving DecidableEq, Repr

structure WorkerCommit (casefold : R → K) where
  job : SyncJob casefold
  stop : Option WorkerStop

namespace SyncJob

variable (job : SyncJob casefold)

def renewed (settings : Settings) (now : Instant) : SyncJob casefold :=
  { job with leaseExpiresAt := some (now + seconds settings.leaseSeconds) }

def renewOrCancel (settings : Settings) (token : LeaseToken) (now : Instant) :
    WorkerCommit casefold :=
  match job.lockedClaimJob token with
  | none => ⟨job, some .lostLease⟩
  | some locked =>
    if locked.cancelRequestedAt.isSome then ⟨locked.markCancelled now, some .cancelled⟩
    else ⟨locked.renewed settings now, none⟩

def finished (now : Instant) : SyncJob casefold :=
  let status : SyncJobStatus :=
    if (progress job.cursorAfter).isPartial then .partially else .succeeded
  { job with
    status := status
    finishedAt := some now
    leaseOwner := none
    leaseExpiresAt := none
    cursorAfter := withProgressPhase job.cursorAfter (.ofStatus status) now }

def finishResumedJob (token : LeaseToken) (now : Instant) : WorkerCommit casefold :=
  match job.lockedClaimJob token with
  | none => ⟨job, some .lostLease⟩
  | some locked =>
    if locked.cancelRequestedAt.isSome then ⟨locked.markCancelled now, some .cancelled⟩
    else ⟨locked.finished now, none⟩

def retryDelaySeconds (settings : Settings) : Nat :=
  min 300 (settings.retryBaseSeconds * 2 ^ (job.attemptCount - 1))

def released (settings : Settings) (error : WorkerError) (now : Instant) : SyncJob casefold :=
  if error.retryable && decide (job.attemptCount < job.maxAttempts) then
    { job with
      status := .queued
      nextAttemptAt := now + seconds (job.retryDelaySeconds settings)
      finishedAt := none
      errorMessage := some .willRetry
      leaseOwner := none
      leaseExpiresAt := none
      cursorAfter := withProgressPhase job.cursorAfter .retryScheduled now
      logs := job.logs ++ [.attemptEnded .retryScheduled job.attemptCount error now] }
  else
    { job with
      status := .failed
      finishedAt := some now
      errorMessage := some .failed
      leaseOwner := none
      leaseExpiresAt := none
      cursorAfter := withProgressPhase job.cursorAfter (.ofStatus .failed) now
      logs := job.logs ++ [.attemptEnded (.ofStatus .failed) job.attemptCount error now] }

def retryOrFail (settings : Settings) (token : LeaseToken) (error : WorkerError) (now : Instant) :
    SyncJob casefold :=
  match job.lockedClaimJob token with
  | none => job
  | some locked =>
    if locked.cancelRequestedAt.isSome then locked.markCancelled now
    else locked.released settings error now

def requestCancellation (now : Instant) : Option (SyncJob casefold) :=
  match job.status with
  | .succeeded | .failed | .partially | .cancelled => none
  | .queued | .running => some
    { job with
      cancelRequestedAt := some now
      logs := job.logs ++ [.cancellationRequested now]
      status := .cancelled
      finishedAt := some now
      leaseOwner := none
      leaseExpiresAt := none
      errorMessage := none }

end SyncJob

section Normalization

variable (options : NormalizationOptions R) (read : NormalizationRead)

def authoritativeReconciliationRequested : Bool :=
  !options.authoritativeIssueRepositories.isEmpty ||
    !options.authoritativePullRequestRepositories.isEmpty

def authoritativeReconciliationIncomplete : Bool :=
  !options.providerAttested || options.snapshotObservedAt.isNone || !options.persistIfSupported ||
    (!options.authoritativeIssueRepositories.isEmpty && !options.includeIssues) ||
    (!options.authoritativePullRequestRepositories.isEmpty && !options.includePullRequests)

def missingRequestedData : Bool :=
  (options.includeRepositories && read.repositories == 0) ||
    (options.includeIssues && read.issues == 0 &&
      options.authoritativeIssueRepositories.isEmpty) ||
    (options.includePullRequests && read.pullRequests == 0 &&
      options.authoritativePullRequestRepositories.isEmpty)

/-- The result of `normalize_github_sync_job_local`; `none` where it raises. -/
def normalizationSummary : Option NormalizationSummary :=
  if authoritativeReconciliationRequested options &&
      authoritativeReconciliationIncomplete options then none
  else some
    { status := if missingRequestedData options read then .partially else .succeeded
      repositories := if options.includeRepositories then read.repositories else 0
      issues := if options.includeIssues then read.issues else 0
      pullRequests := if options.includePullRequests then read.pullRequests else 0
      recordsCreated := if options.persistIfSupported then read.recordsCreated else 0
      recordsUpdated := if options.persistIfSupported then read.recordsUpdated else 0 }

def NormalizationSummary.recordsSeen (summary : NormalizationSummary) : Nat :=
  summary.repositories + summary.issues + summary.pullRequests

end Normalization

structure RepositoryBatch (R : Type) where
  fullName : R
  observedAt : Instant
  issues : Nat
  pullRequests : Nat
  skippedPullRequests : Nat
  deriving DecidableEq, Repr

def RepositoryBatch.summary (batch : RepositoryBatch R) : RepositorySummary R :=
  ⟨batch.fullName, batch.issues, batch.pullRequests, batch.skippedPullRequests⟩

def RepositoryBatch.counts (batch : RepositoryBatch R) : Counts :=
  ⟨1, batch.issues, batch.pullRequests, batch.skippedPullRequests⟩

def batchOptions (prepared : LiveSyncRequest casefold) (batch : RepositoryBatch R) :
    NormalizationOptions R where
  includeRepositories := true
  includeIssues := prepared.includeIssues
  includePullRequests := prepared.includePullRequests
  persistIfSupported := true
  snapshotObservedAt := some batch.observedAt
  providerAttested := true
  authoritativeIssueRepositories :=
    if prepared.includeIssues && completeIssueScope prepared.issueStates then [batch.fullName] else []
  authoritativePullRequestRepositories :=
    if prepared.includePullRequests && completePullRequestScope prepared.pullRequestStates then
      [batch.fullName] else []

structure CommittedBatch (R : Type) where
  token : LeaseToken
  batch : RepositoryBatch R
  recordsCreated : Nat
  recordsUpdated : Nat
  deriving DecidableEq, Repr

namespace SyncJob

variable (job : SyncJob casefold)

def withBatch (settings : Settings) (prepared : LiveSyncRequest casefold)
    (batch : RepositoryBatch R) (normalization : NormalizationSummary) (now : Instant) :
    SyncJob casefold :=
  let before := progress job.cursorAfter
  let counts := before.counts.add batch.counts
  let completed := before.completedRepositories ++ [batch.fullName]
  let isLast : Bool := prepared.repositories.length ≤ completed.length
  let isPartial := before.isPartial || decide (normalization.status = .partially)
  let finalStatus : SyncJobStatus := if isPartial then .partially else .succeeded
  { job with
    status := if isLast then finalStatus else .running
    cursorAfter := .liveSync
      { phase := some (.ofStatus (if isLast then finalStatus else .running))
        completedRepositories := completed
        totalRepositories := some prepared.repositories.length
        repositories := before.repositories ++ [batch.summary]
        counts := counts
        isPartial := isPartial
        updatedAt := some now }
    recordsSeen := counts.repositories + counts.issues + counts.pullRequests
    recordsCreated := job.recordsCreated + normalization.recordsCreated
    recordsUpdated := job.recordsUpdated + normalization.recordsUpdated
    errorMessage := none
    finishedAt := if isLast then some now else none
    leaseOwner := if isLast then none else job.leaseOwner
    leaseExpiresAt :=
      if isLast then none else some (now + seconds settings.leaseSeconds)
    logs := job.logs ++ [.localNormalization normalization,
      .repositoryCompleted completed.length prepared.repositories.length batch.issues
        batch.pullRequests now] }

section WithBatch

variable (settings : Settings) (prepared : LiveSyncRequest casefold) (batch : RepositoryBatch R)
  (normalization : NormalizationSummary) (now : Instant)

@[simp] theorem progress_withBatch_counts :
    (progress (job.withBatch settings prepared batch normalization now).cursorAfter).counts =
      (progress job.cursorAfter).counts.add batch.counts := rfl

@[simp] theorem progress_withBatch_completed :
    (progress (job.withBatch settings prepared batch normalization now).cursorAfter).completedRepositories =
      (progress job.cursorAfter).completedRepositories ++ [batch.fullName] := rfl

end WithBatch

/-- The second component is the batch the transaction commits, when it commits one. -/
def persistRepositoryBatch [DecidableEq K] (settings : Settings) (token : LeaseToken)
    (prepared : LiveSyncRequest casefold) (batch : RepositoryBatch R) (read : NormalizationRead)
    (now : Instant) : WorkerCommit casefold × Option (CommittedBatch R) :=
  match job.lockedClaimJob token with
  | none => (⟨job, some .lostLease⟩, none)
  | some locked =>
    if locked.cancelRequestedAt.isSome then (⟨locked.markCancelled now, none⟩, none)
    else if casefold batch.fullName ∈
        (progress locked.cursorAfter).completedRepositories.map casefold then
      (⟨locked, none⟩, none)
    else match normalizationSummary (batchOptions prepared batch) read with
      | none => (⟨job, some (.raised .unexpected)⟩, none)
      | some normalization =>
        (⟨locked.withBatch settings prepared batch normalization now, none⟩,
          some ⟨token, batch, normalization.recordsCreated, normalization.recordsUpdated⟩)

def validateSyncJob : Bool := decide (job.status = .queued)

/-- A column the session assigns is written only where it differs from the loaded value. -/
def assign {α : Type} [DecidableEq α] (loaded new current : α) : α :=
  if new = loaded then current else new

/-- The commit of an endpoint call of `normalize_github_sync_job_local`: `loaded` is the row as read
without a lock, `job` the row its `UPDATE` meets. -/
def normalizedLocally (loaded : SyncJob casefold) (options : NormalizationOptions R)
    (summary : NormalizationSummary) (now : Instant) : SyncJob casefold :=
  { job with
    status := summary.status
    startedAt := assign loaded.startedAt (some now) job.startedAt
    finishedAt := assign loaded.finishedAt (some now) job.finishedAt
    recordsSeen := assign loaded.recordsSeen summary.recordsSeen job.recordsSeen
    recordsCreated := assign loaded.recordsCreated summary.recordsCreated job.recordsCreated
    recordsUpdated := assign loaded.recordsUpdated summary.recordsUpdated job.recordsUpdated
    errorMessage := assign loaded.errorMessage none job.errorMessage
    cursorAfter := .normalized options.providerAttested options.persistIfSupported summary
    logs := loaded.logs ++ [.localNormalization summary] }

end SyncJob

end FounderOs.SyncWorker
