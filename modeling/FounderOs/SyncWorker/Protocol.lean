import FounderOs.SyncWorker.Model
import FounderOs.Foundation.Transition
import Mathlib.Logic.Function.Basic

namespace FounderOs.SyncWorker

variable {R K : Type} {casefold : R → K}

abbrev CallId := Nat

inductive WorkerPc (R : Type) where
  | preparing
  | renewing
  | opening
  | resuming
  | finishing
  | looping (remaining : List R)
  | reading (repository : R) (rest : List R)
  | persisting (batch : RepositoryBatch R) (rest : List R)
  | failing (error : WorkerError)
  | stopped
  deriving DecidableEq, Repr

/-- `process_one_github_sync_job` after its claim; `request` is the payload the claim returned. -/
structure Worker (casefold : R → K) where
  request : LiveSyncRequest casefold
  pc : WorkerPc R

inductive LocalCall (casefold : R → K) where
  | idle
  | loaded (job : SyncJob casefold) (options : NormalizationOptions R)
  | finished

structure LocalRun where
  call : CallId
  summary : NormalizationSummary
  deriving DecidableEq, Repr

/-- One job with everything that can act on it: the workers by the token of their claim, and the
calls of the normalize-local endpoint. `claims`, `committed` and `localRuns` are history. -/
structure World (casefold : R → K) where
  job : SyncJob casefold
  workers : LeaseToken → Option (Worker casefold)
  calls : CallId → LocalCall casefold
  claims : Nat
  committed : List (CommittedBatch R)
  localRuns : List LocalRun

def queuedWorld (request : LiveSyncRequest casefold) (maxAttempts : Nat) (queuedAt : Instant) :
    World casefold where
  job := enqueue request maxAttempts queuedAt
  workers := fun _ => none
  calls := fun _ => .idle
  claims := 0
  committed := []
  localRuns := []

structure BatchRead where
  observedAt : Instant
  issues : Nat
  pullRequests : Nat
  skippedPullRequests : Nat
  deriving DecidableEq, Repr

def BatchRead.batch (found : BatchRead) (repository : R) : RepositoryBatch R :=
  ⟨repository, found.observedAt, found.issues, found.pullRequests, found.skippedPullRequests⟩

inductive Action (R : Type) where
  | poll (picked : Bool) (now : Instant)
  | prepareClaim (token : LeaseToken)
  | renew (token : LeaseToken) (now : Instant)
  | openProvider (token : LeaseToken)
  | readCompleted (token : LeaseToken)
  | finish (token : LeaseToken) (now : Instant)
  | readBatch (token : LeaseToken) (found : BatchRead)
  | persist (token : LeaseToken) (read : NormalizationRead) (now : Instant)
  | fail (token : LeaseToken) (error : WorkerError)
  | retryOrFail (token : LeaseToken) (now : Instant)
  | requestCancellation (now : Instant)
  | loadLocal (call : CallId) (options : NormalizationOptions R)
  | normalizeLocal (call : CallId) (read : NormalizationRead) (now : Instant)
  deriving DecidableEq, Repr

def Action.token : Action R → Option LeaseToken
  | .prepareClaim token | .renew token _ | .openProvider token | .readCompleted token
  | .finish token _ | .readBatch token _ | .persist token _ _ | .fail token _
  | .retryOrFail token _ => some token
  | .poll _ _ | .requestCancellation _ | .loadLocal _ _ | .normalizeLocal _ _ _ => none

def Action.isNormalizeLocal : Action R → Bool
  | .normalizeLocal _ _ _ => true
  | _ => false

def WorkerStop.pc : WorkerStop → WorkerPc R
  | .cancelled | .lostLease => .stopped
  | .raised error => .failing error

namespace World

variable (s : World casefold)

def goto (token : LeaseToken) (w : Worker casefold) (pc : WorkerPc R) : World casefold :=
  { s with workers := Function.update s.workers token (some { w with pc := pc }) }

def commit (token : LeaseToken) (w : Worker casefold) (c : WorkerCommit casefold)
    (next : WorkerPc R) : World casefold :=
  { s.goto token w (c.stop.elim next WorkerStop.pc) with job := c.job }

end World

section Steps

variable [DecidableEq K] (settings : Settings) (s : World casefold)

def pollStep (picked : Bool) (now : Instant) : World casefold :=
  match s.job.claimNext settings s.claims picked now with
  | (job, none) => { s with job := job }
  | (job, some request) =>
    { s with
      job := job
      workers := Function.update s.workers s.claims (some ⟨request, .preparing⟩)
      claims := s.claims + 1 }

def renewStep (token : LeaseToken) (w : Worker casefold) (now : Instant) :
    Option (World casefold) :=
  let renewal := s.job.renewOrCancel settings token now
  match w.pc with
  | .renewing => some (s.commit token w renewal .opening)
  | .looping (repository :: rest) => some (s.commit token w renewal (.reading repository rest))
  | _ => none

/-- `_completed_repositories` and the choice of what remains; the row is read without a lock. -/
def readCompletedStep (token : LeaseToken) (w : Worker casefold) : World casefold :=
  if s.job.leaseOwner ≠ some token then s.goto token w .stopped
  else
    let completed := (progress s.job.cursorAfter).completedRepositories.map casefold
    match w.request.repositories.filter (fun repository => casefold repository ∉ completed) with
    | [] => s.goto token w .finishing
    | remaining => s.goto token w (.looping remaining)

def persistStep (token : LeaseToken) (w : Worker casefold) (batch : RepositoryBatch R)
    (rest : List R) (read : NormalizationRead) (now : Instant) : World casefold :=
  let result := s.job.persistRepositoryBatch settings token w.request batch read now
  { s.commit token w result.1 (.looping rest) with committed := s.committed ++ result.2.toList }

def WorkerPc.canFail : WorkerPc R → Bool
  | .failing _ | .stopped => false
  | _ => true

def workerStep (token : LeaseToken) (w : Worker casefold) (a : Action R) :
    Option (World casefold) :=
  match a, w.pc with
  | .prepareClaim _, .preparing => some (s.goto token w .renewing)
  | .renew _ now, _ => renewStep settings s token w now
  | .openProvider _, .opening => some (s.goto token w .resuming)
  | .readCompleted _, .resuming => some (readCompletedStep s token w)
  | .finish _ now, .finishing => some (s.commit token w (s.job.finishResumedJob token now) .stopped)
  | .readBatch _ found, .reading repository rest =>
    some (s.goto token w (.persisting (found.batch repository) rest))
  | .persist _ read now, .persisting batch rest =>
    some (persistStep settings s token w batch rest read now)
  | .fail _ error, pc => if pc.canFail then some (s.goto token w (.failing error)) else none
  | .retryOrFail _ now, .failing error =>
    some (s.commit token w ⟨s.job.retryOrFail settings token error now, none⟩ .stopped)
  | _, _ => none

def loadLocalStep (call : CallId) (options : NormalizationOptions R) : Option (World casefold) :=
  match s.calls call with
  | .idle => if s.job.validateSyncJob then
      some { s with calls := Function.update s.calls call (.loaded s.job options) } else none
  | _ => none

def normalizeLocalStep (call : CallId) (read : NormalizationRead) (now : Instant) :
    Option (World casefold) :=
  match s.calls call with
  | .loaded loaded options => (normalizationSummary options read).map fun summary =>
    { s with
      job := s.job.normalizedLocally loaded options summary now
      calls := Function.update s.calls call .finished
      localRuns := s.localRuns ++ [⟨call, summary⟩] }
  | _ => none

def step (s : World casefold) (a : Action R) : Option (World casefold) :=
  match a with
  | .poll picked now => some (pollStep settings s picked now)
  | .requestCancellation now =>
    (s.job.requestCancellation now).map (fun job => { s with job := job })
  | .loadLocal call options => loadLocalStep s call options
  | .normalizeLocal call read now => normalizeLocalStep s call read now
  | a => a.token.bind fun token => (s.workers token).bind fun w => workerStep settings s token w a

end Steps

end FounderOs.SyncWorker
