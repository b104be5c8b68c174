import FounderOs.Execution.Model
import FounderOs.Foundation.Transition

namespace FounderOs.Execution

variable {Content : Type}

structure ExecuteRequest where
  workspaceId : WorkspaceId
  proposalId : ProposalId
  connectionId : ConnectionId
  requestedByUserId : UserId
  idempotencyKey : IdempotencyKey
  confirmExternalWrite : Bool
  deriving DecidableEq, Repr

inductive PreflightFailure where
  | payload | bodyTooLarge | evidence | repositoryNotAllowed | connection
  deriving DecidableEq, Repr

/-- What one request reads outside `action_proposals` and `action_executions`. -/
structure ExecuteEnvironment where
  realConnectorsEnabled : Bool
  preflight : Option PreflightFailure
  deriving DecidableEq, Repr

inductive ExecutionError where
  | realConnectorsDisabled
  | confirmRequired
  | proposalNotFound
  | idempotencyReused
  | inProgress
  | retryKeyRequired
  | proposalNotApproved
  | unsupportedAction
  | preflight (failure : PreflightFailure)
  | integrity
  deriving DecidableEq, Repr

structure ExecutionResult where
  executionId : ExecutionId
  issue : Option IssueNumber
  deriving DecidableEq, Repr

def executionResult (execution : ActionExecution Content) : ExecutionResult :=
  ⟨execution.id, execution.providerResponse⟩

inductive ExecuteAnswer (Content : Type) where
  | refused (error : ExecutionError)
  | existing (execution : ActionExecution Content)
  | claimed (proposal : ActionProposal Content) (execution : ActionExecution Content)
      (table : ExecutionTable Content)

abbrev ProposalTable (Content : Type) := ProposalId → Option (ActionProposal Content)

def getProposal (proposals : ProposalTable Content) (workspace : WorkspaceId) (id : ProposalId) :
    Option (ActionProposal Content) :=
  (proposals id).filter (fun p => p.workspaceId = workspace)

def executionRequestHash (proposal : ActionProposal Content) (request : ExecuteRequest) :
    RequestHash Content where
  workspaceId := request.workspaceId
  proposalId := proposal.id
  proposalUpdatedAt := proposal.updatedAt
  targetProvider := proposal.targetProvider
  actionType := proposal.actionType
  content := proposal.content
  connectionId := request.connectionId
  requestedByUserId := request.requestedByUserId

def claimRow (proposal : ActionProposal Content) (request : ExecuteRequest) (id : ExecutionId)
    (claimedAt : Instant) : ActionExecution Content where
  id := id
  actionProposalId := proposal.id
  workspaceId := request.workspaceId
  requestedByUserId := request.requestedByUserId
  connectionId := request.connectionId
  clientIdempotencyKey := request.idempotencyKey
  requestHash := executionRequestHash proposal request
  status := .claimed
  providerResponse := none
  claimedAt := claimedAt
  startedAt := none

section Execute

variable [DecidableEq Content]

def resolveExistingExecution (proposal : ActionProposal Content)
    (execution : ActionExecution Content) (requestHash : Option (RequestHash Content)) :
    ExecuteAnswer Content :=
  if execution.actionProposalId ≠ proposal.id ∨
      requestHash.any (fun h => execution.requestHash ≠ h) then
    .refused .idempotencyReused
  else match execution.status with
    | .succeeded => .existing execution
    | .claimed | .running | .uncertain => .refused .inProgress
    | .failed => .refused .retryKeyRequired

def validateProposalForExecution (proposal : ActionProposal Content) : Option ExecutionError :=
  if proposal.status ≠ .approved then some .proposalNotApproved
  else if proposal.targetProvider ≠ .github ∨ proposal.actionType ≠ .createGithubIssue then
    some .unsupportedAction
  else none

/-- The transaction of `execute_approved_github_issue_action` up to its first commit. The proposal
row is locked, so it is one atomic step. -/
def executeApprovedGithubIssueAction (proposals : ProposalTable Content)
    (table : ExecutionTable Content) (request : ExecuteRequest) (env : ExecuteEnvironment)
    (id : ExecutionId) (now : Instant) : ExecuteAnswer Content :=
  if !env.realConnectorsEnabled then .refused .realConnectorsDisabled
  else if !request.confirmExternalWrite then .refused .confirmRequired
  else match getProposal proposals request.workspaceId request.proposalId with
    | none => .refused .proposalNotFound
    | some proposal =>
      match table.byIdempotencyKey request.workspaceId request.idempotencyKey with
      | some execution =>
        resolveExistingExecution proposal execution (some (executionRequestHash proposal request))
      | none =>
        match table.activeOrSuccessful proposal.id with
        | some execution => resolveExistingExecution proposal execution none
        | none =>
          match validateProposalForExecution proposal with
          | some error => .refused error
          | none =>
            match env.preflight with
            | some failure => .refused (.preflight failure)
            | none =>
              match table.insert (claimRow proposal request id now) with
              | some table' => .claimed proposal (claimRow proposal request id now) table'
              | none => .refused .integrity

end Execute

structure ExecutionMarker (Content : Type) where
  executionId : ExecutionId
  requestHash : RequestHash Content
  deriving DecidableEq, Repr

def executionRequestMarker (execution : ActionExecution Content) : ExecutionMarker Content :=
  ⟨execution.id, execution.requestHash⟩

structure Issue (Content : Type) where
  number : IssueNumber
  isPullRequest : Bool
  marker : Option (ExecutionMarker Content)
  deriving DecidableEq, Repr

inductive CallOutcome where
  | pending
  | written (issue : IssueNumber)
  | failed
  deriving DecidableEq, Repr

/-- One `create_issue` request, with what the provider knows of it. -/
structure Call (Content : Type) where
  proposalId : ProposalId
  marker : ExecutionMarker Content
  outcome : CallOutcome
  deriving DecidableEq, Repr

inductive ExecutorPc where
  | claimed
  | running
  | calling (call : Nat)
  | finished
  deriving DecidableEq, Repr

/-- An `execute` request after its claim; `proposal` and `execution` are the objects its session
loaded, which no later commit expires. -/
structure Executor (Content : Type) where
  request : ExecuteRequest
  proposal : ActionProposal Content
  execution : ActionExecution Content
  pc : ExecutorPc

inductive ResultSyncPc (Content : Type) where
  | read
  | listed (found : List (Issue Content))
  | finished

structure ResultSync (Content : Type) where
  proposal : ActionProposal Content
  execution : ActionExecution Content
  snapshotObservedAt : Instant
  pc : ResultSyncPc Content

def absenceGracePeriod : Nat := 60000000

def absenceReconciliationEligibleAt (execution : ActionExecution Content) : Instant :=
  execution.startedAt.getD execution.claimedAt + absenceGracePeriod

inductive SyncVerdict where
  | writeNotObserved
  | reconciliationPending
  | reconciledSuccess (issue : IssueNumber)
  | markerAmbiguous
  deriving DecidableEq, Repr

def ResultSync.verdict (sync : ResultSync Content) : Option SyncVerdict :=
  match sync.execution.status, sync.pc with
  | .claimed, .read => some .writeNotObserved
  | .running, .listed found | .uncertain, .listed found =>
    match found with
    | [] =>
      if sync.snapshotObservedAt < absenceReconciliationEligibleAt sync.execution then
        some .reconciliationPending
      else some .writeNotObserved
    | [issue] => some (.reconciledSuccess issue.number)
    | _ :: _ :: _ => some .markerAmbiguous
  | _, _ => none

structure World (Content : Type) where
  proposals : ProposalTable Content
  executions : ExecutionTable Content
  issues : List (Issue Content)
  calls : List (Call Content)
  executors : Nat → Option (Executor Content)
  resultSyncs : Nat → Option (ResultSync Content)
  answered : List (ExecuteRequest × ExecutionResult)

/-- An attribute assignment reaches the row only when it differs from the loaded value; the
`onupdate` hook then moves `updated_at`. -/
def flushProposal (proposals : ProposalTable Content) (loaded : ActionProposal Content)
    (assigned : Option ProposalStatus) (now : Instant) : ProposalTable Content :=
  match assigned with
  | none => proposals
  | some status =>
    if loaded.status = status then proposals
    else Function.update proposals loaded.id
      ((proposals loaded.id).map (fun p => { p with status := status, updatedAt := now }))

namespace World

def setExecutor (w : World Content) (k : Nat) (x : Executor Content) : World Content :=
  { w with executors := Function.update w.executors k (some x) }

def setResultSync (w : World Content) (j : Nat) (x : ResultSync Content) : World Content :=
  { w with resultSyncs := Function.update w.resultSyncs j (some x) }

def executorAt (w : World Content) (k : Nat) (pc : ExecutorPc) : Option (Executor Content) :=
  (w.executors k).filter (fun x => x.pc = pc)

def commitMark (w : World Content) (execution : ExecutionId) (mark : Mark)
    (loaded : ActionProposal Content) (assigned : Option ProposalStatus) (now : Instant) :
    Option (World Content) :=
  (w.executions.update execution mark).map (fun table =>
    { w with executions := table, proposals := flushProposal w.proposals loaded assigned now })

/-- A commit that breaks a constraint is rolled back and ends the request. -/
def commitExecutor (w : World Content) (k : Nat) (x : Executor Content) (mark : Mark)
    (assigned : Option ProposalStatus) (now : Instant) (pc : ExecutorPc) : World Content :=
  match w.commitMark x.execution.id mark x.proposal assigned now with
  | some w' => w'.setExecutor k { x with pc := pc }
  | none => w.setExecutor k { x with pc := .finished }

def commitResultSync (w : World Content) (j : Nat) (x : ResultSync Content) (mark : Mark)
    (assigned : Option ProposalStatus) (now : Instant) : World Content :=
  match w.commitMark x.execution.id mark x.proposal assigned now with
  | some w' => w'.setResultSync j { x with pc := .finished }
  | none => w.setResultSync j { x with pc := .finished }

end World

inductive Action (Content : Type) where
  | decide (proposal : ProposalId) (status : ProposalStatus) (now : Instant)
  | execute (k : Nat) (request : ExecuteRequest) (env : ExecuteEnvironment) (id : ExecutionId)
      (now : Instant)
  | tokenUnavailable (k : Nat) (now : Instant)
  | start (k : Nat) (now : Instant)
  | evidenceInvalid (k : Nat) (now : Instant)
  | createIssue (k : Nat)
  | resolveCall (i : Nat) (written : Bool)
  | succeed (k : Nat) (now : Instant)
  | markUncertain (k : Nat) (now : Instant)
  | stopExecutor (k : Nat)
  | beginSync (j : Nat) (workspace : WorkspaceId) (proposal : ProposalId) (observedAt : Instant)
  | listIssues (j : Nat)
  | commitSync (j : Nat) (now : Instant)
  | stopSync (j : Nat)
  | foreignIssue (isPullRequest : Bool) (marker : Option (ExecutionMarker Content))

def Action.isCommitSync : Action Content → Bool
  | .commitSync _ _ => true
  | _ => false

section Step

variable [DecidableEq Content]

def answerExecute (w : World Content) (k : Nat) (request : ExecuteRequest) :
    ExecuteAnswer Content → World Content
  | .refused _ => w
  | .existing execution => { w with answered := (request, executionResult execution) :: w.answered }
  | .claimed proposal execution table =>
    { w with
      executions := table
      executors := Function.update w.executors k (some ⟨request, proposal, execution, .claimed⟩) }

def issuesMatchingExecutionMarker (issues : List (Issue Content))
    (execution : ActionExecution Content) : List (Issue Content) :=
  issues.filter (fun i => !i.isPullRequest && i.marker = some (executionRequestMarker execution))

def beginResultSync (w : World Content) (workspace : WorkspaceId) (proposal : ProposalId)
    (observedAt : Instant) : Option (ResultSync Content) :=
  match getProposal w.proposals workspace proposal with
  | none => none
  | some p =>
    if p.targetProvider ≠ .github ∨ p.actionType ≠ .createGithubIssue then none
    else (w.executions.activeOrSuccessful p.id).map (fun x => ⟨p, x, observedAt, .read⟩)

def step (w : World Content) : Action Content → Option (World Content)
  | .decide id status now =>
    match w.proposals id with
    | none => none
    | some p =>
      if p.status = .proposed ∧ (status = .approved ∨ status = .rejected) then
        some { w with
          proposals :=
            Function.update w.proposals id (some { p with status := status, updatedAt := now }) }
      else none
  | .execute k request env id now =>
    if (w.executors k).isSome then none
    else some (answerExecute w k request
      (executeApprovedGithubIssueAction w.proposals w.executions request env id now))
  | .tokenUnavailable k now =>
    (w.executorAt k .claimed).map (fun x => w.commitExecutor k x .failed (some .approved) now .finished)
  | .start k now =>
    (w.executorAt k .claimed).map (fun x => w.commitExecutor k x (.running now) none now .running)
  | .evidenceInvalid k now =>
    (w.executorAt k .running).map (fun x => w.commitExecutor k x .failed (some .approved) now .finished)
  | .createIssue k =>
    (w.executorAt k .running).map (fun x =>
      { w with
        calls := w.calls ++ [⟨x.execution.actionProposalId, executionRequestMarker x.execution, .pending⟩]
        executors := Function.update w.executors k (some { x with pc := .calling w.calls.length }) })
  | .resolveCall i written =>
    match w.calls[i]? with
    | some ⟨p, marker, .pending⟩ =>
      if written then
        some { w with
          issues := w.issues ++ [⟨w.issues.length + 1, false, some marker⟩]
          calls := w.calls.set i ⟨p, marker, .written (w.issues.length + 1)⟩ }
      else some { w with calls := w.calls.set i ⟨p, marker, .failed⟩ }
    | _ => none
  | .succeed k now =>
    match w.executors k with
    | some x =>
      match x.pc with
      | .calling i =>
        match w.calls[i]? with
        | some ⟨_, _, .written issue⟩ =>
          match w.commitMark x.execution.id (.succeeded issue) x.proposal (some .executed) now with
          | some w' =>
            some { w'.setExecutor k { x with pc := .finished } with
              answered := (x.request, ⟨x.execution.id, some issue⟩) :: w.answered }
          | none => some (w.setExecutor k { x with pc := .finished })
        | _ => none
      | _ => none
    | none => none
  | .markUncertain k now =>
    match w.executors k with
    | some x =>
      match x.pc with
      | .calling _ => some (w.commitExecutor k x .uncertain none now .finished)
      | _ => none
    | none => none
  | .stopExecutor k => (w.executors k).map (fun x => w.setExecutor k { x with pc := .finished })
  | .beginSync j workspace proposal observedAt =>
    if (w.resultSyncs j).isSome then none
    else (beginResultSync w workspace proposal observedAt).map (w.setResultSync j)
  | .listIssues j =>
    match w.resultSyncs j with
    | some x =>
      match x.execution.status, x.pc with
      | .running, .read | .uncertain, .read =>
        some (w.setResultSync j
          { x with pc := .listed (issuesMatchingExecutionMarker w.issues x.execution) })
      | _, _ => none
    | none => none
  | .commitSync j now =>
    match w.resultSyncs j with
    | some x =>
      match x.verdict with
      | some .writeNotObserved => some (w.commitResultSync j x .failed (some .approved) now)
      | some (.reconciledSuccess issue) =>
        some (w.commitResultSync j x (.succeeded issue) (some .executed) now)
      | some .reconciliationPending | some .markerAmbiguous =>
        some (w.setResultSync j { x with pc := .finished })
      | none => none
    | none => none
  | .stopSync j => (w.resultSyncs j).map (fun x => w.setResultSync j { x with pc := .finished })
  | .foreignIssue isPullRequest marker =>
    some { w with issues := w.issues ++ [⟨w.issues.length + 1, isPullRequest, marker⟩] }

end Step

/-- No request has touched these proposals yet. -/
structure Initial (w : World Content) : Prop where
  keyed : ∀ id p, w.proposals id = some p → p.id = id
  notExecuted : ∀ id p, w.proposals id = some p → p.status ≠ .executed
  executions : w.executions.rows = []
  calls : w.calls = []
  executors : ∀ k, w.executors k = none
  resultSyncs : ∀ j, w.resultSyncs j = none
  answered : w.answered = []

def approvedProposal : ActionProposal Unit :=
  ⟨0, 0, .github, .createGithubIssue, (), .approved, 0⟩

def approvedWorld : World Unit where
  proposals := fun id => if id = 0 then some approvedProposal else none
  executions := .empty
  issues := []
  calls := []
  executors := fun _ => none
  resultSyncs := fun _ => none
  answered := []

def confirmedRequest (key : IdempotencyKey) : ExecuteRequest := ⟨0, 0, 0, 0, key, true⟩

theorem approvedWorld_initial : Initial approvedWorld where
  keyed id p h := by
    simp only [approvedWorld] at h
    split at h
    · rename_i hid
      cases h
      exact hid.symm
    · cases h
  notExecuted id p h := by
    simp only [approvedWorld] at h
    split at h
    · cases h
      simp [approvedProposal]
    · cases h
  executions := rfl
  calls := rfl
  executors _ := rfl
  resultSyncs _ := rfl
  answered := rfl

end FounderOs.Execution
