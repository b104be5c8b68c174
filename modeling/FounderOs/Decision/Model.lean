import FounderOs.Execution.Model
import FounderOs.Foundation.Text
import FounderOs.Foundation.Transition

namespace FounderOs.Decision

open Execution

inductive CreatedBy where
  | user | system | ai
  deriving DecidableEq, Repr

/-- A proposal row with its review columns; `content` also stands for the title, the description
and the briefing item. -/
structure ReviewedProposal (Content : Type) extends ActionProposal Content where
  createdBy : CreatedBy
  createdByUserId : Option UserId
  approvedByUserId : Option UserId
  approvedAt : Option Instant
  rejectedByUserId : Option UserId
  rejectedAt : Option Instant
  rejectionReason : Option String
  createdAt : Instant
  deriving DecidableEq, Repr

/-- The digest of `action_proposal_version`, represented by the row it hashes. -/
abbrev ProposalVersion (Content : Type) := ReviewedProposal Content

variable {Content : Type}

def actionProposalVersion (proposal : ReviewedProposal Content) : ProposalVersion Content := proposal

def ReviewedProposal.moved (p : ReviewedProposal Content) (status : ProposalStatus) (now : Instant) :
    ReviewedProposal Content :=
  { p with status := status, updatedAt := now }

@[simp] theorem moved_status (p : ReviewedProposal Content) (status : ProposalStatus)
    (now : Instant) : (p.moved status now).status = status := rfl

structure DecisionCommand (Content : Type) where
  decision : DecisionKind
  idempotencyKey : String
  proposalVersion : ProposalVersion Content
  expectedSnapshotId : Option String
  reason : Option String
  bulk : Bool
  deriving DecidableEq, Repr

structure RequestFingerprint (Content : Type) where
  decision : DecisionKind
  expectedSnapshotId : Option String
  proposalVersion : ProposalVersion Content
  reason : Option String
  deriving DecidableEq, Repr

def decisionRequestFingerprint (command : DecisionCommand Content) : RequestFingerprint Content where
  decision := command.decision
  expectedSnapshotId := command.expectedSnapshotId
  proposalVersion := command.proposalVersion
  reason := Text.stripped command.reason

abbrev EventId := Nat

structure DecisionEvent (Content : Type) where
  id : EventId
  workspaceId : WorkspaceId
  actionProposalId : ProposalId
  clientIdempotencyKey : String
  eventType : DecisionKind
  actor : UserId
  requestFingerprint : RequestFingerprint Content
  decision : DecisionKind
  proposalVersion : ProposalVersion Content
  createdAt : Instant
  deriving DecidableEq, Repr

inductive EvidenceRef where
  | actionProposal (id : ProposalId)
  | actionExecutionEvent (id : EventId)
  deriving DecidableEq, Repr

structure PayloadFingerprint where
  actorUserId : UserId
  eventType : DecisionKind
  evidenceRefs : List EvidenceRef
  occurredAt : Instant
  sourceKey : TargetProvider
  subjectId : ProposalId
  workspaceId : WorkspaceId
  deriving DecidableEq, Repr

/-- A `CompanyMemoryEvent` of a proposal decision; its idempotency key hashes the event type, the
proposal and the workspace. -/
structure MemoryEvent where
  workspaceId : WorkspaceId
  eventType : DecisionKind
  subjectId : ProposalId
  payloadFingerprint : PayloadFingerprint
  deriving DecidableEq, Repr

inductive MembershipRole where
  | viewer | member | admin | owner
  deriving DecidableEq, Repr

def MembershipRole.order : MembershipRole → Nat
  | .viewer => 10
  | .member => 20
  | .admin => 30
  | .owner => 40

def roleAllows (actual required : MembershipRole) : Bool := required.order ≤ actual.order

structure Member where
  role : MembershipRole
  userActive : Bool
  deriving DecidableEq, Repr

structure DecisionWorld (Content : Type) where
  proposals : ProposalId → Option (ReviewedProposal Content)
  events : List (DecisionEvent Content)
  memory : List MemoryEvent
  members : WorkspaceId → UserId → Option Member

inductive DecisionError where
  | notFound (detail : String)
  | forbidden (detail : String)
  | conflict (detail : String)
  deriving DecidableEq, Repr

/-- The endpoints answer a decision error; any other exception ends the whole request. -/
inductive DecisionFailure where
  | answered (error : DecisionError)
  | uncaught (message : String)
  deriving DecidableEq, Repr

/-- What one decision reads outside these tables, and the values it draws. -/
structure DecideEnvironment where
  evidenceError : Option String
  headquartersError : Option DecisionError
  eventId : EventId
  decidedAt : Instant
  transactionAt : Instant
  deriving DecidableEq, Repr

structure DecisionResult (Content : Type) where
  proposal : ReviewedProposal Content
  event : DecisionEvent Content
  decision : DecisionKind
  replayed : Bool
  proposalVersion : ProposalVersion Content
  deriving DecidableEq, Repr

namespace DecisionWorld

def getProposal (w : DecisionWorld Content) (workspace : WorkspaceId) (id : ProposalId) :
    Option (ReviewedProposal Content) :=
  (w.proposals id).filter (fun p => p.workspaceId = workspace)

def eventByIdempotencyKey (w : DecisionWorld Content) (workspace : WorkspaceId) (id : ProposalId)
    (key : String) : Option (DecisionEvent Content) :=
  w.events.find? (fun e =>
    e.workspaceId = workspace ∧ e.actionProposalId = id ∧ e.clientIdempotencyKey = key)

def memoryEvent (w : DecisionWorld Content) (workspace : WorkspaceId) (eventType : DecisionKind)
    (id : ProposalId) : Option MemoryEvent :=
  w.memory.find? (fun m => m.workspaceId = workspace ∧ m.eventType = eventType ∧ m.subjectId = id)

end DecisionWorld

def currentAdminError (w : DecisionWorld Content) (workspace : WorkspaceId) (user : UserId) :
    Option DecisionError :=
  match w.members workspace user with
  | none => some (.notFound "workspace not found")
  | some member =>
    if !member.userActive then some (.forbidden "user disabled")
    else if !roleAllows member.role .admin then some (.forbidden "insufficient workspace role")
    else none

def terminalReview (proposal : ReviewedProposal Content) : Option (DecisionKind × Option Instant) :=
  match proposal.status with
  | .approved => some (.approved, proposal.approvedAt)
  | .rejected => some (.rejected, proposal.rejectedAt)
  | .proposed | .executed | .failed => none

def payloadFingerprint (proposal : ReviewedProposal Content) (kind : DecisionKind)
    (occurredAt : Instant) (actor : UserId) (event : EventId) : PayloadFingerprint where
  actorUserId := actor
  eventType := kind
  evidenceRefs := [.actionProposal proposal.id, .actionExecutionEvent event]
  occurredAt := occurredAt
  sourceKey := proposal.targetProvider
  subjectId := proposal.id
  workspaceId := proposal.workspaceId

def appendDecisionMemoryEvent (w : DecisionWorld Content) (proposal : ReviewedProposal Content)
    (actor : UserId) (event : EventId) : Except DecisionFailure (DecisionWorld Content) :=
  match terminalReview proposal with
  | none => .error (.uncaught "action proposal does not have a terminal review decision")
  | some (_, none) => .error (.uncaught "company memory event occurred_at is required")
  | some (kind, some occurredAt) =>
    let fingerprint := payloadFingerprint proposal kind occurredAt actor event
    match w.memoryEvent proposal.workspaceId kind proposal.id with
    | some existing =>
      if existing.payloadFingerprint = fingerprint then .ok w
      else .error (.uncaught "company memory event idempotency conflict")
    | none =>
      .ok { w with memory := w.memory ++ [⟨proposal.workspaceId, kind, proposal.id, fingerprint⟩] }

def expectedStatuses : DecisionKind → List ProposalStatus
  | .approved => [.approved, .executed, .failed]
  | .rejected => [.rejected]

def decisionActor (proposal : ReviewedProposal Content) : DecisionKind → Option UserId
  | .approved => proposal.approvedByUserId
  | .rejected => proposal.rejectedByUserId

def applyDecision (proposal : ReviewedProposal Content) (actor : UserId)
    (command : DecisionCommand Content) (env : DecideEnvironment) : ReviewedProposal Content :=
  match command.decision with
  | .approved =>
    { proposal with
      status := .approved
      updatedAt := env.transactionAt
      approvedByUserId := some actor
      approvedAt := some env.decidedAt }
  | .rejected =>
    { proposal with
      status := .rejected
      updatedAt := env.transactionAt
      rejectedByUserId := some actor
      rejectedAt := some env.decidedAt
      rejectionReason := Text.stripped command.reason }

def decisionEvent (proposal : ReviewedProposal Content) (actor : UserId)
    (command : DecisionCommand Content) (env : DecideEnvironment) : DecisionEvent Content where
  id := env.eventId
  workspaceId := proposal.workspaceId
  actionProposalId := proposal.id
  clientIdempotencyKey := command.idempotencyKey
  eventType := command.decision
  actor := actor
  requestFingerprint := decisionRequestFingerprint command
  decision := command.decision
  proposalVersion := actionProposalVersion proposal
  createdAt := env.transactionAt

section Decide

variable [DecidableEq Content]

def keyReused : DecisionError :=
  .conflict "idempotency key was already used with different decision input"

def replayedResult (proposal : ReviewedProposal Content) (event : DecisionEvent Content)
    (command : DecisionCommand Content) : Except DecisionError (DecisionResult Content) :=
  if event.eventType ≠ command.decision ∨ event.workspaceId ≠ proposal.workspaceId ∨
      event.actionProposalId ≠ proposal.id ∨
      event.requestFingerprint ≠ decisionRequestFingerprint command ∨
      event.decision ≠ command.decision ∨
      proposal.status ∉ expectedStatuses command.decision then .error keyReused
  else if event.proposalVersion ≠ command.proposalVersion then .error keyReused
  else .ok ⟨proposal, event, command.decision, true, event.proposalVersion⟩

def replayDecision (w : DecisionWorld Content) (proposal : ReviewedProposal Content)
    (event : DecisionEvent Content) (command : DecisionCommand Content) :
    Except DecisionFailure (DecisionResult Content × DecisionWorld Content) :=
  match replayedResult proposal event command with
  | .error error => .error (.answered error)
  | .ok result =>
    match decisionActor proposal command.decision with
    | none => .error (.answered (.conflict "persisted proposal decision has no actor"))
    | some actor =>
      match appendDecisionMemoryEvent w proposal actor event.id with
      | .error failure => .error failure
      | .ok w' => .ok (result, w')

def approvalError (proposal : ReviewedProposal Content) (command : DecisionCommand Content)
    (env : DecideEnvironment) : Option DecisionError :=
  match command.decision with
  | .rejected => none
  | .approved =>
    match env.evidenceError with
    | some detail => some (.conflict detail)
    | none =>
      if (proposal.createdBy = .ai ∨ proposal.createdBy = .system) ∧
          command.expectedSnapshotId = none then
        some (.conflict "AI and system proposals require an exact headquarters snapshot")
      else none

def headquartersError (command : DecisionCommand Content) (env : DecideEnvironment) :
    Option DecisionError :=
  match command.expectedSnapshotId with
  | none => none
  | some _ => env.headquartersError

def freshDecisionError (proposal : ReviewedProposal Content) (command : DecisionCommand Content)
    (env : DecideEnvironment) : Option DecisionError :=
  if proposal.status ≠ .proposed then some (.conflict "action proposal is not in proposed status")
  else if actionProposalVersion proposal ≠ command.proposalVersion then
    some (.conflict "action proposal version changed")
  else (approvalError proposal command env).or (headquartersError command env)

def recordDecision (w : DecisionWorld Content) (proposal : ReviewedProposal Content)
    (actor : UserId) (command : DecisionCommand Content) (env : DecideEnvironment) :
    Except DecisionFailure (DecisionResult Content × DecisionWorld Content) :=
  match freshDecisionError proposal command env with
  | some error => .error (.answered error)
  | none =>
    let decided := applyDecision proposal actor command env
    let event := decisionEvent proposal actor command env
    let written :=
      { w with
        proposals := Function.update w.proposals proposal.id (some decided)
        events := w.events ++ [event] }
    match appendDecisionMemoryEvent written decided actor event.id with
    | .error failure => .error failure
    | .ok w' => .ok (⟨decided, event, command.decision, false, event.proposalVersion⟩, w')

def decideActionProposal (w : DecisionWorld Content) (workspace : WorkspaceId) (id : ProposalId)
    (actor : UserId) (command : DecisionCommand Content) (env : DecideEnvironment) :
    Except DecisionFailure (DecisionResult Content × DecisionWorld Content) :=
  match currentAdminError w workspace actor with
  | some error => .error (.answered error)
  | none =>
    match w.getProposal workspace id with
    | none => .error (.answered (.notFound "action proposal not found"))
    | some proposal =>
      match w.eventByIdempotencyKey workspace id command.idempotencyKey with
      | some event => replayDecision w proposal event command
      | none => recordDecision w proposal actor command env

structure BulkItem (Content : Type) where
  proposalId : ProposalId
  idempotencyKey : String
  proposalVersion : ProposalVersion Content
  expectedSnapshotId : Option String
  env : DecideEnvironment

def BulkItem.command (item : BulkItem Content) (decision : DecisionKind) (reason : Option String) :
    DecisionCommand Content :=
  ⟨decision, item.idempotencyKey, item.proposalVersion, item.expectedSnapshotId, reason, true⟩

/-- `ActionProposalBulkRequest`, which rejects an empty or long list and a repeated proposal. -/
structure BulkRequest (Content : Type) where
  decisions : List (BulkItem Content)
  nonempty : 1 ≤ decisions.length
  bounded : decisions.length ≤ 100
  unique : (decisions.map BulkItem.proposalId).Nodup

structure BulkResponse (Content : Type) where
  results : List (DecisionResult Content)
  failures : List (ProposalId × DecisionError)

/-- The loop of a bulk endpoint, up to its commit; an uncaught exception rolls everything back. -/
def bulkDecide (workspace : WorkspaceId) (actor : UserId) (decision : DecisionKind)
    (reason : Option String) : DecisionWorld Content → List (BulkItem Content) →
    Except String (BulkResponse Content × DecisionWorld Content)
  | w, [] => .ok (⟨[], []⟩, w)
  | w, item :: rest =>
    match decideActionProposal w workspace item.proposalId actor (item.command decision reason)
        item.env with
    | .ok (result, w') =>
      (bulkDecide workspace actor decision reason w' rest).map (fun answer =>
        ({ answer.1 with results := result :: answer.1.results }, answer.2))
    | .error (.answered error) =>
      (bulkDecide workspace actor decision reason w rest).map (fun answer =>
        ({ answer.1 with failures := (item.proposalId, error) :: answer.1.failures }, answer.2))
    | .error (.uncaught message) => .error message

def bulkApprove (w : DecisionWorld Content) (workspace : WorkspaceId) (actor : UserId)
    (request : BulkRequest Content) : Except String (BulkResponse Content × DecisionWorld Content) :=
  bulkDecide workspace actor .approved none w request.decisions

def bulkReject (w : DecisionWorld Content) (workspace : WorkspaceId) (actor : UserId)
    (request : BulkRequest Content) (reason : Option String) :
    Except String (BulkResponse Content × DecisionWorld Content) :=
  bulkDecide workspace actor .rejected reason w request.decisions

inductive DecisionAction (Content : Type) where
  | create (proposal : ReviewedProposal Content)
  | decide (workspace : WorkspaceId) (id : ProposalId) (actor : UserId)
      (command : DecisionCommand Content) (env : DecideEnvironment)
  | bulkApprove (workspace : WorkspaceId) (actor : UserId) (request : BulkRequest Content)
  | bulkReject (workspace : WorkspaceId) (actor : UserId) (request : BulkRequest Content)
      (reason : Option String)
  | execution (id : ProposalId) (status : ProposalStatus) (now : Instant)
  | setMember (workspace : WorkspaceId) (user : UserId) (member : Option Member)

def Reviewable (proposal : ReviewedProposal Content) : Prop :=
  proposal.status = .proposed ∧ proposal.approvedByUserId = none ∧ proposal.rejectedByUserId = none

instance (proposal : ReviewedProposal Content) : Decidable (Reviewable proposal) := by
  unfold Reviewable; infer_instance

def executionStatus (status : ProposalStatus) : Bool :=
  match status with
  | .approved | .executed => true
  | .proposed | .rejected | .failed => false

def committed (w : DecisionWorld Content) {α ε : Type}
    (answer : Except ε (α × DecisionWorld Content)) : DecisionWorld Content :=
  match answer with
  | .ok (_, w') => w'
  | .error _ => w

def decisionStep (w : DecisionWorld Content) : DecisionAction Content → Option (DecisionWorld Content)
  | .create proposal =>
    if Reviewable proposal ∧ w.proposals proposal.id = none then
      some { w with proposals := Function.update w.proposals proposal.id (some proposal) }
    else none
  | .decide workspace id actor command env =>
    some (committed w (decideActionProposal w workspace id actor command env))
  | .bulkApprove workspace actor request => some (committed w (bulkApprove w workspace actor request))
  | .bulkReject workspace actor request reason =>
    some (committed w (bulkReject w workspace actor request reason))
  | .execution id status now =>
    match w.proposals id with
    | none => none
    | some p =>
      if executionStatus p.status ∧ executionStatus status then
        some { w with proposals := Function.update w.proposals id (some (p.moved status now)) }
      else none
  | .setMember workspace user member =>
    some { w with members := fun ws u => if ws = workspace ∧ u = user then member else w.members ws u }

end Decide

structure Undecided (w : DecisionWorld Content) : Prop where
  keyed : ∀ id p, w.proposals id = some p → p.id = id
  events : w.events = []
  memory : w.memory = []

end FounderOs.Decision
