import FounderOs.Execution.Model
import FounderOs.Foundation.Text
import Mathlib.Data.List.Sort

namespace FounderOs.Receipt

open Text Execution

inductive EventType where
  | proposalApproved | proposalRejected
  | previewGenerated | previewBlocked | unsupported
  | confirmationMissing | confirmationReceivedButDisabled | blocked | repositoryNotAllowed
  | confirmationReceived | claimed | started
  | succeeded | failed | outcomeUncertain | duplicateReturnedExistingReceipt
  | resultSyncStarted | reconciliationPending | outcomeReconciled | writeNotObserved
  | resultSynced | resultSyncFailed
  deriving DecidableEq, Repr

namespace EventType

def name : EventType → String
  | proposalApproved => "action_proposal_approved_locally"
  | proposalRejected => "action_proposal_rejected_locally"
  | previewGenerated => "execution_preview_generated"
  | previewBlocked => "execution_preview_blocked"
  | unsupported => "execution_unsupported"
  | confirmationMissing => "execution_confirmation_missing"
  | confirmationReceivedButDisabled => "execution_confirmation_received_but_disabled"
  | blocked => "execution_blocked"
  | repositoryNotAllowed => "execution_repository_not_allowed"
  | confirmationReceived => "execution_confirmation_received"
  | claimed => "execution_claimed"
  | started => "execution_started"
  | succeeded => "execution_succeeded"
  | failed => "execution_failed"
  | outcomeUncertain => "execution_outcome_uncertain"
  | duplicateReturnedExistingReceipt => "execution_duplicate_returned_existing_receipt"
  | resultSyncStarted => "execution_result_sync_started"
  | reconciliationPending => "execution_reconciliation_pending"
  | outcomeReconciled => "execution_outcome_reconciled"
  | writeNotObserved => "execution_write_not_observed"
  | resultSynced => "execution_result_synced"
  | resultSyncFailed => "execution_result_sync_failed"

def eventOrderCase : EventType → Nat
  | proposalApproved => 1
  | proposalRejected => 2
  | previewGenerated => 10
  | previewBlocked => 11
  | unsupported => 12
  | confirmationMissing => 20
  | confirmationReceivedButDisabled => 21
  | blocked => 22
  | repositoryNotAllowed => 23
  | confirmationReceived => 30
  | claimed => 35
  | started => 40
  | succeeded => 50
  | failed => 51
  | outcomeUncertain => 52
  | duplicateReturnedExistingReceipt => 60
  | resultSyncStarted => 70
  | reconciliationPending | outcomeReconciled | writeNotObserved => 71
  | resultSynced => 72
  | resultSyncFailed => 73

def isResultSync (t : EventType) : Bool :=
  "execution_result_sync_".toList.isPrefixOf t.name.toList

/-- The kinds whose events the code appends with an error code or message. -/
def recordsError : EventType → Bool
  | previewBlocked | unsupported | confirmationMissing | confirmationReceivedButDisabled | blocked
  | repositoryNotAllowed | failed | outcomeUncertain | writeNotObserved | resultSyncFailed => true
  | _ => false

def recordsResult : EventType → Bool
  | succeeded | duplicateReturnedExistingReceipt | outcomeReconciled => true
  | _ => false

def recordsSuccess : EventType → Bool
  | succeeded | outcomeReconciled => true
  | _ => false

end EventType

inductive EventKey where
  | executionEvent (workspaceId : WorkspaceId) (proposalId : ProposalId) (eventType : EventType)
      (externalExecutionEnabled confirmationReceived : Bool) (previewHash : Option Nat)
      (reason : Option String)
  | localDecision (workspaceId : WorkspaceId) (proposalId : ProposalId)
      (clientIdempotencyKey : String)
  deriving DecidableEq, Repr

structure ExecutionEvent where
  id : Nat
  workspaceId : WorkspaceId
  actionProposalId : ProposalId
  eventType : EventType
  idempotencyKey : EventKey
  provider : TargetProvider
  action : ActionType
  externalExecutionEnabled : Bool
  confirmationReceived : Bool
  externalResultId : Option String
  externalResultUrl : Option String
  errorCode : Option String
  errorMessage : Option String
  createdAt : Instant
  deriving DecidableEq, Repr

/-- `_error_code_from_detail`; every detail the code raises is ASCII. -/
def errorCodeFromDetail (detail : String) : String :=
  let safe := ((strip detail).toList.map Char.toLower).map (fun c => if c.isAlphanum then c else '_')
  let parts := (safe.splitOn '_').filter (fun part => !part.isEmpty)
  let code := clip (String.ofList (['_'].intercalate parts)) 120
  if code = "" then "blocked" else code

def containsText (part : String) (text : String) : Bool :=
  text.toList.tails.any (fun rest => part.toList.isPrefixOf rest)

def auditErrorCode (message : String) : String :=
  if containsText "secret-like key" (String.ofList ((strip message).toList.map Char.toLower)) then
    "payload_contains_secret_like_key"
  else errorCodeFromDetail message

inductive PreviewStatus where
  | notApproved
  | unsupported
  | blocked (detail : String)
  | previewReady
  deriving DecidableEq, Repr

section Preview

variable {Content : Type}

def executionPreviewStatus (proposal : ActionProposal Content) (payloadError : Option String) :
    PreviewStatus :=
  if proposal.status ≠ .approved then .notApproved
  else if proposal.targetProvider ≠ .github ∨ proposal.actionType ≠ .createGithubIssue then
    .unsupported
  else match payloadError with
    | some detail => .blocked detail
    | none => .previewReady

def PreviewStatus.message (liveGithubExecutionEnabled : Bool) : PreviewStatus → String
  | .notApproved => "action proposal is not approved"
  | .unsupported => "unsupported action proposal"
  | .blocked detail => detail
  | .previewReady =>
    if liveGithubExecutionEnabled then
      "Preview ready. Live GitHub write requires explicit confirmation."
    else "Preview ready. External execution is disabled in this environment."

def PreviewStatus.eventType : PreviewStatus → EventType
  | .previewReady => .previewGenerated
  | .unsupported => .unsupported
  | .notApproved | .blocked _ => .previewBlocked

end Preview

/-- A value of the provider's JSON answer; `other` stands for null, numbers with a fraction, arrays
and objects. -/
inductive ProviderValue where
  | text (value : String)
  | int (value : Int)
  | bool (value : Bool)
  | other
  deriving DecidableEq, Repr

structure ProviderResponse where
  id : ProviderValue
  nodeId : ProviderValue
  number : ProviderValue
  htmlUrl : ProviderValue
  url : ProviderValue
  deriving DecidableEq, Repr

def ProviderValue.sanitize : ProviderValue → ProviderValue
  | .text value => .text (clip value 1000)
  | value => value

def sanitizeGithubIssueResponse (response : ProviderResponse) : ProviderResponse where
  id := response.id.sanitize
  nodeId := response.nodeId.sanitize
  number := response.number.sanitize
  htmlUrl := response.htmlUrl.sanitize
  url := response.url.sanitize

def ProviderValue.scalarText (limit : Nat) : ProviderValue → Option String
  | .text value => optionalText (some value) limit
  | .int value => some (toString value)
  | .bool value => some (if value then "True" else "False")
  | .other => none

def externalResultIdFromResponse (response : ProviderResponse) : Option String :=
  [response.number, response.id, response.nodeId].findSome? (ProviderValue.scalarText 255)

def ProviderValue.plainText (limit : Nat) : ProviderValue → Option String
  | .text value => optionalText (some value) limit
  | _ => none

def externalResultUrlFromResponse (response : ProviderResponse) : Option String :=
  [response.htmlUrl, response.url].findSome? (ProviderValue.plainText 1000)

def safeUrl (value : ProviderValue) : Option String :=
  (value.scalarText 1000).filter (fun text =>
    ("http://".toList.isPrefixOf text.toList || "https://".toList.isPrefixOf text.toList) &&
      !text.toList.contains '@')

inductive FailureCause where
  | tokenUnavailable
  | proposalEvidenceInvalid (detail : String)
  deriving DecidableEq, Repr

inductive SyncFailure where
  | tokenUnavailable | providerReadFailed
  deriving DecidableEq, Repr

/-- What the endpoints and the services under them append for one proposal. -/
inductive ApiEvent where
  | decided (decision : DecisionKind) (clientIdempotencyKey : String)
  | previewed (payloadError : Option String) (liveGithubExecutionEnabled : Bool) (previewHash : Nat)
  | confirmationMissing (liveGithubExecutionEnabled : Bool)
  | writeActionsDisabled
  | realConnectorsDisabled
  | executionBlocked (detail : String)
  | confirmationReceived (execution : ExecutionId)
  | claimed (execution : ExecutionId)
  | started (execution : ExecutionId)
  | failed (execution : ExecutionId) (cause : FailureCause)
  | outcomeUncertain (execution : ExecutionId)
  | succeeded (execution : ExecutionId) (response : ProviderResponse)
  | duplicateReturned (execution : ExecutionId) (actor : UserId) (response : ProviderResponse)
  | syncStarted (execution : ExecutionId) (issueNumber : Option IssueNumber)
  | reconciliationPending (execution : ExecutionId)
  | outcomeReconciled (execution : ExecutionId) (issueNumber : IssueNumber)
      (rawIssue : ProviderResponse)
  | writeNotObserved (execution : ExecutionId) (providerRequestNotStarted : Bool)
  | resultSynced (execution : ExecutionId) (issueNumber : IssueNumber)
      (sourceUpdatedAt : Option String)
  | syncFailed (execution : ExecutionId) (issueNumber : Option IssueNumber) (failure : SyncFailure)
  deriving DecidableEq, Repr

/-- The arguments of one `append_execution_event` call. -/
structure EventInput where
  workspaceId : WorkspaceId
  actionProposalId : ProposalId
  eventType : EventType
  idempotencyKey : EventKey
  provider : TargetProvider
  action : ActionType
  externalExecutionEnabled : Bool
  confirmationReceived : Bool
  externalResultId : Option String
  externalResultUrl : Option String
  errorCode : Option String
  errorMessage : Option String
  deriving DecidableEq, Repr

namespace ApiEvent

variable {Content : Type}

def input (proposal : ActionProposal Content) (eventType : EventType)
    (enabled confirmed : Bool) (previewHash : Option Nat) (reason : Option String)
    (result : Option String × Option String) (error : Option String × Option String) :
    EventInput where
  workspaceId := proposal.workspaceId
  actionProposalId := proposal.id
  eventType := eventType
  idempotencyKey :=
    .executionEvent proposal.workspaceId proposal.id eventType enabled confirmed previewHash reason
  provider := proposal.targetProvider
  action := proposal.actionType
  externalExecutionEnabled := enabled
  confirmationReceived := confirmed
  externalResultId := result.1
  externalResultUrl := result.2
  errorCode := error.1
  errorMessage := error.2

def executeBlock (proposal : ActionProposal Content) (eventType : EventType)
    (confirmed enabled : Bool) (errorCode errorMessage : String) : EventInput :=
  input proposal eventType enabled confirmed none (some errorCode) (none, none)
    (some errorCode, some errorMessage)

def execution (proposal : ActionProposal Content) (eventType : EventType) (reason : String)
    (result error : Option String × Option String) : EventInput :=
  input proposal eventType true true none (some reason) result error

def sync (proposal : ActionProposal Content) (eventType : EventType) (reason : String)
    (result error : Option String × Option String) : EventInput :=
  input proposal eventType false true none (some reason) result error

def preview (proposal : ActionProposal Content) (status : PreviewStatus) (enabled : Bool)
    (previewHash : Nat) : EventInput :=
  input proposal status.eventType enabled false (some previewHash) none (none, none)
    (if status = .previewReady then (none, none)
      else (some (auditErrorCode (status.message enabled)), some (status.message enabled)))

def blockedEventType (detail : String) : EventType :=
  if detail = "github write allowed repos are not configured" ∨
      detail = "github repository is not allowed for live execution" then .repositoryNotAllowed
  else .blocked

def issueText (issueNumber : Option IssueNumber) : String :=
  (issueNumber.map toString).getD "None"

def toInput (proposal : ActionProposal Content) : ApiEvent → EventInput
  | .decided decision key =>
    let eventType := match decision with
      | .approved => .proposalApproved
      | .rejected => .proposalRejected
    { input proposal eventType false false none none (none, none) (none, none) with
      idempotencyKey := .localDecision proposal.workspaceId proposal.id key }
  | .previewed payloadError enabled hash =>
    preview proposal (executionPreviewStatus proposal payloadError) enabled hash
  | .confirmationMissing enabled =>
    executeBlock proposal .confirmationMissing false enabled "confirmation_missing"
      "confirm_external_write must be true"
  | .writeActionsDisabled =>
    executeBlock proposal .confirmationReceivedButDisabled true false
      "external_execution_disabled" "external execution is disabled"
  | .realConnectorsDisabled =>
    executeBlock proposal .confirmationReceivedButDisabled true false "real_connectors_disabled"
      "real provider connectors are disabled"
  | .executionBlocked detail =>
    execution proposal (blockedEventType detail) (errorCodeFromDetail detail) (none, none)
      (some (errorCodeFromDetail detail), some detail)
  | .confirmationReceived x =>
    execution proposal .confirmationReceived (toString x ++ ":confirmation_received") (none, none)
      (none, none)
  | .claimed x => execution proposal .claimed (toString x) (none, none) (none, none)
  | .started x => execution proposal .started (toString x) (none, none) (none, none)
  | .failed x .tokenUnavailable =>
    execution proposal .failed (toString x) (none, none)
      (some "token_unavailable", some "github token could not be decrypted")
  | .failed x (.proposalEvidenceInvalid detail) =>
    execution proposal .failed (toString x) (none, none)
      (some "proposal_evidence_invalid", some detail)
  | .outcomeUncertain x =>
    execution proposal .outcomeUncertain (toString x) (none, none)
      (some "provider_outcome_uncertain",
        some "github issue outcome is uncertain; reconcile before retrying")
  | .succeeded x response =>
    let sanitized := sanitizeGithubIssueResponse response
    execution proposal .succeeded (toString x)
      (externalResultIdFromResponse sanitized, externalResultUrlFromResponse sanitized) (none, none)
  | .duplicateReturned x actor response =>
    let sanitized := sanitizeGithubIssueResponse response
    execution proposal .duplicateReturnedExistingReceipt
      (toString x ++ ":" ++ toString actor ++ ":duplicate_successful_receipt")
      (externalResultIdFromResponse sanitized, externalResultUrlFromResponse sanitized) (none, none)
  | .syncStarted x n =>
    sync proposal .resultSyncStarted
      (toString x ++ ":" ++ (n.map toString).getD "marker" ++ ":started") (none, none) (none, none)
  | .reconciliationPending x =>
    sync proposal .reconciliationPending (toString x ++ ":absence_grace_period") (none, none)
      (none, none)
  | .outcomeReconciled x n rawIssue =>
    sync proposal .outcomeReconciled (toString x ++ ":" ++ toString n ++ ":reconciled")
      (some (toString n), safeUrl rawIssue.htmlUrl) (none, none)
  | .writeNotObserved x notStarted =>
    let reason := if notStarted then "provider_request_not_started" else "complete_provider_snapshot"
    let message :=
      if notStarted then "provider request did not start after the durable execution claim"
      else "no GitHub issue matched the execution marker in a complete snapshot"
    sync proposal .writeNotObserved (toString x ++ ":" ++ reason ++ ":not_observed") (none, none)
      (some "provider_write_not_observed", some message)
  | .resultSynced x n sourceUpdatedAt =>
    sync proposal .resultSynced
      (toString x ++ ":" ++ toString n ++ ":" ++ sourceUpdatedAt.getD "None" ++ ":synced")
      (none, none) (none, none)
  | .syncFailed x n .tokenUnavailable =>
    sync proposal .resultSyncFailed (toString x ++ ":" ++ issueText n ++ ":token_unavailable")
      (none, none) (some "token_unavailable", some "github token could not be decrypted")
  | .syncFailed x n .providerReadFailed =>
    sync proposal .resultSyncFailed (toString x ++ ":" ++ issueText n ++ ":provider_read_failed")
      (none, none) (some "provider_read_failed", some "github issue read failed")

end ApiEvent

end FounderOs.Receipt
