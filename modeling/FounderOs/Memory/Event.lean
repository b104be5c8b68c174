import FounderOs.Execution.Model
import FounderOs.Foundation.Text

namespace FounderOs.Memory

open Execution (Instant UserId WorkspaceId)

/-- The canonical text of a UUID. -/
abbrev RowId := String

inductive LifecycleState where
  | created | resolved
  deriving DecidableEq, Repr

inductive EventType where
  | actionProposalCreated | actionProposalApproved | actionProposalRejected
  | companyWorldConfirmed | companyWorldDismissed
  | sourceRecordDisappeared | sourceRecordRestored
  deriving DecidableEq, Repr

inductive SubjectType where
  | actionProposal | externalPersonCandidate | organizationCandidate | sourceRecord
  deriving DecidableEq, Repr

inductive ReferenceType where
  | actionExecutionEvent | actionProposal | companyWorldResolution | sourceRecord | syncJob
  deriving DecidableEq, Repr

structure EvidenceRef where
  referenceType : ReferenceType
  referenceId : RowId
  deriving DecidableEq, Repr

def companyMemoryEventEvidenceLimit : Nat := 4

def companyMemoryEventSourceKeys : List String := ["github", "jira", "gmail", "drive", "internal"]

def eventRules : EventType → LifecycleState × List SubjectType
  | .actionProposalCreated => (.created, [.actionProposal])
  | .actionProposalApproved => (.resolved, [.actionProposal])
  | .actionProposalRejected => (.resolved, [.actionProposal])
  | .companyWorldConfirmed => (.resolved, [.externalPersonCandidate, .organizationCandidate])
  | .companyWorldDismissed => (.resolved, [.externalPersonCandidate, .organizationCandidate])
  | .sourceRecordDisappeared => (.resolved, [.sourceRecord])
  | .sourceRecordRestored => (.created, [.sourceRecord])

/-- What `idempotency_key` digests: the event type, the rows the event is about, the workspace. -/
structure IdempotencyKey where
  eventType : EventType
  rows : List RowId
  workspaceId : WorkspaceId
  deriving DecidableEq, Repr

structure AppendRequest where
  workspaceId : WorkspaceId
  eventType : EventType
  subjectType : SubjectType
  subjectKey : String
  subjectId : RowId
  sourceKey : String
  actorUserId : Option UserId
  primarySourceRecordId : Option RowId
  evidenceRefs : List EvidenceRef
  occurredAt : Option Instant
  idempotencyMaterial : IdempotencyKey
  deriving DecidableEq, Repr

/-- What `payload_fingerprint` digests, its constants left out. -/
structure PayloadFingerprint where
  actorUserId : Option UserId
  eventType : EventType
  evidenceRefs : List EvidenceRef
  lifecycleState : LifecycleState
  occurredAt : Instant
  primarySourceRecordId : Option RowId
  sourceKey : String
  subjectId : RowId
  subjectKey : String
  subjectType : SubjectType
  workspaceId : WorkspaceId
  deriving DecidableEq, Repr

structure Entry where
  idempotencyKey : IdempotencyKey
  payloadFingerprint : PayloadFingerprint
  deriving DecidableEq, Repr

def validatedEvidenceRefs (refs : List EvidenceRef) : Except String (List EvidenceRef) :=
  if refs = [] ∨ companyMemoryEventEvidenceLimit < refs.length then
    .error "company memory event requires bounded evidence refs"
  else .ok refs.eraseDups

def isHexDigit (c : Char) : Bool := "0123456789abcdef".toList.contains c

def subjectKey (subjectType : SubjectType) (key : String) (subjectId : RowId) :
    Except String String :=
  let normalized := Text.lower (Text.strip key)
  match subjectType with
  | .actionProposal | .sourceRecord =>
    if normalized ≠ subjectId then .error "company memory subject identity is inconsistent"
    else .ok normalized
  | .externalPersonCandidate | .organizationCandidate =>
    if normalized.length ≠ 64 ∨ ¬normalized.toList.all isHexDigit then
      .error "company world memory subject key must be a version hash"
    else .ok normalized

def utcDatetime : Option Instant → Except String Instant
  | none => .error "company memory event occurred_at is required"
  | some value => .ok value

/-- The checks `append_company_memory_event` makes before its first statement. -/
def validatedEntry (request : AppendRequest) : Except String Entry :=
  let (lifecycleState, allowedSubjectTypes) := eventRules request.eventType
  if request.subjectType ∉ allowedSubjectTypes then
    .error "company memory subject type does not match event type"
  else if request.sourceKey ∉ companyMemoryEventSourceKeys then
    .error "unsupported company memory source key"
  else do
    let normalizedSubjectKey ← subjectKey request.subjectType request.subjectKey request.subjectId
    let normalizedEvidence ← validatedEvidenceRefs request.evidenceRefs
    let normalizedOccurredAt ← utcDatetime request.occurredAt
    return {
      idempotencyKey := request.idempotencyMaterial
      payloadFingerprint := {
        actorUserId := request.actorUserId
        eventType := request.eventType
        evidenceRefs := normalizedEvidence
        lifecycleState := lifecycleState
        occurredAt := normalizedOccurredAt
        primarySourceRecordId := request.primarySourceRecordId
        sourceKey := request.sourceKey
        subjectId := request.subjectId
        subjectKey := normalizedSubjectKey
        subjectType := request.subjectType
        workspaceId := request.workspaceId } }

def sourceRecordLifecycleRequest (workspaceId : WorkspaceId) (sourceRecordId : RowId)
    (provider : String) (syncJobId : RowId) (eventType : EventType) (occurredAt : Instant) :
    Except String AppendRequest :=
  if eventType ≠ .sourceRecordDisappeared ∧ eventType ≠ .sourceRecordRestored then
    .error "unsupported source record lifecycle event"
  else .ok {
    workspaceId := workspaceId
    eventType := eventType
    subjectType := .sourceRecord
    subjectKey := sourceRecordId
    subjectId := sourceRecordId
    sourceKey := provider
    actorUserId := none
    primarySourceRecordId := some sourceRecordId
    evidenceRefs := [⟨.sourceRecord, sourceRecordId⟩, ⟨.syncJob, syncJobId⟩]
    occurredAt := some occurredAt
    idempotencyMaterial := ⟨eventType, [sourceRecordId, syncJobId], workspaceId⟩ }

/-- A row of `company_memory_events`. -/
structure Event where
  workspaceSequence : Nat
  entry : Entry
  observedAt : Instant
  deriving DecidableEq, Repr

def Event.key (event : Event) : IdempotencyKey := event.entry.idempotencyKey

def Event.fingerprint (event : Event) : PayloadFingerprint := event.entry.payloadFingerprint

theorem validated_lifecycle {request : AppendRequest} {entry : Entry}
    (h : validatedEntry request = .ok entry) :
    (eventRules entry.payloadFingerprint.eventType).1 = entry.payloadFingerprint.lifecycleState ∧
      entry.payloadFingerprint.subjectType ∈
        (eventRules entry.payloadFingerprint.eventType).2 := by
  simp only [validatedEntry] at h
  split at h
  · cases h
  split at h
  · cases h
  rename_i hsubject _
  cases hkey : subjectKey request.subjectType request.subjectKey request.subjectId with
  | error message => simp [hkey, bind, Except.bind] at h
  | ok key =>
    cases hevidence : validatedEvidenceRefs request.evidenceRefs with
    | error message => simp [hkey, hevidence, bind, Except.bind] at h
    | ok evidence =>
      cases hoccurred : utcDatetime request.occurredAt with
      | error message => simp [hkey, hevidence, hoccurred, bind, Except.bind] at h
      | ok occurred =>
        simp only [hkey, hevidence, hoccurred, bind, Except.bind, pure, Except.pure,
          Except.ok.injEq] at h
        subst h
        exact ⟨rfl, not_not.1 hsubject⟩

end FounderOs.Memory
