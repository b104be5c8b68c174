import FounderOs.Receipt.Events

namespace FounderOs.Receipt

open Text Execution

/-- What appending through the API guarantees of a stored event. -/
structure Recorded (e : ExecutionEvent) : Prop where
  error : (truthy e.errorCode || truthy e.errorMessage) = e.eventType.recordsError
  result : e.eventType.recordsResult = false →
    (truthy e.externalResultId || truthy e.externalResultUrl) = false

/-- `action_execution_events`; every row was appended by `append_execution_event`. -/
structure AuditLog where
  events : List ExecutionEvent
  recorded : ∀ e ∈ events, Recorded e

def storedEvent (input : EventInput) (id : Nat) (createdAt : Instant) : ExecutionEvent where
  id := id
  workspaceId := input.workspaceId
  actionProposalId := input.actionProposalId
  eventType := input.eventType
  idempotencyKey := input.idempotencyKey
  provider := input.provider
  action := input.action
  externalExecutionEnabled := input.externalExecutionEnabled
  confirmationReceived := input.confirmationReceived
  externalResultId := optionalText input.externalResultId 255
  externalResultUrl := optionalText input.externalResultUrl 1000
  errorCode := optionalText input.errorCode 120
  errorMessage := optionalText input.errorMessage 500
  createdAt := createdAt

theorem errorCodeFromDetail_ne_empty (detail : String) : errorCodeFromDetail detail ≠ "" := by
  unfold errorCodeFromDetail
  dsimp only
  split
  · decide
  · assumption

theorem errorCodeFromDetail_chars (detail : String) :
    ∀ c ∈ (errorCodeFromDetail detail).toList, isSpace c = false := by
  have hsafe : ∀ c ∈ ((strip detail).toList.map Char.toLower).map
      (fun c => if c.isAlphanum then c else '_'), isSpace c = false := by
    intro c hc
    obtain ⟨d, _, rfl⟩ := List.mem_map.mp hc
    split
    · rename_i hd
      exact isSpace_of_alphanum hd
    · decide
  have hparts := forall_splitOn hsafe '_'
  unfold errorCodeFromDetail
  dsimp only
  split
  · exact not_space_of_all (by decide)
  · intro c hc
    rw [clip, String.toList_ofList, String.toList_ofList] at hc
    refine forall_intercalate (P := fun c => isSpace c = false) (by decide) ?_ c
      (List.mem_of_mem_take hc)
    exact fun part hpart => hparts part (List.mem_of_mem_filter hpart)

theorem strip_errorCodeFromDetail (detail : String) : strip (errorCodeFromDetail detail) ≠ "" :=
  strip_ne_empty (errorCodeFromDetail_ne_empty detail) (errorCodeFromDetail_chars detail)

theorem strip_auditErrorCode (message : String) : strip (auditErrorCode message) ≠ "" := by
  unfold auditErrorCode
  split
  · decide
  · exact strip_errorCodeFromDetail message

theorem recorded_of_code {input : EventInput} {id : Nat} {createdAt : Instant} {code : String}
    (hcode : input.errorCode = some code) (hs : strip code ≠ "")
    (ht : input.eventType.recordsError = true)
    (hr : (input.externalResultId, input.externalResultUrl) = (none, none)) :
    Recorded (storedEvent input id createdAt) := by
  have htruthy : truthy (optionalText input.errorCode 120) = true :=
    (truthy_optionalText (by decide)).mpr ⟨code, hcode, hs⟩
  simp only [Prod.mk.injEq] at hr
  refine ⟨?_, fun _ => ?_⟩
  · simp [storedEvent, htruthy, ht]
  · simp [storedEvent, hr, optionalText]

theorem recorded_of_no_error {input : EventInput} {id : Nat} {createdAt : Instant}
    (hcode : (input.errorCode, input.errorMessage) = (none, none))
    (ht : input.eventType.recordsError = false)
    (hr : input.eventType.recordsResult = true ∨
      (input.externalResultId, input.externalResultUrl) = (none, none)) :
    Recorded (storedEvent input id createdAt) := by
  simp only [Prod.mk.injEq] at hcode hr
  refine ⟨?_, fun hn => ?_⟩
  · simp [storedEvent, hcode, optionalText, ht]
  · rcases hr with hr | hr
    · exact absurd hr (by simpa [storedEvent] using hn)
    · simp [storedEvent, hr, optionalText]

theorem blockedEventType_recordsError (detail : String) :
    (ApiEvent.blockedEventType detail).recordsError = true := by
  unfold ApiEvent.blockedEventType
  split <;> rfl

variable {Content : Type}

theorem recorded_preview (p : ActionProposal Content) (status : PreviewStatus) (enabled : Bool)
    (hash id : Nat) (createdAt : Instant) :
    Recorded (storedEvent (ApiEvent.preview p status enabled hash) id createdAt) := by
  cases status with
  | previewReady => exact recorded_of_no_error rfl rfl (.inr rfl)
  | notApproved => exact recorded_of_code rfl (strip_auditErrorCode _) rfl rfl
  | unsupported => exact recorded_of_code rfl (strip_auditErrorCode _) rfl rfl
  | blocked detail => exact recorded_of_code rfl (strip_auditErrorCode _) rfl rfl

theorem recorded_toInput (p : ActionProposal Content) (event : ApiEvent) (id : Nat)
    (createdAt : Instant) : Recorded (storedEvent (event.toInput p) id createdAt) := by
  cases event with
  | decided decision key => cases decision <;> exact recorded_of_no_error rfl rfl (.inr rfl)
  | previewed payloadError enabled hash => exact recorded_preview ..
  | confirmationMissing enabled => exact recorded_of_code rfl (by decide) rfl rfl
  | writeActionsDisabled => exact recorded_of_code rfl (by decide) rfl rfl
  | realConnectorsDisabled => exact recorded_of_code rfl (by decide) rfl rfl
  | executionBlocked detail =>
    exact recorded_of_code rfl (strip_errorCodeFromDetail detail)
      (blockedEventType_recordsError detail) rfl
  | failed x cause => cases cause <;> exact recorded_of_code rfl (by decide) rfl rfl
  | outcomeUncertain x => exact recorded_of_code rfl (by decide) rfl rfl
  | writeNotObserved x notStarted => exact recorded_of_code rfl (by decide) rfl rfl
  | syncFailed x n failure => cases failure <;> exact recorded_of_code rfl (by decide) rfl rfl
  | succeeded | duplicateReturned | outcomeReconciled => exact recorded_of_no_error rfl rfl (.inl rfl)
  | confirmationReceived | claimed | started | syncStarted | reconciliationPending | resultSynced =>
    exact recorded_of_no_error rfl rfl (.inr rfl)

structure Append (Content : Type) where
  proposal : ActionProposal Content
  event : ApiEvent
  id : Nat
  createdAt : Instant

def AuditLog.empty : AuditLog := ⟨[], by simp⟩

/-- A known idempotency key returns the stored event; a taken primary key raises. -/
def appendExecutionEvent (log : AuditLog) (a : Append Content) : AuditLog :=
  if log.events.any (fun e => e.idempotencyKey = (a.event.toInput a.proposal).idempotencyKey ∨
      e.id = a.id) then log
  else ⟨log.events ++ [storedEvent (a.event.toInput a.proposal) a.id a.createdAt], by
    intro e he
    rcases List.mem_append.mp he with he | he
    · exact log.recorded e he
    · exact List.mem_singleton.mp he ▸ recorded_toInput a.proposal a.event a.id a.createdAt⟩

def auditLogOf (history : List (Append Content)) : AuditLog :=
  history.foldl appendExecutionEvent .empty

def listedBefore (a b : ExecutionEvent) : Prop :=
  a.createdAt < b.createdAt ∨ a.createdAt = b.createdAt ∧
    (a.eventType.eventOrderCase < b.eventType.eventOrderCase ∨
      a.eventType.eventOrderCase = b.eventType.eventOrderCase ∧ a.id ≤ b.id)

instance : DecidableRel listedBefore := fun a b => by unfold listedBefore; infer_instance

def listExecutionEvents (log : AuditLog) (workspaceId : WorkspaceId) (proposalId : ProposalId) :
    List ExecutionEvent :=
  (log.events.filter (fun e => e.workspaceId = workspaceId ∧ e.actionProposalId = proposalId)
    ).insertionSort listedBefore

structure ReceiptRead where
  provider : Option TargetProvider
  action : Option ActionType
  status : Option String
  externalExecutionEnabled : Bool
  confirmationReceived : Bool
  externalResultId : Option String
  externalResultUrl : Option String
  externalWritePerformed : Bool
  providerResult : String
  errorCode : Option String
  errorMessage : Option String
  createdAt : Option Instant
  deriving DecidableEq, Repr

def ReceiptRead.none : ReceiptRead :=
  ⟨.none, .none, .none, false, false, .none, .none, false, "none", .none, .none, .none⟩

def ExecutionEvent.hasExternalResult (e : ExecutionEvent) : Bool :=
  truthy e.externalResultId || truthy e.externalResultUrl

def ExecutionEvent.hasError (e : ExecutionEvent) : Bool :=
  truthy e.errorCode || truthy e.errorMessage

def ExecutionEvent.bearsReceipt (e : ExecutionEvent) : Bool :=
  !e.eventType.isResultSync && (e.hasExternalResult || e.hasError)

def ExecutionEvent.outcome (e : ExecutionEvent) : String × Option String :=
  if e.eventType = .outcomeUncertain then ("uncertain", some "uncertain")
  else if e.hasExternalResult then ("succeeded", some "succeeded")
  else if e.hasError then ("failed", some "failed")
  else ("none", none)

def ExecutionEvent.receipt (e : ExecutionEvent) : ReceiptRead where
  provider := some e.provider
  action := some e.action
  status := e.outcome.2
  externalExecutionEnabled := e.externalExecutionEnabled
  confirmationReceived := e.confirmationReceived
  externalResultId := e.externalResultId
  externalResultUrl := e.externalResultUrl
  externalWritePerformed := e.hasExternalResult
  providerResult := e.outcome.1
  errorCode := e.errorCode
  errorMessage := e.errorMessage
  createdAt := some e.createdAt

def receiptFromEvents (events : List ExecutionEvent) : ReceiptRead :=
  match events.getLast? with
  | none => .none
  | some latest => ((events.reverse.find? ExecutionEvent.bearsReceipt).getD latest).receipt

/-- A recorded success among the events listed for a proposal. -/
structure SuccessIn (events : List ExecutionEvent) where
  event : ExecutionEvent
  listed : event ∈ events
  success : event.eventType.recordsSuccess = true

structure ReceiptRead.Confirms (receipt : ReceiptRead) (success : ExecutionEvent) : Prop where
  performed : receipt.externalWritePerformed = true
  result : receipt.providerResult = "succeeded"
  status : receipt.status = some "succeeded"
  resultId : receipt.externalResultId = success.externalResultId
  resultUrl : receipt.externalResultUrl = success.externalResultUrl

/-- The event settles what a receipt says: it carries a provider reference, or it is of a kind
appended with an error, result syncs apart. -/
def ExecutionEvent.settles (e : ExecutionEvent) : Bool :=
  if e.eventType.recordsResult then e.hasExternalResult
  else e.eventType.recordsError && !e.eventType.isResultSync

/-- The last event that settles the receipt is a success or a duplicate with the same reference. -/
def LastSettledBy (events : List ExecutionEvent) (success : ExecutionEvent) : Prop :=
  ∃ before e after, events = before ++ e :: after ∧ e.eventType.recordsResult = true ∧
    e.settles = true ∧ e.externalResultId = success.externalResultId ∧
    e.externalResultUrl = success.externalResultUrl ∧ ∀ later ∈ after, later.settles = false

theorem Recorded.bearsReceipt {e : ExecutionEvent} (h : Recorded e) :
    e.bearsReceipt = e.settles := by
  have herror : e.hasError = e.eventType.recordsError := h.error
  have hresult : e.eventType.recordsResult = false → e.hasExternalResult = false := h.result
  unfold ExecutionEvent.bearsReceipt ExecutionEvent.settles
  rw [herror]
  generalize e.hasExternalResult = b at hresult ⊢
  generalize e.eventType = t at hresult ⊢
  cases t <;> first
    | rw [hresult rfl]; rfl
    | cases b <;> rfl

theorem mem_listExecutionEvents {log : AuditLog} {w : WorkspaceId} {p : ProposalId}
    {e : ExecutionEvent} (h : e ∈ listExecutionEvents log w p) : Recorded e := by
  have hmem := (List.mem_insertionSort listedBefore).mp h
  exact log.recorded e (List.mem_of_mem_filter hmem)

theorem find_reverse_iff {α : Type} {p : α → Bool} {l : List α} {x : α} :
    l.reverse.find? p = some x ↔
      ∃ before after, l = before ++ x :: after ∧ p x = true ∧ ∀ y ∈ after, p y = false := by
  rw [List.find?_eq_some_iff_append]
  constructor
  · rintro ⟨hx, as, bs, hl, has⟩
    refine ⟨bs.reverse, as.reverse, ?_, hx, fun y hy => by simpa using has y (List.mem_reverse.mp hy)⟩
    have := congrArg List.reverse hl
    simpa using this
  · rintro ⟨before, after, rfl, hx, hafter⟩
    exact ⟨hx, after.reverse, before.reverse, by simp, fun y hy => by
      simpa using hafter y (List.mem_reverse.mp hy)⟩

theorem ExecutionEvent.receipt_confirms_iff {e success : ExecutionEvent} (h : Recorded e) :
    e.receipt.Confirms success ↔ e.eventType.recordsResult = true ∧ e.settles = true ∧
      e.externalResultId = success.externalResultId ∧
      e.externalResultUrl = success.externalResultUrl := by
  constructor
  · intro hc
    have hperf : e.hasExternalResult = true := hc.performed
    have hrecords : e.eventType.recordsResult = true := by
      by_contra hn
      have := h.result (by simpa using hn)
      exact absurd hperf (by simpa [ExecutionEvent.hasExternalResult] using this)
    refine ⟨hrecords, ?_, hc.resultId, hc.resultUrl⟩
    rw [ExecutionEvent.settles, if_pos hrecords, hperf]
  · rintro ⟨hrecords, hsettles, hid, hurl⟩
    rw [ExecutionEvent.settles, if_pos hrecords] at hsettles
    have hout : e.outcome = ("succeeded", some "succeeded") := by
      have hne : e.eventType ≠ .outcomeUncertain := by
        intro ht
        rw [ht] at hrecords
        cases hrecords
      rw [ExecutionEvent.outcome, if_neg hne, if_pos hsettles]
    exact ⟨hsettles, congrArg Prod.fst hout, congrArg Prod.snd hout, hid, hurl⟩

theorem receiptFromEvents_eq {events : List ExecutionEvent} {e : ExecutionEvent}
    (h : events.reverse.find? ExecutionEvent.bearsReceipt = some e) :
    receiptFromEvents events = e.receipt := by
  cases hl : events.getLast? with
  | none => simp [List.getLast?_eq_none_iff.mp hl] at h
  | some latest => simp [receiptFromEvents, hl, h]

theorem receiptFromEvents_none {events : List ExecutionEvent}
    (h : events.reverse.find? ExecutionEvent.bearsReceipt = none) :
    receiptFromEvents events = .none ∨
      ∃ e ∈ events, e.bearsReceipt = false ∧ receiptFromEvents events = e.receipt := by
  cases hl : events.getLast? with
  | none => exact .inl (by simp [receiptFromEvents, hl])
  | some latest =>
    have hmem : latest ∈ events := List.mem_of_getLast? hl
    refine .inr ⟨latest, hmem, ?_, by simp [receiptFromEvents, hl, h]⟩
    simpa using List.find?_eq_none.mp h latest (List.mem_reverse.mpr hmem)

theorem receipt_agrees_with_write_iff (history : List (Append Content)) (w : WorkspaceId)
    (p : ProposalId) (s : SuccessIn (listExecutionEvents (auditLogOf history) w p)) :
    (receiptFromEvents (listExecutionEvents (auditLogOf history) w p)).Confirms s.event ↔
      LastSettledBy (listExecutionEvents (auditLogOf history) w p) s.event := by
  have hrec : ∀ e ∈ listExecutionEvents (auditLogOf history) w p, Recorded e :=
    fun e he => mem_listExecutionEvents he
  generalize s.event = success
  generalize listExecutionEvents (auditLogOf history) w p = events at hrec
  cases hf : events.reverse.find? ExecutionEvent.bearsReceipt with
  | none =>
    have hnone : ∀ e ∈ events, e.settles = false := by
      intro e he
      rw [← (hrec e he).bearsReceipt]
      simpa using List.find?_eq_none.mp hf e (List.mem_reverse.mpr he)
    constructor
    · intro hc
      rcases receiptFromEvents_none hf with hr | ⟨e, he, _, hr⟩
      · rw [hr] at hc
        cases hc.performed
      · rw [hr, ExecutionEvent.receipt_confirms_iff (hrec e he), hnone e he] at hc
        cases hc.2.1
    · rintro ⟨before, e, after, rfl, _, hsettles, _⟩
      rw [hnone e (by simp)] at hsettles
      cases hsettles
  | some e =>
    obtain ⟨before, after, rfl, hbears, hafter⟩ := find_reverse_iff.mp hf
    rw [receiptFromEvents_eq hf, ExecutionEvent.receipt_confirms_iff (hrec e (by simp))]
    constructor
    · rintro ⟨hrecords, hsettles, hid, hurl⟩
      refine ⟨before, e, after, rfl, hrecords, hsettles, hid, hurl, fun later hlater => ?_⟩
      rw [← (hrec later (by simp [hlater])).bearsReceipt]
      exact hafter later hlater
    · rintro ⟨before', e', after', heq, hrecords, hsettles, hid, hurl, hafter'⟩
      have hf' : (before ++ e :: after).reverse.find? ExecutionEvent.bearsReceipt = some e' := by
        refine find_reverse_iff.mpr ⟨before', after', heq, ?_, fun later hlater => ?_⟩
        · rw [(hrec e' (by simp [heq])).bearsReceipt, hsettles]
        · rw [(hrec later (by simp [heq, hlater])).bearsReceipt, hafter' later hlater]
      rw [hf] at hf'
      cases hf'
      exact ⟨hrecords, hsettles, hid, hurl⟩

def writtenThenPreviewed : List (Append Unit) :=
  [⟨⟨0, 0, .github, .createGithubIssue, (), .executed, 5⟩,
      .succeeded 10 ⟨.int 77, .other, .int 1, .text "https://github.com/o/r/issues/1", .other⟩, 1, 5⟩,
    ⟨⟨0, 0, .github, .createGithubIssue, (), .executed, 5⟩, .previewed none true 0, 2, 6⟩]

/-- Previewing the executed proposal appends a blocked preview, which then makes the receipt. -/
theorem preview_after_success_reads_failed :
    ¬∀ (history : List (Append Unit)) (w : WorkspaceId) (p : ProposalId)
      (s : SuccessIn (listExecutionEvents (auditLogOf history) w p)),
      (receiptFromEvents (listExecutionEvents (auditLogOf history) w p)).Confirms s.event := by
  intro hall
  have hevents : (listExecutionEvents (auditLogOf writtenThenPreviewed) 0 0).any
      (fun e => e.eventType.recordsSuccess) = true := by decide
  obtain ⟨e, he, hsucc⟩ := List.any_eq_true.mp hevents
  have hresult : (receiptFromEvents
      (listExecutionEvents (auditLogOf writtenThenPreviewed) 0 0)).providerResult = "failed" := by
    decide
  have hc := (hall writtenThenPreviewed 0 0 ⟨e, he, hsucc⟩).result
  rw [hresult] at hc
  exact absurd hc (by decide)

end FounderOs.Receipt
