import FounderOs.Decision.Model

namespace FounderOs.Decision

open Execution Transition

variable {Content : Type}

def decisionInstant (p : ReviewedProposal Content) : DecisionKind → Option Instant
  | .approved => p.approvedAt
  | .rejected => p.rejectedAt

def DecidedStatus : DecisionKind → ProposalStatus → Prop
  | .approved, status => status = .approved ∨ status = .executed
  | .rejected, status => status = .rejected

/-- The review columns of a proposal and its memory row agree with its decision event. -/
structure Decided (w : DecisionWorld Content) (e : DecisionEvent Content)
    (p : ReviewedProposal Content) (occurredAt : Instant) : Prop where
  proposal : w.proposals e.actionProposalId = some p
  id : p.id = e.actionProposalId
  workspace : p.workspaceId = e.workspaceId
  eventType : e.eventType = e.decision
  fingerprintDecision : e.requestFingerprint.decision = e.decision
  fingerprintVersion : e.requestFingerprint.proposalVersion = e.proposalVersion
  actor : decisionActor p e.decision = some e.actor
  occurred : decisionInstant p e.decision = some occurredAt
  status : DecidedStatus e.decision p.status
  memory : ∃ m, w.memoryEvent e.workspaceId e.decision e.actionProposalId = some m ∧
    m.payloadFingerprint = payloadFingerprint p e.decision occurredAt e.actor e.id

structure Consistent (w : DecisionWorld Content) : Prop where
  keyed : ∀ id p, w.proposals id = some p → p.id = id
  decided : ∀ e ∈ w.events, ∃ p occurredAt, Decided w e p occurredAt
  once : w.events.Pairwise (fun a b => a.actionProposalId ≠ b.actionProposalId)
  memory : ∀ m ∈ w.memory, ∃ p, w.proposals m.subjectId = some p ∧ p.status ≠ .proposed

theorem Undecided.consistent {w : DecisionWorld Content} (h : Undecided w) : Consistent w where
  keyed := h.keyed
  decided e he := by simp [h.events] at he
  once := by simp [h.events]
  memory m hm := by simp [h.memory] at hm

namespace DecisionWorld

variable {w t : DecisionWorld Content} {workspace : WorkspaceId} {id : ProposalId}

theorem getProposal_some {p : ReviewedProposal Content} (h : w.getProposal workspace id = some p) :
    w.proposals id = some p ∧ p.workspaceId = workspace := by
  simpa [getProposal, Option.filter_eq_some_iff] using h

theorem event_some {key : String} {e : DecisionEvent Content}
    (h : w.eventByIdempotencyKey workspace id key = some e) :
    e ∈ w.events ∧ e.workspaceId = workspace ∧ e.actionProposalId = id ∧
      e.clientIdempotencyKey = key := by
  refine ⟨List.mem_of_find?_eq_some h, ?_⟩
  simpa using List.find?_some h

theorem memoryEvent_append {suffix : List MemoryEvent} {kind : DecisionKind} {m : MemoryEvent}
    (ht : t.memory = w.memory ++ suffix) (h : w.memoryEvent workspace kind id = some m) :
    t.memoryEvent workspace kind id = some m := by
  have hw : w.memory.find? (fun m => m.workspaceId = workspace ∧ m.eventType = kind ∧
      m.subjectId = id) = some m := h
  rw [memoryEvent, ht, List.find?_append, hw]
  rfl

theorem memoryEvent_append_new {kind : DecisionKind} {fingerprint : PayloadFingerprint}
    (ht : t.memory = w.memory ++ [⟨workspace, kind, id, fingerprint⟩])
    (h : w.memoryEvent workspace kind id = none) :
    t.memoryEvent workspace kind id = some ⟨workspace, kind, id, fingerprint⟩ := by
  have hw : w.memory.find? (fun m => m.workspaceId = workspace ∧ m.eventType = kind ∧
      m.subjectId = id) = none := h
  rw [memoryEvent, ht, List.find?_append, hw]
  simp

theorem memoryEvent_none {kind : DecisionKind} {p : ReviewedProposal Content} (h : Consistent w)
    (hp : w.proposals id = some p) (hst : p.status = .proposed) :
    w.memoryEvent workspace kind id = none := by
  rw [memoryEvent, List.find?_eq_none]
  intro m hm hmatch
  simp only [decide_eq_true_eq] at hmatch
  obtain ⟨q, hq, hne⟩ := h.memory m hm
  rw [hmatch.2.2, hp] at hq
  cases hq
  exact hne hst

end DecisionWorld

namespace Consistent

variable {w : DecisionWorld Content} {e e' : DecisionEvent Content}

theorem event_unique (h : Consistent w) (he : e ∈ w.events) (he' : e' ∈ w.events)
    (hid : e.actionProposalId = e'.actionProposalId) : e = e' := by
  by_contra hne
  have : Std.Symm (fun a b : DecisionEvent Content => a.actionProposalId ≠ b.actionProposalId) :=
    ⟨fun _ _ hab => hab.symm⟩
  exact h.once.forall he he' hne hid

theorem event_eq (h : Consistent w) (he : e ∈ w.events) :
    w.eventByIdempotencyKey e.workspaceId e.actionProposalId e.clientIdempotencyKey = some e := by
  cases hf : w.eventByIdempotencyKey e.workspaceId e.actionProposalId e.clientIdempotencyKey with
  | none =>
    have hnone := List.find?_eq_none.mp hf e he
    simp at hnone
  | some e' =>
    obtain ⟨hmem, _, hid, _⟩ := DecisionWorld.event_some hf
    rw [h.event_unique hmem he hid]

end Consistent

theorem Decided.mono {w t : DecisionWorld Content} {e : DecisionEvent Content}
    {p : ReviewedProposal Content} {occurredAt : Instant} (h : Decided w e p occurredAt)
    (hp : t.proposals e.actionProposalId = w.proposals e.actionProposalId)
    {suffix : List MemoryEvent} (hm : t.memory = w.memory ++ suffix) : Decided t e p occurredAt := by
  obtain ⟨m, hmem, hfp⟩ := h.memory
  exact ⟨hp.trans h.proposal, h.id, h.workspace, h.eventType, h.fingerprintDecision,
    h.fingerprintVersion, h.actor, h.occurred, h.status, m,
    DecisionWorld.memoryEvent_append hm hmem, hfp⟩

def noTerminalDecision : DecisionFailure :=
  .uncaught "action proposal does not have a terminal review decision"

section Decide

variable [DecidableEq Content] {w : DecisionWorld Content} {e : DecisionEvent Content}
  {p : ReviewedProposal Content} {occurredAt : Instant} {command : DecisionCommand Content}

omit [DecidableEq Content] in
/-- The memory event is derived from the present status, so an executed proposal raises. -/
theorem appendDecisionMemoryEvent_replay (h : Decided w e p occurredAt) :
    appendDecisionMemoryEvent w p e.actor e.id =
      if p.status = .executed then .error noTerminalDecision else .ok w := by
  obtain ⟨m, hm, hfp⟩ := h.memory
  have hst := h.status
  have hocc := h.occurred
  unfold appendDecisionMemoryEvent terminalReview
  cases hk : e.decision <;> rw [hk] at hst hocc hm hfp
  · rcases hst with hst | hst
    · simp only [decisionInstant] at hocc
      simp [hst, hocc, h.workspace, h.id, hm, hfp]
    · simp [hst, noTerminalDecision]
  · simp only [decisionInstant] at hocc
    simp only [DecidedStatus] at hst
    simp [hst, hocc, h.workspace, h.id, hm, hfp]

theorem replayedResult_eq (h : Decided w e p occurredAt) :
    replayedResult p e command =
      if e.requestFingerprint = decisionRequestFingerprint command then
        .ok ⟨p, e, command.decision, true, e.proposalVersion⟩
      else .error keyReused := by
  by_cases hfp : e.requestFingerprint = decisionRequestFingerprint command
  · have hdec : e.decision = command.decision := by
      rw [← h.fingerprintDecision, hfp]
      rfl
    have hver : e.proposalVersion = command.proposalVersion := by
      rw [← h.fingerprintVersion, hfp]
      rfl
    have hst : p.status ∈ expectedStatuses command.decision := by
      have hs := h.status
      rw [hdec] at hs
      cases hk : command.decision <;> rw [hk] at hs
      · rcases hs with hs | hs <;> simp [expectedStatuses, hs]
      · simp only [DecidedStatus] at hs
        simp [expectedStatuses, hs]
    rw [replayedResult, if_neg, if_neg (not_not.mpr hver), if_pos hfp]
    simp [h.eventType, hdec, h.workspace, h.id, hfp, hst]
  · rw [replayedResult, if_pos (by simp [hfp]), if_neg hfp]

theorem replayDecision_eq (h : Decided w e p occurredAt) :
    replayDecision w p e command =
      if e.requestFingerprint = decisionRequestFingerprint command then
        if p.status = .executed then .error noTerminalDecision
        else .ok (⟨p, e, command.decision, true, e.proposalVersion⟩, w)
      else .error (.answered keyReused) := by
  rw [replayDecision, replayedResult_eq h]
  by_cases hfp : e.requestFingerprint = decisionRequestFingerprint command
  · have hdec : command.decision = e.decision := by
      rw [← h.fingerprintDecision, hfp]
      rfl
    simp only [if_pos hfp, hdec, h.actor, appendDecisionMemoryEvent_replay h]
    by_cases hst : p.status = .executed
    · simp only [if_pos hst]
    · simp only [if_neg hst]
  · simp only [if_neg hfp]

omit [DecidableEq Content] in
theorem applyDecision_id (actor : UserId) (env : DecideEnvironment) :
    (applyDecision p actor command env).id = p.id := by
  cases hk : command.decision <;> simp [applyDecision, hk]

omit [DecidableEq Content] in
theorem applyDecision_workspaceId (actor : UserId) (env : DecideEnvironment) :
    (applyDecision p actor command env).workspaceId = p.workspaceId := by
  cases hk : command.decision <;> simp [applyDecision, hk]

omit [DecidableEq Content] in
theorem terminalReview_applyDecision (actor : UserId) (env : DecideEnvironment) :
    terminalReview (applyDecision p actor command env) =
      some (command.decision, some env.decidedAt) := by
  cases hk : command.decision <;> simp [applyDecision, terminalReview, hk]

/-- The world after a fresh decision. -/
def recorded (w : DecisionWorld Content) (p : ReviewedProposal Content) (actor : UserId)
    (command : DecisionCommand Content) (env : DecideEnvironment) : DecisionWorld Content :=
  let decided := applyDecision p actor command env
  { w with
    proposals := Function.update w.proposals p.id (some decided)
    events := w.events ++ [decisionEvent p actor command env]
    memory := w.memory ++ [⟨p.workspaceId, command.decision, p.id,
      payloadFingerprint decided command.decision env.decidedAt actor env.eventId⟩] }

theorem recordDecision_eq (h : Consistent w) (hp : w.proposals p.id = some p) (actor : UserId)
    (env : DecideEnvironment) :
    recordDecision w p actor command env =
      match freshDecisionError p command env with
      | some error => .error (.answered error)
      | none => .ok (⟨applyDecision p actor command env, decisionEvent p actor command env,
          command.decision, false, actionProposalVersion p⟩, recorded w p actor command env) := by
  unfold recordDecision
  cases hf : freshDecisionError p command env with
  | some error => rfl
  | none =>
    have hst : p.status = .proposed := by
      by_contra hne
      simp [freshDecisionError, hne] at hf
    have hnone : DecisionWorld.memoryEvent
        { w with
          proposals := Function.update w.proposals p.id (some (applyDecision p actor command env))
          events := w.events ++ [decisionEvent p actor command env] }
        p.workspaceId command.decision p.id = none :=
      DecisionWorld.memoryEvent_none (w := w) h hp hst
    simp only [appendDecisionMemoryEvent, terminalReview_applyDecision, applyDecision_id,
      applyDecision_workspaceId, hnone]
    rfl

/-- What a decision command can come to in a consistent world. -/
inductive Decides (w : DecisionWorld Content) (workspace : WorkspaceId) (id : ProposalId)
    (actor : UserId) (command : DecisionCommand Content) (env : DecideEnvironment) :
    Except DecisionFailure (DecisionResult Content × DecisionWorld Content) → Prop where
  | refused {error} : currentAdminError w workspace actor ≠ none →
      Decides w workspace id actor command env (.error (.answered error))
  | missing {error} : w.getProposal workspace id = none →
      Decides w workspace id actor command env (.error (.answered error))
  | reused {event error} : w.eventByIdempotencyKey workspace id command.idempotencyKey = some event →
      event.requestFingerprint ≠ decisionRequestFingerprint command →
      Decides w workspace id actor command env (.error (.answered error))
  | aborted {proposal event} : currentAdminError w workspace actor = none →
      w.getProposal workspace id = some proposal →
      w.eventByIdempotencyKey workspace id command.idempotencyKey = some event →
      event.requestFingerprint = decisionRequestFingerprint command → proposal.status = .executed →
      Decides w workspace id actor command env (.error noTerminalDecision)
  | replayed {proposal event} : currentAdminError w workspace actor = none →
      w.getProposal workspace id = some proposal →
      w.eventByIdempotencyKey workspace id command.idempotencyKey = some event →
      event.requestFingerprint = decisionRequestFingerprint command → proposal.status ≠ .executed →
      Decides w workspace id actor command env
        (.ok (⟨proposal, event, command.decision, true, event.proposalVersion⟩, w))
  | rejected {error} :
      w.eventByIdempotencyKey workspace id command.idempotencyKey = none →
      Decides w workspace id actor command env (.error (.answered error))
  | recorded {proposal} : currentAdminError w workspace actor = none →
      w.getProposal workspace id = some proposal →
      w.eventByIdempotencyKey workspace id command.idempotencyKey = none →
      proposal.status = .proposed → command.proposalVersion = actionProposalVersion proposal →
      Decides w workspace id actor command env
        (.ok (⟨applyDecision proposal actor command env, decisionEvent proposal actor command env,
          command.decision, false, actionProposalVersion proposal⟩, recorded w proposal actor command env))

omit [DecidableEq Content] in
theorem Consistent.decidedAs (h : Consistent w) (he : e ∈ w.events)
    (hp : w.proposals e.actionProposalId = some p) : ∃ occurredAt, Decided w e p occurredAt := by
  obtain ⟨q, occurredAt, hd⟩ := h.decided e he
  have hq := hd.proposal
  rw [hp] at hq
  cases hq
  exact ⟨occurredAt, hd⟩

theorem decides (h : Consistent w) (workspace : WorkspaceId) (id : ProposalId) (actor : UserId)
    (command : DecisionCommand Content) (env : DecideEnvironment) :
    Decides w workspace id actor command env
      (decideActionProposal w workspace id actor command env) := by
  unfold decideActionProposal
  cases ha : currentAdminError w workspace actor with
  | some error => exact .refused (by simp [ha])
  | none =>
    cases hp : w.getProposal workspace id with
    | none => exact .missing hp
    | some p =>
      obtain ⟨hget, hws⟩ := DecisionWorld.getProposal_some hp
      have hid := h.keyed id p hget
      cases he : w.eventByIdempotencyKey workspace id command.idempotencyKey with
      | some e =>
        obtain ⟨hmem, _, hepid, _⟩ := DecisionWorld.event_some he
        obtain ⟨occurredAt, hd⟩ := h.decidedAs hmem (hepid ▸ hget)
        simp only [replayDecision_eq hd]
        split
        · rename_i hfp
          split
          · rename_i hst
            exact .aborted ha hp he hfp hst
          · rename_i hst
            exact .replayed ha hp he hfp hst
        · rename_i hfp
          exact .reused he hfp
      | none =>
        simp only [recordDecision_eq h (hid ▸ hget)]
        cases hf : freshDecisionError p command env with
        | some error => exact .rejected he
        | none =>
          unfold freshDecisionError at hf
          split at hf
          · cases hf
          split at hf
          · cases hf
          rename_i hst hver
          exact .recorded ha hp he (not_not.mp hst) (not_not.mp hver).symm

end Decide

end FounderOs.Decision
