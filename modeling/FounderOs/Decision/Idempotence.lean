import FounderOs.Decision.Replay

namespace FounderOs.Decision

open Execution Transition

variable {Content : Type}

section Consistency

variable {w t : DecisionWorld Content} {p q : ReviewedProposal Content} {e : DecisionEvent Content}
  {actor : UserId} {command : DecisionCommand Content} {env : DecideEnvironment}

theorem Decided.not_proposed {occurredAt : Instant} (h : Decided w e p occurredAt) :
    p.status ≠ .proposed := by
  intro hst
  have hd := h.status
  rw [hst] at hd
  cases hk : e.decision <;> simp [hk, DecidedStatus] at hd

theorem Consistent.event_elsewhere (h : Consistent w) (hp : w.proposals p.id = some p)
    (hst : p.status = .proposed) (he : e ∈ w.events) : e.actionProposalId ≠ p.id := by
  intro hid
  obtain ⟨occurredAt, hd⟩ := h.decidedAs he (hid ▸ hp)
  exact hd.not_proposed hst

theorem decided_applyDecision (h : Consistent w) (hp : w.proposals p.id = some p)
    (hst : p.status = .proposed) (hver : command.proposalVersion = actionProposalVersion p) :
    Decided (recorded w p actor command env) (decisionEvent p actor command env)
      (applyDecision p actor command env) env.decidedAt where
  proposal := by simp [recorded, decisionEvent]
  id := applyDecision_id actor env
  workspace := applyDecision_workspaceId actor env
  eventType := rfl
  fingerprintDecision := rfl
  fingerprintVersion := hver
  actor := by cases hk : command.decision <;> simp [decisionEvent, applyDecision, decisionActor, hk]
  occurred := by
    cases hk : command.decision <;> simp [decisionEvent, applyDecision, decisionInstant, hk]
  status := by cases hk : command.decision <;> simp [decisionEvent, applyDecision, DecidedStatus, hk]
  memory := by
    have hnone : w.memoryEvent p.workspaceId command.decision p.id = none :=
      DecisionWorld.memoryEvent_none h hp hst
    exact ⟨_, DecisionWorld.memoryEvent_append_new rfl hnone, rfl⟩

theorem consistent_recorded (h : Consistent w) (hp : w.proposals p.id = some p)
    (hst : p.status = .proposed) (hver : command.proposalVersion = actionProposalVersion p) :
    Consistent (recorded w p actor command env) := by
  have hnew : Decided (recorded w p actor command env) (decisionEvent p actor command env)
      (applyDecision p actor command env) env.decidedAt := decided_applyDecision h hp hst hver
  refine ⟨?_, ?_, ?_, ?_⟩
  · intro id q hq
    by_cases hid : id = p.id
    · subst hid
      simp only [recorded, Function.update_self, Option.some.injEq] at hq
      exact hq ▸ applyDecision_id actor env
    · exact h.keyed id q (by simpa [recorded, Function.update_of_ne hid] using hq)
  · intro e he
    rcases List.mem_append.mp he with he | he
    · obtain ⟨q, occurredAt, hd⟩ := h.decided e he
      have hne := h.event_elsewhere hp hst he
      exact ⟨q, occurredAt, hd.mono (Function.update_of_ne hne _ _) rfl⟩
    · obtain rfl := List.mem_singleton.mp he
      exact ⟨_, _, hnew⟩
  · refine List.pairwise_append.mpr ⟨h.once, List.pairwise_singleton _ _, ?_⟩
    intro e he e' he'
    obtain rfl := List.mem_singleton.mp he'
    exact h.event_elsewhere hp hst he
  · intro m hm
    rcases List.mem_append.mp hm with hm | hm
    · obtain ⟨q, hq, hne⟩ := h.memory m hm
      have hid : m.subjectId ≠ p.id := by
        intro hid
        rw [hid, hp] at hq
        cases hq
        exact hne hst
      exact ⟨q, (Function.update_of_ne hid _ _).trans hq, hne⟩
    · obtain rfl := List.mem_singleton.mp hm
      exact ⟨_, hnew.proposal, hnew.not_proposed⟩

theorem consistent_create (h : Consistent w) (hnone : w.proposals p.id = none) :
    Consistent { w with proposals := Function.update w.proposals p.id (some p) } := by
  have hne : ∀ id q, w.proposals id = some q → id ≠ p.id := by
    rintro id q hq rfl
    rw [hnone] at hq
    cases hq
  refine ⟨?_, ?_, h.once, ?_⟩
  · intro id q hq
    by_cases hid : id = p.id
    · subst hid
      simp only [Function.update_self, Option.some.injEq] at hq
      rw [hq]
    · exact h.keyed id q (by simpa [Function.update_of_ne hid] using hq)
  · intro e he
    obtain ⟨q, occurredAt, hd⟩ := h.decided e he
    have hid := hne _ _ hd.proposal
    exact ⟨q, occurredAt, hd.mono (Function.update_of_ne hid _ _) (List.append_nil _).symm⟩
  · intro m hm
    obtain ⟨q, hq, hst⟩ := h.memory m hm
    exact ⟨q, (Function.update_of_ne (hne _ _ hq) _ _).trans hq, hst⟩

theorem decided_execution {occurredAt now : Instant} {status : ProposalStatus}
    (hd : Decided w e p occurredAt) (hp : executionStatus p.status = true)
    (hs : executionStatus status = true)
    (ht : t.proposals e.actionProposalId = some (p.moved status now)) (hm : t.memory = w.memory) :
    Decided t e (p.moved status now) occurredAt := by
  obtain ⟨m, hmem, hfp⟩ := hd.memory
  refine ⟨ht, hd.id, hd.workspace, hd.eventType, hd.fingerprintDecision, hd.fingerprintVersion,
    ?_, ?_, ?_, m, ?_, hfp⟩
  · rw [← hd.actor]
    cases e.decision <;> rfl
  · rw [← hd.occurred]
    cases e.decision <;> rfl
  · have hst := hd.status
    cases hk : e.decision <;> rw [hk] at hst
    · cases status <;> simp_all [DecidedStatus, executionStatus]
    · simp only [DecidedStatus] at hst
      rw [hst] at hp
      cases hp
  · exact DecisionWorld.memoryEvent_append (hm.trans (List.append_nil _).symm) hmem

theorem consistent_execution {id : ProposalId} {status : ProposalStatus} {now : Instant}
    (h : Consistent w) (hp : w.proposals id = some p) (hst : executionStatus p.status = true)
    (hs : executionStatus status = true) :
    Consistent { w with
      proposals := Function.update w.proposals id (some (p.moved status now)) } := by
  refine ⟨?_, ?_, h.once, ?_⟩
  · intro id' q hq
    by_cases hid : id' = id
    · subst hid
      simp only [Function.update_self, Option.some.injEq] at hq
      subst hq
      exact h.keyed _ p hp
    · exact h.keyed id' q (by simpa [Function.update_of_ne hid] using hq)
  · intro e he
    obtain ⟨q, occurredAt, hd⟩ := h.decided e he
    by_cases hid : e.actionProposalId = id
    · obtain ⟨occurredAt, hd⟩ := h.decidedAs he (hid ▸ hp)
      exact ⟨_, occurredAt, decided_execution hd hst hs (by simp [hid]; rfl) rfl⟩
    · exact ⟨q, occurredAt, hd.mono (Function.update_of_ne hid _ _) (List.append_nil _).symm⟩
  · intro m hm
    obtain ⟨q, hq, hne⟩ := h.memory m hm
    by_cases hid : m.subjectId = id
    · refine ⟨p.moved status now, by simp [hid], ?_⟩
      rintro rfl
      cases hs
    · exact ⟨q, (Function.update_of_ne hid _ _).trans hq, hne⟩

theorem consistent_setMember {members : WorkspaceId → UserId → Option Member} (h : Consistent w) :
    Consistent { w with members := members } :=
  ⟨h.keyed, fun e he => by
    obtain ⟨q, occurredAt, hd⟩ := h.decided e he
    exact ⟨q, occurredAt, hd.mono rfl (List.append_nil _).symm⟩, h.once, h.memory⟩

end Consistency

/-- `t` differs from `w` in other proposals only. -/
structure SameFor (w t : DecisionWorld Content) (id : ProposalId) : Prop where
  proposal : t.proposals id = w.proposals id
  events : ∀ e : DecisionEvent Content, e.actionProposalId = id → (e ∈ t.events ↔ e ∈ w.events)
  memory : ∀ m : MemoryEvent, m.subjectId = id → (m ∈ t.memory ↔ m ∈ w.memory)
  members : t.members = w.members

theorem SameFor.refl (w : DecisionWorld Content) (id : ProposalId) : SameFor w w id :=
  ⟨rfl, fun _ _ => .rfl, fun _ _ => .rfl, rfl⟩

theorem SameFor.trans {w t u : DecisionWorld Content} {id : ProposalId} (h : SameFor w t id)
    (h' : SameFor t u id) : SameFor w u id where
  proposal := h'.proposal.trans h.proposal
  events e he := (h'.events e he).trans (h.events e he)
  memory m hm := (h'.memory m hm).trans (h.memory m hm)
  members := h'.members.trans h.members

theorem sameFor_recorded {w : DecisionWorld Content} {p : ReviewedProposal Content}
    {actor : UserId} {command : DecisionCommand Content} {env : DecideEnvironment}
    {id : ProposalId} (hid : id ≠ p.id) : SameFor w (recorded w p actor command env) id where
  proposal := Function.update_of_ne hid _ _
  events e he := by
    have hne : e ≠ decisionEvent p actor command env := by
      rintro rfl
      exact hid he.symm
    simp [recorded, hne]
  memory m hm := by
    simp only [recorded, List.mem_append, List.mem_singleton, or_iff_left_iff_imp]
    rintro rfl
    exact absurd hm.symm hid
  members := rfl

section Runs

variable [DecidableEq Content] {w₀ w t : DecisionWorld Content} {workspace : WorkspaceId}
  {id : ProposalId} {actor : UserId} {command : DecisionCommand Content} {env : DecideEnvironment}
  {result : DecisionResult Content}

theorem decide_ok (h : Consistent w)
    (hd : decideActionProposal w workspace id actor command env = .ok (result, t)) :
    Consistent t ∧ (∀ id', id' ≠ id → SameFor w t id') ∧ t.members = w.members ∧
      (∀ e ∈ w.events, e ∈ t.events) ∧ currentAdminError w workspace actor = none := by
  have hc := decides h workspace id actor command env
  rw [hd] at hc
  cases hc with
  | replayed ha => exact ⟨h, fun id' _ => .refl w id', rfl, fun _ he => he, ha⟩
  | recorded ha hp he hst hver =>
    obtain ⟨hget, _⟩ := DecisionWorld.getProposal_some hp
    have hid := h.keyed _ _ hget
    refine ⟨consistent_recorded h (hid.symm ▸ hget) hst hver, ?_, rfl, ?_, ha⟩
    · intro id' hne
      exact sameFor_recorded (hid.symm ▸ hne)
    · exact fun e he => List.mem_append_left _ he

theorem bulk_ok {decision : DecisionKind} {reason : Option String} {items : List (BulkItem Content)}
    {response : BulkResponse Content} (h : Consistent w)
    (hb : bulkDecide workspace actor decision reason w items = .ok (response, t)) :
    Consistent t ∧ (∀ id', id' ∉ items.map BulkItem.proposalId → SameFor w t id') ∧
      t.members = w.members ∧ (∀ e ∈ w.events, e ∈ t.events) ∧
      (response.results ≠ [] → currentAdminError w workspace actor = none) := by
  induction items generalizing w response with
  | nil =>
    cases hb
    exact ⟨h, fun id' _ => .refl t id', rfl, fun _ he => he, fun hne => absurd rfl hne⟩
  | cons item rest ih =>
    rw [bulkDecide] at hb
    split at hb
    · rename_i result w' hd
      obtain ⟨hc, hsame, hmem, hev, ha⟩ := decide_ok h hd
      cases hr : bulkDecide workspace actor decision reason w' rest with
      | error message => simp [hr, Except.map] at hb
      | ok answer =>
        simp only [hr, Except.map, Except.ok.injEq, Prod.mk.injEq] at hb
        obtain ⟨rfl, rfl⟩ := hb
        obtain ⟨hc', hsame', hmem', hev', _⟩ := ih hc hr
        refine ⟨hc', ?_, hmem'.trans hmem, fun e he => hev' e (hev e he), fun _ => ha⟩
        intro id' hid
        simp only [List.map_cons, List.mem_cons, not_or] at hid
        exact (hsame id' hid.1).trans (hsame' id' hid.2)
    · cases hr : bulkDecide workspace actor decision reason w rest with
      | error message => simp [hr, Except.map] at hb
      | ok answer =>
        simp only [hr, Except.map, Except.ok.injEq, Prod.mk.injEq] at hb
        obtain ⟨rfl, rfl⟩ := hb
        obtain ⟨hc', hsame', hmem', hev', ha⟩ := ih h hr
        refine ⟨hc', fun id' hid => hsame' id' ?_, hmem', hev', ha⟩
        simp only [List.map_cons, List.mem_cons, not_or] at hid
        exact hid.2
    · cases hb

omit [DecidableEq Content] in
theorem committed_consistent {α ε : Type} {answer : Except ε (α × DecisionWorld Content)}
    (h : Consistent w) (ha : ∀ x u, answer = .ok (x, u) → Consistent u) :
    Consistent (committed w answer) := by
  cases answer with
  | error => exact h
  | ok x => exact ha x.1 x.2 rfl

theorem consistent_step {a : DecisionAction Content} (h : Consistent w)
    (hs : decisionStep w a = some t) : Consistent t := by
  cases a with
  | create p =>
    simp only [decisionStep] at hs
    split at hs
    · rename_i hc
      cases hs
      exact consistent_create h hc.2
    · cases hs
  | decide ws id actor command env =>
    simp only [decisionStep, Option.some.injEq] at hs
    exact hs ▸ committed_consistent h (fun _ _ hd => (decide_ok h hd).1)
  | bulkApprove ws actor request =>
    simp only [decisionStep, Option.some.injEq] at hs
    exact hs ▸ committed_consistent h (fun _ _ hb => (bulk_ok h hb).1)
  | bulkReject ws actor request reason =>
    simp only [decisionStep, Option.some.injEq] at hs
    exact hs ▸ committed_consistent h (fun _ _ hb => (bulk_ok h hb).1)
  | execution id status now =>
    simp only [decisionStep] at hs
    split at hs
    · cases hs
    · rename_i p hp
      split at hs
      · rename_i hc
        cases hs
        exact consistent_execution h hp hc.1 hc.2
      · cases hs
  | setMember ws user member =>
    simp only [decisionStep, Option.some.injEq] at hs
    exact hs ▸ consistent_setMember h

theorem consistent_reaches (h₀ : Undecided w₀) (h : Reaches decisionStep anyStep w₀ w) :
    Consistent w :=
  h.invariant (fun _ _ _ hi _ hs => consistent_step hi hs) h₀.consistent

/-- The event of a decision command, as the events table keeps it. -/
structure Recorded (w : DecisionWorld Content) (workspace : WorkspaceId) (id : ProposalId)
    (actor : UserId) (command : DecisionCommand Content) (e : DecisionEvent Content) : Prop where
  event : e ∈ w.events
  workspaceId : e.workspaceId = workspace
  proposalId : e.actionProposalId = id
  key : e.clientIdempotencyKey = command.idempotencyKey
  fingerprint : e.requestFingerprint = decisionRequestFingerprint command
  actor : e.actor = actor

/-- The command repeats a recorded decision on a proposal that has become `executed`. -/
def ReplaysExecuted (w : DecisionWorld Content) (workspace : WorkspaceId) (id : ProposalId)
    (command : DecisionCommand Content) : Prop :=
  ∃ p e, w.getProposal workspace id = some p ∧ p.status = .executed ∧ e ∈ w.events ∧
    e.workspaceId = workspace ∧ e.actionProposalId = id ∧
    e.clientIdempotencyKey = command.idempotencyKey ∧
    e.requestFingerprint = decisionRequestFingerprint command

omit [DecidableEq Content] in
theorem Recorded.congr {e : DecisionEvent Content} (h : Recorded w workspace id actor command e)
    (hs : SameFor w t id) : Recorded t workspace id actor command e :=
  ⟨(hs.events e h.proposalId).mpr h.event, h.workspaceId, h.proposalId, h.key, h.fingerprint,
    h.actor⟩

omit [DecidableEq Content] in
theorem ReplaysExecuted.congr (hs : SameFor w t id) :
    ReplaysExecuted t workspace id command ↔ ReplaysExecuted w workspace id command := by
  unfold ReplaysExecuted DecisionWorld.getProposal
  rw [hs.proposal]
  constructor
  · rintro ⟨p, e, hp, hst, he, hws, hid, hrest⟩
    exact ⟨p, e, hp, hst, (hs.events e hid).mp he, hws, hid, hrest⟩
  · rintro ⟨p, e, hp, hst, he, hws, hid, hrest⟩
    exact ⟨p, e, hp, hst, (hs.events e hid).mpr he, hws, hid, hrest⟩

omit [DecidableEq Content] in
theorem currentAdminError_congr (hm : t.members = w.members) :
    currentAdminError t workspace actor = currentAdminError w workspace actor := by
  unfold currentAdminError
  rw [hm]

theorem recorded_of_decide (h : Consistent w)
    (hd : decideActionProposal w workspace id actor command env = .ok (result, t))
    (hr : result.replayed = false) : Recorded t workspace id actor command result.event := by
  have hc := decides h workspace id actor command env
  rw [hd] at hc
  cases hc with
  | replayed => cases hr
  | recorded ha hp he hst hver =>
    obtain ⟨hget, hws⟩ := DecisionWorld.getProposal_some hp
    exact ⟨by simp [recorded], hws, h.keyed _ _ hget, rfl, rfl, rfl⟩

theorem recorded_step {a : DecisionAction Content} {e : DecisionEvent Content} (h : Consistent w)
    (hs : decisionStep w a = some t) (hr : Recorded w workspace id actor command e) :
    Recorded t workspace id actor command e := by
  refine ⟨?_, hr.workspaceId, hr.proposalId, hr.key, hr.fingerprint, hr.actor⟩
  have he := hr.event
  cases a with
  | create p =>
    simp only [decisionStep] at hs
    split at hs <;> cases hs
    exact he
  | decide ws id actor command env =>
    simp only [decisionStep, Option.some.injEq] at hs
    subst hs
    cases hd : decideActionProposal w ws id actor command env with
    | error => exact he
    | ok answer => exact (decide_ok h hd).2.2.2.1 e he
  | bulkApprove ws actor request =>
    simp only [decisionStep, Option.some.injEq] at hs
    subst hs
    cases hb : bulkApprove w ws actor request with
    | error => exact he
    | ok answer => exact (bulk_ok h hb).2.2.2.1 e he
  | bulkReject ws actor request reason =>
    simp only [decisionStep, Option.some.injEq] at hs
    subst hs
    cases hb : bulkReject w ws actor request reason with
    | error => exact he
    | ok answer => exact (bulk_ok h hb).2.2.2.1 e he
  | execution id status now =>
    simp only [decisionStep] at hs
    split at hs
    · cases hs
    · split at hs <;> cases hs
      exact he
  | setMember ws user member =>
    simp only [decisionStep, Option.some.injEq] at hs
    exact hs ▸ he

omit [DecidableEq Content] in
theorem Recorded.found {e : DecisionEvent Content} (h : Consistent w)
    (hr : Recorded w workspace id actor command e) :
    w.eventByIdempotencyKey workspace id command.idempotencyKey = some e ∧
      ∃ p, w.getProposal workspace id = some p ∧ w.proposals id = some p ∧
        e.proposalVersion = command.proposalVersion := by
  obtain ⟨he, rfl, rfl, hkey, hfp, _⟩ := hr
  obtain ⟨p, occurredAt, hd⟩ := h.decided e he
  refine ⟨hkey ▸ h.event_eq he, p, ?_, hd.proposal, ?_⟩
  · simp [DecisionWorld.getProposal, hd.proposal, hd.workspace]
  · rw [← hd.fingerprintVersion, hfp]
    rfl

theorem decide_uncaught_iff (h : Consistent w) (workspace : WorkspaceId) (id : ProposalId)
    (actor : UserId) (command : DecisionCommand Content) (env : DecideEnvironment) :
    (∃ message, decideActionProposal w workspace id actor command env =
      .error (.uncaught message)) ↔
      currentAdminError w workspace actor = none ∧ ReplaysExecuted w workspace id command := by
  have hc := decides h workspace id actor command env
  generalize decideActionProposal w workspace id actor command env = answer at hc
  constructor
  · rintro ⟨message, rfl⟩
    cases hc with
    | aborted ha hp he hfp hst =>
      obtain ⟨hmem, hws, hid, hkey⟩ := DecisionWorld.event_some he
      exact ⟨ha, _, _, hp, hst, hmem, hws, hid, hkey, hfp⟩
  · rintro ⟨ha, p, e, hp, hst, he, hws, hid, hkey, hfp⟩
    have hr : Recorded w workspace id e.actor command e := ⟨he, hws, hid, hkey, hfp, rfl⟩
    obtain ⟨hfound, _⟩ := hr.found h
    cases hc with
    | refused hne => exact absurd ha hne
    | missing hnone => simp [hp] at hnone
    | reused he' hne =>
      rw [hfound] at he'
      cases he'
      exact absurd hfp hne
    | aborted => exact ⟨_, rfl⟩
    | replayed ha hp' he' hfp' hne =>
      rw [hp] at hp'
      cases hp'
      exact absurd hst hne
    | rejected hnone => simp [hfound] at hnone
    | recorded ha hp hnone => simp [hfound] at hnone

/-- The command is answered as the replay of its own event and no row changes. -/
def AnsweredAgain (w : DecisionWorld Content) (workspace : WorkspaceId) (id : ProposalId)
    (actor : UserId) (command : DecisionCommand Content) (env : DecideEnvironment)
    (e : DecisionEvent Content) : Prop :=
  ∃ p, w.proposals id = some p ∧ decideActionProposal w workspace id actor command env =
    .ok (⟨p, e, command.decision, true, command.proposalVersion⟩, w)

theorem answeredAgain_iff {e : DecisionEvent Content} (h : Consistent w)
    (hr : Recorded w workspace id actor command e) (env : DecideEnvironment) :
    AnsweredAgain w workspace id actor command env e ↔
      currentAdminError w workspace actor = none ∧ ¬ReplaysExecuted w workspace id command := by
  obtain ⟨hfound, p, hget, hp, hver⟩ := hr.found h
  unfold AnsweredAgain
  constructor
  · rintro ⟨q, hq, hd⟩
    refine ⟨(decide_ok h hd).2.2.2.2, fun hx => ?_⟩
    obtain ⟨message, hm⟩ :=
      (decide_uncaught_iff h workspace id actor command env).mpr ⟨(decide_ok h hd).2.2.2.2, hx⟩
    rw [hd] at hm
    cases hm
  · rintro ⟨ha, hx⟩
    refine ⟨p, hp, ?_⟩
    have hc := decides h workspace id actor command env
    generalize decideActionProposal w workspace id actor command env = answer at hc
    cases hc with
    | refused hne => exact absurd ha hne
    | missing hnone => simp [hget] at hnone
    | reused he' hne =>
      rw [hfound] at he'
      cases he'
      exact absurd hr.fingerprint hne
    | aborted _ hp' _ _ hst =>
      exact absurd ⟨_, e, hp', hst, hr.event, hr.workspaceId, hr.proposalId, hr.key,
        hr.fingerprint⟩ hx
    | replayed _ hp' he' _ _ =>
      rw [hget] at hp'
      rw [hfound] at he'
      cases hp'
      cases he'
      rw [hver]
    | rejected hnone => simp [hfound] at hnone
    | recorded _ _ hnone => simp [hfound] at hnone

section Bulk

variable {decision : DecisionKind} {reason : Option String} {items : List (BulkItem Content)}
  {item : BulkItem Content} {response : BulkResponse Content}

theorem bulk_ok_iff (h : Consistent w) (hu : (items.map BulkItem.proposalId).Nodup) :
    (∃ answer, bulkDecide workspace actor decision reason w items = .ok answer) ↔
      ∀ item ∈ items, currentAdminError w workspace actor = none →
        ¬ReplaysExecuted w workspace item.proposalId (item.command decision reason) := by
  induction items generalizing w with
  | nil => exact ⟨fun _ item hitem => by simp at hitem, fun _ => ⟨_, rfl⟩⟩
  | cons item rest ih =>
    simp only [List.map_cons, List.nodup_cons, List.mem_map, not_exists, not_and] at hu
    obtain ⟨hnew, hu⟩ := hu
    have huncaught := decide_uncaught_iff h workspace item.proposalId actor
      (item.command decision reason) item.env
    rw [bulkDecide]
    cases hd : decideActionProposal w workspace item.proposalId actor
        (item.command decision reason) item.env with
    | ok answer =>
      obtain ⟨result, w'⟩ := answer
      obtain ⟨hc, hsame, hmem, _, _⟩ := decide_ok h hd
      have hitem : currentAdminError w workspace actor = none →
          ¬ReplaysExecuted w workspace item.proposalId (item.command decision reason) := by
        intro ha hx
        obtain ⟨message, hm⟩ := huncaught.mpr ⟨ha, hx⟩
        rw [hd] at hm
        cases hm
      have hrest : ∀ other ∈ rest,
          (ReplaysExecuted w' workspace other.proposalId (other.command decision reason) ↔
            ReplaysExecuted w workspace other.proposalId (other.command decision reason)) :=
        fun other hother => ReplaysExecuted.congr (hsame _ (hnew other hother))
      have hih := ih hc hu
      rw [currentAdminError_congr hmem] at hih
      simp only [List.forall_mem_cons]
      constructor
      · rintro ⟨answer, ha⟩
        cases hr : bulkDecide workspace actor decision reason w' rest with
        | error message => simp [hr, Except.map] at ha
        | ok answer' =>
          refine ⟨hitem, fun other hother hadmin => ?_⟩
          rw [← hrest other hother]
          exact hih.mp ⟨answer', hr⟩ other hother hadmin
      · rintro ⟨_, hall⟩
        obtain ⟨answer', hr⟩ := hih.mpr (fun other hother hadmin => by
          rw [hrest other hother]
          exact hall other hother hadmin)
        exact ⟨_, by rw [hr]; rfl⟩
    | error failure =>
      cases failure with
      | answered error =>
        have hitem : currentAdminError w workspace actor = none →
            ¬ReplaysExecuted w workspace item.proposalId (item.command decision reason) := by
          intro ha hx
          obtain ⟨message, hm⟩ := huncaught.mpr ⟨ha, hx⟩
          rw [hd] at hm
          cases hm
        simp only [List.forall_mem_cons]
        constructor
        · rintro ⟨answer, ha⟩
          cases hr : bulkDecide workspace actor decision reason w rest with
          | error message => simp [hr, Except.map] at ha
          | ok answer' => exact ⟨hitem, (ih h hu).mp ⟨answer', hr⟩⟩
        · rintro ⟨_, hall⟩
          obtain ⟨answer', hr⟩ := (ih h hu).mpr hall
          exact ⟨_, by rw [hr]; rfl⟩
      | uncaught message =>
        obtain ⟨ha, hx⟩ := huncaught.mp ⟨message, hd⟩
        constructor
        · rintro ⟨_, habs⟩
          cases habs
        · intro hall
          exact absurd hx (hall item (by simp) ha)

/-- An item's turn in the loop: what came before and what comes after leave its proposal alone. -/
theorem bulk_turn (h : Consistent w) (hu : (items.map BulkItem.proposalId).Nodup)
    (hb : bulkDecide workspace actor decision reason w items = .ok (response, t))
    (hitem : item ∈ items) :
    ∃ v, Consistent v ∧ SameFor w v item.proposalId ∧
      ∀ result v', decideActionProposal v workspace item.proposalId actor
        (item.command decision reason) item.env = .ok (result, v') →
        result ∈ response.results ∧ SameFor v' t item.proposalId := by
  induction items generalizing w response with
  | nil => simp at hitem
  | cons first rest ih =>
    simp only [List.map_cons, List.nodup_cons, List.mem_map, not_exists, not_and] at hu
    obtain ⟨hnew, hu⟩ := hu
    rw [bulkDecide] at hb
    split at hb
    · rename_i result w' hd
      obtain ⟨hc, hsame, _, _, _⟩ := decide_ok h hd
      cases hr : bulkDecide workspace actor decision reason w' rest with
      | error message => simp [hr, Except.map] at hb
      | ok answer =>
        simp only [hr, Except.map, Except.ok.injEq, Prod.mk.injEq] at hb
        obtain ⟨rfl, rfl⟩ := hb
        rcases List.mem_cons.mp hitem with rfl | hrest
        · refine ⟨w, h, .refl w _, ?_⟩
          intro result' v' hd'
          rw [hd] at hd'
          cases hd'
          refine ⟨by simp, (bulk_ok hc hr).2.1 _ ?_⟩
          simpa using hnew
        · obtain ⟨v, hcv, hsv, hv⟩ := ih hc hu hr hrest
          refine ⟨v, hcv, (hsame _ (hnew item hrest)).trans hsv, ?_⟩
          intro result' v' hd'
          obtain ⟨hmem, hst⟩ := hv result' v' hd'
          exact ⟨List.mem_cons_of_mem _ hmem, hst⟩
    · rename_i error hd
      cases hr : bulkDecide workspace actor decision reason w rest with
      | error message => simp [hr, Except.map] at hb
      | ok answer =>
        simp only [hr, Except.map, Except.ok.injEq, Prod.mk.injEq] at hb
        obtain ⟨rfl, rfl⟩ := hb
        rcases List.mem_cons.mp hitem with rfl | hrest
        · refine ⟨w, h, .refl w _, ?_⟩
          intro result' v' hd'
          rw [hd] at hd'
          cases hd'
        · have hturn := ih h hu hr hrest
          exact hturn
    · cases hb

/-- The bulk approval is answered, the item as the replay of its own event, and no row of its
proposal changes. -/
def AnsweredInBulk (w : DecisionWorld Content) (workspace : WorkspaceId) (actor : UserId)
    (request : BulkRequest Content) (item : BulkItem Content) (e : DecisionEvent Content) : Prop :=
  ∃ p response t, w.proposals item.proposalId = some p ∧
    bulkApprove w workspace actor request = .ok (response, t) ∧
    ⟨p, e, .approved, true, item.proposalVersion⟩ ∈ response.results ∧
    SameFor w t item.proposalId

theorem answeredInBulk_iff {request : BulkRequest Content} {e : DecisionEvent Content}
    (h : Consistent w) (hitem : item ∈ request.decisions)
    (hr : Recorded w workspace item.proposalId actor (item.command .approved none) e) :
    AnsweredInBulk w workspace actor request item e ↔
      currentAdminError w workspace actor = none ∧ ∀ other ∈ request.decisions,
        ¬ReplaysExecuted w workspace other.proposalId (other.command .approved none) := by
  constructor
  · rintro ⟨p, response, t, _, hb, hmem, _⟩
    have ha := (bulk_ok h hb).2.2.2.2 (List.ne_nil_of_mem hmem)
    exact ⟨ha, fun other hother => (bulk_ok_iff h request.unique).mp ⟨_, hb⟩ other hother ha⟩
  · rintro ⟨ha, hall⟩
    obtain ⟨⟨response, t⟩, hb⟩ :=
      (bulk_ok_iff h request.unique).mpr (fun other hother _ => hall other hother)
    obtain ⟨v, hcv, hsv, hv⟩ := bulk_turn h request.unique hb hitem
    have hx : ¬ReplaysExecuted v workspace item.proposalId (item.command .approved none) := by
      rw [ReplaysExecuted.congr hsv]
      exact hall item hitem
    obtain ⟨p, hp, hd⟩ := (answeredAgain_iff hcv (hr.congr hsv) item.env).mpr
      ⟨(currentAdminError_congr hsv.members).trans ha, hx⟩
    obtain ⟨hmem, hst⟩ := hv _ _ hd
    exact ⟨p, response, t, hsv.proposal ▸ hp, hb, hmem, hsv.trans hst⟩

end Bulk

end Runs

def reviewProposal : ReviewedProposal Unit :=
  ⟨⟨0, 0, .github, .createGithubIssue, (), .proposed, 0⟩, .user, none, none, none, none, none, none, 0⟩

def reviewWorld : DecisionWorld Unit where
  proposals := fun id => if id = 0 then some reviewProposal else none
  events := []
  memory := []
  members := fun _ _ => some ⟨.admin, true⟩

def approveCommand : DecisionCommand Unit :=
  ⟨.approved, "approve-0001", reviewProposal, none, none, false⟩

def decideAtFive : DecideEnvironment := ⟨none, none, 1, 5, 5⟩

theorem reviewWorld_undecided : Undecided reviewWorld where
  keyed id p h := by
    simp only [reviewWorld] at h
    split at h
    · rename_i hid
      cases h
      exact hid.symm
    · cases h
  events := rfl
  memory := rfl

theorem recorded_of_mem {w : DecisionWorld Unit}
    (h : decisionEvent reviewProposal 0 approveCommand decideAtFive ∈ w.events) :
    Recorded w 0 0 0 approveCommand (decisionEvent reviewProposal 0 approveCommand decideAtFive) :=
  ⟨h, rfl, rfl, rfl, rfl, rfl⟩

end FounderOs.Decision
