import Mathlib.Data.List.Pairwise
import Mathlib.Logic.Function.Basic

namespace FounderOs.Execution

inductive ProposalStatus where
  | proposed | approved | rejected | executed | failed
  deriving DecidableEq, Repr

inductive DecisionKind where
  | approved | rejected
  deriving DecidableEq, Repr

inductive ExecutionStatus where
  | claimed | running | succeeded | failed | uncertain
  deriving DecidableEq, Repr

def ExecutionStatus.activeOrSucceeded : ExecutionStatus → Bool
  | .claimed | .running | .succeeded | .uncertain => true
  | .failed => false

inductive TargetProvider where
  | github | internal
  deriving DecidableEq, Repr

inductive ActionType where
  | createGithubIssue | internalTodo
  deriving DecidableEq, Repr

abbrev WorkspaceId := Nat
abbrev ProposalId := Nat
abbrev ExecutionId := Nat
abbrev UserId := Nat
abbrev ConnectionId := Nat
abbrev IdempotencyKey := Nat
abbrev IssueNumber := Nat

/-- Microseconds. -/
abbrev Instant := Nat

/-- `content` stands for `payload` and `evidence_refs`, which no transaction here rewrites. -/
structure ActionProposal (Content : Type) where
  id : ProposalId
  workspaceId : WorkspaceId
  targetProvider : TargetProvider
  actionType : ActionType
  content : Content
  status : ProposalStatus
  updatedAt : Instant
  deriving DecidableEq, Repr

/-- The SHA-256 digest of `_execution_request_hash`, represented by the material it hashes. -/
structure RequestHash (Content : Type) where
  workspaceId : WorkspaceId
  proposalId : ProposalId
  proposalUpdatedAt : Instant
  targetProvider : TargetProvider
  actionType : ActionType
  content : Content
  connectionId : ConnectionId
  requestedByUserId : UserId
  deriving DecidableEq, Repr

structure ActionExecution (Content : Type) where
  id : ExecutionId
  actionProposalId : ProposalId
  workspaceId : WorkspaceId
  requestedByUserId : UserId
  connectionId : ConnectionId
  clientIdempotencyKey : IdempotencyKey
  requestHash : RequestHash Content
  status : ExecutionStatus
  providerResponse : Option IssueNumber
  claimedAt : Instant
  startedAt : Option Instant
  deriving DecidableEq, Repr

variable {Content : Type}

/-- The writes the code makes to an existing row, with the columns each one sets. -/
inductive Mark where
  | running (startedAt : Instant)
  | failed
  | uncertain
  | succeeded (issue : IssueNumber)
  deriving DecidableEq, Repr

namespace Mark

def status : Mark → ExecutionStatus
  | .running _ => .running
  | .failed => .failed
  | .uncertain => .uncertain
  | .succeeded _ => .succeeded

def apply : Mark → ActionExecution Content → ActionExecution Content
  | .running startedAt, x => { x with status := .running, startedAt := some startedAt }
  | .failed, x => { x with status := .failed }
  | .uncertain, x => { x with status := .uncertain }
  | .succeeded issue, x => { x with status := .succeeded, providerResponse := some issue }

variable (m : Mark) (x : ActionExecution Content)

@[simp] theorem apply_id : (m.apply x).id = x.id := by cases m <;> rfl
@[simp] theorem apply_actionProposalId : (m.apply x).actionProposalId = x.actionProposalId := by
  cases m <;> rfl
@[simp] theorem apply_workspaceId : (m.apply x).workspaceId = x.workspaceId := by cases m <;> rfl
@[simp] theorem apply_clientIdempotencyKey :
    (m.apply x).clientIdempotencyKey = x.clientIdempotencyKey := by cases m <;> rfl
@[simp] theorem apply_requestHash : (m.apply x).requestHash = x.requestHash := by cases m <;> rfl
@[simp] theorem apply_status : (m.apply x).status = m.status := by cases m <;> rfl

end Mark

structure TableConstraints (rows : List (ActionExecution Content)) : Prop where
  primaryKey : rows.Pairwise (fun x y => x.id ≠ y.id)
  clientIdempotencyKey : rows.Pairwise (fun x y =>
    ¬(x.workspaceId = y.workspaceId ∧ x.clientIdempotencyKey = y.clientIdempotencyKey))
  oneActiveOrSuccess : rows.Pairwise (fun x y =>
    ¬(x.actionProposalId = y.actionProposalId ∧
      x.status.activeOrSucceeded = true ∧ y.status.activeOrSucceeded = true))

instance (rows : List (ActionExecution Content)) : Decidable (TableConstraints rows) :=
  decidable_of_iff
    (rows.Pairwise (fun x y => x.id ≠ y.id) ∧
      rows.Pairwise (fun x y =>
        ¬(x.workspaceId = y.workspaceId ∧ x.clientIdempotencyKey = y.clientIdempotencyKey)) ∧
      rows.Pairwise (fun x y =>
        ¬(x.actionProposalId = y.actionProposalId ∧
          x.status.activeOrSucceeded = true ∧ y.status.activeOrSucceeded = true)))
    ⟨fun h => ⟨h.1, h.2.1, h.2.2⟩, fun h => ⟨h.1, h.2, h.3⟩⟩

/-- `action_executions` in the order of `created_at`, with its primary key and unique indexes. -/
structure ExecutionTable (Content : Type) where
  rows : List (ActionExecution Content)
  constraints : TableConstraints rows

namespace ExecutionTable

def empty : ExecutionTable Content := ⟨[], ⟨.nil, .nil, .nil⟩⟩

/-- A write that breaks a constraint is an `IntegrityError`: no new table. -/
def write (rows : List (ActionExecution Content)) : Option (ExecutionTable Content) :=
  if h : TableConstraints rows then some ⟨rows, h⟩ else none

def insert (table : ExecutionTable Content) (row : ActionExecution Content) :
    Option (ExecutionTable Content) :=
  write (table.rows ++ [row])

def amend (id : ExecutionId) (mark : Mark) (row : ActionExecution Content) :
    ActionExecution Content :=
  if row.id = id then mark.apply row else row

def update (table : ExecutionTable Content) (id : ExecutionId) (mark : Mark) :
    Option (ExecutionTable Content) :=
  write (table.rows.map (amend id mark))

def byIdempotencyKey (table : ExecutionTable Content) (workspace : WorkspaceId)
    (key : IdempotencyKey) : Option (ActionExecution Content) :=
  table.rows.find? (fun x => x.workspaceId = workspace ∧ x.clientIdempotencyKey = key)

def activeOrSuccessful (table : ExecutionTable Content) (proposal : ProposalId) :
    Option (ActionExecution Content) :=
  table.rows.find? (fun x => x.actionProposalId = proposal ∧ x.status.activeOrSucceeded = true)

theorem write_eq_some {rows : List (ActionExecution Content)} {t : ExecutionTable Content} :
    write rows = some t ↔ t.rows = rows := by
  unfold write
  split
  · rename_i h
    constructor
    · intro e; cases e; rfl
    · intro e
      obtain ⟨rows', h'⟩ := t
      subst e; rfl
  · rename_i h
    constructor
    · intro e; cases e
    · intro e; exact absurd (e ▸ t.constraints) h

variable {table t : ExecutionTable Content} {x y : ActionExecution Content}

theorem row_unique (hx : x ∈ table.rows) (hy : y ∈ table.rows) (h : x.id = y.id) : x = y := by
  by_contra hne
  have : Std.Symm (fun x y : ActionExecution Content => x.id ≠ y.id) := ⟨fun _ _ hab => hab.symm⟩
  exact table.constraints.primaryKey.forall hx hy hne h

theorem key_unique (hx : x ∈ table.rows) (hy : y ∈ table.rows)
    (hw : x.workspaceId = y.workspaceId)
    (hk : x.clientIdempotencyKey = y.clientIdempotencyKey) : x = y := by
  by_contra hne
  have : Std.Symm (fun x y : ActionExecution Content =>
      ¬(x.workspaceId = y.workspaceId ∧ x.clientIdempotencyKey = y.clientIdempotencyKey)) :=
    ⟨fun _ _ hab hba => hab ⟨hba.1.symm, hba.2.symm⟩⟩
  exact table.constraints.clientIdempotencyKey.forall hx hy hne ⟨hw, hk⟩

theorem active_unique (hx : x ∈ table.rows) (hy : y ∈ table.rows)
    (hp : x.actionProposalId = y.actionProposalId) (ax : x.status.activeOrSucceeded = true)
    (ay : y.status.activeOrSucceeded = true) : x = y := by
  by_contra hne
  have : Std.Symm (fun x y : ActionExecution Content =>
      ¬(x.actionProposalId = y.actionProposalId ∧
        x.status.activeOrSucceeded = true ∧ y.status.activeOrSucceeded = true)) :=
    ⟨fun _ _ hab hba => hab ⟨hba.1.symm, hba.2.2, hba.2.1⟩⟩
  exact table.constraints.oneActiveOrSuccess.forall hx hy hne ⟨hp, ax, ay⟩

theorem mem_insert (h : table.insert x = some t) :
    y ∈ t.rows ↔ y ∈ table.rows ∨ y = x := by
  rw [write_eq_some.mp h]
  simp

variable {id : ExecutionId} {mark : Mark}

@[simp] theorem amend_id : (amend id mark x).id = x.id := by unfold amend; split <;> simp

@[simp] theorem amend_actionProposalId :
    (amend id mark x).actionProposalId = x.actionProposalId := by unfold amend; split <;> simp

@[simp] theorem amend_workspaceId : (amend id mark x).workspaceId = x.workspaceId := by
  unfold amend; split <;> simp

@[simp] theorem amend_clientIdempotencyKey :
    (amend id mark x).clientIdempotencyKey = x.clientIdempotencyKey := by
  unfold amend; split <;> simp

@[simp] theorem amend_requestHash : (amend id mark x).requestHash = x.requestHash := by
  unfold amend; split <;> simp

theorem amend_self (h : x.id = id) : amend id mark x = mark.apply x := if_pos h

theorem amend_other (h : x.id ≠ id) : amend id mark x = x := if_neg h

theorem mem_update (h : table.update id mark = some t) :
    y ∈ t.rows ↔ ∃ r ∈ table.rows, amend id mark r = y := by
  rw [write_eq_some.mp h]
  exact List.mem_map

/-- Amending a row that is active already breaks no constraint. -/
theorem update_of_active (m : Mark) (hx : x ∈ table.rows) (hid : x.id = id)
    (ha : x.status.activeOrSucceeded = true) : ∃ t, table.update id m = some t := by
  have hact : ∀ y ∈ table.rows, (amend id m y).status.activeOrSucceeded = true →
      y.status.activeOrSucceeded = true := by
    intro y hy hya
    by_cases hyid : y.id = id
    · rwa [row_unique hy hx (hyid.trans hid.symm)]
    · rwa [amend_other hyid] at hya
  have hc : TableConstraints (table.rows.map (amend id m)) := by
    refine ⟨?_, ?_, ?_⟩ <;> rw [List.pairwise_map]
    · simpa using table.constraints.primaryKey
    · simpa using table.constraints.clientIdempotencyKey
    · refine table.constraints.oneActiveOrSuccess.imp_of_mem ?_
      rintro y z hy hz hne ⟨hp, hya, hza⟩
      exact hne ⟨by simpa using hp, hact y hy hya, hact z hz hza⟩
  exact ⟨⟨_, hc⟩, dif_pos hc⟩

theorem byIdempotencyKey_some {w : WorkspaceId} {k : IdempotencyKey}
    (h : table.byIdempotencyKey w k = some x) :
    x ∈ table.rows ∧ x.workspaceId = w ∧ x.clientIdempotencyKey = k := by
  refine ⟨List.mem_of_find?_eq_some h, ?_⟩
  simpa using List.find?_some h

theorem byIdempotencyKey_none {w : WorkspaceId} {k : IdempotencyKey} :
    table.byIdempotencyKey w k = none ↔
      ∀ x ∈ table.rows, x.workspaceId = w → x.clientIdempotencyKey ≠ k := by
  simp [byIdempotencyKey, List.find?_eq_none]

theorem activeOrSuccessful_some {p : ProposalId} (h : table.activeOrSuccessful p = some x) :
    x ∈ table.rows ∧ x.actionProposalId = p ∧ x.status.activeOrSucceeded = true := by
  refine ⟨List.mem_of_find?_eq_some h, ?_⟩
  simpa using List.find?_some h

theorem activeOrSuccessful_eq {p : ProposalId} (hx : x ∈ table.rows)
    (hp : x.actionProposalId = p) (ha : x.status.activeOrSucceeded = true) :
    table.activeOrSuccessful p = some x := by
  cases h : table.activeOrSuccessful p with
  | none =>
    have hnone := List.find?_eq_none.mp h x hx
    simp [hp, ha] at hnone
  | some y =>
    obtain ⟨hy, hyp, hya⟩ := activeOrSuccessful_some h
    rw [active_unique hy hx (hyp.trans hp.symm) hya ha]

end ExecutionTable

end FounderOs.Execution
