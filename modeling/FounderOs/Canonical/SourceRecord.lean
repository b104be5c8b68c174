import Mathlib.Logic.Function.Basic

namespace FounderOs.Canonical

/-- Microseconds. -/
abbrev Instant := Nat
abbrev SyncJobId := Nat

inductive RecordType where
  | repository | issue | pullRequest
  deriving DecidableEq, Repr

structure Tombstone where
  tombstonedAt : Instant
  observedAt : Instant
  syncJobId : SyncJobId
  deriving DecidableEq, Repr

variable {E N K P : Type}

/-- One row of `source_records`. The four tombstone columns and `is_deleted` are set and cleared
together (`ck_source_records_tombstone_provenance`); `repositoryFullName` is the payload's. -/
structure SourceRecord (N P : Type) where
  recordType : RecordType
  repositoryFullName : Option N
  payload : P
  observedAt : Instant
  syncJobId : SyncJobId
  tombstone : Option Tombstone
  deriving DecidableEq, Repr

/-- The rows of one workspace and provider: `(workspace_id, provider, external_id)` is unique. -/
abbrev SourceRecords (E N P : Type) := E → Option (SourceRecord N P)

def noRecords : SourceRecords E N P := fun _ => none

structure NormalizedRecord (E N P : Type) where
  externalId : E
  recordType : RecordType
  repositoryFullName : Option N
  payload : P
  deriving DecidableEq, Repr

inductive UpsertResult where
  | created
  | updated (restored : Bool)
  | skipped
  deriving DecidableEq, Repr

namespace SourceRecord

variable (row : SourceRecord N P)

def accepts (observedAt : Instant) (allowRestore : Bool) : Bool :=
  (row.tombstone.isNone || allowRestore) && decide (row.observedAt ≤ observedAt) &&
    row.tombstone.all (fun tombstone => decide (tombstone.observedAt ≤ observedAt))

end SourceRecord

def NormalizedRecord.row (record : NormalizedRecord E N P) (syncJobId : SyncJobId)
    (observedAt : Instant) : SourceRecord N P where
  recordType := record.recordType
  repositoryFullName := record.repositoryFullName
  payload := record.payload
  observedAt := observedAt
  syncJobId := syncJobId
  tombstone := none

theorem accepts_fresh (record : NormalizedRecord E N P) (job : SyncJobId) (t : Instant)
    (b : Bool) : (record.row job t).accepts t b = true := by
  simp [SourceRecord.accepts, NormalizedRecord.row]

section Writes

variable [DecidableEq E]

def upsertSourceRecord (records : SourceRecords E N P) (syncJobId : SyncJobId)
    (record : NormalizedRecord E N P) (observedAt : Instant) (allowRestore : Bool) :
    SourceRecords E N P × UpsertResult :=
  let written := Function.update records record.externalId (some (record.row syncJobId observedAt))
  match records record.externalId with
  | none => (written, .created)
  | some existing =>
    if existing.accepts observedAt allowRestore then (written, .updated existing.tombstone.isSome)
    else (records, .skipped)

def persistCanonicalGithubRecords (records : SourceRecords E N P) (syncJobId : SyncJobId)
    (normalized : List (NormalizedRecord E N P)) (observedAt : Instant) (allowRestore : Bool) :
    SourceRecords E N P :=
  normalized.foldl
    (fun current record => (upsertSourceRecord current syncJobId record observedAt allowRestore).1)
    records

end Writes

inductive WorkKind where
  | issue | pullRequest
  deriving DecidableEq, Repr

def WorkKind.recordType : WorkKind → RecordType
  | .issue => .issue
  | .pullRequest => .pullRequest

/-- One call of `reconcile_authoritative_github_records` with one repository in scope. -/
structure Reconciliation (E K : Type) where
  kind : WorkKind
  repository : K
  observed : List E
  snapshotObservedAt : Instant
  tombstonedAt : Instant
  syncJobId : SyncJobId

section Reconcile

variable [DecidableEq E] [DecidableEq K] (casefold : N → K)

/-- `casefold` is both the key of the scope and SQL's `lower` of the stored name: repository parts
are ASCII, where the two agree. -/
def Reconciliation.scans (r : Reconciliation E K) (row : SourceRecord N P) : Bool :=
  decide (row.recordType = r.kind.recordType) && row.tombstone.isNone &&
    decide (row.observedAt ≤ r.snapshotObservedAt) &&
    row.repositoryFullName.any (fun fullName => decide (casefold fullName = r.repository))

def Reconciliation.reconcileRecord (r : Reconciliation E K) (externalId : E)
    (row : SourceRecord N P) : SourceRecord N P :=
  if r.scans casefold row ∧ externalId ∉ r.observed then
    { row with tombstone := some ⟨r.tombstonedAt, r.snapshotObservedAt, r.syncJobId⟩ }
  else row

def reconcileAuthoritativeGithubRecords (r : Reconciliation E K) (records : SourceRecords E N P) :
    SourceRecords E N P :=
  fun externalId => (records externalId).map (r.reconcileRecord casefold externalId)

end Reconcile

structure WorkItem (E P : Type) where
  externalId : E
  payload : P
  deriving DecidableEq, Repr

def WorkItem.normalized (item : WorkItem E P) (kind : WorkKind) (fullName : N) :
    NormalizedRecord E N P :=
  ⟨item.externalId, kind.recordType, some fullName, item.payload⟩

/-- A `GitHubRepositoryBatch` with the scopes its request makes authoritative. -/
structure RepositoryBatch (E N P : Type) where
  fullName : N
  observedAt : Instant
  repositoryExternalId : E
  repositoryPayload : P
  items : WorkKind → List (WorkItem E P)
  authoritative : WorkKind → Bool

namespace RepositoryBatch

variable (batch : RepositoryBatch E N P)

def workRecords : List (NormalizedRecord E N P) :=
  (batch.items .issue).map (·.normalized .issue batch.fullName) ++
    (batch.items .pullRequest).map (·.normalized .pullRequest batch.fullName)

def records : List (NormalizedRecord E N P) :=
  ⟨batch.repositoryExternalId, .repository, none, batch.repositoryPayload⟩ :: batch.workRecords

def reconciliation (casefold : N → K) (kind : WorkKind) (syncJobId : SyncJobId)
    (tombstonedAt : Instant) : Reconciliation E K where
  kind := kind
  repository := casefold batch.fullName
  observed := (batch.items kind).map (·.externalId)
  snapshotObservedAt := batch.observedAt
  tombstonedAt := tombstonedAt
  syncJobId := syncJobId

end RepositoryBatch

section Normalize

variable [DecidableEq E] [DecidableEq K] (casefold : N → K)

def reconcileScope (batch : RepositoryBatch E N P) (kind : WorkKind) (syncJobId : SyncJobId)
    (tombstonedAt : Instant) (records : SourceRecords E N P) : SourceRecords E N P :=
  if batch.authoritative kind then
    reconcileAuthoritativeGithubRecords casefold
      (batch.reconciliation casefold kind syncJobId tombstonedAt) records
  else records

/-- What the transaction of `_persist_repository_batch` does to the source records. -/
def normalizeBatch (batch : RepositoryBatch E N P) (syncJobId : SyncJobId) (now : Instant)
    (records : SourceRecords E N P) : SourceRecords E N P :=
  reconcileScope casefold batch .pullRequest syncJobId now
    (reconcileScope casefold batch .issue syncJobId now
      (persistCanonicalGithubRecords records syncJobId batch.records batch.observedAt true))

end Normalize

theorem scans_iff [DecidableEq K] {casefold : N → K} {row : SourceRecord N P}
    {r : Reconciliation E K} : r.scans casefold row = true ↔
    row.recordType = r.kind.recordType ∧ row.tombstone = none ∧
      row.observedAt ≤ r.snapshotObservedAt ∧
      row.repositoryFullName.map casefold = some r.repository := by
  simp only [Reconciliation.scans, Bool.and_eq_true, decide_eq_true_eq, Option.isNone_iff_eq_none,
    Option.any_eq_true, Option.map_eq_some_iff, and_assoc]

section RowLemmas

variable [DecidableEq E] {records : SourceRecords E N P} {x : E}

theorem upsert_of_ne {record : NormalizedRecord E N P} {job : SyncJobId} {t : Instant} {b : Bool}
    (h : x ≠ record.externalId) : (upsertSourceRecord records job record t b).1 x = records x := by
  unfold upsertSourceRecord
  dsimp only
  split
  · exact Function.update_of_ne h _ _
  · split
    · exact Function.update_of_ne h _ _
    · rfl

theorem upsert_self (records : SourceRecords E N P) (record : NormalizedRecord E N P)
    (job : SyncJobId) (t : Instant) (b : Bool) :
    (upsertSourceRecord records job record t b).1 record.externalId =
      if (records record.externalId).all (fun existing => existing.accepts t b) then
        some (record.row job t) else records record.externalId := by
  unfold upsertSourceRecord
  cases hrow : records record.externalId with
  | none => simp
  | some existing =>
    cases haccepts : existing.accepts t b <;> simp [haccepts, hrow]

variable [DecidableEq K] {casefold : N → K} {row : SourceRecord N P}

theorem reconcileRecord_of_not_scans {r : Reconciliation E K} (h : r.scans casefold row = false) :
    r.reconcileRecord casefold x row = row := by
  simp [Reconciliation.reconcileRecord, h]

theorem reconcileRecord_tombstoned {r : Reconciliation E K}
    (hscans : r.scans casefold row = true) (hmissing : x ∉ r.observed) :
    r.reconcileRecord casefold x row =
      { row with tombstone := some ⟨r.tombstonedAt, r.snapshotObservedAt, r.syncJobId⟩ } := by
  simp [Reconciliation.reconcileRecord, hscans, hmissing]

end RowLemmas

end FounderOs.Canonical
