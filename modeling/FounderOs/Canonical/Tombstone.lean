import FounderOs.Canonical.LiveRead
import FounderOs.Foundation.Transition

namespace FounderOs.Canonical

open Transition

variable {E N K P : Type}

/-- What a `GitHubExecutionResultSyncService.sync` stores: the issue it was shown at `readAt`, under
the snapshot time it took before reading. -/
structure ResultRead (H : ProviderHistory E K P) (casefold : N → K) where
  fullName : N
  externalId : E
  snapshotObservedAt : Instant
  readAt : Instant
  stampedFirst : snapshotObservedAt ≤ readAt
  present : H.Present .issue (casefold fullName) externalId readAt

def ResultRead.normalized {H : ProviderHistory E K P} {casefold : N → K}
    (result : ResultRead H casefold) : NormalizedRecord E N P :=
  ⟨result.externalId, .issue, some result.fullName, H.payload result.readAt result.externalId⟩

/-- The writes of the transactions, row by row: a reconciliation reaches the rows of `rows`, so
that transactions on different rows interleave freely. -/
inductive Action (H : ProviderHistory E K P) (casefold : N → K) where
  | persist (read : LiveRead H casefold) (index : Nat) (job : SyncJobId)
  | reconcile (read : LiveRead H casefold) (kind : WorkKind) (rows : E → Bool) (job : SyncJobId)
      (now : Instant)
  | storeResult (result : ResultRead H casefold) (job : SyncJobId)
  | earlierSync (record : NormalizedRecord E N P) (job : SyncJobId) (observedAt : Instant)
      (allowRestore : Bool)

section Steps

variable [DecidableEq E] [DecidableEq K] {H : ProviderHistory E K P} {casefold : N → K}

def reconcileRows (read : LiveRead H casefold) (kind : WorkKind) (rows : E → Bool)
    (job : SyncJobId) (now : Instant) (records : SourceRecords E N P) : SourceRecords E N P :=
  fun x => if rows x then reconcileScope casefold read.batch kind job now records x else records x

def step (records : SourceRecords E N P) (a : Action H casefold) : Option (SourceRecords E N P) :=
  match a with
  | .persist read index job => (read.batch.records[index]?).map fun record =>
    (upsertSourceRecord records job record read.observedAt true).1
  | .reconcile read kind rows job now => some (reconcileRows read kind rows job now records)
  | .storeResult result job => some
    (upsertSourceRecord records job result.normalized result.snapshotObservedAt true).1
  | .earlierSync record job observedAt allowRestore => some
    (upsertSourceRecord records job record observedAt allowRestore).1

end Steps

variable {H : ProviderHistory E K P} {casefold : N → K}

/-- The provider lacked the object of `row` at an instant not before the row's `observed_at`. -/
def Lacked (H : ProviderHistory E K P) (casefold : N → K) (x : E) (row : SourceRecord N P) : Prop :=
  ∃ kind repository t, row.recordType = kind.recordType ∧
    row.repositoryFullName.map casefold = some repository ∧ row.observedAt ≤ t ∧
    ¬H.Present kind repository x t

def TombstonesSound (H : ProviderHistory E K P) (casefold : N → K)
    (records : SourceRecords E N P) : Prop :=
  ∀ x row, records x = some row → row.tombstone ≠ none → Lacked H casefold x row

variable [DecidableEq K]

/-- A batch that is about to tombstone a row read its first page no earlier than the row's
`observed_at`, and nothing listed ahead of the row's object disappeared between its pages. -/
def SteadyTombstones (records : SourceRecords E N P) (a : Action H casefold) : Prop :=
  ∀ (read : LiveRead H casefold) kind rows job now, a = .reconcile read kind rows job now →
    ∀ x row, records x = some row → rows x = true →
      (read.batch.reconciliation casefold kind job now).scans casefold row = true →
      x ∉ (read.batch.items kind).map (·.externalId) →
      row.observedAt ≤ read.pageAt kind 0 ∧ read.Steady kind x

variable {records records' : SourceRecords E N P} {a : Action H casefold} {x : E}
  {row : SourceRecord N P}

theorem lacked_of_steady {read : LiveRead H casefold} {kind : WorkKind} {job : SyncJobId}
    {now : Instant} {before : SourceRecord N P}
    (hauth : read.prepared.authoritative kind = true)
    (hscans : (read.batch.reconciliation casefold kind job now).scans casefold before = true)
    (hmissing : x ∉ (read.batch.items kind).map (·.externalId))
    (hfirst : before.observedAt ≤ read.pageAt kind 0) (hsteady : read.Steady kind x) :
    Lacked H casefold x before := by
  obtain ⟨htype, -, -, hscope⟩ := scans_iff.1 hscans
  by_contra hnever
  refine hmissing (LiveRead.observed_of_present hauth hsteady fun n hn => ?_)
  by_contra hlacked
  have hle : before.observedAt ≤ read.pageAt kind n :=
    Nat.le_trans hfirst (LiveRead.first_le_pageAt kind n)
  exact hnever ⟨kind, casefold read.fullName, read.pageAt kind n, htype, hscope, hle, hlacked⟩

variable [DecidableEq E]

theorem upsert_tombstoned {record : NormalizedRecord E N P} {job : SyncJobId} {t : Instant}
    {allowRestore : Bool}
    (h : (upsertSourceRecord records job record t allowRestore).1 x = some row)
    (hdead : row.tombstone ≠ none) : records x = some row := by
  by_cases hx : x = record.externalId
  · subst hx
    rw [upsert_self] at h
    split at h
    · cases h
      exact absurd rfl hdead
    · exact h
  · rwa [upsert_of_ne hx] at h

/-- A row is tombstoned already, or the reconciliation scans it and does not find it observed. -/
theorem reconcileRows_tombstoned {read : LiveRead H casefold} {kind : WorkKind} {rows : E → Bool}
    {job : SyncJobId} {now : Instant}
    (h : reconcileRows read kind rows job now records x = some row)
    (hdead : row.tombstone ≠ none) :
    records x = some row ∨
      ∃ before, records x = some before ∧ rows x = true ∧
        read.prepared.authoritative kind = true ∧
        (read.batch.reconciliation casefold kind job now).scans casefold before = true ∧
        x ∉ (read.batch.items kind).map (·.externalId) ∧
        row.recordType = before.recordType ∧
        row.repositoryFullName = before.repositoryFullName ∧ row.observedAt = before.observedAt := by
  unfold reconcileRows at h
  split at h
  · rename_i hrows
    unfold reconcileScope at h
    split at h
    · rename_i hauth
      obtain ⟨before, hbefore, hafter⟩ := Option.map_eq_some_iff.1 h
      by_cases hscan : (read.batch.reconciliation casefold kind job now).scans casefold before =
          true ∧ x ∉ (read.batch.items kind).map (·.externalId)
      · rw [reconcileRecord_tombstoned hscan.1 hscan.2] at hafter
        subst hafter
        exact .inr ⟨before, hbefore, hrows, hauth, hscan.1, hscan.2, rfl, rfl, rfl⟩
      · have hsame : (read.batch.reconciliation casefold kind job now).reconcileRecord casefold x
            before = before := if_neg hscan
        rw [hsame] at hafter
        exact .inl (hafter ▸ hbefore)
    · exact .inl h
  · exact .inl h

theorem tombstonesSound_step (h : TombstonesSound H casefold records)
    (ha : SteadyTombstones records a) (hstep : step records a = some records') :
    TombstonesSound H casefold records' := by
  intro x row hrow hdead
  cases a with
  | persist read index job =>
    obtain ⟨record, -, rfl⟩ := Option.map_eq_some_iff.1 hstep
    exact h x row (upsert_tombstoned hrow hdead) hdead
  | storeResult result job =>
    cases hstep
    exact h x row (upsert_tombstoned hrow hdead) hdead
  | earlierSync record job observedAt allowRestore =>
    cases hstep
    exact h x row (upsert_tombstoned hrow hdead) hdead
  | reconcile read kind rows job now =>
    cases hstep
    rcases reconcileRows_tombstoned hrow hdead with hsame |
      ⟨before, hbefore, hrows, hauth, hscans, hmissing, htype, hname, hobserved⟩
    · exact h x row hsame hdead
    · obtain ⟨hfirst, hsteady⟩ := ha read kind rows job now rfl x before hbefore hrows hscans hmissing
      obtain ⟨kind', repository, t, htype', hscope, hle, hlacked⟩ :=
        lacked_of_steady hauth hscans hmissing hfirst hsteady
      exact ⟨kind', repository, t, htype.trans htype', hname ▸ hscope, hobserved ▸ hle, hlacked⟩

/-- A provider with one issue in one repository, there at the instants of `alive`. -/
def oneIssue (alive : Instant → Bool) : ProviderHistory Nat Nat Unit where
  listing kind _ t :=
    match kind with
    | .issue => if alive t then [⟨1, false⟩] else []
    | .pullRequest => []
  state _ _ := .opened
  payload _ _ := ()
  newestFirst kind _ t t' _ := by
    cases kind with
    | pullRequest => exact ⟨[], fun _ => true, rfl, fun _ h => by cases h⟩
    | issue =>
      cases ht : alive t with
      | false => exact ⟨_, fun _ => true, (List.append_nil _).symm, fun _ h => by simp at h⟩
      | true =>
        refine ⟨[], fun _ => alive t', ?_, ?_⟩
        · cases ht' : alive t' <;> simp
        · intro item _ hlater
          cases ht' : alive t' with
          | false => simp [ht'] at hlater
          | true => rfl
  pullRequests _ _ _ h := by cases h
  issueState _ _ _ _ _ := by decide

def issuesOnly : PreparedScope where
  includeIssues := true
  includePullRequests := false
  issueStates := [.all]
  pullRequestStates := []

/-- The one page of the issues, read at `t` when the issue is not there, and stamped at `stamp`. -/
def emptyRead (alive : Instant → Bool) (t stamp : Instant) (ht : alive t = false)
    (hstamp : t ≤ stamp) : LiveRead (oneIssue alive) (fun repository : Nat => repository) where
  fullName := 0
  prepared := issuesOnly
  repositoryExternalId := 0
  repositoryPayload := ()
  pageAt _ _ := t
  pages _ := [[]]
  observedAt := stamp
  ordered _ _ := le_rfl
  stamped _ _ := hstamp
  read kind hkind := by
    cases kind with
    | issue =>
      simp [Paging.readPages, ProviderHistory.page, Paging.slice, oneIssue, ht, maxPages, perPage]
    | pullRequest => cases hkind

end FounderOs.Canonical
