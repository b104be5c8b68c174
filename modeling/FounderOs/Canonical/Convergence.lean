import FounderOs.Canonical.SourceRecord
import FounderOs.Foundation.Register
import Mathlib.Data.List.Induction
import Mathlib.Data.Nat.Basic

namespace FounderOs.Canonical

open Register

variable {E N K P : Type}

/-- A complete provider snapshot of one repository. -/
structure Snapshot (E P : Type) where
  syncJobId : SyncJobId
  reconciledAt : Instant
  observedAt : Instant
  repositoryPayload : P
  items : WorkKind → List (WorkItem E P)

/-- The repository that the snapshots show: its name, and the external id of its own record. -/
structure RepositoryIdentity (E N : Type) where
  fullName : N
  externalId : E

def Snapshot.batch (s : Snapshot E P) (repository : RepositoryIdentity E N) :
    RepositoryBatch E N P where
  fullName := repository.fullName
  observedAt := s.observedAt
  repositoryExternalId := repository.externalId
  repositoryPayload := s.repositoryPayload
  items := s.items
  authoritative := fun _ => true

def Snapshot.itemIds (s : Snapshot E P) : List E :=
  (s.items .issue ++ s.items .pullRequest).map (·.externalId)

section LastRecord

variable [DecidableEq E]

/-- The record a batch persists last under an external id. -/
def lastRecord (x : E) : List (NormalizedRecord E N P) → Option (NormalizedRecord E N P)
  | [] => none
  | record :: rest =>
    match lastRecord x rest with
    | some later => some later
    | none => if record.externalId = x then some record else none

theorem lastRecord_eq_none {x : E} {records : List (NormalizedRecord E N P)} :
    lastRecord x records = none ↔ ∀ record ∈ records, record.externalId ≠ x := by
  induction records with
  | nil => simp [lastRecord]
  | cons record rest ih =>
    rw [List.forall_mem_cons, ← ih]
    cases hrest : lastRecord x rest <;> simp [lastRecord, hrest]

theorem lastRecord_mem {x : E} {records : List (NormalizedRecord E N P)}
    {record : NormalizedRecord E N P} (h : lastRecord x records = some record) :
    record ∈ records ∧ record.externalId = x := by
  induction records with
  | nil => cases h
  | cons first rest ih =>
    cases hrest : lastRecord x rest with
    | some later =>
      simp only [lastRecord, hrest] at h
      have hlater := ih (hrest.trans h)
      exact ⟨List.mem_cons_of_mem first hlater.1, hlater.2⟩
    | none =>
      simp only [lastRecord, hrest] at h
      split at h
      · rename_i heq
        cases h
        exact ⟨List.mem_cons_self, heq⟩
      · cases h

/-- Persisting a batch writes each row as a whole, from its last record, or not at all. -/
theorem persist_apply (records : SourceRecords E N P) (job : SyncJobId)
    (normalized : List (NormalizedRecord E N P)) (t : Instant) (x : E) :
    persistCanonicalGithubRecords records job normalized t true x =
      match lastRecord x normalized with
      | none => records x
      | some record =>
        if (records x).all (fun existing => existing.accepts t true) then some (record.row job t)
        else records x := by
  induction normalized generalizing records with
  | nil => rfl
  | cons first rest ih =>
    have hstep : persistCanonicalGithubRecords records job (first :: rest) t true x =
        persistCanonicalGithubRecords (upsertSourceRecord records job first t true).1 job rest t true
          x := rfl
    rw [hstep, ih]
    by_cases hx : first.externalId = x
    · subst hx
      rw [upsert_self]
      cases hrest : lastRecord first.externalId rest with
      | none => simp [lastRecord, hrest]
      | some record =>
        cases hall : (records first.externalId).all (fun existing => existing.accepts t true) <;>
          simp [lastRecord, hrest, hall, accepts_fresh]
    · rw [upsert_of_ne (Ne.symm hx)]
      cases hrest : lastRecord x rest <;> simp [lastRecord, hrest, hx]

end LastRecord

section Refinement

/-- A source record as a register: its type and payload, its time, and its tombstone's time. -/
def cell : Option (SourceRecord N P) → Cell Instant (RecordType × P)
  | none => .vacant
  | some row =>
    match row.tombstone with
    | none => .live row.observedAt (row.recordType, row.payload)
    | some tombstone => .retired row.observedAt tombstone.observedAt (row.recordType, row.payload)

variable {repository : RepositoryIdentity E N}

theorem observe_cell_accepted {row : SourceRecord N P} {t : Instant} {v : RecordType × P}
    (h : row.accepts t true = true) : (cell (some row)).observe ⟨t, some v⟩ = .live t v := by
  unfold SourceRecord.accepts at h
  cases hdead : row.tombstone with
  | none => simp_all [Cell.observe, cell]
  | some tombstone => simp_all [Cell.observe, cell]

theorem observe_cell_rejected {row : SourceRecord N P} {t : Instant} {v : RecordType × P}
    (h : row.accepts t true = false) :
    (cell (some row)).observe ⟨t, some v⟩ = cell (some row) := by
  unfold SourceRecord.accepts at h
  cases hdead : row.tombstone with
  | none =>
    have hnot : ¬row.observedAt ≤ t := by simpa [hdead] using h
    simp [Cell.observe, cell, hdead, hnot]
  | some tombstone =>
    simp only [hdead, Option.isNone_some, Bool.or_true, Option.all_some, Bool.true_and] at h
    have hnot : ¬(row.observedAt ≤ t ∧ tombstone.observedAt ≤ t) := by
      intro hboth
      simp [hboth] at h
    simp [Cell.observe, cell, hdead, hnot]

theorem observe_cell_skipped {row : SourceRecord N P} {t : Instant}
    (h : ¬(row.tombstone = none ∧ row.observedAt ≤ t)) :
    (cell (some row)).observe ⟨t, none⟩ = cell (some row) := by
  cases hdead : row.tombstone with
  | none =>
    have hnot : ¬row.observedAt ≤ t := fun hle => h ⟨hdead, hle⟩
    simp [Cell.observe, cell, hdead, hnot]
  | some tombstone => simp [Cell.observe, cell, hdead]

def Snapshot.sighting [DecidableEq E] (repository : RepositoryIdentity E N) (x : E) (s : Snapshot E P) :
    Sighting Instant (RecordType × P) where
  time := s.observedAt
  seen := (lastRecord x (s.batch repository).records).map (fun r => (r.recordType, r.payload))

def Snapshot.workItem [DecidableEq E] (repository : RepositoryIdentity E N) (x : E)
    (s : Snapshot E P) : Option (RecordType × P) :=
  (lastRecord x (s.batch repository).workRecords).map (fun r => (r.recordType, r.payload))

/-- Every row is the repository's own record or a work item of the repository. -/
def Belongs (repository : RepositoryIdentity E N) (records : SourceRecords E N P) : Prop :=
  ∀ x row, records x = some row →
    (row.recordType = .repository ∧ x = repository.externalId) ∨
      ((∃ kind : WorkKind, row.recordType = kind.recordType) ∧
        row.repositoryFullName = some repository.fullName)

variable {s : Snapshot E P} {records : SourceRecords E N P} {x : E}

theorem record_belongs {record : NormalizedRecord E N P}
    (h : record ∈ (s.batch repository).records) :
    (record.recordType = .repository ∧ record.externalId = repository.externalId) ∨
      ((∃ kind : WorkKind, record.recordType = kind.recordType ∧
          record.externalId ∈ (s.items kind).map (·.externalId)) ∧
        record.repositoryFullName = some repository.fullName) := by
  rcases List.mem_cons.1 h with rfl | hwork
  · exact .inl ⟨rfl, rfl⟩
  · refine .inr ?_
    rcases List.mem_append.1 hwork with hissue | hpull
    · obtain ⟨item, hitem, rfl⟩ := List.mem_map.1 hissue
      exact ⟨⟨.issue, rfl, List.mem_map_of_mem hitem⟩, rfl⟩
    · obtain ⟨item, hitem, rfl⟩ := List.mem_map.1 hpull
      exact ⟨⟨.pullRequest, rfl, List.mem_map_of_mem hitem⟩, rfl⟩

theorem mem_itemIds_of_kind {kind : WorkKind} (h : x ∈ (s.items kind).map (·.externalId)) :
    x ∈ s.itemIds := by
  rw [Snapshot.itemIds, List.map_append, List.mem_append]
  cases kind with
  | issue => exact .inl h
  | pullRequest => exact .inr h

section Scope

variable [DecidableEq K] {casefold : N → K} {row : SourceRecord N P}

theorem scans_of_unlisted (casefold : N → K) (hbelongs : Belongs repository records) (hrow : records x = some row)
    (hother : x ≠ repository.externalId) (hlive : row.tombstone = none)
    (hobserved : row.observedAt ≤ s.observedAt) :
    ∃ kind, ((s.batch repository).reconciliation casefold kind s.syncJobId
      s.reconciledAt).scans casefold row = true := by
  rcases hbelongs x row hrow with ⟨-, hx⟩ | ⟨⟨kind, hkind⟩, hname⟩
  · exact absurd hx hother
  · refine ⟨kind, scans_iff.2 ⟨hkind, hlive, hobserved, ?_⟩⟩
    rw [hname]
    rfl

/-- The repository's work items among the live rows: `recordType` and `payload` of the row at `x`. -/
def liveWorkItem (casefold : N → K) (fullName : N) (records : SourceRecords E N P)
    (x : E) : Option (RecordType × P) :=
  (records x).bind fun row =>
    if row.recordType ≠ .repository ∧ row.tombstone = none ∧
        row.repositoryFullName.map casefold = some (casefold fullName) then
      some (row.recordType, row.payload)
    else none

theorem liveWorkItem_eq_filter (h : Belongs repository records) (x : E) :
    liveWorkItem casefold repository.fullName records x =
      (cell (records x)).value.filter (fun v => decide (v.1 ≠ .repository)) := by
  unfold liveWorkItem
  cases hrow : records x with
  | none => rfl
  | some row =>
    cases hlive : row.tombstone with
    | some tombstone => simp [cell, hlive, Cell.value]
    | none =>
      rcases h x row hrow with ⟨htype, -⟩ | ⟨⟨kind, hkind⟩, hname⟩
      · simp [cell, hlive, Cell.value, htype, Option.filter]
      · have htype : row.recordType ≠ .repository := by
          rw [hkind]
          cases kind <;> exact RecordType.noConfusion
        simp [cell, hlive, Cell.value, htype, hname, Option.filter]

theorem liveWorkItem_isSome (h : Belongs repository records) (hother : x ≠ repository.externalId)
    (hlive : (cell (records x)).value.isSome = true) :
    (liveWorkItem casefold repository.fullName records x).isSome = true := by
  rw [liveWorkItem_eq_filter h]
  cases hrow : records x with
  | none => simp [hrow, cell, Cell.value] at hlive
  | some row =>
    rcases h x row hrow with ⟨-, hx⟩ | ⟨⟨kind, hkind⟩, -⟩
    · exact absurd hx hother
    · have htype : row.recordType ≠ .repository := by
        rw [hkind]
        cases kind <;> exact RecordType.noConfusion
      cases hdead : row.tombstone with
      | none => simp [cell, hdead, Cell.value, htype, Option.filter]
      | some tombstone => simp [hrow, cell, hdead, Cell.value] at hlive

end Scope

variable [DecidableEq E]

theorem lastRecord_work_eq_none :
    lastRecord x (s.batch repository).workRecords = none ↔ x ∉ s.itemIds := by
  rw [lastRecord_eq_none]
  constructor
  · intro h hx
    obtain ⟨item, hitem, rfl⟩ := List.mem_map.1 hx
    rcases List.mem_append.1 hitem with hissue | hpull
    · exact h _ (List.mem_append_left _ (List.mem_map_of_mem hissue)) rfl
    · exact h _ (List.mem_append_right _ (List.mem_map_of_mem hpull)) rfl
  · rintro hx record hrecord rfl
    refine hx ?_
    rcases List.mem_append.1 hrecord with hissue | hpull
    · obtain ⟨item, hitem, rfl⟩ := List.mem_map.1 hissue
      exact List.mem_map_of_mem (List.mem_append_left _ hitem)
    · obtain ⟨item, hitem, rfl⟩ := List.mem_map.1 hpull
      exact List.mem_map_of_mem (List.mem_append_right _ hitem)

theorem lastRecord_batch_none (h : lastRecord x (s.batch repository).records = none) :
    x ≠ repository.externalId ∧ x ∉ s.itemIds := by
  have hall := List.forall_mem_cons.1 (lastRecord_eq_none.1 h)
  exact ⟨fun hx => hall.1 hx.symm, lastRecord_work_eq_none.1 (lastRecord_eq_none.2 hall.2)⟩

theorem seen_eq_none :
    (s.sighting repository x).seen = none ↔ x ≠ repository.externalId ∧ x ∉ s.itemIds := by
  rw [Snapshot.sighting, Option.map_eq_none_iff]
  refine ⟨lastRecord_batch_none, fun ⟨hx, hunlisted⟩ => lastRecord_eq_none.2 ?_⟩
  exact List.forall_mem_cons.2 ⟨hx.symm, lastRecord_eq_none.1 (lastRecord_work_eq_none.2 hunlisted)⟩

/-- What a batch shows at `x`, its own repository record left out. -/
theorem workItem_eq_filter :
    (s.sighting repository x).seen.filter (fun v => decide (v.1 ≠ .repository)) =
      s.workItem repository x := by
  cases hlast : lastRecord x (s.batch repository).workRecords with
  | some record =>
    have hseen : lastRecord x (s.batch repository).records = some record := by
      simp [RepositoryBatch.records, lastRecord, hlast]
    have htype : record.recordType ≠ .repository := by
      rcases List.mem_append.1 (lastRecord_mem hlast).1 with hissue | hpull
      · obtain ⟨item, -, rfl⟩ := List.mem_map.1 hissue
        exact RecordType.noConfusion
      · obtain ⟨item, -, rfl⟩ := List.mem_map.1 hpull
        exact RecordType.noConfusion
    simp [Snapshot.sighting, Snapshot.workItem, hseen, hlast, htype]
  | none =>
    have hseen : lastRecord x (s.batch repository).records =
        if repository.externalId = x then
          some ⟨repository.externalId, .repository, none, s.repositoryPayload⟩ else none := by
      simp only [RepositoryBatch.records, lastRecord, hlast]
      rfl
    by_cases hx : repository.externalId = x
    · simp [Snapshot.sighting, Snapshot.workItem, hseen, hlast, hx]
    · simp [Snapshot.sighting, Snapshot.workItem, hseen, hlast, hx]

theorem workKind_recordType_injective {kind kind' : WorkKind}
    (h : kind.recordType = kind'.recordType) : kind = kind' := by
  cases kind <;> cases kind' <;> simp_all [WorkKind.recordType]

section Batch

variable [DecidableEq K] (casefold : N → K) (scope : RepositoryIdentity E N)

/-- What the two reconciliations of a batch make of a row. -/
def Snapshot.reconciled (s : Snapshot E P) (x : E) (row : SourceRecord N P) : SourceRecord N P :=
  let r kind := (s.batch scope).reconciliation casefold kind s.syncJobId s.reconciledAt
  (r .pullRequest).reconcileRecord casefold x ((r .issue).reconcileRecord casefold x row)

def applySnapshot (records : SourceRecords E N P) (s : Snapshot E P) : SourceRecords E N P :=
  normalizeBatch casefold (s.batch scope) s.syncJobId s.reconciledAt records

def applySnapshots (order : List (Snapshot E P)) : SourceRecords E N P :=
  order.foldl (applySnapshot casefold scope) noRecords

theorem applySnapshot_apply (records : SourceRecords E N P) (s : Snapshot E P) (x : E) :
    applySnapshot casefold scope records s x =
      (persistCanonicalGithubRecords records s.syncJobId (s.batch scope).records s.observedAt
        true x).map (s.reconciled casefold scope x) := by
  have hscope : ∀ kind current, reconcileScope casefold (s.batch scope) kind s.syncJobId
      s.reconciledAt current = reconcileAuthoritativeGithubRecords casefold
        ((s.batch scope).reconciliation casefold kind s.syncJobId s.reconciledAt) current :=
    fun _ _ => rfl
  rw [applySnapshot, normalizeBatch, hscope, hscope]
  exact Option.map_map _ _ _

end Batch

variable [DecidableEq K] {casefold : N → K} {row : SourceRecord N P}

theorem reconciled_kept
    (h : ∀ kind, ((s.batch repository).reconciliation casefold kind s.syncJobId
      s.reconciledAt).scans casefold row = true → x ∈ (s.items kind).map (·.externalId)) :
    s.reconciled casefold repository x row = row := by
  have hkept : ∀ kind, ((s.batch repository).reconciliation casefold kind s.syncJobId
      s.reconciledAt).reconcileRecord casefold x row = row := by
    intro kind
    refine if_neg ?_
    rintro ⟨hscans, hmissing⟩
    exact hmissing (h kind hscans)
  simp only [Snapshot.reconciled, hkept]

theorem reconciled_dropped {kind : WorkKind}
    (hmissing : ∀ kind, x ∉ (s.items kind).map (·.externalId))
    (hscans : ((s.batch repository).reconciliation casefold kind s.syncJobId
      s.reconciledAt).scans casefold row = true) :
    s.reconciled casefold repository x row =
      { row with tombstone := some ⟨s.reconciledAt, s.observedAt, s.syncJobId⟩ } := by
  simp only [Snapshot.reconciled]
  cases kind with
  | issue =>
    rw [reconcileRecord_tombstoned hscans (hmissing .issue)]
    refine reconcileRecord_of_not_scans ?_
    simp [Reconciliation.scans]
  | pullRequest =>
    have hother : ((s.batch repository).reconciliation casefold .issue s.syncJobId
        s.reconciledAt).scans casefold row = false := by
      have htype : row.recordType = .pullRequest := (scans_iff.1 hscans).1
      simp [Reconciliation.scans, RepositoryBatch.reconciliation, WorkKind.recordType, htype]
    rw [reconcileRecord_of_not_scans hother, reconcileRecord_tombstoned hscans (hmissing _)]
    rfl

theorem reconciled_fresh {record : NormalizedRecord E N P}
    (h : record ∈ (s.batch repository).records) {job : SyncJobId} {t : Instant} :
    s.reconciled casefold repository record.externalId (record.row job t) = record.row job t := by
  refine reconciled_kept fun kind hscans => ?_
  have htype : record.recordType = kind.recordType := (scans_iff.1 hscans).1
  rcases record_belongs h with ⟨hrepository, -⟩ | ⟨⟨kind', hkind', hlisted⟩, -⟩
  · cases kind <;> cases hrepository.symm.trans htype
  · exact workKind_recordType_injective (hkind'.symm.trans htype) ▸ hlisted

theorem reconciled_recordType :
    (s.reconciled casefold repository x row).recordType = row.recordType := by
  simp only [Snapshot.reconciled, Reconciliation.reconcileRecord]
  split <;> split <;> rfl

theorem reconciled_repositoryFullName :
    (s.reconciled casefold repository x row).repositoryFullName = row.repositoryFullName := by
  simp only [Snapshot.reconciled, Reconciliation.reconcileRecord]
  split <;> split <;> rfl

/-- A row too new to be written is too new to be tombstoned. -/
theorem reconciled_rejected (h : row.accepts s.observedAt true = false) :
    s.reconciled casefold repository x row = row := by
  refine reconciled_kept fun kind hscans => ?_
  obtain ⟨-, hlive, hobserved, -⟩ := scans_iff.1 hscans
  have haccepts : row.accepts s.observedAt true = true := by
    have hle : row.observedAt ≤ s.observedAt := hobserved
    simp [SourceRecord.accepts, hlive, hle]
  cases h.symm.trans haccepts

/-- A batch acts on each row as one sighting, of its last record under that id or of none. -/
theorem cell_applySnapshot (hbelongs : Belongs repository records) (s : Snapshot E P) (x : E) :
    cell (applySnapshot casefold repository records s x) =
      (cell (records x)).observe (s.sighting repository x) := by
  rw [applySnapshot_apply, persist_apply]
  cases hlast : lastRecord x (s.batch repository).records with
  | some record =>
    obtain ⟨hmem, rfl⟩ := lastRecord_mem hlast
    have hsight : s.sighting repository record.externalId =
        ⟨s.observedAt, some (record.recordType, record.payload)⟩ := by
      simp [Snapshot.sighting, hlast]
    rw [hsight]
    cases hrow : records record.externalId with
    | none =>
      simp only [Option.all_none, if_true, Option.map_some, reconciled_fresh hmem]
      rfl
    | some row =>
      cases haccepts : row.accepts s.observedAt true with
      | true =>
        simp only [Option.all_some, haccepts, if_true, Option.map_some, reconciled_fresh hmem]
        exact (observe_cell_accepted haccepts).symm
      | false =>
        simp only [Option.all_some, haccepts, Bool.false_eq_true, if_false, Option.map_some,
          reconciled_rejected haccepts]
        exact (observe_cell_rejected haccepts).symm
  | none =>
    have hsight : s.sighting repository x = ⟨s.observedAt, none⟩ := by
      simp [Snapshot.sighting, hlast]
    obtain ⟨hother, hunlisted⟩ := lastRecord_batch_none hlast
    have hmissing : ∀ kind, x ∉ (s.items kind).map (·.externalId) :=
      fun kind h => hunlisted (mem_itemIds_of_kind h)
    rw [hsight]
    cases hrow : records x with
    | none => rfl
    | some row =>
      simp only [Option.map_some]
      by_cases hscanned : row.tombstone = none ∧ row.observedAt ≤ s.observedAt
      · obtain ⟨hlive, hobserved⟩ := hscanned
        obtain ⟨kind, hscans⟩ := scans_of_unlisted casefold hbelongs hrow hother hlive hobserved
        rw [reconciled_dropped hmissing hscans]
        simp [cell, Cell.observe, hlive, hobserved]
      · rw [reconciled_kept fun kind hscans => absurd
          ⟨(scans_iff.1 hscans).2.1, (scans_iff.1 hscans).2.2.1⟩ hscanned]
        exact (observe_cell_skipped hscanned).symm

theorem belongs_applySnapshot (h : Belongs repository records) (s : Snapshot E P) :
    Belongs repository (applySnapshot casefold repository records s) := by
  intro x row hrow
  rw [applySnapshot_apply] at hrow
  obtain ⟨before, hbefore, rfl⟩ := Option.map_eq_some_iff.1 hrow
  rw [reconciled_recordType, reconciled_repositoryFullName]
  rw [persist_apply] at hbefore
  cases hlast : lastRecord x (s.batch repository).records with
  | none =>
    simp only [hlast] at hbefore
    exact h x before hbefore
  | some record =>
    obtain ⟨hmem, rfl⟩ := lastRecord_mem hlast
    simp only [hlast] at hbefore
    split at hbefore
    · cases hbefore
      rcases record_belongs hmem with hown | ⟨⟨kind, hkind, -⟩, hname⟩
      · exact .inl hown
      · exact .inr ⟨⟨kind, hkind⟩, hname⟩
    · exact h _ before hbefore

theorem applySnapshots_append (order : List (Snapshot E P)) (s : Snapshot E P) :
    applySnapshots casefold repository (order ++ [s]) =
      applySnapshot casefold repository (applySnapshots casefold repository order) s := by
  simp [applySnapshots, List.foldl_append]

theorem belongs_applySnapshots (order : List (Snapshot E P)) :
    Belongs repository (applySnapshots casefold repository order) := by
  induction order using List.reverseRecOn with
  | nil => exact fun _ _ h => by cases h
  | append_singleton order s ih =>
    rw [applySnapshots_append]
    exact belongs_applySnapshot ih s

theorem cell_applySnapshots (order : List (Snapshot E P)) (x : E) :
    cell (applySnapshots casefold repository order x) =
      observeAll (order.map (·.sighting repository x)) := by
  induction order using List.reverseRecOn with
  | nil => rfl
  | append_singleton order s ih =>
    rw [applySnapshots_append, cell_applySnapshot (belongs_applySnapshots order), ih]
    simp [observeAll, List.foldl_append]

/-- In the order of their observation the snapshots always leave the work items of the newest. -/
theorem applySnapshots_in_order {earlier : List (Snapshot E P)} {newest : Snapshot E P}
    (hnewest : ∀ s ∈ earlier, s.observedAt ≤ newest.observedAt) (x : E) :
    liveWorkItem casefold repository.fullName
      (applySnapshots casefold repository (earlier ++ [newest])) x = newest.workItem repository x := by
  have hvalue : (observeAll ((earlier ++ [newest]).map (·.sighting repository x))).value =
      (newest.sighting repository x).seen := by
    rw [List.map_append]
    refine observeAll_in_order fun o ho => ?_
    obtain ⟨s, hs, rfl⟩ := List.mem_map.1 ho
    exact hnewest s hs
  rw [liveWorkItem_eq_filter (belongs_applySnapshots _), cell_applySnapshots, hvalue,
    workItem_eq_filter]

/-- An item that only older snapshots list is live after some order. -/
theorem liveWorkItem_revived (casefold : N → K) {snapshots : List (Snapshot E P)} (hs : s ∈ snapshots)
    (hlisted : x ∈ s.itemIds) (hother : x ≠ repository.externalId) :
    ∃ order, order.Perm snapshots ∧ (liveWorkItem casefold repository.fullName
      (applySnapshots casefold repository order) x).isSome = true := by
  have hsome : (s.sighting repository x).seen.isSome = true := by
    rw [Option.isSome_iff_ne_none, ne_eq, seen_eq_none]
    exact fun h => h.2 hlisted
  have hexists : ∃ s ∈ snapshots, (s.sighting repository x).seen.isSome = true := ⟨s, hs, hsome⟩
  obtain ⟨order, hperm, hlive⟩ := observeAll_revived (Snapshot.sighting repository x) hexists
  refine ⟨order, hperm, liveWorkItem_isSome (belongs_applySnapshots order) hother ?_⟩
  rwa [cell_applySnapshots]

theorem snapshots_converge_iff (casefold : N → K) (repository : RepositoryIdentity E N)
    {snapshots : List (Snapshot E P)} (newest : Snapshot E P) (hmem : newest ∈ snapshots)
    (hnewest : ∀ s ∈ snapshots, s.observedAt ≤ newest.observedAt)
    (hdistinct : snapshots.Pairwise (fun s s' => s.observedAt ≠ s'.observedAt)) :
    (∀ order : List (Snapshot E P), order.Perm snapshots → ∀ x,
        liveWorkItem casefold repository.fullName (applySnapshots casefold repository order) x =
          newest.workItem repository x) ↔
      ∀ s ∈ snapshots, ∀ x ∈ s.itemIds, x ≠ repository.externalId → x ∈ newest.itemIds := by
  constructor
  · intro hall s hs x hlisted hother
    by_contra hmissing
    obtain ⟨order, hperm, hlive⟩ :=
      liveWorkItem_revived casefold hs hlisted hother
    have hnone : newest.workItem repository x = none := by
      rw [Snapshot.workItem, lastRecord_work_eq_none.2 hmissing]
      rfl
    rw [hall order hperm x, hnone] at hlive
    cases hlive
  · intro hlisted order hperm x
    have hseen : (newest.sighting repository x).seen.isSome = true ∨
        ∀ s ∈ snapshots, (s.sighting repository x).seen = none := by
      by_cases hshown : (newest.sighting repository x).seen = none
      · refine .inr fun s hs => seen_eq_none.2 ?_
        obtain ⟨hother, hmissing⟩ := seen_eq_none.1 hshown
        exact ⟨hother, fun hx => hmissing (hlisted s hs x hx hother)⟩
      · exact .inl (Option.isSome_iff_ne_none.2 hshown)
    have hvalue := (observeAll_converges_iff (·.sighting repository x) hmem hnewest hdistinct).2
      hseen order hperm
    rw [liveWorkItem_eq_filter (belongs_applySnapshots order), cell_applySnapshots, hvalue,
      workItem_eq_filter]

end Refinement

def oneRepository : RepositoryIdentity Nat Nat := ⟨0, 0⟩

/-- A snapshot of `oneRepository`, its issues with their external ids as payloads. -/
def issuesAt (observedAt : Instant) (issues : List Nat) : Snapshot Nat Nat where
  syncJobId := observedAt
  reconciledAt := observedAt
  observedAt := observedAt
  repositoryPayload := 0
  items kind :=
    match kind with
    | .issue => issues.map fun issue => ⟨issue, issue⟩
    | .pullRequest => []

theorem snapshots_converge_growing :
    liveWorkItem id 0 (applySnapshots id oneRepository [issuesAt 2 [1, 2], issuesAt 1 [1]]) 2 =
      (issuesAt 2 [1, 2]).workItem oneRepository 2 :=
  (snapshots_converge_iff id oneRepository
    (issuesAt 2 [1, 2]) (by simp) (by simp [issuesAt]) (by simp [issuesAt])).2 (by
      intro s hs x hx _
      simp_all [Snapshot.itemIds, issuesAt]
      grind) _ (List.Perm.swap _ _ _) 2

/-- A snapshot without the issue arrives first and leaves nothing to hold the older one back. -/
theorem older_snapshot_revives :
    ¬∀ order, order.Perm [issuesAt 1 [1], issuesAt 2 []] → ∀ x,
      liveWorkItem id 0 (applySnapshots id oneRepository order) x =
        (issuesAt 2 []).workItem oneRepository x := by
  intro hall
  have hswapped := hall [issuesAt 2 [], issuesAt 1 [1]] (List.Perm.swap _ _ _) 1
  revert hswapped
  decide

end FounderOs.Canonical
