import FounderOs.Canonical.ExternalId
import Mathlib.Data.List.Induction

namespace FounderOs.Canonical

/-- An issue or pull request as the provider shows it. -/
structure ShownItem where
  id : Nat
  number : Field
  htmlUrl : Field
  url : Field
  deriving DecidableEq, Repr

def ShownItem.response (item : ShownItem) : WorkItemResponse :=
  ⟨.integer item.id, item.number, item.htmlUrl, item.url⟩

inductive ProviderObject where
  | repository (fullName : RepositoryFullName) (id : Nat) (name : Field)
  | workItem (kind : WorkKind) (fullName : RepositoryFullName) (item : ShownItem)

namespace ProviderObject

def recordType : ProviderObject → RecordType
  | .repository _ _ _ => .repository
  | .workItem kind _ _ => kind.recordType

def id : ProviderObject → Nat
  | .repository _ id _ => id
  | .workItem _ _ item => item.id

def fullName : ProviderObject → RepositoryFullName
  | .repository fullName _ _ => fullName
  | .workItem _ fullName _ => fullName

/-- Numeric ids are unique within a kind only. -/
def identity (o : ProviderObject) : RecordType × Nat := (o.recordType, o.id)

/-- The external id that a live sync stores the object under. -/
def externalId : ProviderObject → String
  | .repository fullName id name => repositoryExternalId
    (buildNormalizedRepository (repositoryRecord ⟨.integer id, name⟩ fullName.text))
  | .workItem .issue fullName item => workItemExternalIdFromNormalized
    (buildNormalizedIssue (issueRecordFromGithubResponse item.response fullName.text))
  | .workItem .pullRequest fullName item => workItemExternalIdFromNormalized
    (buildNormalizedPullRequest (pullRequestRecordFromGithubResponse item.response fullName.text))

def pullNumber : ProviderObject → Option Nat
  | .workItem .pullRequest _ item => item.number.providerInt
  | .workItem .issue _ _ => none
  | .repository _ _ _ => none

/-- Both are named by their numeric ids, which agree, or by the numbers of two pull requests of one
repository, which agree. -/
def SharesName (o o' : ProviderObject) : Prop :=
  match o.pullNumber, o'.pullNumber with
  | none, none => shown o.id = shown o'.id
  | some n, some n' =>
    o.fullName.text = o'.fullName.text ∧ o.fullName.shownNumber n = o.fullName.shownNumber n'
  | none, some _ => False
  | some _, none => False

variable {o o' : ProviderObject} {n : Nat}

theorem externalId_of_unnumbered (h : o.pullNumber = none) : o.externalId = shown o.id := by
  cases o with
  | repository fullName id name => exact externalId_repositoryRecord id name fullName.text
  | workItem kind fullName item =>
    cases kind with
    | issue => exact externalId_issueRecord item.id item.number item.htmlUrl item.url fullName.text
    | pullRequest =>
      exact externalId_pullRequestRecord_unnumbered item.id item.number item.htmlUrl item.url h
        fullName.text

theorem externalId_of_numbered (h : o.pullNumber = some n) :
    o.externalId = Text.clip (o.fullName.pullRequest n) 255 := by
  cases o with
  | repository fullName id name => cases h
  | workItem kind fullName item =>
    cases kind with
    | issue => cases h
    | pullRequest =>
      exact externalId_pullRequestRecord_numbered item.id item.number item.htmlUrl item.url h
        fullName

/-- The execution result sync stores an issue under the same external id. -/
theorem externalId_result (repository : RepositoryFullName) (item : ShownItem)
    (fallbackNumber : Nat) :
    workItemExternalIdFromNormalized (buildNormalizedIssue
      (resultIssueRecord item.response repository.text fallbackNumber)) =
        (workItem .issue repository item).externalId := by
  rw [externalId_of_unnumbered (o := .workItem .issue repository item) rfl]
  exact externalId_resultIssueRecord item.id item.number item.htmlUrl item.url repository.text
    fallbackNumber

theorem shown_ne_pullRequest (m n : Nat) (repository : RepositoryFullName) :
    shown m ≠ Text.clip (repository.pullRequest n) 255 := by
  intro h
  have hmarker := marker_mem_clip_pullRequest repository n
  rw [← h] at hmarker
  exact not_mem_shown rfl hmarker

theorem sharesName_iff : o.SharesName o' ↔ o.externalId = o'.externalId := by
  unfold SharesName
  cases h : o.pullNumber with
  | none =>
    rw [externalId_of_unnumbered h]
    cases h' : o'.pullNumber with
    | none => rw [externalId_of_unnumbered h']
    | some n' =>
      rw [externalId_of_numbered h']
      exact ⟨False.elim, shown_ne_pullRequest o.id n' o'.fullName⟩
  | some n =>
    rw [externalId_of_numbered h]
    cases h' : o'.pullNumber with
    | none =>
      rw [externalId_of_unnumbered h']
      exact ⟨False.elim, fun heq => shown_ne_pullRequest o'.id n o.fullName heq.symm⟩
    | some n' =>
      rw [externalId_of_numbered h']
      exact (o.fullName.clip_pullRequest_eq_iff o'.fullName n n').symm

/-- Of whatever kinds, two objects named by their ids share a name as soon as they share the id. -/
theorem sharesName_iff_id (h : o.pullNumber = none) (h' : o'.pullNumber = none)
    (hid : o.id < 10 ^ 255) (hid' : o'.id < 10 ^ 255) : o.SharesName o' ↔ o.id = o'.id := by
  rw [sharesName_iff, externalId_of_unnumbered h, externalId_of_unnumbered h']
  exact shown_inj hid hid'

end ProviderObject

abbrev ObjectRecord := NormalizedRecord String String ProviderObject
abbrev ObjectRecords := SourceRecords String String ProviderObject

/-- A repository as one live sync reads and stores it. -/
structure LiveBatch where
  fullName : RepositoryFullName
  repositoryId : Nat
  repositoryName : Field
  items : WorkKind → List ShownItem
  authoritative : WorkKind → Bool
  observedAt : Instant
  syncJobId : SyncJobId
  reconciledAt : Instant

/-- An issue as one execution result sync reads and stores it. -/
structure ResultBatch where
  fullName : RepositoryFullName
  issue : ShownItem
  fallbackNumber : Nat
  snapshotObservedAt : Instant
  syncJobId : SyncJobId

inductive NormalizationBatch where
  | live (batch : LiveBatch)
  | result (batch : ResultBatch)

def LiveBatch.batch (b : LiveBatch) : RepositoryBatch String String ProviderObject where
  fullName := b.fullName.text
  observedAt := b.observedAt
  repositoryExternalId :=
    (ProviderObject.repository b.fullName b.repositoryId b.repositoryName).externalId
  repositoryPayload := .repository b.fullName b.repositoryId b.repositoryName
  items kind := (b.items kind).map fun item =>
    ⟨(ProviderObject.workItem kind b.fullName item).externalId, .workItem kind b.fullName item⟩
  authoritative := b.authoritative

def ResultBatch.record (b : ResultBatch) : ObjectRecord where
  externalId := workItemExternalIdFromNormalized (buildNormalizedIssue
    (resultIssueRecord b.issue.response b.fullName.text b.fallbackNumber))
  recordType := .issue
  repositoryFullName := some b.fullName.text
  payload := .workItem .issue b.fullName b.issue

namespace NormalizationBatch

def records : NormalizationBatch → List ObjectRecord
  | .live b => b.batch.records
  | .result b => [b.record]

def objects (batch : NormalizationBatch) : List ProviderObject := batch.records.map (·.payload)

variable {K : Type} [DecidableEq K] (casefold : String → K)

def normalize (stored : ObjectRecords) : NormalizationBatch → ObjectRecords
  | .live b => normalizeBatch casefold b.batch b.syncJobId b.reconciledAt stored
  | .result b =>
    persistCanonicalGithubRecords stored b.syncJobId [b.record] b.snapshotObservedAt true

end NormalizationBatch

section Runs

variable {K : Type} [DecidableEq K] (casefold : String → K)

def normalizeAll (batches : List NormalizationBatch) : ObjectRecords :=
  batches.foldl (NormalizationBatch.normalize casefold) noRecords

def shownObjects (batches : List NormalizationBatch) : List ProviderObject :=
  batches.flatMap NormalizationBatch.objects

end Runs

/-- Every object shown still has a record of its own, and no two of them have the same. -/
structure CanonicalIdentity (objects : List ProviderObject) (records : ObjectRecords) : Prop where
  own : ∀ o ∈ objects, ∃ row, records o.externalId = some row ∧
    row.recordType = o.recordType ∧ row.payload.identity = o.identity
  distinct : ∀ o ∈ objects, ∀ o' ∈ objects, o.identity ≠ o'.identity →
    o.externalId ≠ o'.externalId

/-- What holds of the records however the objects are named. -/
structure Recorded (objects : List ProviderObject) (records : ObjectRecords) : Prop where
  origin : ∀ x row, records x = some row → row.payload ∈ objects ∧
    row.recordType = row.payload.recordType ∧ row.payload.externalId = x
  stored : ∀ o ∈ objects, records o.externalId ≠ none

def FromObject (record : ObjectRecord) : Prop :=
  record.externalId = record.payload.externalId ∧ record.recordType = record.payload.recordType

attribute [irreducible] ProviderObject.externalId

theorem NormalizationBatch.fromObject {batch : NormalizationBatch} {record : ObjectRecord}
    (h : record ∈ batch.records) : FromObject record := by
  cases batch with
  | live b =>
    rcases List.mem_cons.1 h with rfl | hwork
    · exact ⟨rfl, rfl⟩
    · rcases List.mem_append.1 hwork with hitem | hitem
      · obtain ⟨item, hmem, rfl⟩ := List.mem_map.1 hitem
        obtain ⟨shownItem, -, rfl⟩ := List.mem_map.1 hmem
        exact ⟨rfl, rfl⟩
      · obtain ⟨item, hmem, rfl⟩ := List.mem_map.1 hitem
        obtain ⟨shownItem, -, rfl⟩ := List.mem_map.1 hmem
        exact ⟨rfl, rfl⟩
  | result b =>
    have heq : record = b.record := List.mem_singleton.1 h
    rw [heq, FromObject, ResultBatch.record]
    refine ⟨?_, rfl⟩
    dsimp only
    exact ProviderObject.externalId_result b.fullName b.issue b.fallbackNumber

section Steps

variable {objects : List ProviderObject} {stored : ObjectRecords}

theorem recorded_upsert {record : ObjectRecord} (job : SyncJobId) (t : Instant) (b : Bool)
    (h : Recorded objects stored) (hrecord : FromObject record) :
    Recorded (objects ++ [record.payload]) (upsertSourceRecord stored job record t b).1 := by
  have hself := upsert_self stored record job t b
  refine ⟨fun x row hrow => ?_, fun o ho => ?_⟩
  · by_cases hx : x = record.externalId
    · subst hx
      rw [hself] at hrow
      split at hrow
      · cases hrow
        exact ⟨by simp [NormalizedRecord.row], hrecord.2, hrecord.1.symm⟩
      · obtain ⟨hmem, hrest⟩ := h.origin _ row hrow
        exact ⟨List.mem_append_left _ hmem, hrest⟩
    · rw [upsert_of_ne hx] at hrow
      obtain ⟨hmem, hrest⟩ := h.origin x row hrow
      exact ⟨List.mem_append_left _ hmem, hrest⟩
  · by_cases hx : o.externalId = record.externalId
    · rw [hx, hself]
      cases hrow : stored record.externalId with
      | none => simp
      | some existing =>
        rw [Option.all_some]
        split <;> exact Option.some_ne_none _
    · rw [upsert_of_ne hx]
      rcases List.mem_append.1 ho with hmem | hnew
      · exact h.stored o hmem
      · rw [List.mem_singleton.1 hnew, hrecord.1] at hx
        exact absurd rfl hx

theorem recorded_persist {normalized : List ObjectRecord} {job : SyncJobId} {t : Instant} {b : Bool}
    (h : Recorded objects stored) (hall : ∀ record ∈ normalized, FromObject record) :
    Recorded (objects ++ normalized.map (·.payload))
      (persistCanonicalGithubRecords stored job normalized t b) := by
  induction normalized generalizing objects stored with
  | nil =>
    rw [List.map_nil, List.append_nil]
    exact h
  | cons record rest ih =>
    obtain ⟨hrecord, hrest⟩ := List.forall_mem_cons.1 hall
    have hnext := ih (recorded_upsert job t b h hrecord) hrest
    rw [List.append_assoc] at hnext
    exact hnext

variable {K : Type} [DecidableEq K] {casefold : String → K}

theorem recorded_reconcile {r : Reconciliation String K} (h : Recorded objects stored) :
    Recorded objects (reconcileAuthoritativeGithubRecords casefold r stored) := by
  have hsame : ∀ x (row : SourceRecord String ProviderObject),
      (r.reconcileRecord casefold x row).payload = row.payload ∧
      (r.reconcileRecord casefold x row).recordType = row.recordType := by
    intro x row
    unfold Reconciliation.reconcileRecord
    split <;> exact ⟨rfl, rfl⟩
  refine ⟨fun x row hrow => ?_, fun o ho => ?_⟩
  · obtain ⟨before, hbefore, rfl⟩ := Option.map_eq_some_iff.1 hrow
    rw [(hsame x before).1, (hsame x before).2]
    exact h.origin x before hbefore
  · rw [reconcileAuthoritativeGithubRecords, ne_eq, Option.map_eq_none_iff]
    exact h.stored o ho

theorem recorded_reconcileScope {b : RepositoryBatch String String ProviderObject}
    {kind : WorkKind} {job : SyncJobId} {now : Instant} (h : Recorded objects stored) :
    Recorded objects (reconcileScope casefold b kind job now stored) := by
  unfold reconcileScope
  split
  · exact recorded_reconcile h
  · exact h

theorem recorded_normalize (casefold : String → K) (batch : NormalizationBatch) (h : Recorded objects stored) :
    Recorded (objects ++ batch.objects) (batch.normalize casefold stored) := by
  have hall : ∀ record ∈ batch.records, FromObject record := fun _ hmem => batch.fromObject hmem
  cases batch with
  | live b => exact recorded_reconcileScope (recorded_reconcileScope (recorded_persist h hall))
  | result b => exact recorded_persist h hall

theorem recorded_normalizeAll (batches : List NormalizationBatch) :
    Recorded (shownObjects batches) (normalizeAll casefold batches) := by
  induction batches using List.reverseRecOn with
  | nil => exact ⟨fun _ _ h => (by cases h), fun _ h => (by cases h)⟩
  | append_singleton done batch ih =>
    have hnext := recorded_normalize casefold batch ih
    simpa [normalizeAll, shownObjects] using hnext

/-- As long as shared names mean the same object, every object keeps its own record. -/
theorem Recorded.canonicalIdentity {objects : List ProviderObject} {records : ObjectRecords}
    (h : Recorded objects records)
    (hnames : ∀ o ∈ objects, ∀ o' ∈ objects, o.SharesName o' → o.identity = o'.identity) :
    CanonicalIdentity objects records := by
  refine ⟨fun o ho => ?_, fun o ho o' ho' hne heq => ?_⟩
  · obtain ⟨row, hrow⟩ := Option.ne_none_iff_exists'.1 (h.stored o ho)
    obtain ⟨hmem, htype, hname⟩ := h.origin _ row hrow
    have hsame : row.payload.identity = o.identity :=
      hnames _ hmem o ho (ProviderObject.sharesName_iff.2 hname)
    exact ⟨row, hrow, htype.trans (congrArg Prod.fst hsame), hsame⟩
  · exact hne (hnames o ho o' ho' (ProviderObject.sharesName_iff.2 heq))

theorem canonical_identity_iff (casefold : String → K) (batches : List NormalizationBatch) :
    (∀ done, done <+: batches →
        CanonicalIdentity (shownObjects done) (normalizeAll casefold done)) ↔
      ∀ o ∈ shownObjects batches, ∀ o' ∈ shownObjects batches,
        o.SharesName o' → o.identity = o'.identity := by
  constructor
  · intro hall o ho o' ho' hshares
    by_contra hne
    have hfinal := hall batches List.prefix_rfl
    exact hfinal.distinct o ho o' ho' hne (ProviderObject.sharesName_iff.1 hshares)
  · rintro hnames done ⟨later, rfl⟩
    refine (recorded_normalizeAll done).canonicalIdentity fun o ho o' ho' => ?_
    have hmem : ∀ p ∈ shownObjects done, p ∈ shownObjects (done ++ later) := by
      intro p hp
      rw [shownObjects, List.flatMap_append]
      exact List.mem_append_left _ hp
    exact hnames o (hmem o ho) o' (hmem o' ho')

end Steps

def exampleRepository : RepositoryFullName where
  text := "o/r"
  plain := ⟨by decide, Text.not_space_of_all (by decide)⟩
  unmarked := by decide
  short := by decide

/-- Repository 7 with its issue of id 7. -/
def sharedNumber : LiveBatch where
  fullName := exampleRepository
  repositoryId := 7
  repositoryName := .text "r"
  items kind :=
    match kind with
    | .issue => [⟨7, .integer 1, .other, .other⟩]
    | .pullRequest => []
  authoritative _ := false
  observedAt := 1
  syncJobId := 1
  reconciledAt := 1

theorem issue_retypes_repository :
    ¬∀ done, done <+: [.live sharedNumber] →
      CanonicalIdentity (shownObjects done) (normalizeAll (fun name => name) done) := by
  intro hall
  have hfinal := hall [.live sharedNumber] List.prefix_rfl
  let repository := ProviderObject.repository exampleRepository 7 (.text "r")
  let issue := ProviderObject.workItem .issue exampleRepository ⟨7, .integer 1, .other, .other⟩
  have hname : repository.externalId = issue.externalId :=
    (ProviderObject.externalId_of_unnumbered (o := repository) rfl).trans
      (ProviderObject.externalId_of_unnumbered (o := issue) rfl).symm
  obtain ⟨row, hrow, htype, -⟩ := hfinal.own repository List.mem_cons_self
  obtain ⟨row', hrow', htype', -⟩ := hfinal.own issue (List.mem_cons_of_mem _ List.mem_cons_self)
  rw [hname, hrow'] at hrow
  cases hrow
  cases htype.symm.trans htype'

end FounderOs.Canonical
