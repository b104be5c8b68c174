import Mathlib.Data.List.Lex
import Mathlib.Data.Nat.Basic
import FounderOs.Headquarters.Evidence
import FounderOs.Memory.Order

namespace FounderOs.Headquarters

open Execution (Instant UserId)

inductive ChangeKind where
  | proposal | source | relationship
  deriving DecidableEq, Repr

/-- The keys of a mission that temporal memory reads; a number is kept as its text. -/
structure Mission where
  id : Str
  title : Str
  summary : Str
  confidence : Option String
  sourceKeys : List Str
  evidenceRefs : List Evidence
  target : Option Str
  deriving DecidableEq

structure MissionCandidate where
  mission : Mission
  eventTime : Option Instant
  observedAt : Option Instant
  changeKind : Option ChangeKind
  deriving DecidableEq

structure EvidenceIdentity where
  id : Str
  referenceId : Str
  referenceType : Str
  deriving DecidableEq

/-- The digest of `_temporal_candidate_fingerprint`, represented by what it digests. -/
structure Fingerprint where
  id : Str
  kind : Option ChangeKind
  title : Str
  summary : Str
  eventTime : Option Instant
  observedAt : Option Instant
  confidence : Option String
  sourceKeys : List Str
  evidence : List EvidenceIdentity
  target : Option Str
  deriving DecidableEq

def temporalCandidateFingerprint (candidate : MissionCandidate) : Fingerprint where
  id := candidate.mission.id
  kind := candidate.changeKind
  title := candidate.mission.title
  summary := candidate.mission.summary
  eventTime := candidate.eventTime
  observedAt := candidate.observedAt
  confidence := candidate.mission.confidence
  sourceKeys := candidate.mission.sourceKeys
  evidence := candidate.mission.evidenceRefs.map fun ref =>
    ⟨ref.id, ref.referenceId, ref.referenceType⟩
  target := candidate.mission.target

def headquartersCheckpointFingerprintLimit : Nat := 512
def headquartersTemporalEventLimit : Nat := 3
def companyMemoryCheckpointVersion : String := "temporal-checkpoint.v2"

structure Checkpoint (S : Type) where
  checkpointVersion : String
  sourceSnapshotId : S
  observedThroughAt : Instant
  eventFingerprints : List Fingerprint
  lastEventSequence : Nat
  deriving DecidableEq

inductive ChangeItem where
  | candidate (candidate : MissionCandidate) (newOrChanged : Bool)
  | memoryEvent (event : Memory.Event)
  deriving DecidableEq

/-- `count_precision` is `at_least` where `atLeast`; the cursor, a digest of the checkpoint, is
represented by the checkpoint. -/
structure Changes (S : Type) where
  items : List ChangeItem
  sinceCheckpoint : Bool
  cursor : Option (Checkpoint S)
  checkpointedAt : Option Instant
  totalCount : Nat
  atLeast : Bool
  hasMore : Bool
  deriving DecidableEq

variable {S : Type}

def stamp : Option Instant → Nat
  | none => 0
  | some t => t + 1

/-- Newest first, then by id: the order of the two sort keys. -/
def newerFirst (a b : Option Instant × Option Instant × Str) : Bool :=
  if stamp a.1 ≠ stamp b.1 then stamp b.1 < stamp a.1
  else if stamp a.2.1 ≠ stamp b.2.1 then stamp b.2.1 < stamp a.2.1
  else a.2.2 ≤ b.2.2

def temporalCandidateSortKey (candidate : MissionCandidate) :
    Option Instant × Option Instant × Str :=
  (candidate.observedAt, candidate.eventTime, candidate.mission.id)

def changeItemSortKey (itemId : ChangeItem → Str) (item : ChangeItem) :
    Option Instant × Option Instant × Str :=
  match item with
  | .candidate c _ => (c.observedAt, c.eventTime, itemId item)
  | .memoryEvent e => (some e.observedAt, some e.fingerprint.occurredAt, itemId item)

def MissionCandidate.temporal (candidate : MissionCandidate) : Bool :=
  candidate.changeKind.isSome && candidate.observedAt.isSome &&
    candidate.mission.evidenceRefs ≠ []

def temporalCandidates (ranked : List MissionCandidate) : List MissionCandidate :=
  (ranked.filter (·.temporal)).mergeSort fun a b =>
    newerFirst (temporalCandidateSortKey a) (temporalCandidateSortKey b)

def checkpointEventCursorValid (checkpoint : Option (Checkpoint S)) (currentSequence : Nat) : Bool :=
  checkpoint.all fun c =>
    c.checkpointVersion = companyMemoryCheckpointVersion && c.lastEventSequence ≤ currentSequence

/-- The fingerprints themselves are digests, and always have the digits that are checked for. -/
def checkpointFingerprintSet (checkpoint : Option (Checkpoint S)) : List Fingerprint × Bool :=
  match checkpoint with
  | none => ([], true)
  | some c =>
    if headquartersCheckpointFingerprintLimit < c.eventFingerprints.length then ([], false)
    else (c.eventFingerprints, true)

/-- The filter of the event window beside the cursor. -/
def resolvedOrRestored (event : Memory.Event) : Bool :=
  event.fingerprint.lifecycleState = .resolved ||
    event.fingerprint.eventType = .sourceRecordRestored

structure EventWindow where
  currentSequence : Nat
  resolvedRows : List Memory.Event
  resolvedTotal : Nat
  cursorValid : Bool

def readCompanyMemoryEventWindow (events : List Memory.Event) (currentSequence : Nat)
    (checkpoint : Option (Checkpoint S)) : EventWindow :=
  let cursorValid := checkpointEventCursorValid checkpoint currentSequence
  match checkpoint with
  | none => ⟨currentSequence, [], 0, cursorValid⟩
  | some c =>
    if !cursorValid then ⟨currentSequence, [], 0, cursorValid⟩
    else
      let resolved := events.filter fun e =>
        c.lastEventSequence < e.workspaceSequence && resolvedOrRestored e
      ⟨currentSequence,
        (resolved.mergeSort fun a b => b.workspaceSequence ≤ a.workspaceSequence).take
          headquartersTemporalEventLimit,
        resolved.length, true⟩

def currentFingerprints (ranked : List MissionCandidate) : List Fingerprint :=
  ((temporalCandidates ranked).map temporalCandidateFingerprint).eraseDups

def buildChanges (itemId : ChangeItem → Str) (ranked : List MissionCandidate)
    (checkpoint : Option (Checkpoint S)) (atLeast : Bool) (resolvedItems : List ChangeItem)
    (resolvedTotal : Nat) (eventCursorValid : Bool) :
    Except String (Changes S × List Fingerprint × Bool) :=
  let candidates := temporalCandidates ranked
  if headquartersCheckpointFingerprintLimit < (currentFingerprints ranked).length then
    .error "temporal checkpoint fingerprint limit exceeded"
  else
    let checkpointFingerprints := (checkpointFingerprintSet checkpoint).1
    let checkpointValid := (checkpointFingerprintSet checkpoint).2 && eventCursorValid
    let useCheckpoint := checkpoint.isSome && checkpointValid
    let selected := candidates.filter fun c =>
      !useCheckpoint || decide (temporalCandidateFingerprint c ∉ checkpointFingerprints)
    let currentItems := selected.map fun c => .candidate c useCheckpoint
    let combinedItems := (currentItems ++ if useCheckpoint then resolvedItems else []).mergeSort
      fun a b => newerFirst (changeItemSortKey itemId a) (changeItemSortKey itemId b)
    let items := combinedItems.take headquartersTemporalEventLimit
    let totalCount := selected.length + if useCheckpoint then resolvedTotal else 0
    .ok ({ items := items
           sinceCheckpoint := useCheckpoint
           cursor := if useCheckpoint then checkpoint else none
           checkpointedAt := if useCheckpoint then checkpoint.map (·.observedThroughAt) else none
           totalCount := totalCount
           atLeast := atLeast
           hasMore := items.length < totalCount },
      currentFingerprints ranked, checkpointValid)

/-- `_company_memory_watermark_material`, its constant left out. -/
structure WatermarkMaterial (S : Type) where
  checkpointVersion : Option String
  checkpointValid : Bool
  checkpointCursor : Option (Checkpoint S)
  currentEventFingerprints : List Fingerprint
  currentLifecycleEventSequence : Nat
  resolvedEventsSinceCheckpoint : Nat
  deriving DecidableEq

/-- What the rest of the builder makes of the other rows of the workspace, for one user at one
time: the ranked candidates, whether a window was cut, the ids of items, and the digest of the
payload around the changes. -/
structure Reader (Canon S : Type) where
  ranked : Canon → UserId → Instant → List MissionCandidate
  windowCut : Canon → UserId → Instant → Bool
  itemId : ChangeItem → Str
  snapshotId : Canon → UserId → Instant → Changes S → WatermarkMaterial S → S

/-- The rows that one transaction sees. -/
structure View (Canon S : Type) where
  canonical : Canon
  events : List Memory.Event
  currentSequence : Nat
  checkpoint : Option (Checkpoint S)
  asOf : Instant

structure Snapshot (S : Type) where
  id : S
  asOf : Instant
  changes : Changes S
  checkpointFingerprints : List Fingerprint
  memoryEventSequence : Nat

variable {Canon : Type}

def buildHeadquartersSnapshot (reader : Reader Canon S) (userId : UserId) (view : View Canon S) :
    Except String (Snapshot S) :=
  let window := readCompanyMemoryEventWindow view.events view.currentSequence view.checkpoint
  (buildChanges reader.itemId (reader.ranked view.canonical userId view.asOf) view.checkpoint
      (reader.windowCut view.canonical userId view.asOf)
      (window.resolvedRows.map .memoryEvent) window.resolvedTotal window.cursorValid).map
    fun (changes, fingerprints, checkpointValid) =>
      let material : WatermarkMaterial S :=
        { checkpointVersion := view.checkpoint.map (·.checkpointVersion)
          checkpointValid := checkpointValid
          checkpointCursor := if checkpointValid then view.checkpoint else none
          currentEventFingerprints := fingerprints
          currentLifecycleEventSequence := window.currentSequence
          resolvedEventsSinceCheckpoint := window.resolvedTotal }
      { id := reader.snapshotId view.canonical userId view.asOf changes material
        asOf := view.asOf
        changes := changes
        checkpointFingerprints := fingerprints
        memoryEventSequence := window.currentSequence }

variable {reader : Reader Canon S} {userId : UserId} {v : View Canon S} {snapshot : Snapshot S}
variable {c : Checkpoint S}

theorem buildHeadquartersSnapshot_ok (h : buildHeadquartersSnapshot reader userId v = .ok snapshot) :
    (currentFingerprints (reader.ranked v.canonical userId v.asOf)).length ≤
        headquartersCheckpointFingerprintLimit ∧
      snapshot.checkpointFingerprints =
        currentFingerprints (reader.ranked v.canonical userId v.asOf) ∧
      snapshot.memoryEventSequence = v.currentSequence := by
  simp only [buildHeadquartersSnapshot, buildChanges] at h
  split at h
  · cases h
  · rename_i hfew
    have hwindow : (readCompanyMemoryEventWindow v.events v.currentSequence
        v.checkpoint).currentSequence = v.currentSequence := by
      unfold readCompanyMemoryEventWindow
      split
      · rfl
      · dsimp only
        split <;> rfl
    obtain rfl := Except.ok.inj h
    exact ⟨Nat.le_of_not_lt hfew, rfl, hwindow⟩

theorem buildHeadquartersSnapshot_exists
    (hfew : (currentFingerprints (reader.ranked v.canonical userId v.asOf)).length ≤
      headquartersCheckpointFingerprintLimit) :
    ∃ snapshot, buildHeadquartersSnapshot reader userId v = .ok snapshot := by
  unfold buildHeadquartersSnapshot buildChanges
  dsimp only
  rw [if_neg (Nat.not_lt.2 hfew)]
  exact ⟨_, rfl⟩

theorem length_temporalCandidates_filter (ranked : List MissionCandidate)
    (p : MissionCandidate → Bool) :
    ((temporalCandidates ranked).filter p).length =
      ((ranked.filter (·.temporal)).filter p).length :=
  ((List.mergeSort_perm _ _).filter p).length_eq

theorem readCompanyMemoryEventWindow_valid (events : List Memory.Event) {currentSequence : Nat}
    (hversion : c.checkpointVersion = companyMemoryCheckpointVersion)
    (hcursor : c.lastEventSequence ≤ currentSequence) :
    (readCompanyMemoryEventWindow events currentSequence (some c)).cursorValid = true ∧
      (readCompanyMemoryEventWindow events currentSequence (some c)).resolvedTotal =
        (events.filter fun e =>
          c.lastEventSequence < e.workspaceSequence && resolvedOrRestored e).length := by
  have hvalid : checkpointEventCursorValid (some c) currentSequence = true := by
    simp [checkpointEventCursorValid, hversion, hcursor]
  simp [readCompanyMemoryEventWindow, hvalid]

theorem buildChanges_since {itemId : ChangeItem → Str} {ranked : List MissionCandidate}
    {atLeast : Bool} {resolvedItems : List ChangeItem} {resolvedTotal : Nat}
    {result : Changes S × List Fingerprint × Bool}
    (h : buildChanges itemId ranked (some c) atLeast resolvedItems resolvedTotal true = .ok result)
    (hlength : c.eventFingerprints.length ≤ headquartersCheckpointFingerprintLimit) :
    result.1.sinceCheckpoint = true ∧
      result.1.totalCount = ((temporalCandidates ranked).filter fun candidate =>
        decide (temporalCandidateFingerprint candidate ∉ c.eventFingerprints)).length +
          resolvedTotal := by
  have hset : checkpointFingerprintSet (some c) = (c.eventFingerprints, true) :=
    if_neg (Nat.not_lt.2 hlength)
  rw [buildChanges] at h
  dsimp only at h
  split at h
  · cases h
  · obtain rfl := Except.ok.inj h
    simp [hset]

theorem buildChanges_items {itemId : ChangeItem → Str} {ranked : List MissionCandidate}
    {checkpoint : Option (Checkpoint S)} {atLeast : Bool} {resolvedItems : List ChangeItem}
    {resolvedTotal : Nat} {cursorValid : Bool} {result : Changes S × List Fingerprint × Bool}
    (h : buildChanges itemId ranked checkpoint atLeast resolvedItems resolvedTotal cursorValid =
      .ok result) (hresolved : resolvedItems.length ≤ resolvedTotal) :
    result.1.items.length ≤ result.1.totalCount := by
  rw [buildChanges] at h
  dsimp only at h
  split at h
  · cases h
  · obtain rfl := Except.ok.inj h
    refine (List.length_take_le' _ _).trans ?_
    rw [List.length_mergeSort, List.length_append, List.length_map]
    split
    · exact Nat.add_le_add_left hresolved _
    · exact Nat.le_refl _

theorem items_le_totalCount (h : buildHeadquartersSnapshot reader userId v = .ok snapshot) :
    snapshot.changes.items.length ≤ snapshot.changes.totalCount := by
  have hwindow : (readCompanyMemoryEventWindow v.events v.currentSequence
      v.checkpoint).resolvedRows.length ≤
      (readCompanyMemoryEventWindow v.events v.currentSequence v.checkpoint).resolvedTotal := by
    unfold readCompanyMemoryEventWindow
    split
    · exact Nat.le_refl _
    · dsimp only
      split
      · exact Nat.le_refl _
      · exact (List.length_take_le' _ _).trans (Nat.le_of_eq (List.length_mergeSort _))
  rw [buildHeadquartersSnapshot] at h
  dsimp only at h
  generalize hresult : buildChanges _ _ _ _ _ _ _ = result at h
  cases result with
  | error message => cases h
  | ok result =>
    obtain rfl := Except.ok.inj h
    exact buildChanges_items hresult (by rwa [List.length_map])

/-- What is counted against a checkpoint that can be used. -/
theorem totalCount_since (h : buildHeadquartersSnapshot reader userId v = .ok snapshot)
    (hc : v.checkpoint = some c) (hversion : c.checkpointVersion = companyMemoryCheckpointVersion)
    (hlength : c.eventFingerprints.length ≤ headquartersCheckpointFingerprintLimit)
    (hcursor : c.lastEventSequence ≤ v.currentSequence) :
    snapshot.changes.sinceCheckpoint = true ∧
    snapshot.changes.totalCount =
      (((reader.ranked v.canonical userId v.asOf).filter (·.temporal)).filter fun candidate =>
        decide (temporalCandidateFingerprint candidate ∉ c.eventFingerprints)).length +
      (v.events.filter fun e =>
        c.lastEventSequence < e.workspaceSequence && resolvedOrRestored e).length := by
  obtain ⟨hvalid, htotal⟩ := readCompanyMemoryEventWindow_valid v.events hversion hcursor
  rw [buildHeadquartersSnapshot, hc, hvalid] at h
  dsimp only at h
  generalize hresult : buildChanges _ _ _ _ _ _ _ = result at h
  cases result with
  | error message => cases h
  | ok result =>
    obtain rfl := Except.ok.inj h
    obtain ⟨hsince, hcount⟩ := buildChanges_since hresult hlength
    refine ⟨hsince, ?_⟩
    rw [← length_temporalCandidates_filter, ← htotal]
    exact hcount

end FounderOs.Headquarters
