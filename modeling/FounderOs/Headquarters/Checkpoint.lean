import FounderOs.Headquarters.Changes
import Mathlib.Logic.Function.Basic
import Mathlib.Tactic.SplitIfs

namespace FounderOs.Headquarters

open Execution (Instant UserId)
open Transition

abbrev AckId := Nat

inductive AckPc (S : Type) where
  | reading
  | written (checkpoint : Checkpoint S)

/-- One acknowledgement: a REPEATABLE READ transaction with the rows that it sees, and the version
that the user's row has among them. -/
structure Ack (Canon S : Type) where
  userId : UserId
  expectedSnapshotId : S
  view : View Canon S
  rowVersion : Nat
  pc : AckPc S

/-- The committed rows of one workspace, and its acknowledgements that are under way. -/
structure MemoryWorld (Canon S : Type) where
  canonical : Canon
  ledger : Memory.World
  checkpoints : UserId → Option (Checkpoint S)
  rowVersions : UserId → Nat
  locks : UserId → Option AckId
  acks : AckId → Option (Ack Canon S)

inductive MemoryAction (Canon S : Type) where
  | write (canonical : Canon)
  | ledger (action : Memory.Action)
  | begin (ack : AckId) (userId : UserId) (expectedSnapshotId : S) (asOf : Instant)
  | upsert (ack : AckId)
  | commit (ack : AckId)
  | rollback (ack : AckId)

variable {Canon S : Type}

def emptyMemory (canonical : Canon) : MemoryWorld Canon S :=
  ⟨canonical, Memory.emptyLedger, fun _ => none, fun _ => 0, fun _ => none, fun _ => none⟩

namespace MemoryWorld

variable (w : MemoryWorld Canon S) (userId : UserId) (i : AckId)

def view (asOf : Instant) : View Canon S where
  canonical := w.canonical
  events := w.ledger.events
  currentSequence := w.ledger.currentSequence
  checkpoint := w.checkpoints userId
  asOf := asOf

def opened (expectedSnapshotId : S) (asOf : Instant) : MemoryWorld Canon S :=
  { w with
    acks := Function.update w.acks i
      (some ⟨userId, expectedSnapshotId, w.view userId asOf, w.rowVersions userId, .reading⟩) }

def close : MemoryWorld Canon S :=
  { w with
    acks := Function.update w.acks i none
    locks := fun u => if w.locks u = some i then none else w.locks u }

def written (ack : Ack Canon S) (checkpoint : Checkpoint S) : MemoryWorld Canon S :=
  { w with
    acks := Function.update w.acks i (some { ack with pc := .written checkpoint })
    locks := Function.update w.locks ack.userId (some i) }

def persisted (checkpoint : Checkpoint S) : MemoryWorld Canon S :=
  { w with
    checkpoints := Function.update w.checkpoints userId (some checkpoint)
    rowVersions := Function.update w.rowVersions userId (w.rowVersions userId + 1) }

end MemoryWorld

def Snapshot.checkpoint (snapshot : Snapshot S) (expectedSnapshotId : S) : Checkpoint S where
  checkpointVersion := companyMemoryCheckpointVersion
  sourceSnapshotId := expectedSnapshotId
  observedThroughAt := snapshot.asOf
  eventFingerprints := snapshot.checkpointFingerprints
  lastEventSequence := snapshot.memoryEventSequence

section Steps

variable [DecidableEq S] (reader : Reader Canon S)

/-- The snapshot is rebuilt from the rows of the transaction; the upsert waits for another one of
the same user, and fails on a row that was written after the transaction began. -/
def upsertStep (w : MemoryWorld Canon S) (i : AckId) (ack : Ack Canon S) :
    Option (MemoryWorld Canon S) :=
  match buildHeadquartersSnapshot reader ack.userId ack.view with
  | .error _ => some (w.close i)
  | .ok snapshot =>
    if snapshot.id ≠ ack.expectedSnapshotId then some (w.close i)
    else if (w.locks ack.userId).isSome then none
    else if w.rowVersions ack.userId ≠ ack.rowVersion then some (w.close i)
    else some (w.written i ack (snapshot.checkpoint ack.expectedSnapshotId))

def memoryStep (w : MemoryWorld Canon S) : MemoryAction Canon S → Option (MemoryWorld Canon S)
  | .write canonical => some { w with canonical := canonical }
  | .ledger action => (Memory.step w.ledger action).map fun ledger => { w with ledger := ledger }
  | .begin i userId expected asOf =>
    if (w.acks i).isSome then none
    else some (w.opened userId i expected asOf)
  | .upsert i => (w.acks i).bind fun ack =>
    match ack.pc with
    | .reading => upsertStep reader w i ack
    | .written _ => none
  | .commit i => (w.acks i).bind fun ack =>
    match ack.pc with
    | .reading => none
    | .written checkpoint => some ((w.close i).persisted ack.userId checkpoint)
  | .rollback i => (w.acks i).map fun _ => w.close i

end Steps

/-- No other acknowledgement of the user is committed. -/
def Keeps (userId : UserId) (w : MemoryWorld Canon S) (a : MemoryAction Canon S) : Prop :=
  ∀ i ack, a = .commit i → w.acks i = some ack → ack.userId ≠ userId

variable {reader : Reader Canon S} {w w' : MemoryWorld Canon S} {a : MemoryAction Canon S}
variable {userId : UserId} {i : AckId} {ack : Ack Canon S} {checkpoint : Checkpoint S}

structure Ack.Sound (reader : Reader Canon S) (w : MemoryWorld Canon S) (i : AckId)
    (ack : Ack Canon S) : Prop where
  events : ack.view.events <+: w.ledger.events
  sequence : ack.view.currentSequence = ack.view.events.length
  cursor : ∀ c, ack.view.checkpoint = some c → c.lastEventSequence ≤ ack.view.currentSequence
  versionLe : ack.rowVersion ≤ w.rowVersions ack.userId
  version : ack.rowVersion = w.rowVersions ack.userId →
    ack.view.checkpoint = w.checkpoints ack.userId
  written : ∀ c, ack.pc = .written c → w.locks ack.userId = some i ∧
    ack.rowVersion = w.rowVersions ack.userId ∧
    ∃ snapshot, buildHeadquartersSnapshot reader ack.userId ack.view = .ok snapshot ∧
      c = snapshot.checkpoint ack.expectedSnapshotId

structure MemoryWorld.Sound (reader : Reader Canon S) (w : MemoryWorld Canon S) : Prop where
  ledger : w.ledger.Ordered
  checkpoints : ∀ u c, w.checkpoints u = some c →
    c.checkpointVersion = companyMemoryCheckpointVersion ∧
    c.eventFingerprints.length ≤ headquartersCheckpointFingerprintLimit ∧
    c.lastEventSequence ≤ w.ledger.currentSequence
  locks : ∀ u i, w.locks u = some i → ∃ ack, w.acks i = some ack ∧ ack.userId = u
  acks : ∀ i ack, w.acks i = some ack → ack.Sound reader w i

theorem currentSequence_le {s t : Memory.World} (hs : s.Ordered) (ht : t.Ordered)
    (h : s.events <+: t.events) : s.currentSequence ≤ t.currentSequence := by
  rw [hs.stream, ht.stream]
  exact h.length_le

/-- What an acknowledgement knows is kept by every step that leaves its user's row alone. -/
theorem Ack.Sound.frame (h : ack.Sound reader w i) (hevents : w.ledger.events <+: w'.ledger.events)
    (hrow : w'.checkpoints ack.userId = w.checkpoints ack.userId)
    (hversion : w'.rowVersions ack.userId = w.rowVersions ack.userId)
    (hlock : w.locks ack.userId = some i → w'.locks ack.userId = some i) :
    ack.Sound reader w' i where
  events := h.events.trans hevents
  sequence := h.sequence
  cursor := h.cursor
  versionLe := hversion ▸ h.versionLe
  version heq := (h.version (heq.trans hversion)).trans hrow.symm
  written c hpc := by
    obtain ⟨hlocked, heq, hsnapshot⟩ := h.written c hpc
    exact ⟨hlock hlocked, heq.trans hversion.symm, hsnapshot⟩

theorem MemoryWorld.Sound.close (h : w.Sound reader) (i : AckId) : (w.close i).Sound reader where
  ledger := h.ledger
  checkpoints := h.checkpoints
  locks u j hj := by
    simp only [MemoryWorld.close] at hj ⊢
    split at hj
    · cases hj
    · rename_i hne
      obtain ⟨ack, hack, huser⟩ := h.locks u j hj
      have hji : j ≠ i := by
        rintro rfl
        exact hne hj
      exact ⟨ack, by rwa [Function.update_of_ne hji], huser⟩
  acks j ack hack := by
    simp only [MemoryWorld.close] at hack
    by_cases hji : j = i
    · subst hji
      rw [Function.update_self] at hack
      cases hack
    · rw [Function.update_of_ne hji] at hack
      refine (h.acks j ack hack).frame List.prefix_rfl rfl rfl fun hlocked => ?_
      rw [MemoryWorld.close]
      dsimp only
      rwa [if_neg]
      intro hi
      exact hji (Option.some.inj (hlocked.symm.trans hi))

theorem MemoryWorld.Sound.ledgerStep (h : w.Sound reader) {action : Memory.Action}
    {ledger : Memory.World} (hstep : Memory.step w.ledger action = some ledger) :
    ({ w with ledger := ledger } : MemoryWorld Canon S).Sound reader := by
  have hledger := h.ledger.step hstep
  have hevents := Memory.events_step hstep
  refine ⟨hledger, fun u c hc => ?_, h.locks, fun j ack hack => ?_⟩
  · obtain ⟨hversion, hlength, hcursor⟩ := h.checkpoints u c hc
    exact ⟨hversion, hlength, hcursor.trans (currentSequence_le h.ledger hledger hevents)⟩
  · exact (h.acks j ack hack).frame hevents rfl rfl id

theorem MemoryWorld.Sound.opened (h : w.Sound reader) (hfree : w.acks i = none)
    (expected : S) (asOf : Instant) : (w.opened userId i expected asOf).Sound reader := by
  refine ⟨h.ledger, h.checkpoints, fun u j hj => ?_, fun j ack hack => ?_⟩
  · obtain ⟨ack, hack, huser⟩ := h.locks u j hj
    have hji : j ≠ i := by
      rintro rfl
      rw [hfree] at hack
      cases hack
    exact ⟨ack, (Function.update_of_ne hji ..).trans hack, huser⟩
  · simp only [MemoryWorld.opened] at hack
    by_cases hji : j = i
    · subst hji
      rw [Function.update_self] at hack
      obtain rfl := Option.some.inj hack
      exact ⟨List.prefix_rfl, h.ledger.stream, fun c hc => (h.checkpoints userId c hc).2.2,
        Nat.le_refl _, fun _ => rfl, fun c hc => by cases hc⟩
    · rw [Function.update_of_ne hji] at hack
      exact (h.acks j ack hack).frame List.prefix_rfl rfl rfl id

theorem MemoryWorld.Sound.written (h : w.Sound reader) (hack : w.acks i = some ack)
    (hfree : w.locks ack.userId = none) (hversion : w.rowVersions ack.userId = ack.rowVersion)
    {snapshot : Snapshot S}
    (hbuild : buildHeadquartersSnapshot reader ack.userId ack.view = .ok snapshot) :
    (w.written i ack (snapshot.checkpoint ack.expectedSnapshotId)).Sound reader := by
  refine ⟨h.ledger, h.checkpoints, fun u j hj => ?_, fun j other hother => ?_⟩
  · simp only [MemoryWorld.written] at hj ⊢
    by_cases hu : u = ack.userId
    · subst hu
      rw [Function.update_self] at hj
      obtain rfl := Option.some.inj hj
      exact ⟨_, Function.update_self .., rfl⟩
    · rw [Function.update_of_ne hu] at hj
      obtain ⟨other, hother, huser⟩ := h.locks u j hj
      have hji : j ≠ i := by
        rintro rfl
        obtain rfl := Option.some.inj (hack.symm.trans hother)
        exact hu huser.symm
      exact ⟨other, by rwa [Function.update_of_ne hji], huser⟩
  · simp only [MemoryWorld.written] at hother
    by_cases hji : j = i
    · subst hji
      rw [Function.update_self] at hother
      obtain rfl := Option.some.inj hother
      have hsound := h.acks j ack hack
      refine ⟨hsound.events, hsound.sequence, hsound.cursor, hsound.versionLe, hsound.version, ?_⟩
      rintro c ⟨⟩
      exact ⟨Function.update_self .., hversion.symm, snapshot, hbuild, rfl⟩
    · rw [Function.update_of_ne hji] at hother
      refine (h.acks j other hother).frame List.prefix_rfl rfl rfl fun hlocked => ?_
      by_cases hu : other.userId = ack.userId
      · rw [hu, hfree] at hlocked
        cases hlocked
      · simp only [MemoryWorld.written]
        rwa [Function.update_of_ne hu]

theorem MemoryWorld.Sound.persisted (h : w.Sound reader) (hack : w.acks i = some ack)
    (hpc : ack.pc = .written checkpoint) :
    ((w.close i).persisted ack.userId checkpoint).Sound reader := by
  have hsound := h.acks i ack hack
  obtain ⟨hlocked, hversion, snapshot, hbuild, rfl⟩ := hsound.written checkpoint hpc
  obtain ⟨hfew, hfingerprints, hsequence⟩ := buildHeadquartersSnapshot_ok hbuild
  have hclosed := h.close i
  refine ⟨h.ledger, fun u c hc => ?_, hclosed.locks, fun j other hother => ?_⟩
  · simp only [MemoryWorld.persisted] at hc
    by_cases hu : u = ack.userId
    · subst hu
      rw [Function.update_self] at hc
      obtain rfl := Option.some.inj hc
      refine ⟨rfl, ?_, ?_⟩
      · simpa [Snapshot.checkpoint, hfingerprints] using hfew
      · simp only [Snapshot.checkpoint, hsequence, hsound.sequence]
        exact hsound.events.length_le.trans (Nat.le_of_eq h.ledger.stream.symm)
    · rw [Function.update_of_ne hu] at hc
      exact h.checkpoints u c hc
  · have hji : j ≠ i := by
      rintro rfl
      simp [MemoryWorld.persisted, MemoryWorld.close] at hother
    have hother' : w.acks j = some other := by
      simpa [MemoryWorld.persisted, MemoryWorld.close, hji] using hother
    have hsound' := hclosed.acks j other hother
    by_cases hu : other.userId = ack.userId
    · refine ⟨hsound'.events, hsound'.sequence, hsound'.cursor, ?_, ?_, fun c hc => ?_⟩
      · simp only [MemoryWorld.persisted, hu, Function.update_self]
        exact (hu ▸ hsound'.versionLe).trans (Nat.le_succ _)
      · intro heq
        simp only [MemoryWorld.persisted, hu, Function.update_self] at heq
        have hle := hsound'.versionLe
        rw [heq, hu] at hle
        exact absurd hle (Nat.not_succ_le_self _)
      · have hboth := ((h.acks j other hother').written c hc).1
        rw [hu, hlocked] at hboth
        exact absurd (Option.some.inj hboth).symm hji
    · refine hsound'.frame List.prefix_rfl ?_ ?_ id
      · simp [MemoryWorld.persisted, hu]
      · simp [MemoryWorld.persisted, hu]

theorem MemoryWorld.Sound.step [DecidableEq S] (h : w.Sound reader) (hstep : memoryStep reader w a = some w') :
    w'.Sound reader := by
  cases a with
  | write canonical =>
    obtain rfl := Option.some.inj hstep
    exact ⟨h.ledger, h.checkpoints, h.locks,
      fun j ack hack => (h.acks j ack hack).frame List.prefix_rfl rfl rfl id⟩
  | ledger action =>
    obtain ⟨ledger, hledger, rfl⟩ := Option.map_eq_some_iff.1 hstep
    exact h.ledgerStep hledger
  | begin i userId expected asOf =>
    simp only [memoryStep] at hstep
    split at hstep
    · cases hstep
    · rename_i hfree
      obtain rfl := Option.some.inj hstep
      exact h.opened (by simpa using hfree) expected asOf
  | upsert i =>
    obtain ⟨ack, hack, hstep⟩ := Option.bind_eq_some_iff.1 hstep
    split at hstep
    · unfold upsertStep at hstep
      split at hstep
      · obtain rfl := Option.some.inj hstep
        exact h.close i
      · rename_i snapshot hbuild
        split at hstep
        · obtain rfl := Option.some.inj hstep
          exact h.close i
        · split at hstep
          · cases hstep
          · rename_i hfree
            split at hstep
            · obtain rfl := Option.some.inj hstep
              exact h.close i
            · rename_i hversion
              obtain rfl := Option.some.inj hstep
              exact h.written hack (by simpa using hfree) (not_not.1 hversion) hbuild
    · cases hstep
  | commit i =>
    obtain ⟨ack, hack, hstep⟩ := Option.bind_eq_some_iff.1 hstep
    split at hstep
    · cases hstep
    · rename_i hpc
      obtain rfl := Option.some.inj hstep
      exact h.persisted hack hpc
  | rollback i =>
    obtain ⟨ack, hack, rfl⟩ := Option.map_eq_some_iff.1 hstep
    exact h.close i

theorem sound_emptyMemory (canonical : Canon) :
    (emptyMemory canonical : MemoryWorld Canon S).Sound reader where
  ledger := Memory.ordered_emptyLedger
  checkpoints u c hc := by cases hc
  locks u i hi := by cases hi
  acks i ack hack := by cases hack

theorem sound_of_reaches [DecidableEq S] {canonical : Canon}
    (h : Reaches (memoryStep reader) anyStep (emptyMemory canonical) w) : w.Sound reader :=
  h.invariant (P := MemoryWorld.Sound reader) (fun _ _ _ hs _ hstep => hs.step hstep)
    (sound_emptyMemory canonical)

/-- Only the ledger's own steps move the ledger, and only a commit moves a checkpoint. -/
theorem memoryStep_cases [DecidableEq S] (hstep : memoryStep reader w a = some w') :
    (∃ action, Memory.step w.ledger action = some w'.ledger ∧ w'.checkpoints = w.checkpoints) ∨
    (w'.ledger = w.ledger ∧ w'.checkpoints = w.checkpoints) ∨
    ∃ i ack checkpoint, a = .commit i ∧ w.acks i = some ack ∧ ack.pc = .written checkpoint ∧
      w' = (w.close i).persisted ack.userId checkpoint := by
  cases a with
  | write canonical =>
    obtain rfl := Option.some.inj hstep
    exact .inr (.inl ⟨rfl, rfl⟩)
  | ledger action =>
    obtain ⟨ledger, hledger, rfl⟩ := Option.map_eq_some_iff.1 hstep
    exact .inl ⟨action, hledger, rfl⟩
  | begin i user expected asOf =>
    simp only [memoryStep] at hstep
    split at hstep
    · cases hstep
    · obtain rfl := Option.some.inj hstep
      exact .inr (.inl ⟨rfl, rfl⟩)
  | upsert i =>
    obtain ⟨ack, -, hstep⟩ := Option.bind_eq_some_iff.1 hstep
    right
    left
    split at hstep
    · unfold upsertStep at hstep
      split at hstep
      · obtain rfl := Option.some.inj hstep
        exact ⟨rfl, rfl⟩
      · split_ifs at hstep <;> obtain rfl := Option.some.inj hstep <;> exact ⟨rfl, rfl⟩
    · cases hstep
  | commit i =>
    obtain ⟨ack, hack, hstep⟩ := Option.bind_eq_some_iff.1 hstep
    split at hstep
    · cases hstep
    · rename_i checkpoint hpc
      obtain rfl := Option.some.inj hstep
      exact .inr (.inr ⟨i, ack, checkpoint, rfl, hack, hpc, rfl⟩)
  | rollback i =>
    obtain ⟨ack, -, rfl⟩ := Option.map_eq_some_iff.1 hstep
    exact .inr (.inl ⟨rfl, rfl⟩)

/-- A committed acknowledgement was made on the row that it replaces. -/
theorem cursor_step [DecidableEq S] (h : w.Sound reader) (hstep : memoryStep reader w a = some w')
    {c : Checkpoint S} (hc : w.checkpoints userId = some c) :
    ∃ c', w'.checkpoints userId = some c' ∧ c.lastEventSequence ≤ c'.lastEventSequence := by
  rcases memoryStep_cases hstep with ⟨-, -, hsame⟩ | ⟨-, hsame⟩ |
    ⟨i, ack, checkpoint, -, hack, hpc, rfl⟩
  · exact ⟨c, hsame ▸ hc, Nat.le_refl _⟩
  · exact ⟨c, hsame ▸ hc, Nat.le_refl _⟩
  · by_cases hu : userId = ack.userId
    · subst hu
      have hsound := h.acks i ack hack
      obtain ⟨-, hversion, snapshot, hbuild, rfl⟩ := hsound.written checkpoint hpc
      refine ⟨_, Function.update_self .., ?_⟩
      rw [Snapshot.checkpoint, (buildHeadquartersSnapshot_ok hbuild).2.2]
      exact hsound.cursor c ((hsound.version hversion).trans hc)
    · exact ⟨c, (Function.update_of_ne hu ..).trans hc, Nat.le_refl _⟩

theorem cursor_reaches [DecidableEq S] {t : MemoryWorld Canon S} (h : w.Sound reader)
    (ht : Reaches (memoryStep reader) anyStep w t) {c : Checkpoint S}
    (hc : w.checkpoints userId = some c) :
    ∃ c', t.checkpoints userId = some c' ∧ c.lastEventSequence ≤ c'.lastEventSequence := by
  let P : MemoryWorld Canon S → Prop := fun s =>
    ∃ c', s.checkpoints userId = some c' ∧ c.lastEventSequence ≤ c'.lastEventSequence
  refine ht.invariant_of (I := MemoryWorld.Sound reader) (P := P)
    (fun _ _ _ hs _ hstep => hs.step hstep) ?_ h ⟨c, hc, Nat.le_refl _⟩
  rintro s a s' hs ⟨c₁, hc₁, hle₁⟩ - hstep
  obtain ⟨c₂, hc₂, hle₂⟩ := cursor_step hs hstep hc₁
  exact ⟨c₂, hc₂, hle₁.trans hle₂⟩

theorem kept_step [DecidableEq S] (hkeeps : Keeps userId w a)
    (hstep : memoryStep reader w a = some w') : w'.checkpoints userId = w.checkpoints userId := by
  rcases memoryStep_cases hstep with ⟨-, -, hsame⟩ | ⟨-, hsame⟩ |
    ⟨i, ack, checkpoint, ha, hack, -, rfl⟩
  · rw [hsame]
  · rw [hsame]
  · exact Function.update_of_ne (hkeeps i ack ha hack).symm ..

theorem ledger_step [DecidableEq S] (hstep : memoryStep reader w a = some w') :
    w.ledger.events <+: w'.ledger.events := by
  rcases memoryStep_cases hstep with ⟨action, hledger, -⟩ | ⟨hsame, -⟩ | ⟨i, ack, -, -, -, -, rfl⟩
  · exact Memory.events_step hledger
  · exact hsame ▸ List.prefix_rfl
  · exact List.prefix_rfl

/-- The temporal candidates that none of the earlier ones has the fingerprint of. -/
def newOrChanged (earlier now : List MissionCandidate) : List MissionCandidate :=
  (now.filter (·.temporal)).filter fun candidate =>
    (earlier.filter (·.temporal)).all fun before =>
      decide (temporalCandidateFingerprint before ≠ temporalCandidateFingerprint candidate)

def newEvents (earlier now : List Memory.Event) : List Memory.Event := now.filter (· ∉ earlier)

/-- Whatever snapshot is built now counts each new or changed candidate once, and once each new
event of the kind that is counted. -/
def CountsSince (reader : Reader Canon S) (counted : Memory.Event → Bool) (userId : UserId)
    (earlier now : View Canon S) : Prop :=
  ∀ snapshot, buildHeadquartersSnapshot reader userId now = .ok snapshot →
    snapshot.changes.totalCount =
      (newOrChanged (reader.ranked earlier.canonical userId earlier.asOf)
        (reader.ranked now.canonical userId now.asOf)).length +
      ((newEvents earlier.events now.events).filter counted).length

theorem numbered_le_iff {earlier now : List Memory.Event} (hgrown : earlier <+: now)
    (hnumbered : now.map Memory.Event.workspaceSequence = List.range' 1 now.length)
    {e : Memory.Event} (he : e ∈ now) : earlier.length < e.workspaceSequence ↔ e ∉ earlier := by
  obtain ⟨later, rfl⟩ := hgrown
  rw [List.map_append, List.length_append, ← List.range'_append_1] at hnumbered
  obtain ⟨hearlier, hlater⟩ := List.append_inj hnumbered (by simp)
  have hbelow : ∀ x ∈ earlier, x.workspaceSequence ≤ earlier.length := by
    intro x hx
    have hmem : x.workspaceSequence ∈ earlier.map Memory.Event.workspaceSequence :=
      List.mem_map_of_mem hx
    rw [hearlier, List.mem_range'_1] at hmem
    omega
  constructor
  · intro hlt hmem
    exact absurd (hbelow e hmem) (Nat.not_le.2 hlt)
  · intro hnot
    have hmem : e.workspaceSequence ∈ later.map Memory.Event.workspaceSequence :=
      List.mem_map_of_mem ((List.mem_append.1 he).resolve_left hnot)
    rw [hlater, List.mem_range'_1] at hmem
    omega

theorem mem_currentFingerprints {ranked : List MissionCandidate} {f : Fingerprint} :
    f ∈ currentFingerprints ranked ↔
      ∃ candidate ∈ ranked.filter (·.temporal), temporalCandidateFingerprint candidate = f := by
  simp [currentFingerprints, temporalCandidates, List.mem_eraseDups]

/-- An acknowledged view, read against later rows. -/
theorem countsSince_checkpoint {earlier now : View Canon S} {snapshot : Snapshot S} {expected : S}
    (hbuild : buildHeadquartersSnapshot reader userId earlier = .ok snapshot)
    (hcheckpoint : now.checkpoint = some (snapshot.checkpoint expected))
    (hearlier : earlier.currentSequence = earlier.events.length)
    (hnow : now.currentSequence = now.events.length)
    (hnumbered : now.events.map Memory.Event.workspaceSequence = List.range' 1 now.events.length)
    (hgrown : earlier.events <+: now.events) :
    CountsSince reader resolvedOrRestored userId earlier now := by
  intro later hlater
  obtain ⟨hfew, hfingerprints, hsequence⟩ := buildHeadquartersSnapshot_ok hbuild
  have hcursor : (snapshot.checkpoint expected).lastEventSequence = earlier.events.length :=
    hsequence.trans hearlier
  obtain ⟨-, htotal⟩ := totalCount_since hlater hcheckpoint rfl
    (by rwa [Snapshot.checkpoint, hfingerprints]) (by
      rw [hcursor, hnow]
      exact hgrown.length_le)
  rw [htotal, hcursor]
  congr 1
  · congr 1
    refine List.filter_congr fun candidate _ => ?_
    rw [Bool.eq_iff_iff, decide_eq_true_eq, List.all_eq_true]
    simp only [Snapshot.checkpoint, hfingerprints, mem_currentFingerprints, decide_eq_true_eq,
      not_exists, not_and, ne_eq]
  · rw [newEvents, List.filter_filter]
    congr 1
    refine List.filter_congr fun e he => ?_
    rw [Bool.and_comm, decide_eq_decide.2 (numbered_le_iff hgrown hnumbered he)]

theorem newOrChanged_self (ranked : List MissionCandidate) : newOrChanged ranked ranked = [] := by
  refine List.filter_eq_nil_iff.2 fun candidate hmem hall => ?_
  exact of_decide_eq_true (List.all_eq_true.1 hall candidate hmem) rfl

theorem newEvents_self (events : List Memory.Event) : newEvents events events = [] :=
  List.filter_eq_nil_iff.2 fun _ hmem hnot => of_decide_eq_true hnot hmem

theorem reaches_ledger [DecidableEq S] {actions : List Memory.Action} {ledger : Memory.World}
    (h : exec Memory.step w.ledger actions = some ledger) :
    Reaches (memoryStep reader) (Keeps userId) w { w with ledger := ledger } := by
  induction actions generalizing w with
  | nil =>
    obtain rfl := Option.some.inj h
    exact Reaches.refl w
  | cons action actions ih =>
    obtain ⟨next, hnext, hrest⟩ := Option.bind_eq_some_iff.1 h
    have hstep : memoryStep reader w (.ledger action) = some { w with ledger := next } := by
      simp [memoryStep, hnext]
    have hkeeps : Keeps userId w (.ledger action) := by
      rintro i ack ⟨⟩
    exact ((Reaches.refl w).tail hkeeps hstep).trans (ih hrest)

theorem acknowledged_then_read [DecidableEq S] {canonical : Canon}
    (h : Reaches (memoryStep reader) anyStep (emptyMemory canonical) w) :
    (∀ i ack checkpoint w' t asOf, w.acks i = some ack → ack.pc = .written checkpoint →
      memoryStep reader w (.commit i) = some w' →
      Reaches (memoryStep reader) (Keeps ack.userId) w' t →
      (reader.ranked t.canonical ack.userId asOf =
          reader.ranked ack.view.canonical ack.userId ack.view.asOf →
        t.ledger.events = ack.view.events →
        ∃ snapshot, buildHeadquartersSnapshot reader ack.userId (t.view ack.userId asOf) =
            .ok snapshot ∧ snapshot.changes.totalCount = 0 ∧ snapshot.changes.items = []) ∧
      CountsSince reader resolvedOrRestored ack.userId ack.view (t.view ack.userId asOf)) ∧
    ∀ t, Reaches (memoryStep reader) anyStep w t → ∀ user c, w.checkpoints user = some c →
      ∃ c', t.checkpoints user = some c' ∧ c.lastEventSequence ≤ c'.lastEventSequence := by
  have hsound := sound_of_reaches h
  refine ⟨?_, fun t ht user c hc => cursor_reaches hsound ht hc⟩
  intro i ack checkpoint w' t asOf hack hpc hcommit ht
  have hacked := hsound.acks i ack hack
  obtain ⟨-, -, snapshot, hbuild, rfl⟩ := hacked.written checkpoint hpc
  have hcommitted : w' = (w.close i).persisted ack.userId
      (snapshot.checkpoint ack.expectedSnapshotId) := by
    simpa [memoryStep, hack, hpc] using hcommit.symm
  have htsound : t.Sound reader :=
    ht.invariant (P := MemoryWorld.Sound reader) (fun _ _ _ hs _ hstep => hs.step hstep)
      (hsound.step hcommit)
  have hkept : t.checkpoints ack.userId = some (snapshot.checkpoint ack.expectedSnapshotId) := by
    refine ht.invariant
      (P := fun s => s.checkpoints ack.userId = some (snapshot.checkpoint ack.expectedSnapshotId))
      (fun _ _ _ hs hkeeps hstep => (kept_step hkeeps hstep).trans hs) ?_
    rw [hcommitted]
    exact Function.update_self ..
  have hgrown : ack.view.events <+: t.ledger.events :=
    ht.invariant (P := fun s => ack.view.events <+: s.ledger.events)
      (fun _ _ _ hs _ hstep => hs.trans (ledger_step hstep)) (hacked.events.trans (ledger_step hcommit))
  have hcounts : CountsSince reader resolvedOrRestored ack.userId ack.view
      (t.view ack.userId asOf) :=
    countsSince_checkpoint hbuild hkept hacked.sequence htsound.ledger.stream
      htsound.ledger.numbered hgrown
  refine ⟨fun hranked hevents => ?_, hcounts⟩
  have hfew := (buildHeadquartersSnapshot_ok hbuild).1
  rw [← hranked] at hfew
  obtain ⟨later, hlater⟩ := buildHeadquartersSnapshot_exists (v := t.view ack.userId asOf) hfew
  have hzero : later.changes.totalCount = 0 := by
    rw [hcounts later hlater]
    simp only [MemoryWorld.view, hranked, hevents, newOrChanged_self, newEvents_self]
    rfl
  have hitems := items_le_totalCount hlater
  rw [hzero] at hitems
  exact ⟨later, hlater, hzero, List.eq_nil_of_length_eq_zero (Nat.le_zero.1 hitems)⟩

def quietReader : Reader Unit Nat where
  ranked _ _ _ := []
  windowCut _ _ _ := false
  itemId _ := []
  snapshotId _ _ _ _ _ := 0

def proposalEvent (eventType : Memory.EventType) : Memory.AppendRequest where
  workspaceId := 0
  eventType := eventType
  subjectType := .actionProposal
  subjectKey := "a"
  subjectId := "a"
  sourceKey := "internal"
  actorUserId := none
  primarySourceRecordId := none
  evidenceRefs := [⟨.actionProposal, "a"⟩]
  occurredAt := some 0
  idempotencyMaterial := ⟨eventType, ["a"], 0⟩

def appended (eventType : Memory.EventType) : List Memory.Action :=
  [.begin 0, .append 0 (proposalEvent eventType) 0, .select 0, .allocate 0, .flush 0 false,
    .commit 0]

/-- User 7 acknowledges an empty workspace, and one event is committed after that. -/
theorem acknowledged_before (eventType : Memory.EventType) (total : Nat)
    (hrun : ((exec (memoryStep quietReader) (emptyMemory ()) [.begin 0 7 0 0, .upsert 0]).bind
      fun w => (w.acks 0).bind fun ack => (memoryStep quietReader w (.commit 0)).bind fun w' =>
        (exec Memory.step w'.ledger (appended eventType)).map fun ledger =>
          decide (ledger.events.length = 1 ∧
            (buildHeadquartersSnapshot quietReader 7
              (({ w' with ledger := ledger } : MemoryWorld Unit Nat).view 7 0)).toOption.map
                (·.changes.totalCount) = some total ∧ ack.userId = 7 ∧ ack.view.events = [] ∧
              (match ack.pc with | .reading => false | .written _ => true) = true)) = some true) :
    ∃ (w w' t : MemoryWorld Unit Nat) (ack : Ack Unit Nat) (checkpoint : Checkpoint Nat),
      Reaches (memoryStep quietReader) anyStep (emptyMemory ()) w ∧ w.acks 0 = some ack ∧
      ack.pc = .written checkpoint ∧ memoryStep quietReader w (.commit 0) = some w' ∧
      Reaches (memoryStep quietReader) (Keeps ack.userId) w' t ∧ t.ledger.events.length = 1 ∧
      ack.view.events = [] ∧ ∃ snapshot,
        buildHeadquartersSnapshot quietReader ack.userId (t.view ack.userId 0) = .ok snapshot ∧
        snapshot.changes.totalCount = total := by
  obtain ⟨w, hw, hrun⟩ := Option.bind_eq_some_iff.1 hrun
  obtain ⟨ack, hack, hrun⟩ := Option.bind_eq_some_iff.1 hrun
  obtain ⟨w', hcommit, hrun⟩ := Option.bind_eq_some_iff.1 hrun
  obtain ⟨ledger, hledger, hrun⟩ := Option.map_eq_some_iff.1 hrun
  obtain ⟨hone, htotal, huser, hempty, hpc⟩ := of_decide_eq_true hrun
  cases hwritten : ack.pc with
  | reading => simp [hwritten] at hpc
  | written checkpoint =>
    refine ⟨w, w', { w' with ledger := ledger }, ack, checkpoint, reaches_of_exec hw, hack,
      hwritten, hcommit, reaches_ledger hledger, hone, hempty, ?_⟩
    rw [huser]
    cases hbuild : buildHeadquartersSnapshot quietReader 7
        (({ w' with ledger := ledger } : MemoryWorld Unit Nat).view 7 0) with
    | error message => simp [hbuild, Except.toOption] at htotal
    | ok snapshot => exact ⟨snapshot, rfl, by simpa [hbuild, Except.toOption] using htotal⟩

theorem acknowledged_then_read_approval :
    ∃ (w t : MemoryWorld Unit Nat) (ack : Ack Unit Nat) (snapshot : Snapshot Nat),
      Reaches (memoryStep quietReader) anyStep (emptyMemory ()) w ∧ w.acks 0 = some ack ∧
      buildHeadquartersSnapshot quietReader ack.userId (t.view ack.userId 0) = .ok snapshot ∧
      snapshot.changes.totalCount = 1 ∧
      CountsSince quietReader resolvedOrRestored ack.userId ack.view (t.view ack.userId 0) := by
  obtain ⟨w, w', t, ack, checkpoint, hw, hack, hpc, hcommit, ht, -, -, snapshot, hbuild,
    htotal⟩ := acknowledged_before .actionProposalApproved 1 (by decide +kernel)
  have hread := (acknowledged_then_read hw).1 0 ack checkpoint w' t 0 hack hpc hcommit ht
  exact ⟨w, t, ack, snapshot, hw, hack, hbuild, htotal, hread.2⟩

/-- The creation of a proposal is a new event that no snapshot counts. -/
theorem created_event_not_counted :
    ∃ (w w' t : MemoryWorld Unit Nat) (ack : Ack Unit Nat) (checkpoint : Checkpoint Nat),
      Reaches (memoryStep quietReader) anyStep (emptyMemory ()) w ∧ w.acks 0 = some ack ∧
      ack.pc = .written checkpoint ∧ memoryStep quietReader w (.commit 0) = some w' ∧
      Reaches (memoryStep quietReader) (Keeps ack.userId) w' t ∧
      ¬ CountsSince quietReader (fun _ => true) ack.userId ack.view (t.view ack.userId 0) := by
  obtain ⟨w, w', t, ack, checkpoint, hw, hack, hpc, hcommit, ht, hone, hempty, snapshot, hbuild,
    htotal⟩ := acknowledged_before .actionProposalCreated 0 (by decide +kernel)
  refine ⟨w, w', t, ack, checkpoint, hw, hack, hpc, hcommit, ht, fun hcounts => ?_⟩
  have hcount := hcounts snapshot hbuild
  rw [htotal, hempty] at hcount
  simp [newEvents, MemoryWorld.view, hone] at hcount

end FounderOs.Headquarters
