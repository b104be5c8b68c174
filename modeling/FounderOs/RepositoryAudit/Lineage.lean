import FounderOs.RepositoryAudit.World

namespace FounderOs.RepositoryAudit

open Headquarters Retained Transition
open Execution (Instant)

inductive RecordKey where
  | fact (key : FactKey)
  | relationship (key : RelationshipKey)
  | finding (key : FindingKey)
  | contradiction (key : ContradictionKey)
  deriving DecidableEq

def AnalyzerResult.asserts (result : AnalyzerResult) : RecordKey → Bool
  | .fact key => result.factMaterial.any (·.key = key)
  | .relationship key => result.relationshipCandidates.any (·.normalizedIdentity = key)
  | .finding key => result.findings.any (·.key = key)
  | .contradiction key => result.contradictions.any (·.normalizedPair = key)

def StoredRun.asserts (run : StoredRun) (key : RecordKey) : Bool :=
  run.resultHash.result.asserts key

def StoredRun.lineage (run : StoredRun) : Lineage := run.scope.lineage

/-- Neither stale nor resolved. -/
def Store.current (store : Store) : RecordKey → Bool
  | .fact key => (Dict.get store.facts key).any factKind.active
  | .relationship key => (Dict.get store.relationships key).any relationshipKind.active
  | .finding key => (Dict.get store.findings key).any findingKind.active
  | .contradiction key => (Dict.get store.contradictions key).any contradictionKind.active

def Store.lastSeen (store : Store) : RecordKey → Option Uuid
  | .fact key => (Dict.get store.facts key).map factKind.lastSeen
  | .relationship key => (Dict.get store.relationships key).map relationshipKind.lastSeen
  | .finding key => (Dict.get store.findings key).map findingKind.lastSeen
  | .contradiction key => (Dict.get store.contradictions key).map contradictionKind.lastSeen

/-- The run that saw the record last is of the lineage. -/
def lastSeenBy (store : Store) (runs : List StoredRun) (lineage : Lineage) (key : RecordKey) :
    Prop :=
  ∃ run ∈ runs, store.lastSeen key = some run.id ∧ run.lineage = lineage

def latestComplete (runs : List StoredRun) (lineage : Lineage) : Option StoredRun :=
  runs.find? fun run => run.status = .succeeded && run.lineage = lineage

/-- What the runs of one lineage are to leave to the others, and what they are to leave. -/
structure KeepsApart (before after : AuditWorld) (run : StoredRun) : Prop where
  retires : run.status = .succeeded → ∀ key, before.store.current key = true →
    after.store.current key = false → ∀ lineage, lineage ≠ run.lineage →
      ∀ latest, latestComplete before.runs lineage = some latest → latest.asserts key = false
  keeps : run.status = .partially → ∀ key, before.store.current key = true →
    after.store.current key = true
  exact : run.status = .succeeded → ∀ key, (after.store.current key = true ∧
    lastSeenBy after.store after.runs run.lineage key) ↔ run.asserts key = true

/-- A run of the lineage asserted the record last, and no complete run of the lineage came since. -/
def Owns (runs : List StoredRun) (lineage : Lineage) (key : RecordKey) : Prop :=
  ∃ newer last older, runs = newer ++ last :: older ∧ last.asserts key = true ∧
    last.lineage = lineage ∧ ∀ run ∈ newer, run.asserts key = false ∧
      (run.status = .succeeded → run.lineage ≠ lineage)

/-- Nothing that a complete run leaves out, and that its lineage asserted last, is asserted by the
latest complete run of another lineage. -/
def Spares (runs : List StoredRun) (run : StoredRun) : Prop :=
  run.status = .succeeded → ∀ key, run.asserts key = false → Owns runs run.lineage key →
    ∀ lineage, lineage ≠ run.lineage → ∀ latest, latestComplete runs lineage = some latest →
      latest.asserts key = false

section kind

variable {Item Key Row Content : Type} [DecidableEq Key] {kind : RecordKind Item Key Row}
variable {reading : kind.Reading Content} {items : AnalyzerResult → List Item}
variable {runs : List StoredRun} {run : StoredRun} {evidence evidence' : List EvidenceRow}
variable {table table' : List (Key × Row)} {k : Key} {key : RecordKey}

/-- The kind of the record, as one of the four. -/
def Tells (kind : RecordKind Item Key Row) (items : AnalyzerResult → List Item) (k : Key)
    (key : RecordKey) : Prop :=
  ∀ run : StoredRun, (run.pass items).asserts kind.key k = run.asserts key

theorem passes_nodup (items : AnalyzerResult → List Item) (hids : (runs.map (·.id)).Nodup) :
    ((runs.map (StoredRun.pass items)).map (·.id)).Nodup := by
  rw [List.map_map]
  exact hids

theorem owns_iff (htells : Tells kind items k key) (hids : (runs.map (·.id)).Nodup)
    (lineage : Lineage) :
    (∃ s, standing kind.key (runs.map (StoredRun.pass items)) k = some s ∧ s.held = true ∧
      s.line = lineage) ↔ Owns runs lineage key := by
  rw [line_holds_iff_history (passes_nodup items hids)]
  constructor
  · rintro ⟨newer, q, older, hsplit, hasserts, hline, hnewer⟩
    obtain ⟨newer, rest, rfl, rfl, hrest⟩ := List.map_eq_append_iff.1 hsplit
    obtain ⟨last, older, rfl, rfl, rfl⟩ := List.map_eq_cons_iff.1 hrest
    refine ⟨newer, last, older, rfl, (htells last).symm.trans hasserts, hline, ?_⟩
    intro run hrun
    obtain ⟨hnot, hother⟩ := hnewer _ (List.mem_map_of_mem hrun)
    exact ⟨(htells run).symm.trans hnot, fun hcomplete => hother (decide_eq_true hcomplete)⟩
  · rintro ⟨newer, last, older, rfl, hasserts, hline, hnewer⟩
    refine ⟨newer.map (StoredRun.pass items), last.pass items, older.map (StoredRun.pass items),
      by simp, (htells last).trans hasserts, hline, ?_⟩
    intro p hp
    obtain ⟨run, hrun, rfl⟩ := List.mem_map.1 hp
    obtain ⟨hnot, hother⟩ := hnewer run hrun
    exact ⟨(htells run).trans hnot, fun hcomplete => hother (of_decide_eq_true hcomplete)⟩

/-- What a persist does to the records of one kind, under its key. -/
structure Moves (before after : Bool) (lastSeen : Option Uuid) (runs : List StoredRun)
    (run : StoredRun) (key : RecordKey) : Prop where
  kept : run.status = .partially → before = true → after = true
  gone : (before = true ∧ after = false) ↔
    run.status = .succeeded ∧ run.asserts key = false ∧ Owns runs run.lineage key
  own : run.status = .succeeded → ((after = true ∧ ∃ seen ∈ run :: runs, lastSeen = some seen.id ∧
    seen.lineage = run.lineage) ↔ run.asserts key = true)

theorem moves (htells : Tells kind items k key) (hids : ((run :: runs).map (·.id)).Nodup)
    (hs : reading.Follows items evidence table runs)
    (ht : reading.Follows items evidence' table' (run :: runs)) :
    Moves ((Dict.get table k).any kind.active) ((Dict.get table' k).any kind.active)
      ((Dict.get table' k).map kind.lastSeen) runs run key := by
  have hbefore : (Dict.get table k).any kind.active = _ := hs.active_iff
  have hafter : (Dict.get table' k).any kind.active = _ := ht.active_iff
  have hnodup := passes_nodup items hids
  rw [List.map_cons] at hafter hnodup
  rw [hbefore, hafter]
  refine ⟨?_, ?_, ?_⟩
  · intro hincomplete
    refine held_of_incomplete (decide_eq_false ?_)
    rw [hincomplete]
    simp
  · rw [lets_go_iff hnodup, htells run, ← owns_iff htells (List.nodup_cons.1 hids).2]
    exact and_congr_left' decide_eq_true_iff
  · intro hcomplete
    rw [← htells run, ← line_holds_iff hnodup (decide_eq_true hcomplete), held]
    -- The row names the pass that stands, and the ids of the runs are their own.
    constructor
    · rintro ⟨hheld, seen, hseen, hlast, hline⟩
      obtain ⟨row, hrow, hid⟩ := Option.map_eq_some_iff.1 hlast
      obtain ⟨s, hstanding, hsid, -, -⟩ := ht.of_get hrow
      obtain ⟨q, hq, hqid, hqline, -⟩ := standing_mem hstanding
      obtain ⟨other, hother, rfl⟩ := List.mem_map.1 hq
      have hsame : other.id = seen.id := hqid.trans (hsid.symm.trans hid)
      obtain rfl := List.inj_on_of_nodup_map hids hother hseen hsame
      rw [List.map_cons] at hstanding
      rw [hstanding] at hheld
      exact ⟨s, hstanding, hheld, hqline.symm.trans hline⟩
    · rintro ⟨s, hstanding, hheld, hline⟩
      rw [← List.map_cons] at hstanding
      obtain ⟨row, hrow, hid, -, -⟩ := ht.of_standing hstanding
      obtain ⟨q, hq, hqid, hqline, -⟩ := standing_mem hstanding
      obtain ⟨seen, hseen, rfl⟩ := List.mem_map.1 hq
      rw [List.map_cons] at hstanding
      refine ⟨by rw [hstanding]; exact hheld, seen, hseen, ?_, hqline.trans hline⟩
      rw [hrow]
      exact congrArg some (hid.trans hqid.symm)

end kind

section step

variable {store store' : Store} {runs : List StoredRun} {run : StoredRun}

theorem tells_contradiction (k : ContradictionKey) : Tells contradictionKind
    AnalyzerResult.locatedContradictions k (.contradiction k) := by
  intro run
  exact List.any_map

theorem moves_of_follows (hs : store.Follows runs) (ht : store'.Follows (run :: runs))
    (key : RecordKey) :
    Moves (store.current key) (store'.current key) (store'.lastSeen key) runs run key := by
  cases key with
  | fact k => exact moves (fun _ => rfl) ht.ids hs.facts ht.facts
  | relationship k => exact moves (fun _ => rfl) ht.ids hs.relationships ht.relationships
  | finding k => exact moves (fun _ => rfl) ht.ids hs.findings ht.findings
  | contradiction k =>
    exact moves (tells_contradiction k) ht.ids hs.contradictions ht.contradictions

variable {setting : Setting} {s t : AuditWorld} {jobId : Uuid} {input : PersistInput}
variable {drawn : Drawn} {committed : Bool}

/-- The persisted runs of a repository keep the lineages apart exactly if no complete run leaves out
a record of its lineage that another lineage's latest complete run asserts. -/
theorem lineages_apart_iff (h : Reaches (AuditWorld.step setting) anyStep emptyAuditWorld s)
    (hstep : s.step setting (.persist jobId input drawn committed) = some t)
    (hstored : t.runs = run :: s.runs) : KeepsApart s t run ↔ Spares s.runs run := by
  have hs := AuditWorld.follows_of_reaches h
  have ht := AuditWorld.follows_step hs hstep
  rw [hstored] at ht
  have hmoves := moves_of_follows hs ht
  constructor
  · intro hkeeps hcomplete key hasserts howns
    obtain ⟨hbefore, hafter⟩ := (hmoves key).gone.2 ⟨hcomplete, hasserts, howns⟩
    exact hkeeps.retires hcomplete key hbefore hafter
  · intro hspares
    refine ⟨?_, fun hincomplete key => (hmoves key).kept hincomplete, ?_⟩
    · intro hcomplete key hbefore hafter
      obtain ⟨-, hasserts, howns⟩ := (hmoves key).gone.1 ⟨hbefore, hafter⟩
      exact hspares hcomplete key hasserts howns
    · intro hcomplete key
      rw [lastSeenBy, hstored]
      exact (hmoves key).own hcomplete

end step

/-- Two profiles ask the same question, one after the other. -/
def sharedQuestion : List AuditAction :=
  sampleRegister :: startedJob 1 "standard" ++ startedJob 2 "nightly" ++ startedJob 3 "nightly" ++
    [samplePersist 1 "standard" (asking "who owns it") 6,
      samplePersist 2 "nightly" (asking "who owns it") 7]

/-- The record of the question. -/
def sharedKey : RecordKey := .fact (.unknown, Str.of "owner")

theorem lineages_apart_iff_shared : ∃ s t run,
    Reaches (AuditWorld.step sampleSetting) anyStep emptyAuditWorld s ∧
      s.step sampleSetting (samplePersist 3 "nightly" emptyResult 8) = some t ∧
        t.runs = run :: s.runs ∧ (KeepsApart s t run ↔ Spares s.runs run) := by
  have hrun : (exec (AuditWorld.step sampleSetting) emptyAuditWorld sharedQuestion).any (fun s =>
      (s.step sampleSetting (samplePersist 3 "nightly" emptyResult 8)).any fun t =>
        t.runs.head?.any fun run => t.runs == run :: s.runs) = true := by
    decide +kernel
  obtain ⟨s, hs, hend⟩ := (Option.any_eq_true _ _).1 hrun
  obtain ⟨t, ht, hhead⟩ := (Option.any_eq_true _ _).1 hend
  obtain ⟨run, -, hstored⟩ := (Option.any_eq_true _ _).1 hhead
  have hstored : t.runs = run :: s.runs := eq_of_beq hstored
  exact ⟨s, t, run, reaches_of_exec hs, ht, hstored,
    lineages_apart_iff (reaches_of_exec hs) ht hstored⟩

/-- The second profile saw the question last, and retires it although the latest complete run of the
first one still asks it. -/
theorem shared_record_retired : ¬∀ s,
    Reaches (AuditWorld.step sampleSetting) anyStep emptyAuditWorld s →
      ∀ jobId input drawn committed t run,
        s.step sampleSetting (.persist jobId input drawn committed) = some t →
          t.runs = run :: s.runs → KeepsApart s t run := by
  intro hall
  have hrun : (exec (AuditWorld.step sampleSetting) emptyAuditWorld sharedQuestion).any (fun s =>
      (s.step sampleSetting (samplePersist 3 "nightly" emptyResult 8)).any fun t =>
        t.runs.head?.any fun run => t.runs == run :: s.runs && (run.status == .succeeded &&
          (s.store.current sharedKey && (!t.store.current sharedKey && s.runs.any fun first =>
            first.lineage ≠ run.lineage && (latestComplete s.runs first.lineage == some first &&
              first.asserts sharedKey))))) = true := by
    decide +kernel
  obtain ⟨s, hs, hend⟩ := (Option.any_eq_true _ _).1 hrun
  obtain ⟨t, ht, hhead⟩ := (Option.any_eq_true _ _).1 hend
  obtain ⟨run, -, hrest⟩ := (Option.any_eq_true _ _).1 hhead
  simp only [Bool.and_eq_true, beq_iff_eq, Bool.not_eq_true', List.any_eq_true,
    decide_eq_true_eq] at hrest
  obtain ⟨hstored, hcomplete, hbefore, hafter, first, -, hlineage, hlatest, hasserts⟩ := hrest
  have hkeeps := hall s (reaches_of_exec hs) _ _ _ _ t run ht hstored
  have hnot := hkeeps.retires hcomplete sharedKey hbefore hafter first.lineage hlineage first hlatest
  rw [hasserts] at hnot
  cases hnot

end FounderOs.RepositoryAudit
