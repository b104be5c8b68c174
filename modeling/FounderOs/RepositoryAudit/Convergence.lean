import FounderOs.RepositoryAudit.Lineage

namespace FounderOs.RepositoryAudit

open Headquarters Retained Transition
open Execution (Instant)

/-- A row of evidence as an audit cites it: by the reference that it was written for, whichever run
wrote it, or by its id where no audit did. -/
inductive Citation where
  | material (ref : EvidenceRefV1)
  | row (id : Uuid)
  deriving DecidableEq

def citationOf (evidence : List EvidenceRow) (id : Uuid) : Citation :=
  match (evidence.find? (·.id = id)).bind (·.evidenceKey) with
  | some key => .material key.2
  | none => .row id

def EvidenceRefV1.citation (evidence : List EvidenceRow) (ref : EvidenceRefV1) : Citation :=
  match ref.evidenceRefId with
  | some id => citationOf evidence id
  | none => .material ref

def linked (evidence : List EvidenceRow) (links : List EvidenceLink) :
    List (EvidenceRole × Citation) :=
  links.map fun link => (link.role, citationOf evidence link.evidenceRefId)

def cited (evidence : List EvidenceRow) (refs : List (EvidenceRole × EvidenceRefV1)) :
    List (EvidenceRole × Citation) :=
  refs.map fun ref => (ref.1, ref.2.citation evidence)

section evidence

variable {evidence : List EvidenceRow} {links : List EvidenceLink}
variable {refs : List (EvidenceRole × EvidenceRefV1)} {ref : EvidenceRefV1} {id : Uuid}

theorem citationOf_mem (hnodup : (evidence.map (·.id)).Nodup) {row : EvidenceRow}
    (hrow : row ∈ evidence) {sourceRecordId : Uuid}
    (hkey : row.evidenceKey = some (sourceRecordId, ref)) :
    citationOf evidence row.id = .material ref := by
  have hfind : evidence.find? (fun other => other.id = row.id) = some row :=
    (Dict.find?_key (.of_nodup hnodup)).2 ⟨hrow, rfl⟩
  rw [citationOf, hfind, Option.bind_some, hkey]

theorem citationOf_names (hnodup : (evidence.map (·.id)).Nodup) (h : Names evidence ref id) :
    citationOf evidence id = ref.citation evidence := by
  unfold Names at h
  unfold EvidenceRefV1.citation
  cases hgiven : ref.evidenceRefId with
  | some given =>
    simp only [hgiven] at h
    rw [h]
  | none =>
    simp only [hgiven] at h
    obtain ⟨row, hrow, rfl, sourceRecordId, hkey⟩ := h
    exact citationOf_mem hnodup hrow hkey

/-- The links of a row cite what the item cites. -/
theorem linked_eq (hnodup : (evidence.map (·.id)).Nodup) (h : Cites evidence links refs) :
    linked evidence links = cited evidence refs := by
  induction h with
  | nil => rfl
  | cons hboth _ ih =>
    obtain ⟨hrole, hnames⟩ := hboth
    rw [linked, cited, List.map_cons, List.map_cons, hrole, citationOf_names hnodup hnames]
    exact congrArg _ ih

end evidence

section kind

variable {Item Key Row Content : Type} [DecidableEq Key] {kind : RecordKind Item Key Row}

/-- The row says what the item says, and cites what it cites. -/
def RecordKind.Reading.States (reading : kind.Reading Content) (evidence : List EvidenceRow)
    (item : Item) (row : Row) : Prop :=
  reading.ofRow row = reading.ofItems item item ∧
    ∀ c, c ∈ linked evidence (reading.links row) ↔ c ∈ cited evidence (kind.citations item)

def RecordKind.item (kind : RecordKind Item Key Row) (items : AnalyzerResult → List Item)
    (run : StoredRun) (k : Key) : Option Item :=
  lastItem kind.key (items run.resultHash.result) k

def RecordKind.firstAsserted (kind : RecordKind Item Key Row)
    (items : AnalyzerResult → List Item) (runs : List StoredRun) (k : Key) : Option Item :=
  firstItem kind.key (runs.reverse.flatMap fun run => items run.resultHash.result) k

/-- The current rows of the kind are what the result of the run states. -/
def RecordKind.Reading.Converged (reading : kind.Reading Content)
    (items : AnalyzerResult → List Item) (evidence : List EvidenceRow) (table : List (Key × Row))
    (run : StoredRun) : Prop :=
  ∀ k, Option.Rel (reading.States evidence) (kind.item items run k) (kind.current table k)

/-- Two results state the same records, with the same content and the same evidence; what a kind
keeps from the first assertion of a record is as the second result has it. -/
def RecordKind.Reading.Agrees (reading : kind.Reading Content)
    (items : AnalyzerResult → List Item) (evidence : List EvidenceRow) (runs : List StoredRun)
    (last newest : StoredRun) : Prop :=
  ∀ k, Option.Rel (fun item item' =>
    (∀ first, kind.firstAsserted items runs k = some first →
      reading.ofItems first item = reading.ofItems item' item') ∧
    ∀ c, c ∈ cited evidence (kind.citations item) ↔ c ∈ cited evidence (kind.citations item'))
      (kind.item items last k) (kind.item items newest k)

variable {reading : kind.Reading Content} {items : AnalyzerResult → List Item}
variable {evidence : List EvidenceRow} {table : List (Key × Row)} {last newest : StoredRun}
variable {earlier : List StoredRun} {k : Key}

theorem firstAsserted_eq (runs : List StoredRun) (k : Key) : kind.firstAsserted items runs k =
    (standing kind.key (runs.map (StoredRun.pass items)) k).map (·.first) := by
  rw [standing_first, ← List.map_reverse, List.flatMap_map]
  rfl

/-- Whatever came before, a complete run of the one lineage leaves what it states. -/
theorem current_of_last (ht : reading.Follows items evidence table (last :: earlier))
    (hids : ((last :: earlier).map (·.id)).Nodup) (hcomplete : last.status = .succeeded)
    (hline : ∀ run ∈ earlier, run.lineage = last.lineage) (k : Key) :
    Option.Rel (fun item row => ∃ first,
        kind.firstAsserted items (last :: earlier) k = some first ∧
          reading.Shows evidence first item row)
      (kind.item items last k) (kind.current table k) := by
  have hnodup := passes_nodup items hids
  have hlines : ∀ p ∈ earlier.map (StoredRun.pass items), p.line = (last.pass items).line := by
    intro p hp
    obtain ⟨run, hrun, rfl⟩ := List.mem_map.1 hp
    exact hline run hrun
  have hheld : held kind.key ((last :: earlier).map (StoredRun.pass items)) k = _ :=
    held_of_one_line hnodup (decide_eq_true hcomplete) hlines
  rw [firstAsserted_eq]
  cases hasserts : (last.pass items).asserts kind.key k with
  | true =>
    obtain ⟨item, first, hitem, hstanding, -⟩ :=
      standing_of_asserted (h := earlier.map (StoredRun.pass items)) hasserts
    rw [← List.map_cons] at hstanding
    obtain ⟨row, hrow, -, hactive, hshows⟩ := ht.of_standing hstanding
    have hcurrent : kind.current table k = some row := by
      rw [Rows.current, hrow, Option.filter_some, if_pos hactive]
    have hlast : kind.item items last k = some item := hitem
    rw [hcurrent, hlast, hstanding]
    exact .some ⟨first, rfl, hshows⟩
  | false =>
    have hlast : kind.item items last k = none := by
      cases hitem : kind.item items last k with
      | none => rfl
      | some item =>
        have hmem : item ∈ items last.resultHash.result ∧ kind.key item = k := lastItem_mem hitem
        rw [asserts_iff.2 ⟨item, hmem⟩] at hasserts
        cases hasserts
    have hcurrent : kind.current table k = none := by
      have hactive : (Dict.get table k).any kind.active = _ := ht.active_iff
      rw [hheld, hasserts] at hactive
      cases hrow : Dict.get table k with
      | none => rw [Rows.current, hrow]; rfl
      | some row =>
        rw [hrow] at hactive
        have hoff : kind.active row = false := hactive
        rw [Rows.current, hrow, Option.filter_some, if_neg (by simp [hoff])]
    rw [hcurrent, hlast]
    exact .none

theorem converged_iff (newest : StoredRun) (ht : reading.Follows items evidence table (last :: earlier))
    (hevidence : (evidence.map (·.id)).Nodup) (hids : ((last :: earlier).map (·.id)).Nodup)
    (hcomplete : last.status = .succeeded)
    (hline : ∀ run ∈ earlier, run.lineage = last.lineage) :
    reading.Converged items evidence table newest ↔
      reading.Agrees items evidence (last :: earlier) last newest := by
  refine forall_congr' fun k => ?_
  have hcurrent := current_of_last ht hids hcomplete hline k
  revert hcurrent
  generalize kind.item items last k = stated
  generalize kind.current table k = row
  generalize kind.item items newest k = wanted
  rintro (⟨first, hfirst, hcontent, hcites⟩ | _)
  · have hlinked := linked_eq hevidence hcites
    constructor
    · rintro (⟨hstates, hsame⟩ | _)
      refine .some ⟨fun other hother => ?_, fun c => ?_⟩
      · obtain rfl := Option.some.inj (hfirst.symm.trans hother)
        exact hcontent.symm.trans hstates
      · rw [← hlinked]
        exact hsame c
    · rintro (⟨hstates, hsame⟩ | _)
      refine .some ⟨hcontent.trans (hstates first hfirst), fun c => ?_⟩
      rw [hlinked]
      exact hsame c
  · constructor
    · rintro (_ | _)
      exact .none
    · rintro (_ | _)
      exact .none

theorem RecordKind.Reading.Converged.content (h : reading.Converged items evidence table newest)
    (k : Key) : (kind.current table k).map reading.ofRow =
      (kind.item items newest k).map fun item => reading.ofItems item item := by
  have hk := h k
  revert hk
  generalize kind.item items newest k = stated
  generalize kind.current table k = row
  rintro (⟨hcontent, -⟩ | _)
  · exact congrArg some hcontent
  · rfl

end kind

/-- The current records are what the result of the run states. -/
structure AuditWorld.Converged (s : AuditWorld) (run : StoredRun) : Prop where
  facts : factReading.Converged AnalyzerResult.factMaterial s.store.workspace.evidence
    s.store.facts run
  relationships : relationshipReading.Converged AnalyzerResult.relationshipCandidates
    s.store.workspace.evidence s.store.relationships run
  findings : findingReading.Converged AnalyzerResult.findings s.store.workspace.evidence
    s.store.findings run
  contradictions : contradictionReading.Converged AnalyzerResult.locatedContradictions
    s.store.workspace.evidence s.store.contradictions run

/-- The results of two runs state the same. -/
structure AuditWorld.Agrees (s : AuditWorld) (last newest : StoredRun) : Prop where
  facts : factReading.Agrees AnalyzerResult.factMaterial s.store.workspace.evidence s.runs last
    newest
  relationships : relationshipReading.Agrees AnalyzerResult.relationshipCandidates
    s.store.workspace.evidence s.runs last newest
  findings : findingReading.Agrees AnalyzerResult.findings s.store.workspace.evidence s.runs last
    newest
  contradictions : contradictionReading.Agrees AnalyzerResult.locatedContradictions
    s.store.workspace.evidence s.runs last newest

/-- Complete results of one lineage: the one that was persisted last, and the one that was completed
last. -/
structure AuditWorld.Batch (s : AuditWorld) (last newest : StoredRun) : Prop where
  persistedLast : s.runs.head? = some last
  complete : ∀ run ∈ s.runs, run.status = .succeeded
  lineage : ∀ run ∈ s.runs, run.lineage = last.lineage
  distinct : (s.runs.map (·.completedAt)).Nodup
  stored : newest ∈ s.runs
  greatest : ∀ run ∈ s.runs, run.completedAt ≤ newest.completedAt

section runs

variable {setting : Setting} {s : AuditWorld} {last newest : StoredRun}

/-- The last persist wins: the records converge on the result that was completed last exactly if the
result that was persisted last states the same. -/
theorem audits_converge_iff (h : Reaches (AuditWorld.step setting) anyStep emptyAuditWorld s)
    (hbatch : s.Batch last newest) : s.Converged newest ↔ s.Agrees last newest := by
  have hs := AuditWorld.follows_of_reaches h
  obtain ⟨earlier, hruns⟩ := List.head?_eq_some_iff.1 hbatch.persistedLast
  have hcomplete := hbatch.complete last (hruns ▸ List.mem_cons_self ..)
  have hline : ∀ run ∈ earlier, run.lineage = last.lineage := fun run hrun =>
    hbatch.lineage run (hruns ▸ List.mem_cons_of_mem _ hrun)
  rw [hruns] at hs
  have hfacts := converged_iff newest hs.facts hs.evidence hs.ids hcomplete hline
  have hrelationships :=
    converged_iff newest hs.relationships hs.evidence hs.ids hcomplete hline
  have hfindings := converged_iff newest hs.findings hs.evidence hs.ids hcomplete hline
  have hcontradictions :=
    converged_iff newest hs.contradictions hs.evidence hs.ids hcomplete hline
  rw [← hruns] at hfacts hrelationships hfindings hcontradictions
  constructor
  · rintro ⟨h₁, h₂, h₃, h₄⟩
    exact ⟨hfacts.1 h₁, hrelationships.1 h₂, hfindings.1 h₃, hcontradictions.1 h₄⟩
  · rintro ⟨h₁, h₂, h₃, h₄⟩
    exact ⟨hfacts.2 h₁, hrelationships.2 h₂, hfindings.2 h₃, hcontradictions.2 h₄⟩

end runs

/-- The job of the older result persists it last. -/
def crossedResults : List AuditAction :=
  sampleRegister :: startedJob 1 "standard" ++ startedJob 2 "standard" ++
    [samplePersist 2 "standard" (asking "who owns it now") 7,
      samplePersist 1 "standard" (asking "who owned it") 6]

theorem crossed_batch : ∃ s last newest,
    Reaches (AuditWorld.step sampleSetting) anyStep emptyAuditWorld s ∧ s.Batch last newest ∧
      (factKind.current s.store.facts (.unknown, Str.of "owner")).map (·.value) ≠
        (factKind.item AnalyzerResult.factMaterial newest (.unknown, Str.of "owner")).map
          (·.value) := by
  have hrun : (exec (AuditWorld.step sampleSetting) emptyAuditWorld crossedResults).any (fun s =>
      s.runs.head?.any fun last => s.runs.getLast?.any fun newest =>
        s.runs.all (fun run => run.status == .succeeded && (run.lineage == last.lineage &&
          decide (run.completedAt ≤ newest.completedAt))) &&
        (decide (s.runs.map (·.completedAt)).Nodup &&
          (factKind.current s.store.facts (.unknown, Str.of "owner")).map (·.value) !=
            (factKind.item AnalyzerResult.factMaterial newest (.unknown, Str.of "owner")).map
              (·.value))) = true := by
    decide +kernel
  obtain ⟨s, hs, hend⟩ := (Option.any_eq_true _ _).1 hrun
  obtain ⟨last, hlast, hend⟩ := (Option.any_eq_true _ _).1 hend
  obtain ⟨newest, hnewest, hend⟩ := (Option.any_eq_true _ _).1 hend
  simp only [Bool.and_eq_true, List.all_eq_true, beq_iff_eq, decide_eq_true_eq, bne_iff_ne] at hend
  obtain ⟨hall, hdistinct, hvalue⟩ := hend
  exact ⟨s, last, newest, reaches_of_exec hs,
    { persistedLast := hlast
      complete := fun run hrun => (hall run hrun).1
      lineage := fun run hrun => (hall run hrun).2.1
      distinct := hdistinct
      stored := List.mem_of_getLast? hnewest
      greatest := fun run hrun => (hall run hrun).2.2 }, hvalue⟩

theorem audits_converge_iff_crossed : ∃ s last newest,
    Reaches (AuditWorld.step sampleSetting) anyStep emptyAuditWorld s ∧ s.Batch last newest ∧
      (s.Converged newest ↔ s.Agrees last newest) := by
  obtain ⟨s, last, newest, hs, hbatch, -⟩ := crossed_batch
  exact ⟨s, last, newest, hs, hbatch, audits_converge_iff hs hbatch⟩

/-- The older result replaces the newer one. -/
theorem crossed_results_diverge : ¬∀ s last newest,
    Reaches (AuditWorld.step sampleSetting) anyStep emptyAuditWorld s → s.Batch last newest →
      s.Converged newest := by
  intro hall
  obtain ⟨s, last, newest, hs, hbatch, hvalue⟩ := crossed_batch
  have hcontent := (hall s last newest hs hbatch).facts.content (.unknown, Str.of "owner")
  have hvalues := congrArg (Option.map Prod.fst) hcontent
  rw [Option.map_map, Option.map_map] at hvalues
  exact hvalue hvalues

end FounderOs.RepositoryAudit
