import FounderOs.Foundation.Outcome
import FounderOs.RepositoryAudit.Records

namespace FounderOs.RepositoryAudit

open Headquarters Retained
open Execution (Instant)

theorem verify_ok {checks : List (Bool × AuditError)} :
    verify checks = .ok () ↔ ∀ entry ∈ checks, entry.1 = false := by
  induction checks with
  | nil => simp [verify]
  | cons entry checks ih =>
    obtain ⟨failed, error⟩ := entry
    cases failed with
    | true => simp [verify]
    | false => simp [verify, ih]

section evidence

/-- The row is the one that the reference resolves to. -/
def Names (evidence : List EvidenceRow) (ref : EvidenceRefV1) (id : Uuid) : Prop :=
  match ref.evidenceRefId with
  | some given => given = id
  | none => ∃ row ∈ evidence, row.id = id ∧ ∃ sourceRecordId,
      row.evidenceKey = some (sourceRecordId, ref)

def Cites (evidence : List EvidenceRow) (links : List EvidenceLink)
    (cited : List (EvidenceRole × EvidenceRefV1)) : Prop :=
  List.Forall₂ (fun link citation => link.role = citation.1 ∧
    Names evidence citation.2 link.evidenceRefId) links cited

/-- Evidence is added under ids of its own, and is never changed. -/
structure WorkspaceRows.Grows (before after : WorkspaceRows) : Prop where
  evidence : before.evidence <+: after.evidence
  nodup : (before.evidence.map (·.id)).Nodup → (after.evidence.map (·.id)).Nodup

variable {before after w w' : WorkspaceRows} {ref : EvidenceRefV1} {id : Uuid}
variable {links : List EvidenceLink} {cited : List (EvidenceRole × EvidenceRefV1)}
variable {run : StoredRun} {draw : Nat → Uuid} {parentType : String}

theorem WorkspaceRows.Grows.refl (w : WorkspaceRows) : w.Grows w := ⟨List.prefix_rfl, id⟩

theorem WorkspaceRows.Grows.trans (h : before.Grows w) (h' : w.Grows after) :
    before.Grows after :=
  ⟨h.evidence.trans h'.evidence, fun hnodup => h'.nodup (h.nodup hnodup)⟩

theorem WorkspaceRows.Grows.insert {row : EvidenceRow} {repositories sourceRecords : List Uuid}
    (hrow : ∀ entry ∈ row.constraints w, entry.1 = false) :
    w.Grows ⟨repositories, sourceRecords, w.evidence ++ [row]⟩ := by
  refine ⟨List.prefix_append .., fun hnodup => ?_⟩
  have hfresh := hrow _ (List.mem_cons_self ..)
  rw [List.map_append, List.nodup_append]
  refine ⟨hnodup, List.nodup_singleton _, ?_⟩
  rintro id hid other hother rfl
  obtain ⟨found, hfound, rfl⟩ := List.mem_map.1 hid
  have heq : found.id = row.id := List.mem_singleton.1 hother
  have hany : w.evidence.any (fun entry => entry.id = row.id) = true :=
    List.any_eq_true.2 ⟨found, hfound, by simp [heq]⟩
  simp [check, hany] at hfresh

theorem Names.mono (h : Names before.evidence ref id) (hgrows : before.Grows after) :
    Names after.evidence ref id := by
  unfold Names at h ⊢
  split at h
  · exact h
  · obtain ⟨row, hrow, hid, hkey⟩ := h
    exact ⟨row, hgrows.evidence.subset hrow, hid, hkey⟩

theorem Cites.mono (h : Cites before.evidence links cited) (hgrows : before.Grows after) :
    Cites after.evidence links cited :=
  List.Forall₂.imp (fun _ _ hboth => ⟨hboth.1, hboth.2.mono hgrows⟩) h

theorem resolve_ok (h : resolveEvidence run draw w ref = .ok (w', id)) :
    w.Grows w' ∧ Names w'.evidence ref id := by
  unfold resolveEvidence at h
  cases hgiven : ref.evidenceRefId with
  | some given =>
    simp only [hgiven] at h
    cases hfind : w.evidence.find? (fun row => row.id = given) with
    | none => rw [hfind] at h; cases h
    | some row =>
      rw [hfind] at h
      cases h
      have hid : row.id = given := by simpa using List.find?_some hfind
      exact ⟨.refl w, by rw [Names, hgiven]; exact hid.symm⟩
  | none =>
    simp only [hgiven] at h
    split at h
    case isFalse => cases h
    split at h
    · rename_i row hfind
      cases h
      have hkey : row.evidenceKey = some (ref.sourceRecordId.getD run.sourceRecordId, ref) := by
        simpa using List.find?_some hfind
      refine ⟨.refl w, ?_⟩
      rw [Names, hgiven]
      exact ⟨row, List.mem_of_find?_eq_some hfind, rfl, _, hkey⟩
    · split at h
      case h_1 => cases h
      obtain ⟨_, hverify, h⟩ := ok_of_bind_ok h
      cases h
      refine ⟨.insert (verify_ok.1 hverify), ?_⟩
      rw [Names, hgiven]
      exact ⟨_, List.mem_append_right _ (List.mem_singleton_self _), rfl, _, rfl⟩

theorem Cites.concat {link : EvidenceLink} {citation : EvidenceRole × EvidenceRefV1}
    (h : Cites w.evidence links cited) (hrole : link.role = citation.1)
    (hnames : Names w.evidence citation.2 link.evidenceRefId) :
    Cites w.evidence (links ++ [link]) (cited ++ [citation]) :=
  List.rel_append h (.cons ⟨hrole, hnames⟩ .nil)

theorem link_ok {state state' : WorkspaceRows × List EvidenceLink}
    {citation : EvidenceRole × EvidenceRefV1}
    (h : linkEvidence run draw parentType state citation = .ok state')
    (hcites : Cites state.1.evidence state.2 cited) :
    state.1.Grows state'.1 ∧ Cites state'.1.evidence state'.2 (cited ++ [citation]) := by
  obtain ⟨resolved, hresolve, h⟩ := ok_of_bind_ok h
  obtain ⟨_, -, h⟩ := ok_of_bind_ok h
  cases h
  obtain ⟨hgrows, hnames⟩ := resolve_ok hresolve
  exact ⟨hgrows, (hcites.mono hgrows).concat rfl hnames⟩

theorem foldl_concat {A : Type} (start l : List A) :
    l.foldl (fun done x => done ++ [x]) start = start ++ l := by
  induction l generalizing start with
  | nil => simp
  | cons x l ih => simp [ih]

theorem links_ok {supporting contradicting : List EvidenceRefV1}
    (h : replaceEvidenceLinks run draw w parentType supporting contradicting = .ok (w', links)) :
    w.Grows w' ∧ Cites w'.evidence links (citations supporting contradicting) := by
  have hstart : w.Grows w ∧ Cites w.evidence [] [] := ⟨.refl w, .nil⟩
  have hfold := foldlM_simulates
    (R := fun (state : WorkspaceRows × List EvidenceLink) done =>
      w.Grows state.1 ∧ Cites state.1.evidence state.2 done)
    (g := fun done citation => done ++ [citation])
    (fun state done citation state' hstate hlink =>
      have hboth := link_ok hlink hstate.2
      ⟨hstate.1.trans hboth.1, hboth.2⟩)
    (s := (w, [])) (t := []) hstart h
  rw [foldl_concat, List.nil_append] at hfold
  exact hfold

end evidence

section reading

variable {Item Key Row Content : Type}

/-- What the row of a kind tells, in terms of the items of its first and its last assertion. -/
structure RecordKind.Reading (kind : RecordKind Item Key Row) (Content : Type) where
  ofRow : Row → Content
  links : Row → List EvidenceLink
  ofItems : Item → Item → Content
  writes : ∀ (first : Item) (cited : List EvidenceLink) {run : AuditRun} {item : Item}
    {write : Option Row → Row} {old : Option Row} {workspace : WorkspaceRows},
      kind.write run item = .ok write → verify (kind.constraints workspace (write old)) = .ok () →
      (∀ row, old = some row → ∃ last, ofRow row = ofItems first last) →
      (old = none → first = item) →
        kind.lastSeen (kind.withLinks (write old) cited) = run.id ∧
        kind.active (kind.withLinks (write old) cited) = true ∧
        ofRow (kind.withLinks (write old) cited) = ofItems first item ∧
        links (kind.withLinks (write old) cited) = cited
  retires : ∀ time row, ofRow (kind.retire time row) = ofRow row ∧
    links (kind.retire time row) = links row

variable {kind : RecordKind Item Key Row}

def RecordKind.citations (kind : RecordKind Item Key Row) (item : Item) :
    List (EvidenceRole × EvidenceRefV1) :=
  RepositoryAudit.citations (kind.supporting item) (kind.contradicting item)

def RecordKind.Reading.Shows (reading : kind.Reading Content) (evidence : List EvidenceRow)
    (first last : Item) (row : Row) : Prop :=
  reading.ofRow row = reading.ofItems first last ∧
    Cites evidence (reading.links row) (kind.citations last)

abbrev FactContent := FactValue × AnalyzerClaimStatus × Rat

def factReading : factKind.Reading FactContent where
  ofRow row := (row.value, row.claimStatus, row.confidence)
  links := (·.links)
  ofItems _ last := (last.value, last.claimStatus, last.confidence)
  writes := by
    intro first cited run item write old workspace hwrite _ _ _
    cases hwrite
    cases old <;> exact ⟨rfl, rfl, rfl, rfl⟩
  retires _ _ := ⟨rfl, rfl⟩

abbrev RelationshipContent :=
  Option Uuid × Str × Str × ResolutionStatus × Option Str × AnalyzerClaimStatus × Rat

def relationshipReading : relationshipKind.Reading RelationshipContent where
  ofRow row := (row.toRepositoryId, row.targetExternalId, row.targetFullName, row.resolutionStatus,
    row.summary, row.claimStatus, row.confidence)
  links := (·.links)
  ofItems _ last := (last.toRepository.repositoryId, last.toRepository.externalId,
    last.toRepository.fullName, last.toRepository.resolutionStatus, last.summary, last.status,
    last.confidence)
  writes := by
    intro first cited run item write old workspace hwrite _ _ _
    obtain ⟨_, -, hwrite⟩ := ok_of_bind_ok hwrite
    obtain ⟨_, -, hwrite⟩ := ok_of_bind_ok hwrite
    cases hwrite
    cases old <;> exact ⟨rfl, rfl, rfl, rfl⟩
  retires _ _ := ⟨rfl, rfl⟩

/-- The status of a finding belongs to its lifecycle, not to what it says. -/
abbrev FindingContent := FindingSeverity × Rat × Str × Str × Option Str

theorem incomingStatus_unresolved (finding : Finding) :
    finding.incomingStatus.unresolved = true := by
  unfold Finding.incomingStatus
  split <;> rfl

theorem Finding.write_spec (finding : Finding) (runId : Uuid) (old : Option FindingRow)
    (hdecision : ((finding.write runId old).status != .acceptedRisk &&
      (finding.write runId old).status != .falsePositive) = true) :
    (finding.write runId old).lastSeenRunId = runId ∧
    (finding.write runId old).status.unresolved = true ∧
    ((finding.write runId old).severity, (finding.write runId old).confidence,
      (finding.write runId old).title, (finding.write runId old).summary,
      (finding.write runId old).recommendedNextStep) = (finding.severity, finding.confidence,
        finding.title, finding.summary, finding.recommendedNextStep) := by
  cases old with
  | none => exact ⟨rfl, incomingStatus_unresolved finding, rfl⟩
  | some row =>
    obtain ⟨_, _, _, _, _, status, _, _, _, _, _, _, _⟩ := row
    cases status with
    | resolved => exact ⟨rfl, rfl, rfl⟩
    | acceptedRisk => simp [Finding.write] at hdecision
    | falsePositive => simp [Finding.write] at hdecision
    | new => exact ⟨rfl, incomingStatus_unresolved finding, rfl⟩
    | «open» => exact ⟨rfl, incomingStatus_unresolved finding, rfl⟩
    | regressed => exact ⟨rfl, incomingStatus_unresolved finding, rfl⟩
    | insufficientEvidence => exact ⟨rfl, incomingStatus_unresolved finding, rfl⟩

def findingReading : findingKind.Reading FindingContent where
  ofRow row := (row.severity, row.confidence, row.title, row.summary, row.recommendedNextStep)
  links := (·.links)
  ofItems _ last := (last.severity, last.confidence, last.title, last.summary,
    last.recommendedNextStep)
  writes := by
    intro first cited run item write old workspace hwrite hverify _ _
    cases hwrite
    have hdecision := verify_ok.1 hverify
      (check "ck_repository_audit_findings_human_decision" _) (List.mem_of_getLast? rfl)
    have hspec := item.write_spec run.id old (by simpa [check] using hdecision)
    exact ⟨hspec.1, hspec.2.1, hspec.2.2, rfl⟩
  retires _ _ := ⟨rfl, rfl⟩

/-- The id of a contradiction is that of its first assertion. -/
abbrev ContradictionContent := Str × Option FactKey × Option FactKey × Rat × Str

def contradictionReading : contradictionKind.Reading ContradictionContent where
  ofRow row := (row.contradictionId, some row.leftFact, some row.rightFact, row.confidence,
    row.summary)
  links := (·.links)
  ofItems first last := (first.contradiction.contradictionId, last.left, last.right,
    last.contradiction.confidence, last.contradiction.summary)
  writes := by
    intro first cited run item write old workspace hwrite _ hsome hnone
    obtain ⟨contradiction, left, right⟩ := item
    cases left with
    | none => cases hwrite
    | some left =>
      cases right with
      | none => cases hwrite
      | some right =>
        cases hwrite
        cases old with
        | none =>
          obtain rfl := hnone rfl
          exact ⟨rfl, rfl, rfl, rfl⟩
        | some row =>
          obtain ⟨last, hlast⟩ := hsome row rfl
          have hid : row.contradictionId = first.contradiction.contradictionId :=
            congrArg Prod.fst hlast
          refine ⟨rfl, rfl, ?_, rfl⟩
          exact congrArg (fun id => (id, some left, some right, contradiction.confidence,
            contradiction.summary)) hid
  retires _ _ := ⟨rfl, rfl⟩

end reading

def StoredRun.pass {Item : Type} (items : AnalyzerResult → List Item) (run : StoredRun) :
    Pass Uuid Lineage Item where
  id := run.id
  line := run.scope.lineage
  complete := run.status = .succeeded
  items := items run.resultHash.result

section kind

variable {Item Key Row Content : Type} [DecidableEq Key] {kind : RecordKind Item Key Row}
variable {reading : kind.Reading Content} {items : AnalyzerResult → List Item}
variable {run : StoredRun} {runs : List StoredRun} {draw : Nat → Uuid} {w : WorkspaceRows}
variable {table : List (Key × Row)} {f : Key → Option (Standing Uuid Lineage Item)}

/-- The rows of the kind are what the runs, newest first, have left. -/
def RecordKind.Reading.Follows (reading : kind.Reading Content)
    (items : AnalyzerResult → List Item) (evidence : List EvidenceRow) (table : List (Key × Row))
    (runs : List StoredRun) : Prop :=
  Tracks kind.toRows (reading.Shows evidence) table
    (standing kind.key (runs.map (StoredRun.pass items)))

omit [DecidableEq Key] in
theorem RecordKind.Reading.Shows.mono {first last : Item} {row : Row} {w' : WorkspaceRows}
    (h : reading.Shows w.evidence first last row) (hgrows : w.Grows w') :
    reading.Shows w'.evidence first last row :=
  ⟨h.1, h.2.mono hgrows⟩

theorem upsert_ok {state state' : WorkspaceRows × List (Key × Row)} {item : Item}
    {p : Pass Uuid Lineage Item} (h : kind.upsert run draw state item = .ok state')
    (hid : p.id = run.id) (ht : Tracks kind.toRows (reading.Shows state.1.evidence) state.2 f) :
    state.1.Grows state'.1 ∧
      Tracks kind.toRows (reading.Shows state'.1.evidence) state'.2 (p.note kind.key f item) := by
  obtain ⟨write, hwrite, h⟩ := ok_of_bind_ok h
  obtain ⟨_, hverify, h⟩ := ok_of_bind_ok h
  obtain ⟨cited, hlinks, h⟩ := ok_of_bind_ok h
  cases h
  obtain ⟨hgrows, hcites⟩ := links_ok hlinks
  -- The row that was there tells of the item that the key was first asserted with.
  have hspec := reading.writes ((f (kind.key item)).elim item (·.first)) cited.2 hwrite hverify
    (by
      intro row hrow
      obtain ⟨s, hs, -, -, hshows⟩ := ht.of_get hrow
      rw [hs]
      exact ⟨s.last, hshows.1⟩)
    (by
      intro hnone
      rw [ht.get_eq_none.1 hnone]
      rfl)
  obtain ⟨hseen, hactive, hcontent, hrowLinks⟩ := hspec
  have hkept := ht.mono fun first last row hshows => hshows.mono hgrows
  refine ⟨hgrows, hkept.note (hseen.trans hid.symm) hactive ⟨hcontent, ?_⟩⟩
  rw [hrowLinks]
  exact hcites

theorem upsertAll_ok {state state' : WorkspaceRows × List (Key × Row)} {l : List Item}
    (p : Pass Uuid Lineage Item) (h : kind.upsertAll run draw state l = .ok state')
    (hid : p.id = run.id) (ht : Tracks kind.toRows (reading.Shows state.1.evidence) state.2 f) :
    state.1.Grows state'.1 ∧
      Tracks kind.toRows (reading.Shows state'.1.evidence) state'.2
        (l.foldl (p.note kind.key) f) := by
  have hstart : state.1.Grows state.1 ∧
      Tracks kind.toRows (reading.Shows state.1.evidence) state.2 f := ⟨.refl state.1, ht⟩
  exact foldlM_simulates
    (R := fun (now : WorkspaceRows × List (Key × Row)) f => state.1.Grows now.1 ∧
      Tracks kind.toRows (reading.Shows now.1.evidence) now.2 f)
    (fun now f item next hnow hupsert =>
      have hboth := upsert_ok hupsert hid hnow.2
      ⟨hnow.1.trans hboth.1, hboth.2⟩)
    hstart h

theorem priorRuns_eq {p : Pass Uuid Lineage Item} {k : Key} {s : Standing Uuid Lineage Item}
    (hids : (runs.map (·.id)).Nodup) (hp : p = run.pass items)
    (hcomplete : run.status = .succeeded)
    (hs : (p.items.foldl (p.note kind.key)
      (standing kind.key (runs.map (StoredRun.pass items)))) k = some s) :
    priorRuns runs run s.id = p.lapses s := by
  subst hp
  rw [Bool.eq_iff_iff]
  rcases noted_cases hs with hown | hearlier
  · have hid : s.id = run.id := hown
    simp only [priorRuns, Pass.lapses, StoredRun.pass, hid, List.any_eq_true]
    simp
  · obtain ⟨q, hq, hqid, hqline, -⟩ := standing_mem hearlier
    obtain ⟨prior, hprior, rfl⟩ := List.mem_map.1 hq
    have hpriorId : prior.id = s.id := hqid
    have hpriorLine : prior.scope.lineage = s.line := hqline
    simp only [priorRuns, Pass.lapses, StoredRun.pass, hcomplete, List.any_eq_true,
      Bool.and_eq_true, decide_eq_true_eq]
    constructor
    · rintro ⟨other, hother, ⟨hline, hne⟩, hsame⟩
      obtain rfl : other = prior :=
        List.inj_on_of_nodup_map hids hother hprior (hsame.trans hpriorId.symm)
      exact ⟨⟨trivial, hpriorLine ▸ hline⟩, hpriorId ▸ hne⟩
    · rintro ⟨⟨-, hline⟩, hne⟩
      exact ⟨prior, hprior, ⟨hpriorLine.trans hline, hpriorId.symm ▸ hne⟩, hpriorId⟩

/-- What a complete run does to a kind once its items are written. -/
theorem reconcile_ok (time : Instant) {evidence : List EvidenceRow}
    (hids : (runs.map (·.id)).Nodup) (ht : Tracks kind.toRows (reading.Shows evidence) table
      ((run.pass items).items.foldl ((run.pass items).note kind.key)
        (standing kind.key (runs.map (StoredRun.pass items))))) :
    reading.Follows items evidence
      (if run.status = .succeeded then kind.retireAll (priorRuns runs run) time table else table)
      (run :: runs) := by
  split
  · rename_i hcomplete
    refine ht.retire (fun k s hs => priorRuns_eq hids rfl hcomplete hs) ?_
    intro first last row hshows
    obtain ⟨hcontent, hlinks⟩ := reading.retires time row
    exact ⟨hcontent.trans hshows.1, hlinks ▸ hshows.2⟩
  · rename_i hincomplete
    exact ht.incomplete (decide_eq_false hincomplete)

end kind

section store

/-- The records are what the runs have left of them. -/
structure Store.Follows (store : Store) (runs : List StoredRun) : Prop where
  ids : (runs.map (·.id)).Nodup
  evidence : (store.workspace.evidence.map (·.id)).Nodup
  facts : factReading.Follows AnalyzerResult.factMaterial store.workspace.evidence store.facts runs
  relationships : relationshipReading.Follows AnalyzerResult.relationshipCandidates
    store.workspace.evidence store.relationships runs
  findings : findingReading.Follows AnalyzerResult.findings store.workspace.evidence
    store.findings runs
  contradictions : contradictionReading.Follows AnalyzerResult.locatedContradictions
    store.workspace.evidence store.contradictions runs

variable {store store' : Store} {runs : List StoredRun} {run : StoredRun} {draw : Nat → Uuid}

theorem Store.Follows.grows {w' : WorkspaceRows} (h : store.Follows runs)
    (hgrows : store.workspace.Grows w') : Store.Follows { store with workspace := w' } runs where
  ids := h.ids
  evidence := hgrows.nodup h.evidence
  facts := h.facts.mono fun _ _ _ hshows => hshows.mono hgrows
  relationships := h.relationships.mono fun _ _ _ hshows => hshows.mono hgrows
  findings := h.findings.mono fun _ _ _ hshows => hshows.mono hgrows
  contradictions := h.contradictions.mono fun _ _ _ hshows => hshows.mono hgrows

theorem fresh_of_constraints {w : WorkspaceRows}
    (h : verify (run.constraints runs w) = .ok ()) :
    run.id ∉ runs.map (·.id) ∧ run.jobId ∉ runs.map (·.jobId) := by
  have hid := verify_ok.1 h _ (List.mem_cons_of_mem _ (List.mem_cons_self ..))
  have hjob := verify_ok.1 h _
    (List.mem_cons_of_mem _ (List.mem_cons_of_mem _ (List.mem_cons_self ..)))
  constructor
  · intro hmem
    obtain ⟨other, hother, heq⟩ := List.mem_map.1 hmem
    have hany : runs.any (fun entry => entry.id = run.id) = true :=
      List.any_eq_true.2 ⟨other, hother, by simp [heq]⟩
    simp [check, hany] at hid
  · intro hmem
    obtain ⟨other, hother, heq⟩ := List.mem_map.1 hmem
    have hany : runs.any (fun entry => entry.jobId = run.jobId) = true :=
      List.any_eq_true.2 ⟨other, hother, by simp [heq]⟩
    simp [check, hany] at hjob

/-- A persist that goes through leaves the records as the runs with the new one leave them. -/
theorem persistRecords_ok (h : persistRecords store runs run draw = .ok store')
    (hfollows : store.Follows runs) : store'.Follows (run :: runs) := by
  obtain ⟨_, hverify, h⟩ := ok_of_bind_ok h
  obtain ⟨facts, hfacts, h⟩ := ok_of_bind_ok h
  obtain ⟨relationships, hrelationships, h⟩ := ok_of_bind_ok h
  obtain ⟨findings, hfindings, h⟩ := ok_of_bind_ok h
  obtain ⟨contradictions, hcontradictions, h⟩ := ok_of_bind_ok h
  have hgrows : store.workspace.Grows
      { store.workspace with
        sourceRecords := store.workspace.sourceRecords ++ [run.sourceRecordId] } :=
    ⟨List.prefix_rfl, id⟩
  have hstart := hfollows.grows hgrows
  obtain ⟨hgrows₁, ht₁⟩ := upsertAll_ok (run.pass AnalyzerResult.factMaterial) hfacts rfl
    hstart.facts
  obtain ⟨hgrows₂, ht₂⟩ := upsertAll_ok (run.pass AnalyzerResult.relationshipCandidates)
    hrelationships rfl (hstart.grows hgrows₁).relationships
  obtain ⟨hgrows₃, ht₃⟩ := upsertAll_ok (run.pass AnalyzerResult.findings) hfindings rfl
    (hstart.grows (hgrows₁.trans hgrows₂)).findings
  obtain ⟨hgrows₄, ht₄⟩ := upsertAll_ok (run.pass AnalyzerResult.locatedContradictions)
    hcontradictions rfl (hstart.grows ((hgrows₁.trans hgrows₂).trans hgrows₃)).contradictions
  have hids := List.nodup_cons.2 ⟨(fresh_of_constraints hverify).1, hfollows.ids⟩
  have hevidence := (((hgrows₁.trans hgrows₂).trans hgrows₃).trans hgrows₄).nodup hstart.evidence
  have hlater₃ := hgrows₄
  have hlater₂ := hgrows₃.trans hlater₃
  have hlater₁ := hgrows₂.trans hlater₂
  have hfacts' := reconcile_ok run.completedAt hfollows.ids
    (ht₁.mono fun _ _ _ hshows => hshows.mono hlater₁)
  have hrelationships' := reconcile_ok run.completedAt hfollows.ids
    (ht₂.mono fun _ _ _ hshows => hshows.mono hlater₂)
  have hfindings' := reconcile_ok run.completedAt hfollows.ids
    (ht₃.mono fun _ _ _ hshows => hshows.mono hlater₃)
  have hcontradictions' := reconcile_ok run.completedAt hfollows.ids ht₄
  cases h
  split
  · rename_i hcomplete
    rw [if_pos hcomplete] at hfacts' hrelationships' hfindings' hcontradictions'
    exact ⟨hids, hevidence, hfacts', hrelationships', hfindings', hcontradictions'⟩
  · rename_i hincomplete
    rw [if_neg hincomplete] at hfacts' hrelationships' hfindings' hcontradictions'
    exact ⟨hids, hevidence, hfacts', hrelationships', hfindings', hcontradictions'⟩

end store

end FounderOs.RepositoryAudit
