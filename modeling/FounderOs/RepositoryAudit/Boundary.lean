import FounderOs.Foundation.Outcome
import FounderOs.RepositoryAudit.Deletion
import FounderOs.RepositoryAudit.Upkeep

namespace FounderOs.RepositoryAudit.Deletion

open Headquarters Transition

variable {D : Type}

section frames

variable {t t' : Tables D} {run : RunRow D} {draw : Nat → Uuid}

/-- What a write of records and links leaves alone. -/
structure Tables.SameRuns (t t' : Tables D) : Prop where
  runs : t'.runs = t.runs
  sourceRecords : t'.sourceRecords = t.sourceRecords

theorem resolveEvidence_sameRuns {evidence : EvidenceRefV1} {id : Uuid}
    (h : t.resolveEvidence run draw evidence = .ok (id, t')) : t.SameRuns t' := by
  unfold Tables.resolveEvidence at h
  dsimp only at h
  split at h
  · split at h
    · cases h
    · cases h
      exact ⟨rfl, rfl⟩
  · split at h
    · split at h
      · cases h
        exact ⟨rfl, rfl⟩
      · split at h
        · cases h
        · obtain ⟨_, -, h⟩ := ok_of_bind_ok h
          cases h
          exact ⟨rfl, rfl⟩
    · cases h

theorem Tables.SameRuns.trans {t'' : Tables D} (h : t.SameRuns t') (h' : t'.SameRuns t'') :
    t.SameRuns t'' :=
  ⟨h'.runs.trans h.runs, h'.sourceRecords.trans h.sourceRecords⟩

theorem foldlM_sameRuns {α : Type} {f : Tables D → α → Except AuditError (Tables D)} {l : List α}
    (hstep : ∀ s x s', f s x = .ok s' → s.SameRuns s') (h : l.foldlM f t = .ok t') :
    t.SameRuns t' :=
  foldlM_invariant (P := fun s _ => t.SameRuns s)
    (fun _ _ _ _ hs hnext => hs.trans (hstep _ _ _ hnext)) ⟨rfl, rfl⟩ h

theorem replaceEvidenceLinks_sameRuns {kind : ParentType} {parentId : Uuid}
    {supporting contradicting : List EvidenceRefV1}
    (h : t.replaceEvidenceLinks run draw kind parentId supporting contradicting = .ok t') :
    t.SameRuns t' := by
  have hcleared : t.SameRuns (t.deleteLinks (ofParents run.workspaceId kind [parentId])) :=
    ⟨rfl, rfl⟩
  refine hcleared.trans (foldlM_sameRuns (fun s cited s' hs => ?_) h)
  unfold Tables.linkEvidence at hs
  obtain ⟨resolved, hresolved, hs⟩ := ok_of_bind_ok hs
  obtain ⟨_, -, hs⟩ := ok_of_bind_ok hs
  cases hs
  exact (resolveEvidence_sameRuns hresolved).trans ⟨rfl, rfl⟩

theorem upsertRecord_sameRuns {write : RecordWrite D}
    (h : t.upsertRecord run draw write = .ok t') : t.SameRuns t' := by
  obtain ⟨⟨id, put⟩, hput, h⟩ := ok_of_bind_ok h
  have hsame : t.SameRuns put := by
    unfold Tables.putRecord at hput
    split at hput
    · cases hput
      exact ⟨rfl, rfl⟩
    · obtain ⟨_, -, hput⟩ := ok_of_bind_ok hput
      cases hput
      exact ⟨rfl, rfl⟩
  exact hsame.trans (replaceEvidenceLinks_sameRuns h)

end frames

section boundary

variable (t t' : Tables D) (workspaceId repositoryId : Uuid)

/-- A link of one of the records of the repository. -/
def Tables.owns (link : LinkRow) : Bool :=
  link.workspaceId = workspaceId &&
    (t.repositoryParentIds workspaceId repositoryId link.parentType).contains link.parentId

/-- An evidence reference of the source record of one of the repository's runs. -/
def Tables.derives (row : EvidenceRefRow) : Bool :=
  row.workspaceId = workspaceId &&
    (t.runSourceRecordIds workspaceId repositoryId).contains row.sourceRecordId

def Tables.tracks (row : SourceRow D) : Bool :=
  row.workspaceId = workspaceId &&
    (t.runSourceRecordIds workspaceId repositoryId).contains row.id

/-- Exactly what is the repository's has gone; `t'` are the tables afterwards. -/
structure Tables.Boundary : Prop where
  jobs : t'.jobs = t.jobs.filter fun job =>
    !within workspaceId repositoryId job.workspaceId job.repositoryId
  runs : t'.runs = t.runs.filter fun run =>
    !within workspaceId repositoryId run.workspaceId run.repositoryId
  records : ∀ kind, t'.records kind = (t.records kind).filter fun row =>
    !within workspaceId repositoryId row.workspaceId row.repositoryId
  links : t'.links = t.links.filter fun link => !t.owns workspaceId repositoryId link
  sourceRecords : t'.sourceRecords = t.sourceRecords.filter fun row =>
    !t.tracks workspaceId repositoryId row

/-- No record of another repository cites what the repository's runs were the source of. -/
def Tables.Unshared : Prop :=
  ∀ link ∈ t.links, ∀ row ∈ t.evidence, isCited row link = true →
    t.derives workspaceId repositoryId row = true → t.owns workspaceId repositoryId link = true

/-- What every run of the system keeps of the source records of the audit runs. -/
structure Tables.Sound : Prop where
  source : ∀ run ∈ t.runs, ∃ row ∈ t.sourceRecords, isSourceOfRun row run = true
  apart : ∀ run ∈ t.runs, ∀ other ∈ t.runs, run.workspaceId = other.workspaceId →
    run.sourceRecordId = other.sourceRecordId → run.repositoryId = other.repositoryId
  recordType : ∀ run ∈ t.runs, ∀ row ∈ t.sourceRecords, isSourceOfRun row run = true →
    row.recordType = runRecordType

end boundary

section statements

variable {t : Tables D} {workspaceId repositoryId : Uuid}

theorem mem_repositoryParentIds {kind : ParentType} {id : Uuid} :
    id ∈ t.repositoryParentIds workspaceId repositoryId kind ↔ ∃ row ∈ t.records kind,
      within workspaceId repositoryId row.workspaceId row.repositoryId = true ∧ row.id = id := by
  simp [Tables.repositoryParentIds, and_assoc]

theorem filter_not_eq_self {α : Type} {p : α → Bool} {l : List α} (h : ∀ a ∈ l, p a = false) :
    (l.filter fun a => !p a) = l :=
  List.filter_eq_self.2 fun a ha => by rw [h a ha]; rfl

theorem ofParents_nil {kind : ParentType} {link : LinkRow} :
    ofParents workspaceId kind [] link = false := by
  simp [ofParents]

theorem deleteEvidenceLinksForParents_eq :
    (t.deleteEvidenceLinksForParents workspaceId
      (t.repositoryParentIds workspaceId repositoryId)).2 =
        t.deleteLinks (t.owns workspaceId repositoryId) := by
  have hone (state : Nat × Tables D) (kind : ParentType) (ids : List Uuid) :
      (if ids = [] then state
        else (state.1 + (state.2.links.filter (ofParents workspaceId kind ids)).length,
          state.2.deleteLinks (ofParents workspaceId kind ids))).2 =
      state.2.deleteLinks (ofParents workspaceId kind ids) := by
    split
    · rename_i hnil
      rw [hnil, Tables.deleteLinks, filter_not_eq_self fun _ _ => ofParents_nil]
    · rfl
  simp only [Tables.deleteEvidenceLinksForParents, List.foldl_cons, List.foldl_nil]
  rw [hone, hone, hone, hone]
  simp only [Tables.deleteLinks, List.filter_filter]
  congr 1
  refine List.filter_congr fun link _ => ?_
  cases hkind : link.parentType <;> simp [ofParents, Tables.owns, hkind]

def Tables.dropRecords (s : Tables D) (kind : ParentType) (doomed : RecordRow D → Bool) :
    Tables D :=
  { s with records := fun other =>
      if other = kind then (s.records kind).filter fun row => !doomed row else s.records other }

theorem deleteRecords_eq {s : Tables D} {kind : ParentType} {doomed : RecordRow D → Bool}
    (h : ∀ link ∈ s.links, ∀ row ∈ s.records kind, doomed row = true →
      isParent kind row link = false) :
    s.deleteRecords kind doomed = s.dropRecords kind doomed := by
  have hlinks : ∀ link ∈ s.links,
      ((s.records kind).filter doomed).any (isParent kind · link) = false := by
    intro link hlink
    rw [List.any_eq_false]
    intro row hrow
    rw [List.mem_filter] at hrow
    rw [h link hlink row hrow.1 hrow.2]
    exact Bool.false_ne_true
  rw [Tables.deleteRecords, filter_not_eq_self hlinks]
  rfl

theorem deleteRecords_none {s : Tables D} {kind : ParentType} {doomed : RecordRow D → Bool}
    (h : ∀ row ∈ s.records kind, doomed row = false) : s.deleteRecords kind doomed = s := by
  have hunlinked : ∀ link ∈ s.links, ∀ row ∈ s.records kind, doomed row = true →
      isParent kind row link = false := by
    intro link _ row hrow hdoomed
    rw [h row hrow] at hdoomed
    cases hdoomed
  rw [deleteRecords_eq hunlinked, Tables.dropRecords, filter_not_eq_self h]
  congr 1
  funext other
  split
  · rename_i hsame
    rw [hsame]
  · rfl

/-- The rows of a repository, whose links are gone already. -/
def ownRecord (workspaceId repositoryId : Uuid) (row : RecordRow D) : Bool :=
  within workspaceId repositoryId row.workspaceId row.repositoryId

theorem isParent_ownRecord {link : LinkRow} {kind : ParentType} {row : RecordRow D}
    (hlink : t.owns workspaceId repositoryId link = false) (hrow : row ∈ t.records kind)
    (hown : ownRecord workspaceId repositoryId row = true) : isParent kind row link = false := by
  by_contra hparent
  simp only [isParent, Bool.not_eq_false, Bool.and_eq_true, decide_eq_true_eq] at hparent
  obtain ⟨⟨hkind, hworkspace⟩, hid⟩ := hparent
  have hmem : link.parentId ∈ t.repositoryParentIds workspaceId repositoryId link.parentType :=
    mem_repositoryParentIds.2 ⟨row, hkind ▸ hrow, hown, hid.symm⟩
  have hwithin : row.workspaceId = workspaceId := by
    simp only [ownRecord, within, Bool.and_eq_true, decide_eq_true_eq] at hown
    exact hown.1
  simp only [Tables.owns, hworkspace, hwithin, decide_true, Bool.true_and] at hlink
  rw [List.contains_iff_mem.2 hmem] at hlink
  cases hlink

/-- The statements on the records, where the links of the rows that go are gone already and no
contradiction that is left is on a fact that goes. -/
theorem deleteFacts_eq {u : Tables D} {own : RecordRow D → Bool}
    (hlinks : ∀ link ∈ u.links, ∀ kind, ∀ row ∈ u.records kind, own row = true →
      isParent kind row link = false)
    (hfacts : ∀ fact row, isFactOf fact row = true → own fact = own row) :
    (((u.deleteRecords .contradiction own).deleteRecords .finding own).deleteRecords .relationship
        own).deleteFacts own =
      { u with records := fun kind => (u.records kind).filter fun row => !own row } := by
  have hdrop {s : Tables D} {kind : ParentType} (hsame : s.links = u.links)
      (hrecords : s.records kind = u.records kind) :
      s.deleteRecords kind own = s.dropRecords kind own :=
    deleteRecords_eq fun link hlink row hrow =>
      hlinks link (hsame ▸ hlink) kind row (hrecords ▸ hrow)
  have hcontradictions : u.deleteRecords .contradiction own = u.dropRecords .contradiction own :=
    hdrop rfl rfl
  rw [hcontradictions]
  generalize hfirst : u.dropRecords .contradiction own = first
  have hfindings : first.deleteRecords .finding own = first.dropRecords .finding own :=
    hdrop (hfirst ▸ rfl) (hfirst ▸ rfl)
  rw [hfindings]
  generalize hsecond : first.dropRecords .finding own = second
  have hrelationships : second.deleteRecords .relationship own =
      second.dropRecords .relationship own :=
    hdrop (by rw [← hsecond, ← hfirst]; rfl) (by rw [← hsecond, ← hfirst]; rfl)
  rw [hrelationships]
  generalize hthird : second.dropRecords .relationship own = third
  have hfact : third.deleteRecords .fact own = third.dropRecords .fact own :=
    hdrop (by rw [← hthird, ← hsecond, ← hfirst]; rfl) (by rw [← hthird, ← hsecond, ← hfirst]; rfl)
  rw [Tables.deleteFacts, hfact, deleteRecords_none]
  · subst hthird hsecond hfirst
    simp only [Tables.dropRecords]
    congr 1
    funext kind
    cases kind <;> rfl
  · intro row hrow
    have hforeign : own row = false := by
      subst hthird hsecond hfirst
      simpa using (List.mem_filter.1 hrow).2
    rw [List.any_eq_false]
    intro fact hmem hof
    rw [← hfacts fact row hof, (List.mem_filter.1 hmem).2] at hforeign
    cases hforeign

end statements

section outcome

variable {t : Tables D} {workspaceId repositoryId : Uuid}

theorem within_iff {rowWorkspaceId rowRepositoryId : Uuid} :
    within workspaceId repositoryId rowWorkspaceId rowRepositoryId = true ↔
      rowWorkspaceId = workspaceId ∧ rowRepositoryId = repositoryId := by
  simp [within]

theorem mem_runSourceRecordIds {id : Uuid} :
    id ∈ t.runSourceRecordIds workspaceId repositoryId ↔ ∃ run ∈ t.runs,
      within workspaceId repositoryId run.workspaceId run.repositoryId = true ∧
        run.sourceRecordId = id := by
  simp [Tables.runSourceRecordIds, and_assoc]

theorem deleteRuns_eq {doomed : RunRow D → Bool}
    (h : ∀ key ∈ (runKeys (D := D)), ∀ row ∈ t.records key.2.1, ∀ run ∈ t.runs,
      doomed run = true → isSeenBy key.2.2 run row = false) :
    t.deleteRuns doomed = .ok { t with runs := t.runs.filter fun run => !doomed run } := by
  have hchecks : verify (runKeys.map fun key => check key.1 (!(t.records key.2.1).any fun row =>
      (t.runs.filter doomed).any (isSeenBy key.2.2 · row))) = .ok () := by
    rw [verify_ok]
    intro entry hentry
    obtain ⟨key, hkey, rfl⟩ := List.mem_map.1 hentry
    simp only [check, Bool.not_not, List.any_eq_false]
    intro row hrow hseen
    obtain ⟨run, hrun, hseen⟩ := List.any_eq_true.1 hseen
    rw [List.mem_filter] at hrun
    rw [h key hkey row hrow run hrun.1 hrun.2] at hseen
    cases hseen
  rw [Tables.deleteRuns, hchecks]
  rfl

theorem deleteJobs_eq {doomed : JobRow D → Bool}
    (h : ∀ run ∈ t.runs, ∀ job ∈ t.jobs, doomed job = true → isJobOf job run = false) :
    t.deleteJobs doomed = .ok { t with jobs := t.jobs.filter fun job => !doomed job } := by
  have hchecks : verify [check "fk_repository_audit_runs_workspace_repository_job"
      (!t.runs.any fun run => (t.jobs.filter doomed).any (isJobOf · run))] = .ok () := by
    rw [verify_ok, List.forall_mem_singleton]
    simp only [check, Bool.not_not, List.any_eq_false]
    intro run hrun hof
    obtain ⟨job, hjob, hof⟩ := List.any_eq_true.1 hof
    rw [List.mem_filter] at hjob
    rw [h run hrun job hjob.1 hjob.2] at hof
    cases hof
  rw [Tables.deleteJobs, hchecks]
  rfl

theorem deleteSourceRecords_eq {doomed : SourceRow D → Bool}
    (hruns : ∀ run ∈ t.runs, ∀ row ∈ t.sourceRecords, doomed row = true →
      isSourceOfRun row run = false)
    (hevidence : ∀ evidence ∈ t.evidence, ∀ row ∈ t.sourceRecords, doomed row = true →
      isSourceOfEvidence row evidence = false) :
    t.deleteSourceRecords doomed =
      .ok { t with sourceRecords := t.sourceRecords.filter fun row => !doomed row } := by
  have hchecks : verify [check "fk_repository_audit_runs_workspace_source_record"
        (!t.runs.any fun run => (t.sourceRecords.filter doomed).any (isSourceOfRun · run)),
      check "fk_evidence_refs_workspace_source_record" (!t.evidence.any fun row =>
        (t.sourceRecords.filter doomed).any (isSourceOfEvidence · row))] = .ok () := by
    rw [verify_ok, List.forall_mem_cons, List.forall_mem_singleton]
    simp only [check, Bool.not_not, List.any_eq_false]
    constructor
    · intro run hrun hof
      obtain ⟨row, hrow, hof⟩ := List.any_eq_true.1 hof
      rw [List.mem_filter] at hrow
      rw [hruns run hrun row hrow.1 hrow.2] at hof
      cases hof
    · intro evidence hmem hof
      obtain ⟨row, hrow, hof⟩ := List.any_eq_true.1 hof
      rw [List.mem_filter] at hrow
      rw [hevidence evidence hmem row hrow.1 hrow.2] at hof
      cases hof
  rw [Tables.deleteSourceRecords, hchecks]
  rfl

variable (t workspaceId repositoryId) in
/-- What the call leaves: the links that cite what goes have cascaded. -/
def Tables.withoutRepository : Tables D where
  jobs := t.jobs.filter fun job => !within workspaceId repositoryId job.workspaceId job.repositoryId
  runs := t.runs.filter fun run => !within workspaceId repositoryId run.workspaceId run.repositoryId
  records := fun kind => (t.records kind).filter fun row =>
    !within workspaceId repositoryId row.workspaceId row.repositoryId
  links := (t.links.filter fun link => !t.owns workspaceId repositoryId link).filter fun link =>
    !(t.evidence.filter (t.derives workspaceId repositoryId)).any (isCited · link)
  evidence := t.evidence.filter fun row => !t.derives workspaceId repositoryId row
  sourceRecords := t.sourceRecords.filter fun row => !t.tracks workspaceId repositoryId row

variable (t workspaceId repositoryId) in
def Tables.ownSource (row : SourceRow D) : Bool :=
  row.workspaceId = workspaceId &&
    (t.runSourceRecordIds workspaceId repositoryId).contains row.id &&
      row.recordType = runRecordType

theorem tracks_run {row : SourceRow D} (h : t.tracks workspaceId repositoryId row = true) :
    ∃ run ∈ t.runs, within workspaceId repositoryId run.workspaceId run.repositoryId = true ∧
      isSourceOfRun row run = true := by
  simp only [Tables.tracks, Bool.and_eq_true, decide_eq_true_eq] at h
  obtain ⟨run, hrun, hwithin, hid⟩ := mem_runSourceRecordIds.1 (List.contains_iff_mem.1 h.2)
  exact ⟨run, hrun, hwithin, by simp [isSourceOfRun, hid, (within_iff.1 hwithin).1, h.1]⟩

/-- The source record of a run has the type that the statement asks for. -/
theorem ownSource_eq (ht : t.Sound) {row : SourceRow D} (hrow : row ∈ t.sourceRecords) :
    t.ownSource workspaceId repositoryId row = t.tracks workspaceId repositoryId row := by
  cases htracks : t.tracks workspaceId repositoryId row with
  | false =>
    rw [Tables.tracks] at htracks
    rw [Tables.ownSource, htracks, Bool.false_and]
  | true =>
    obtain ⟨run, hrun, -, hof⟩ := tracks_run htracks
    rw [Tables.tracks] at htracks
    rw [Tables.ownSource, htracks, ht.recordType run hrun row hrow hof, Bool.true_and]
    exact decide_eq_true (rfl : runRecordType = runRecordType)

theorem isSourceOfRun_foreign (ht : t.Sound) {row : SourceRow D} {run : RunRow D}
    (hrun : run ∈ t.runs)
    (hforeign : within workspaceId repositoryId run.workspaceId run.repositoryId = false)
    (htracks : t.tracks workspaceId repositoryId row = true) : isSourceOfRun row run = false := by
  obtain ⟨other, hother, hwithin, hother'⟩ := tracks_run htracks
  by_contra hof
  simp only [isSourceOfRun, Bool.not_eq_false, Bool.and_eq_true, decide_eq_true_eq] at hof hother'
  obtain ⟨hworkspace, hrepository⟩ := within_iff.1 hwithin
  have hsame : run.workspaceId = other.workspaceId := hof.1.trans hother'.1.symm
  have hrepository' := ht.apart run hrun other hother hsame (hof.2.trans hother'.2.symm)
  rw [within_iff.2 ⟨hsame.trans hworkspace, hrepository'.trans hrepository⟩] at hforeign
  cases hforeign

theorem isSourceOfEvidence_foreign {row : SourceRow D} {evidence : EvidenceRefRow}
    (hforeign : t.derives workspaceId repositoryId evidence = false)
    (htracks : t.tracks workspaceId repositoryId row = true) :
    isSourceOfEvidence row evidence = false := by
  by_contra hof
  simp only [isSourceOfEvidence, Bool.not_eq_false, Bool.and_eq_true, decide_eq_true_eq] at hof
  rw [Tables.derives, hof.1, hof.2] at hforeign
  rw [Tables.tracks, hforeign] at htracks
  cases htracks

/-- The statements on the canonical tables, once the repository's runs are gone. -/
theorem deleteSources_eq (ht : t.Sound) {u : Tables D}
    (hruns : u.runs = t.runs.filter fun run =>
      !within workspaceId repositoryId run.workspaceId run.repositoryId)
    (hevidence : u.evidence = t.evidence) (hsources : u.sourceRecords = t.sourceRecords) :
    ∃ n m : Nat, u.deleteSources workspaceId (t.runSourceRecordIds workspaceId repositoryId) =
      .ok (n, m, { u with
        links := u.links.filter fun link =>
          !(t.evidence.filter (t.derives workspaceId repositoryId)).any (isCited · link)
        evidence := t.evidence.filter fun row => !t.derives workspaceId repositoryId row
        sourceRecords := t.sourceRecords.filter fun row =>
          !t.tracks workspaceId repositoryId row }) := by
  unfold Tables.deleteSources
  split
  · rename_i hnil
    have hderives : ∀ row ∈ t.evidence, t.derives workspaceId repositoryId row = false := by
      intro row _
      simp [Tables.derives, hnil]
    have htracks : ∀ row ∈ t.sourceRecords, t.tracks workspaceId repositoryId row = false := by
      intro row _
      simp [Tables.tracks, hnil]
    have hnone : t.evidence.filter (t.derives workspaceId repositoryId) = [] := by
      rw [List.filter_eq_nil_iff]
      intro row hrow
      rw [hderives row hrow]
      exact Bool.false_ne_true
    refine ⟨0, 0, ?_⟩
    rw [filter_not_eq_self hderives, filter_not_eq_self htracks, hnone,
      filter_not_eq_self fun _ _ => List.any_nil, ← hevidence, ← hsources]
  · have hstep : (u.deleteEvidence (t.derives workspaceId repositoryId)).deleteSourceRecords
        (t.ownSource workspaceId repositoryId) =
        .ok { u.deleteEvidence (t.derives workspaceId repositoryId) with
          sourceRecords := u.sourceRecords.filter fun row =>
            !t.ownSource workspaceId repositoryId row } := by
      apply deleteSourceRecords_eq
      · intro run hrun row hrow hown
        have hmem : run ∈ u.runs := hrun
        have hsource : row ∈ u.sourceRecords := hrow
        rw [hruns, List.mem_filter] at hmem
        rw [hsources] at hsource
        rw [ownSource_eq ht hsource] at hown
        exact isSourceOfRun_foreign ht hmem.1 (by simpa using hmem.2) hown
      · intro evidence hmem row hrow hown
        have hsource : row ∈ u.sourceRecords := hrow
        rw [hsources] at hsource
        rw [ownSource_eq ht hsource] at hown
        exact isSourceOfEvidence_foreign (by simpa using (List.mem_filter.1 hmem).2) hown
    have hfilter : (t.sourceRecords.filter fun row => !t.ownSource workspaceId repositoryId row) =
        t.sourceRecords.filter fun row => !t.tracks workspaceId repositoryId row :=
      List.filter_congr fun row hrow => by rw [ownSource_eq ht hrow]
    rw [hsources, hfilter, Tables.deleteEvidence, hevidence] at hstep
    apply Exists.intro
    apply Exists.intro
    change ((u.deleteEvidence (t.derives workspaceId repositoryId)).deleteSourceRecords
      (t.ownSource workspaceId repositoryId) >>= fun next => _) = _
    rw [Tables.deleteEvidence, hevidence, hstep]
    rfl

variable (workspaceId repositoryId) in
def Tables.dropRuns (u : Tables D) : Tables D :=
  { u with runs := u.runs.filter fun run =>
      !within workspaceId repositoryId run.workspaceId run.repositoryId }

variable (workspaceId repositoryId) in
def Tables.dropJobs (u : Tables D) : Tables D :=
  { u with jobs := u.jobs.filter fun job =>
      !within workspaceId repositoryId job.workspaceId job.repositoryId }

/-- No record of the repository is there to restrict its runs. -/
theorem deleteOwnRuns_eq {u : Tables D}
    (hrecords : ∀ kind, ∀ row ∈ u.records kind, ownRecord workspaceId repositoryId row = false) :
    (u.deleteRuns fun run => within workspaceId repositoryId run.workspaceId run.repositoryId) =
      .ok (u.dropRuns workspaceId repositoryId) := by
  apply deleteRuns_eq
  intro key _ row hrow run _ hown
  have hforeign := hrecords key.2.1 row hrow
  by_contra hseen
  simp only [isSeenBy, Bool.not_eq_false, Bool.and_eq_true, decide_eq_true_eq] at hseen
  rw [ownRecord, hseen.1.1, hseen.1.2, hown] at hforeign
  cases hforeign

theorem deleteOwnJobs_eq {u : Tables D} : ((u.dropRuns workspaceId repositoryId).deleteJobs
    fun job => within workspaceId repositoryId job.workspaceId job.repositoryId) =
      .ok ((u.dropRuns workspaceId repositoryId).dropJobs workspaceId repositoryId) := by
  apply deleteJobs_eq
  intro run hrun job _ hown
  have hforeign := (List.mem_filter.1 hrun).2
  by_contra hof
  simp only [isJobOf, Bool.not_eq_false, Bool.and_eq_true, decide_eq_true_eq] at hof
  rw [hof.1.1, hof.1.2, hown] at hforeign
  cases hforeign

variable (t workspaceId repositoryId) in
/-- The tables once the links and the records of the repository are gone. -/
def Tables.withoutRecords : Tables D :=
  { t.deleteLinks (t.owns workspaceId repositoryId) with
    records := fun kind => (t.records kind).filter fun row =>
      !ownRecord workspaceId repositoryId row }

theorem withoutRecords_eq :
    ((((t.deleteLinks (t.owns workspaceId repositoryId)).deleteRecords .contradiction
      (ownRecord workspaceId repositoryId)).deleteRecords .finding
        (ownRecord workspaceId repositoryId)).deleteRecords .relationship
          (ownRecord workspaceId repositoryId)).deleteFacts (ownRecord workspaceId repositoryId) =
      t.withoutRecords workspaceId repositoryId := by
  apply deleteFacts_eq
  · intro link hlink kind row hrow hown
    have hforeign : t.owns workspaceId repositoryId link = false := by
      simpa using (List.mem_filter.1 hlink).2
    exact isParent_ownRecord hforeign hrow hown
  · intro fact row hof
    simp only [isFactOf, Bool.and_eq_true, decide_eq_true_eq] at hof
    rw [ownRecord, ownRecord, hof.1.1, hof.1.2]

theorem deleteRepositoryIntelligenceRecords_eq (ht : t.Sound) : ∃ result,
    t.deleteRepositoryIntelligenceRecords workspaceId repositoryId true =
      .ok (result, t.withoutRepository workspaceId repositoryId) := by
  have hruns : ((t.withoutRecords workspaceId repositoryId).deleteRuns fun run =>
      within workspaceId repositoryId run.workspaceId run.repositoryId) =
        .ok ((t.withoutRecords workspaceId repositoryId).dropRuns workspaceId repositoryId) := by
    apply deleteOwnRuns_eq
    intro kind row hrow
    simpa using (List.mem_filter.1 hrow).2
  have hsources : ∃ n m : Nat, (((t.withoutRecords workspaceId repositoryId).dropRuns workspaceId
      repositoryId).dropJobs workspaceId repositoryId).deleteSources workspaceId
        (t.runSourceRecordIds workspaceId repositoryId) =
          .ok (n, m, t.withoutRepository workspaceId repositoryId) :=
    deleteSources_eq ht rfl rfl rfl
  obtain ⟨n, m, hsources⟩ := hsources
  have hown : (fun row : RecordRow D =>
      within workspaceId repositoryId row.workspaceId row.repositoryId) =
        ownRecord workspaceId repositoryId := rfl
  have hexact : (((t.runs.filter fun run => within workspaceId repositoryId run.workspaceId
      run.repositoryId).map (·.id) ≠ []) &&
        (((t.withoutRecords workspaceId repositoryId).runs.filter fun run =>
          within workspaceId repositoryId run.workspaceId run.repositoryId).length ≠
            ((t.runs.filter fun run => within workspaceId repositoryId run.workspaceId
              run.repositoryId).map (·.id)).length) : Bool) = false := by
    simp [Tables.withoutRecords, Tables.deleteLinks]
  unfold Tables.deleteRepositoryIntelligenceRecords
  simp only [deleteEvidenceLinksForParents_eq, hown, withoutRecords_eq, hruns, deleteOwnJobs_eq,
    hsources, hexact, Bool.not_true, rejectIf, Except.bind, bind]
  exact ⟨_, rfl⟩

end outcome

section runs

variable {t t' : Tables D} {workspaceId repositoryId : Uuid}

theorem Tables.Sound.sameRuns (ht : t.Sound) (h : t.SameRuns t') : t'.Sound where
  source := by rw [h.runs, h.sourceRecords]; exact ht.source
  apart := by rw [h.runs]; exact ht.apart
  recordType := by rw [h.runs, h.sourceRecords]; exact ht.recordType

/-- The id of a new source record is not that of a run's. -/
theorem fresh_source (ht : t.Sound) {id : Uuid} (hfresh : ∀ held ∈ t.sourceRecords, held.id ≠ id)
    {run : RunRow D} (hrun : run ∈ t.runs) : run.sourceRecordId ≠ id := by
  obtain ⟨held, hheld, hof⟩ := ht.source run hrun
  simp only [isSourceOfRun, Bool.and_eq_true, decide_eq_true_eq] at hof
  exact fun hsame => hfresh held hheld (hof.2.symm.trans hsame)

theorem register_sound (ht : t.Sound) {row : SourceRow D}
    (hfresh : ∀ held ∈ t.sourceRecords, held.id ≠ row.id) :
    ({ t with sourceRecords := t.sourceRecords ++ [row] } : Tables D).Sound where
  source := by
    intro run hrun
    obtain ⟨held, hheld, hof⟩ := ht.source run hrun
    exact ⟨held, List.mem_append_left _ hheld, hof⟩
  apart := ht.apart
  recordType := by
    intro run hrun held hheld hof
    rcases List.mem_append.1 hheld with hheld | hheld
    · exact ht.recordType run hrun held hheld hof
    · obtain rfl := List.mem_singleton.1 hheld
      simp only [isSourceOfRun, Bool.and_eq_true, decide_eq_true_eq] at hof
      exact absurd hof.2 (fresh_source ht hfresh hrun)

theorem insertRun_sound (ht : t.Sound) {run : RunRow D} {source : D}
    (hfresh : ∀ held ∈ t.sourceRecords, held.id ≠ run.sourceRecordId) :
    ({ t with
      sourceRecords := t.sourceRecords ++
        [⟨run.sourceRecordId, run.workspaceId, runRecordType, source⟩]
      runs := t.runs ++ [run] } : Tables D).Sound where
  source := by
    simp only [List.forall_mem_append, List.forall_mem_singleton]
    constructor
    · intro other hother
      obtain ⟨held, hheld, hof⟩ := ht.source other hother
      exact ⟨held, List.mem_append_left _ hheld, hof⟩
    · exact ⟨_, List.mem_append_right _ (List.mem_singleton_self _), by simp [isSourceOfRun]⟩
  apart := by
    have hother : ∀ other ∈ t.runs, other.sourceRecordId ≠ run.sourceRecordId := fun _ hother =>
      fresh_source ht hfresh hother
    simp only [List.forall_mem_append, List.forall_mem_singleton]
    refine ⟨fun a ha => ⟨ht.apart a ha, fun _ hsame => absurd hsame (hother a ha)⟩,
      fun a ha _ hsame => absurd hsame.symm (hother a ha), fun _ _ => trivial⟩
  recordType := by
    simp only [List.forall_mem_append, List.forall_mem_singleton]
    refine ⟨fun other hother => ⟨ht.recordType other hother, fun _ => trivial⟩,
      fun held hheld hof => ?_, fun _ => trivial⟩
    simp only [isSourceOfRun, Bool.and_eq_true, decide_eq_true_eq] at hof
    exact absurd hof.2.symm (hfresh held hheld)

theorem amend_sound (ht : t.Sound) (jobs : JobRow D → D) (runs : RunRow D → D)
    (records : ParentType → RecordRow D → D) : (t.amend jobs runs records).Sound where
  source := by
    intro run hrun
    obtain ⟨run, hmem, rfl⟩ := List.mem_map.1 hrun
    exact ht.source run hmem
  apart := by
    intro run hrun other hother
    obtain ⟨run, hmem, rfl⟩ := List.mem_map.1 hrun
    obtain ⟨other, hmem', rfl⟩ := List.mem_map.1 hother
    exact ht.apart run hmem other hmem'
  recordType := by
    intro run hrun
    obtain ⟨run, hmem, rfl⟩ := List.mem_map.1 hrun
    exact ht.recordType run hmem

theorem withoutRepository_sound (ht : t.Sound) :
    (t.withoutRepository workspaceId repositoryId).Sound where
  source := by
    intro run hrun
    obtain ⟨hmem, hforeign⟩ := List.mem_filter.1 hrun
    obtain ⟨row, hrow, hof⟩ := ht.source run hmem
    refine ⟨row, List.mem_filter.2 ⟨hrow, ?_⟩, hof⟩
    cases htracks : t.tracks workspaceId repositoryId row with
    | false => rfl
    | true =>
      rw [isSourceOfRun_foreign ht hmem (by simpa using hforeign) htracks] at hof
      cases hof
  apart := fun run hrun other hother =>
    ht.apart run (List.mem_of_mem_filter hrun) other (List.mem_of_mem_filter hother)
  recordType := fun run hrun row hrow =>
    ht.recordType run (List.mem_of_mem_filter hrun) row (List.mem_of_mem_filter hrow)

theorem persist_sound (ht : t.Sound) {run : RunRow D} {draw : Nat → Uuid} {source : D}
    {writes : List (RecordWrite D)} (h : t.persist run draw source writes = .ok t') : t'.Sound := by
  unfold Tables.persist at h
  obtain ⟨_, -, h⟩ := ok_of_bind_ok h
  obtain ⟨_, hchecks, h⟩ := ok_of_bind_ok h
  have hfresh := verify_ok.1 hchecks _ List.mem_cons_self
  simp only [check, Bool.not_not, List.any_eq_false, decide_eq_true_eq] at hfresh
  exact (insertRun_sound ht hfresh).sameRuns
    (foldlM_sameRuns (fun _ _ _ hs => upsertRecord_sameRuns hs) h)

theorem step_sound (ht : t.Sound) {action : Action D} (h : step t action = some t') : t'.Sound := by
  unfold step at h
  cases hcall : t.call action with
  | error error =>
    rw [hcall] at h
    cases h
    exact ht
  | ok next =>
    rw [hcall] at h
    cases h
    cases action with
    | register row =>
      obtain ⟨_, hchecks, hnext⟩ := ok_of_bind_ok hcall
      cases hnext
      have hfresh := verify_ok.1 hchecks _ List.mem_cons_self
      simp only [check, Bool.not_not, List.any_eq_false, decide_eq_true_eq] at hfresh
      exact register_sound ht hfresh
    | enqueue row =>
      obtain ⟨_, -, hnext⟩ := ok_of_bind_ok hcall
      cases hnext
      exact ht.sameRuns ⟨rfl, rfl⟩
    | amend jobs runs records =>
      cases hcall
      exact amend_sound ht jobs runs records
    | persist run source writes draw => exact persist_sound ht hcall
    | delete workspaceId repositoryId admin =>
      cases admin with
      | false => cases hcall
      | true =>
        obtain ⟨⟨result, next⟩, hdelete, rfl⟩ := map_eq_ok hcall
        obtain ⟨_, hwithout⟩ := deleteRepositoryIntelligenceRecords_eq ht
        rw [hwithout] at hdelete
        cases hdelete
        exact withoutRepository_sound ht

theorem reaches_sound (h : Reaches step anyStep Tables.empty t) : t.Sound :=
  h.invariant (fun _ _ _ hs _ hstep => step_sound hs hstep)
    ⟨fun _ hrun => absurd hrun List.not_mem_nil, fun _ hrun => absurd hrun List.not_mem_nil,
      fun _ hrun => absurd hrun List.not_mem_nil⟩

theorem withoutRepository_boundary : t.Boundary (t.withoutRepository workspaceId repositoryId)
    workspaceId repositoryId ↔ t.Unshared workspaceId repositoryId := by
  have hlinks : (t.withoutRepository workspaceId repositoryId).links =
      (t.links.filter fun link => !t.owns workspaceId repositoryId link) ↔
        t.Unshared workspaceId repositoryId := by
    rw [Tables.withoutRepository, List.filter_eq_self]
    constructor
    · intro hkept link hlink row hrow hcited hderives
      by_contra hforeign
      have hkeep := hkept link (List.mem_filter.2 ⟨hlink, by simpa using hforeign⟩)
      have hgone : (t.evidence.filter (t.derives workspaceId repositoryId)).any (isCited · link) =
          true := List.any_eq_true.2 ⟨row, List.mem_filter.2 ⟨hrow, hderives⟩, hcited⟩
      rw [hgone] at hkeep
      cases hkeep
    · intro hunshared link hlink
      obtain ⟨hmem, hforeign⟩ := List.mem_filter.1 hlink
      rw [Bool.not_eq_true', List.any_eq_false]
      intro row hrow hcited
      rw [List.mem_filter] at hrow
      rw [hunshared link hmem row hrow.1 hcited hrow.2] at hforeign
      cases hforeign
  constructor
  · exact fun h => hlinks.1 h.links
  · exact fun h => ⟨rfl, rfl, fun _ => rfl, hlinks.2 h, rfl⟩

/-- Deleting a repository's intelligence leaves the others alone exactly when none of their records
cites what its runs were the source of. -/
theorem delete_boundary_iff (h : Reaches step anyStep Tables.empty t) :
    ∃ result t', t.deleteRepositoryIntelligenceRecords workspaceId repositoryId true =
      .ok (result, t') ∧ (t.Boundary t' workspaceId repositoryId ↔
        t.Unshared workspaceId repositoryId) := by
  obtain ⟨result, hdelete⟩ := deleteRepositoryIntelligenceRecords_eq (reaches_sound h)
  exact ⟨result, _, hdelete, withoutRepository_boundary⟩

end runs

section samples

def rowId (n : Nat) : Uuid := sampleUuid ⟨n % 10, Nat.mod_lt n (Nat.zero_lt_succ 9)⟩

def readmeRef : EvidenceRefV1 where
  kind := .repositoryFile
  source := .github
  evidenceRefId := none
  sourceRecordId := none
  recordId := none
  ref := some (Str.of "README.md")
  id := none
  url := none

def factWrite (id : Uuid) (cited : EvidenceRefV1) : RecordWrite Unit :=
  ⟨.fact, id, Str.of "purpose", none, (), [cited], []⟩

/-- The second repository cites the evidence that the first one's run stored. -/
def citingRun : List (Action Unit) :=
  [.enqueue ⟨rowId 3, sampleWorkspace, rowId 1, ()⟩,
    .persist ⟨rowId 4, sampleWorkspace, rowId 1, rowId 3, rowId 5, ()⟩ ()
      [factWrite (rowId 6) readmeRef] fun _ => rowId 7,
    .enqueue ⟨rowId 8, sampleWorkspace, rowId 2, ()⟩,
    .persist ⟨rowId 9, sampleWorkspace, rowId 2, rowId 8, rowId 0, ()⟩ ()
      [factWrite (rowId 3) { readmeRef with evidenceRefId := some (rowId 7) }] fun _ => rowId 8]

theorem delete_boundary_cited : ∃ t, Reaches step anyStep (Tables.empty (D := Unit)) t ∧
    (t.links.length = 2 ∧ t.Unshared sampleWorkspace (rowId 2)) ∧
      ∃ result t', t.deleteRepositoryIntelligenceRecords sampleWorkspace (rowId 2) true =
        .ok (result, t') ∧ (t.Boundary t' sampleWorkspace (rowId 2) ↔
          t.Unshared sampleWorkspace (rowId 2)) := by
  have hrun : (exec step (Tables.empty (D := Unit)) citingRun).map (fun t =>
      decide (t.links.length = 2) && t.links.all fun link => t.evidence.all fun row =>
        !isCited row link || !t.derives sampleWorkspace (rowId 2) row ||
          t.owns sampleWorkspace (rowId 2) link) = some true := by
    decide +kernel
  obtain ⟨t, hreach, hcheck⟩ := reaches_of_exec_check hrun
  rw [Bool.and_eq_true, decide_eq_true_eq, List.all_eq_true] at hcheck
  refine ⟨t, hreach, ⟨hcheck.1, fun link hlink row hrow hcited hderives => ?_⟩,
    delete_boundary_iff hreach⟩
  have hone := List.all_eq_true.1 (hcheck.2 link hlink) row hrow
  simpa [hcited, hderives] using hone

theorem delete_crosses_boundary : ∃ t, Reaches step anyStep (Tables.empty (D := Unit)) t ∧
    ∃ result t', t.deleteRepositoryIntelligenceRecords sampleWorkspace (rowId 1) true =
      .ok (result, t') ∧ t.links.length = 2 ∧ t'.links = [] ∧
        ¬t.Boundary t' sampleWorkspace (rowId 1) := by
  have hrun : (exec step (Tables.empty (D := Unit)) citingRun).map (fun t =>
      decide (t.links.length = 2) &&
        decide ((t.withoutRepository sampleWorkspace (rowId 1)).links = []) &&
          t.links.any fun link => !t.owns sampleWorkspace (rowId 1) link) = some true := by
    decide +kernel
  obtain ⟨t, hreach, hcheck⟩ := reaches_of_exec_check hrun
  rw [Bool.and_eq_true, Bool.and_eq_true, decide_eq_true_eq, decide_eq_true_eq,
    List.any_eq_true] at hcheck
  obtain ⟨⟨hlinks, hgone⟩, link, hlink, hforeign⟩ := hcheck
  obtain ⟨result, hdelete⟩ := deleteRepositoryIntelligenceRecords_eq (reaches_sound hreach)
  refine ⟨t, hreach, result, _, hdelete, hlinks, hgone, fun hboundary => ?_⟩
  have hkept : link ∈ (t.withoutRepository sampleWorkspace (rowId 1)).links := by
    rw [hboundary.links]
    exact List.mem_filter.2 ⟨hlink, hforeign⟩
  rw [hgone] at hkept
  exact List.not_mem_nil hkept

end samples

end FounderOs.RepositoryAudit.Deletion
