import FounderOs.Foundation.Transition
import FounderOs.RepositoryAudit.Records

namespace FounderOs.RepositoryAudit.Deletion

open Headquarters

/-- The tables that evidence links hang on. -/
inductive ParentType where
  | fact | relationship | finding | contradiction
  deriving DecidableEq, Repr

section rows

variable (D : Type)

/-- `content` stands for the columns that no deletion reads, here and in the other rows. -/
structure JobRow where
  id : Uuid
  workspaceId : Uuid
  repositoryId : Uuid
  content : D
  deriving DecidableEq

structure RunRow where
  id : Uuid
  workspaceId : Uuid
  repositoryId : Uuid
  jobId : Uuid
  sourceRecordId : Uuid
  content : D
  deriving DecidableEq

/-- A fact, a relationship under the repository it goes out from, a finding or a contradiction,
which alone has its two facts. -/
structure RecordRow where
  id : Uuid
  workspaceId : Uuid
  repositoryId : Uuid
  key : Str
  firstSeenRunId : Uuid
  lastSeenRunId : Uuid
  factIds : Option (Uuid × Uuid)
  content : D
  deriving DecidableEq

structure LinkRow where
  workspaceId : Uuid
  parentType : ParentType
  parentId : Uuid
  evidenceRefId : Uuid
  role : EvidenceRole
  deriving DecidableEq

structure EvidenceRefRow extends EvidenceRow where
  workspaceId : Uuid
  deriving DecidableEq

structure SourceRow where
  id : Uuid
  workspaceId : Uuid
  recordType : Str
  content : D
  deriving DecidableEq

structure Tables where
  jobs : List (JobRow D)
  runs : List (RunRow D)
  records : ParentType → List (RecordRow D)
  links : List LinkRow
  evidence : List EvidenceRefRow
  sourceRecords : List (SourceRow D)

end rows

variable {D : Type}

def Tables.empty : Tables D := ⟨[], [], fun _ => [], [], [], []⟩

def runRecordType : Str := Str.of "repository_intelligence_run"

section statements

variable (t : Tables D)

def isParent (kind : ParentType) (row : RecordRow D) (link : LinkRow) : Bool :=
  link.parentType = kind && link.workspaceId = row.workspaceId && link.parentId = row.id

def isFactOf (fact contradiction : RecordRow D) : Bool :=
  contradiction.workspaceId = fact.workspaceId &&
    contradiction.repositoryId = fact.repositoryId &&
      contradiction.factIds.any fun ids => ids.1 = fact.id || ids.2 = fact.id

def isSeenBy (seenRunId : RecordRow D → Uuid) (run : RunRow D) (row : RecordRow D) : Bool :=
  row.workspaceId = run.workspaceId && row.repositoryId = run.repositoryId &&
    seenRunId row = run.id

def isJobOf (job : JobRow D) (run : RunRow D) : Bool :=
  run.workspaceId = job.workspaceId && run.repositoryId = job.repositoryId && run.jobId = job.id

def isCited (row : EvidenceRefRow) (link : LinkRow) : Bool :=
  link.workspaceId = row.workspaceId && link.evidenceRefId = row.id

def isSourceOfRun (row : SourceRow D) (run : RunRow D) : Bool :=
  run.workspaceId = row.workspaceId && run.sourceRecordId = row.id

def isSourceOfEvidence (row : SourceRow D) (evidence : EvidenceRefRow) : Bool :=
  evidence.workspaceId = row.workspaceId && evidence.sourceRecordId = row.id

def Tables.deleteLinks (doomed : LinkRow → Bool) : Tables D :=
  { t with links := t.links.filter fun link => !doomed link }

/-- `ON DELETE CASCADE` takes the links of the rows along. -/
def Tables.deleteRecords (kind : ParentType) (doomed : RecordRow D → Bool) : Tables D :=
  let gone := (t.records kind).filter doomed
  { t with
    records := fun other =>
      if other = kind then (t.records kind).filter fun row => !doomed row else t.records other
    links := t.links.filter fun link => !gone.any (isParent kind · link) }

/-- The contradictions of a fact cascade too. -/
def Tables.deleteFacts (doomed : RecordRow D → Bool) : Tables D :=
  let gone := (t.records .fact).filter doomed
  (t.deleteRecords .fact doomed).deleteRecords .contradiction fun row => gone.any (isFactOf · row)

/-- The keys to the runs, all `ON DELETE RESTRICT`. -/
def runKeys : List (String × ParentType × (RecordRow D → Uuid)) :=
  [("fk_repository_facts_workspace_repository_first_run", .fact, (·.firstSeenRunId)),
    ("fk_repository_facts_workspace_repository_last_run", .fact, (·.lastSeenRunId)),
    ("fk_repository_relationships_workspace_source_first_run", .relationship, (·.firstSeenRunId)),
    ("fk_repository_relationships_workspace_source_last_run", .relationship, (·.lastSeenRunId)),
    ("fk_repository_audit_findings_workspace_repository_first_run", .finding, (·.firstSeenRunId)),
    ("fk_repository_audit_findings_workspace_repository_last_run", .finding, (·.lastSeenRunId)),
    ("fk_repository_contradictions_workspace_repository_first_run", .contradiction,
      (·.firstSeenRunId)),
    ("fk_repository_contradictions_workspace_repository_last_run", .contradiction,
      (·.lastSeenRunId))]

def Tables.deleteRuns (doomed : RunRow D → Bool) : Except AuditError (Tables D) := do
  let gone := t.runs.filter doomed
  verify (runKeys.map fun key =>
    check key.1 (!(t.records key.2.1).any fun row => gone.any (isSeenBy key.2.2 · row)))
  return { t with runs := t.runs.filter fun run => !doomed run }

def Tables.deleteJobs (doomed : JobRow D → Bool) : Except AuditError (Tables D) := do
  let gone := t.jobs.filter doomed
  verify [check "fk_repository_audit_runs_workspace_repository_job"
    (!t.runs.any fun run => gone.any (isJobOf · run))]
  return { t with jobs := t.jobs.filter fun job => !doomed job }

/-- `ON DELETE CASCADE` takes along the links that cite the rows. -/
def Tables.deleteEvidence (doomed : EvidenceRefRow → Bool) : Tables D :=
  let gone := t.evidence.filter doomed
  { t with
    evidence := t.evidence.filter fun row => !doomed row
    links := t.links.filter fun link => !gone.any (isCited · link) }

def Tables.deleteSourceRecords (doomed : SourceRow D → Bool) : Except AuditError (Tables D) := do
  let gone := t.sourceRecords.filter doomed
  verify [check "fk_repository_audit_runs_workspace_source_record"
      (!t.runs.any fun run => gone.any (isSourceOfRun · run)),
    check "fk_evidence_refs_workspace_source_record"
      (!t.evidence.any fun row => gone.any (isSourceOfEvidence · row))]
  return { t with sourceRecords := t.sourceRecords.filter fun row => !doomed row }

end statements

section delete

variable (t : Tables D) (workspaceId repositoryId : Uuid)

structure DeletionResult where
  jobsDeleted : Nat
  runsDeleted : Nat
  factsDeleted : Nat
  relationshipsDeleted : Nat
  findingsDeleted : Nat
  contradictionsDeleted : Nat
  evidenceLinksDeleted : Nat
  evidenceRefsDeleted : Nat
  sourceRecordsDeleted : Nat
  deriving DecidableEq

/-- The `WHERE` of the statements on the tables of a repository. -/
def within (rowWorkspaceId rowRepositoryId : Uuid) : Bool :=
  rowWorkspaceId = workspaceId && rowRepositoryId = repositoryId

def Tables.runSourceRecordIds : List Uuid :=
  (t.runs.filter fun run => within workspaceId repositoryId run.workspaceId run.repositoryId).map
    (·.sourceRecordId)

/-- `_repository_parent_ids`. -/
def Tables.repositoryParentIds (kind : ParentType) : List Uuid :=
  ((t.records kind).filter fun row =>
    within workspaceId repositoryId row.workspaceId row.repositoryId).map (·.id)

def ofParents (kind : ParentType) (parentIds : List Uuid) (link : LinkRow) : Bool :=
  link.workspaceId = workspaceId && link.parentType = kind && parentIds.contains link.parentId

/-- `_delete_evidence_links_for_parents`, with the number of links that go. -/
def Tables.deleteEvidenceLinksForParents (parentIds : ParentType → List Uuid) : Nat × Tables D :=
  [ParentType.fact, .relationship, .finding, .contradiction].foldl (fun state kind =>
      if parentIds kind = [] then state
      else
        let doomed := ofParents workspaceId kind (parentIds kind)
        (state.1 + (state.2.links.filter doomed).length, state.2.deleteLinks doomed))
    (0, t)

/-- The two statements on the canonical tables, which are left out when there are no runs. -/
def Tables.deleteSources (sourceRecordIds : List Uuid) :
    Except AuditError (Nat × Nat × Tables D) :=
  if sourceRecordIds = [] then .ok (0, 0, t)
  else do
    let cited := fun row : EvidenceRefRow =>
      row.workspaceId = workspaceId && sourceRecordIds.contains row.sourceRecordId
    let own := fun row : SourceRow D =>
      row.workspaceId = workspaceId && sourceRecordIds.contains row.id &&
        row.recordType = runRecordType
    let next ← (t.deleteEvidence cited).deleteSourceRecords own
    return ((t.evidence.filter cited).length, (t.sourceRecords.filter own).length, next)

/-- `delete_repository_intelligence_records`. -/
def Tables.deleteRepositoryIntelligenceRecords (admin : Bool) :
    Except AuditError (DeletionResult × Tables D) := do
  rejectIf (!admin)
    (stateError "repository intelligence mutation requires workspace owner or admin")
  let ownJob := fun job : JobRow D =>
    within workspaceId repositoryId job.workspaceId job.repositoryId
  let ownRun := fun run : RunRow D =>
    within workspaceId repositoryId run.workspaceId run.repositoryId
  let ownRecord := fun row : RecordRow D =>
    within workspaceId repositoryId row.workspaceId row.repositoryId
  let runIds := (t.runs.filter ownRun).map (·.id)
  let sourceRecordIds := t.runSourceRecordIds workspaceId repositoryId
  let parentIds := t.repositoryParentIds workspaceId repositoryId
  let unlinked := t.deleteEvidenceLinksForParents workspaceId parentIds
  let withoutContradictions := unlinked.2.deleteRecords .contradiction ownRecord
  let withoutFindings := withoutContradictions.deleteRecords .finding ownRecord
  let withoutRelationships := withoutFindings.deleteRecords .relationship ownRecord
  let withoutFacts := withoutRelationships.deleteFacts ownRecord
  let withoutRuns ← withoutFacts.deleteRuns ownRun
  let withoutJobs ← withoutRuns.deleteJobs ownJob
  let sources ← withoutJobs.deleteSources workspaceId sourceRecordIds
  let runsDeleted := (withoutFacts.runs.filter ownRun).length
  rejectIf (runIds ≠ [] && runsDeleted ≠ runIds.length)
    (stateError "repository intelligence deletion did not remove the exact run set")
  return (
    { jobsDeleted := (withoutRuns.jobs.filter ownJob).length
      runsDeleted := runsDeleted
      factsDeleted := ((withoutRelationships.records .fact).filter ownRecord).length
      relationshipsDeleted := ((withoutFindings.records .relationship).filter ownRecord).length
      findingsDeleted := ((withoutContradictions.records .finding).filter ownRecord).length
      contradictionsDeleted := ((unlinked.2.records .contradiction).filter ownRecord).length
      evidenceLinksDeleted := unlinked.1
      evidenceRefsDeleted := sources.1
      sourceRecordsDeleted := sources.2.1 },
    sources.2.2)

end delete

section writes

variable (t : Tables D) (run : RunRow D) (draw : Nat → Uuid)

def ParentType.value : ParentType → String
  | fact => "fact"
  | relationship => "relationship"
  | finding => "finding"
  | contradiction => "contradiction"

/-- What a result says of one record; the id is that of a row that is inserted. -/
structure RecordWrite (D : Type) where
  kind : ParentType
  id : Uuid
  key : Str
  factIds : Option (Uuid × Uuid)
  content : D
  supporting : List EvidenceRefV1
  contradicting : List EvidenceRefV1

/-- `_resolve_evidence`. The row that has the key of what is cited, or an inserted one whose id is
drawn; the checks of its columns, which only refuse more, are left out. -/
def Tables.resolveEvidence (evidence : EvidenceRefV1) : Except AuditError (Uuid × Tables D) :=
  match evidence.evidenceRefId with
  | some evidenceRefId =>
    match t.evidence.find? (fun row =>
      row.workspaceId = run.workspaceId && row.id = evidenceRefId) with
    | none => .error unavailableEvidence
    | some row => .ok (row.id, t)
  | none =>
    let sourceRecordId := evidence.sourceRecordId.getD run.sourceRecordId
    if t.sourceRecords.any (fun row =>
        row.workspaceId = run.workspaceId && row.id = sourceRecordId) then
      match t.evidence.find? (fun row => row.workspaceId = run.workspaceId &&
        row.evidenceKey = some (sourceRecordId, evidence)) with
      | some row => .ok (row.id, t)
      | none =>
        match evidenceSelector evidence with
        | none => .error missingSelector
        | some selector => do
          let id := draw t.evidence.length
          verify [check "evidence_refs_pkey" (!t.evidence.any (·.id = id))]
          return (id, { t with
            evidence := t.evidence ++ [
              { id := id
                sourceRecordId := sourceRecordId
                evidenceKey := some (sourceRecordId, evidence)
                selector := some selector
                sourceUrl := evidence.url
                workspaceId := run.workspaceId }] })
    else .error unavailableSourceRecord

def Tables.linkEvidence (kind : ParentType) (parentId : Uuid)
    (cited : EvidenceRole × EvidenceRefV1) : Except AuditError (Tables D) := do
  let resolved ← t.resolveEvidence run draw cited.2
  let link : LinkRow := ⟨run.workspaceId, kind, parentId, resolved.1, cited.1⟩
  verify [check ("uq_repository_evidence_links_" ++ kind.value) (!resolved.2.links.contains link)]
  return { resolved.2 with links := resolved.2.links ++ [link] }

/-- `_replace_evidence_links`. -/
def Tables.replaceEvidenceLinks (kind : ParentType) (parentId : Uuid)
    (supporting contradicting : List EvidenceRefV1) : Except AuditError (Tables D) :=
  (citations supporting contradicting).foldlM
    (fun t cited => t.linkEvidence run draw kind parentId cited)
    (t.deleteLinks (ofParents run.workspaceId kind [parentId]))

def Tables.mapRecords (kind : ParentType) (f : RecordRow D → RecordRow D) : Tables D :=
  { t with records := fun other =>
      if other = kind then (t.records kind).map f else t.records other }

def Tables.insertRecord (kind : ParentType) (row : RecordRow D) : Tables D :=
  { t with records := fun other =>
      if other = kind then t.records kind ++ [row] else t.records other }

/-- The row of the repository that has the key is updated, or a new one inserted. -/
def Tables.putRecord (write : RecordWrite D) : Except AuditError (Uuid × Tables D) :=
  match (t.records write.kind).find? (fun row =>
    within run.workspaceId run.repositoryId row.workspaceId row.repositoryId &&
      row.key = write.key) with
  | some held => .ok (held.id, t.mapRecords write.kind fun row =>
      if row.id = held.id then
        { row with lastSeenRunId := run.id, factIds := write.factIds, content := write.content }
      else row)
  | none => do
    verify [check "pkey" (!(t.records write.kind).any (·.id = write.id))]
    return (write.id, t.insertRecord write.kind
      ⟨write.id, run.workspaceId, run.repositoryId, write.key, run.id, run.id, write.factIds,
        write.content⟩)

def Tables.upsertRecord (write : RecordWrite D) : Except AuditError (Tables D) := do
  let put ← t.putRecord run write
  put.2.replaceEvidenceLinks run draw write.kind put.1 write.supporting write.contradicting

/-- `persist_repository_intelligence_result` where it stores a run, with its source record. -/
def Tables.persist (source : D) (writes : List (RecordWrite D)) :
    Except AuditError (Tables D) := do
  rejectIf (!t.jobs.any (isJobOf · run)) (stateError "repository analysis job was not found")
  verify [check "source_records_pkey" (!t.sourceRecords.any (·.id = run.sourceRecordId)),
    check "repository_audit_runs_pkey" (!t.runs.any (·.id = run.id)),
    check "uq_repository_audit_runs_workspace_job_id" (!t.runs.any fun other =>
      other.workspaceId = run.workspaceId && other.jobId = run.jobId)]
  let stored : Tables D :=
    { t with
      sourceRecords := t.sourceRecords ++
        [⟨run.sourceRecordId, run.workspaceId, runRecordType, source⟩]
      runs := t.runs ++ [run] }
  writes.foldlM (fun t write => t.upsertRecord run draw write) stored

end writes

section steps

/-- The calls that write one of the tables. A source record that is registered comes from a
connector; what is amended are the columns that no deletion reads, as when a job is claimed or a
record retired. -/
inductive Action (D : Type) where
  | register (row : SourceRow D)
  | enqueue (row : JobRow D)
  | amend (jobs : JobRow D → D) (runs : RunRow D → D) (records : ParentType → RecordRow D → D)
  | persist (run : RunRow D) (source : D) (writes : List (RecordWrite D)) (draw : Nat → Uuid)
  | delete (workspaceId repositoryId : Uuid) (admin : Bool)

def Tables.register (t : Tables D) (row : SourceRow D) : Except AuditError (Tables D) := do
  verify [check "source_records_pkey" (!t.sourceRecords.any (·.id = row.id))]
  return { t with sourceRecords := t.sourceRecords ++ [row] }

def Tables.enqueue (t : Tables D) (row : JobRow D) : Except AuditError (Tables D) := do
  verify [check "repository_analysis_jobs_pkey" (!t.jobs.any (·.id = row.id))]
  return { t with jobs := t.jobs ++ [row] }

def Tables.amend (t : Tables D) (jobs : JobRow D → D) (runs : RunRow D → D)
    (records : ParentType → RecordRow D → D) : Tables D :=
  { t with
    jobs := t.jobs.map fun job => { job with content := jobs job }
    runs := t.runs.map fun run => { run with content := runs run }
    records := fun kind => (t.records kind).map fun row =>
      { row with content := records kind row } }

def Tables.call (t : Tables D) : Action D → Except AuditError (Tables D)
  | .register row => t.register row
  | .enqueue row => t.enqueue row
  | .amend jobs runs records => .ok (t.amend jobs runs records)
  | .persist run source writes draw => t.persist run draw source writes
  | .delete workspaceId repositoryId admin =>
    (t.deleteRepositoryIntelligenceRecords workspaceId repositoryId admin).map (·.2)

/-- A call that raises is rolled back. -/
def step (t : Tables D) (action : Action D) : Option (Tables D) :=
  match t.call action with
  | .ok next => some next
  | .error _ => some t

end steps

end FounderOs.RepositoryAudit.Deletion
