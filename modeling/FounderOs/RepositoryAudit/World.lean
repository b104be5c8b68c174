import FounderOs.RepositoryAudit.Protocol
import FounderOs.RepositoryAudit.Upkeep

namespace FounderOs.RepositoryAudit

open Headquarters Transition
open Execution (Instant UserId)

/-- The ids that a persist draws; one for each row of evidence, by the length of the table. -/
structure Drawn where
  runId : Uuid
  sourceRecordId : Uuid
  evidence : Nat → Uuid

/-- The jobs, the runs and the records of one repository; the newest run is first. `jobIds` is
history: the ids that were drawn for jobs. -/
structure AuditWorld where
  jobs : List (Uuid × AnalysisJob)
  runs : List StoredRun
  store : Store
  jobIds : List Uuid

def emptyAuditWorld : AuditWorld := ⟨[], [], ⟨⟨[], [], []⟩, [], [], [], []⟩, []⟩

/-- The repository whose audits the world is about. -/
structure Setting where
  workspaceId : Uuid
  repositoryId : Uuid
  manifestSize : List Artifact → Nat

/-- Each call is one transaction. The rest of the application adds to the rows of the workspace. -/
inductive AuditAction where
  | enqueue (id : Uuid) (request : AnalysisRequest) (requestedBy : UserId) (admin : Bool)
      (now : Instant)
  | claim (jobId : Uuid) (workerId : Str) (now : Instant) (leaseSeconds : Nat)
  | fail (jobId : Uuid) (input : AnalysisJob.FailInput)
  | cancel (jobId : Uuid) (now : Instant)
  | persist (jobId : Uuid) (input : PersistInput) (drawn : Drawn) (committed : Bool)
  | confirmDeleted (runId : Uuid) (now : Instant)
  | deleteRecords
  | register (repositories sourceRecords : List Uuid)
  | insertEvidence (row : EvidenceRow)

def jobNotFound : AuditError := stateError "repository analysis job was not found"

def StoredRun.ofInput (drawn : Drawn) (job : AnalysisJob) (input : PersistInput) : StoredRun where
  toAuditRun := AuditRun.ofInput drawn.runId job input
  sourceRecordId := drawn.sourceRecordId

def StoredRun.purged (run : StoredRun) (now : Instant) : StoredRun :=
  { run with
    artifactManifest := []
    artifactManifestHash := []
    artifactPurgedAt := some now }

namespace AuditWorld

section calls

variable (setting : Setting) (s : AuditWorld)

def existing (jobId : Uuid) : Option AuditRun :=
  (s.runs.find? (·.jobId = jobId)).map (·.toAuditRun)

/-- `enqueue_repository_analysis_job`. -/
def enqueue (id : Uuid) (request : AnalysisRequest) (requestedBy : UserId) (admin : Bool)
    (now : Instant) : Except AuditError (AnalysisJob × AuditWorld) := do
  rejectIf (!admin)
    (stateError "repository intelligence mutation requires workspace owner or admin")
  rejectIf (!s.store.workspace.repositories.contains request.repositoryId)
    (stateError "repository is unavailable in the trusted workspace")
  match s.jobs.find? (·.2.idempotencyKey = request.idempotencyKey) with
  | some entry => do
    rejectIf (entry.2.requestHash ≠ { request with idempotencyKey := [] })
      (conflictError "analysis idempotency key was reused with different input")
    return (entry.2, s)
  | none => do
    let job := AnalysisJob.queued id request requestedBy now
    verify job.constraints
    return (job, { s with jobs := Dict.set s.jobs id job, jobIds := id :: s.jobIds })

/-- A call on the row of a job. Where there is none, a claim returns nothing instead. -/
def change (jobId : Uuid) (call : AnalysisJob → Except AuditError AnalysisJob) :
    Except AuditError AuditWorld :=
  match Dict.get s.jobs jobId with
  | none => .error jobNotFound
  | some job => do
    let job ← call job
    verify job.constraints
    return { s with jobs := Dict.set s.jobs jobId job }

def claim (jobId : Uuid) (workerId : Str) (now : Instant) (leaseSeconds : Nat) :
    Except AuditError AuditWorld :=
  s.change jobId fun job => (job.claim workerId now leaseSeconds).map (·.1)

def lockedJob (jobId workspaceId : Uuid) : Option AnalysisJob :=
  (Dict.get s.jobs jobId).filter (·.scope.workspaceId = workspaceId)

def checkPersist (input : PersistInput) : Except AuditError Unit := do
  rejectIf (!safeKey 64 input.workerId) (stateError "analysis worker identity is invalid")
  rejectIf (input.completedAt < input.startedAt)
    (stateError "analysis completion cannot precede its start")

/-- `persist_repository_intelligence_result`, with the run that it returns. -/
def persist (jobId : Uuid) (input : PersistInput) (drawn : Drawn) :
    Except AuditError (AuditRun × AuditWorld) := do
  checkPersist input
  match s.lockedJob jobId input.payload.workspaceId with
  | none => .error jobNotFound
  | some job =>
    match persistVerdict setting.manifestSize job (s.existing jobId) input with
    | .refused error => .error error
    | .cancelled _ => .error cancelledResult
    | .replayed run job => .ok (run, { s with jobs := Dict.set s.jobs jobId job })
    | .store => do
      let run := StoredRun.ofInput drawn job input
      let store ← persistRecords s.store s.runs run drawn.evidence
      let job := job.finishFromRun run.toAuditRun
      verify job.constraints
      return (run.toAuditRun, { s with
        jobs := Dict.set s.jobs jobId job
        runs := run :: s.runs
        store := store })

/-- What is left if the caller commits after the error of a pending cancellation. -/
def closeCancelled (jobId : Uuid) (input : PersistInput) : AuditWorld :=
  match s.lockedJob jobId input.payload.workspaceId with
  | none => s
  | some job =>
    match persistVerdict setting.manifestSize job (s.existing jobId) input with
    | .cancelled job => { s with jobs := Dict.set s.jobs jobId job }
    | _ => s

/-- `confirm_repository_artifacts_deleted`. -/
def confirmDeleted (runId : Uuid) (now : Instant) : Except AuditError AuditWorld :=
  match s.runs.find? (·.id = runId) with
  | none => .error (stateError "repository audit run was not found")
  | some run => do
    rejectIf (now < run.artifactExpiresAt)
      (stateError "repository artifacts are not past retention")
    return { s with runs := s.runs.map fun run => if run.id = runId then run.purged now else run }

/-- `delete_repository_intelligence_records`. -/
def deleteRecords : AuditWorld :=
  let own := fun sourceRecordId => s.runs.any fun run => run.sourceRecordId = sourceRecordId
  { s with
    jobs := []
    runs := []
    store :=
      { workspace :=
          { s.store.workspace with
            sourceRecords := s.store.workspace.sourceRecords.filter fun id => !own id
            evidence := s.store.workspace.evidence.filter fun row => !own row.sourceRecordId }
        facts := []
        relationships := []
        findings := []
        contradictions := [] } }

/-- A call that raises is rolled back. -/
def orRollBack (outcome : Except AuditError AuditWorld) : AuditWorld :=
  match outcome with
  | .ok t => t
  | .error _ => s

def mapWorkspace (workspace : WorkspaceRows) : AuditWorld :=
  { s with store := { s.store with workspace := workspace } }

def step : AuditAction → Option AuditWorld
  | .enqueue id request requestedBy admin now =>
    if request.workspaceId = setting.workspaceId ∧ request.repositoryId = setting.repositoryId ∧
        !s.jobIds.contains id then
      some (s.orRollBack ((s.enqueue id request requestedBy admin now).map (·.2)))
    else none
  | .claim jobId workerId now leaseSeconds =>
    some (s.orRollBack (s.claim jobId workerId now leaseSeconds))
  | .fail jobId input => some (s.orRollBack (s.change jobId (·.fail input)))
  | .cancel jobId now => some (s.orRollBack (s.change jobId fun job =>
      .ok (job.requestCancellation now)))
  | .persist jobId input drawn committed =>
    match s.persist setting jobId input drawn with
    | .ok (_, t) => some t
    | .error _ => some (if committed then s.closeCancelled setting jobId input else s)
  | .confirmDeleted runId now => some (s.orRollBack (s.confirmDeleted runId now))
  | .deleteRecords => some s.deleteRecords
  | .register repositories sourceRecords =>
    some (s.mapWorkspace { s.store.workspace with
      repositories := s.store.workspace.repositories ++ repositories
      sourceRecords := s.store.workspace.sourceRecords ++ sourceRecords })
  | .insertEvidence row =>
    match verify (row.constraints s.store.workspace) with
    | .error _ => some s
    | .ok _ => some (s.mapWorkspace { s.store.workspace with
        evidence := s.store.workspace.evidence ++ [row] })

end calls

section steps

variable {setting : Setting} {s t : AuditWorld}

/-- What a persist that returns has done. -/
inductive Persisted (setting : Setting) (s : AuditWorld) (jobId : Uuid) (input : PersistInput)
    (drawn : Drawn) : AuditRun → AuditWorld → Prop
  | replayed {job job' : AnalysisJob} {run : AuditRun} :
      s.lockedJob jobId input.payload.workspaceId = some job →
      persistVerdict setting.manifestSize job (s.existing jobId) input = .replayed run job' →
        Persisted setting s jobId input drawn run { s with jobs := Dict.set s.jobs jobId job' }
  | stored {job : AnalysisJob} {store : Store} :
      s.lockedJob jobId input.payload.workspaceId = some job →
      persistVerdict setting.manifestSize job (s.existing jobId) input = .store →
      persistRecords s.store s.runs (StoredRun.ofInput drawn job input) drawn.evidence =
        .ok store →
        Persisted setting s jobId input drawn (StoredRun.ofInput drawn job input).toAuditRun
          { s with
            jobs := Dict.set s.jobs jobId
              (job.finishFromRun (StoredRun.ofInput drawn job input).toAuditRun)
            runs := StoredRun.ofInput drawn job input :: s.runs
            store := store }

theorem persisted_of_persist {jobId : Uuid} {input : PersistInput} {drawn : Drawn} {run : AuditRun}
    (h : s.persist setting jobId input drawn = .ok (run, t)) :
    Persisted setting s jobId input drawn run t := by
  obtain ⟨_, -, h⟩ := ok_of_bind_ok h
  cases hjob : s.lockedJob jobId input.payload.workspaceId with
  | none =>
    simp only [hjob] at h
    cases h
  | some job =>
    simp only [hjob] at h
    cases hverdict : persistVerdict setting.manifestSize job (s.existing jobId) input with
    | refused error => simp only [hverdict] at h; cases h
    | cancelled job' => simp only [hverdict] at h; cases h
    | replayed stored job' =>
      simp only [hverdict] at h
      cases h
      exact .replayed hjob hverdict
    | store =>
      simp only [hverdict] at h
      obtain ⟨store, hstore, h⟩ := ok_of_bind_ok h
      obtain ⟨_, -, h⟩ := ok_of_bind_ok h
      cases h
      exact .stored hjob hverdict hstore

theorem change_ok {jobId : Uuid} {call : AnalysisJob → Except AuditError AnalysisJob}
    (h : s.change jobId call = .ok t) : ∃ job job', Dict.get s.jobs jobId = some job ∧
      call job = .ok job' ∧ verify job'.constraints = .ok () ∧
        t = { s with jobs := Dict.set s.jobs jobId job' } := by
  unfold change at h
  cases hjob : Dict.get s.jobs jobId with
  | none => rw [hjob] at h; cases h
  | some job =>
    simp only [hjob] at h
    obtain ⟨job', hcall, h⟩ := ok_of_bind_ok h
    obtain ⟨_, hverify, h⟩ := ok_of_bind_ok h
    cases h
    exact ⟨job, job', rfl, hcall, hverify, rfl⟩

/-- A step of a job leaves the runs and the records alone. -/
structure SameRecords (s t : AuditWorld) : Prop where
  runs : t.runs = s.runs
  store : t.store = s.store

theorem SameRecords.refl (s : AuditWorld) : SameRecords s s := ⟨rfl, rfl⟩

theorem sameRecords_closeCancelled {jobId : Uuid} {input : PersistInput} :
    SameRecords s (s.closeCancelled setting jobId input) := by
  unfold closeCancelled
  split
  · exact .refl s
  · split
    · exact ⟨rfl, rfl⟩
    · exact .refl s

theorem confirmDeleted_ok {runId : Uuid} {now : Instant} (h : s.confirmDeleted runId now = .ok t) :
    t = { s with runs := s.runs.map fun run => if run.id = runId then run.purged now else run } := by
  unfold confirmDeleted at h
  split at h
  · cases h
  · obtain ⟨_, -, h⟩ := ok_of_bind_ok h
    exact (Except.ok.inj h).symm

/-- Purging the artifacts of a run changes nothing of what it asserted. -/
theorem map_purged {A : Type} (f : StoredRun → A) {runs : List StoredRun} {runId : Uuid}
    {now : Instant} (hf : ∀ run : StoredRun, f (run.purged now) = f run) :
    (runs.map fun run => if run.id = runId then run.purged now else run).map f = runs.map f := by
  rw [List.map_map]
  refine List.map_congr_left fun run _ => ?_
  simp only [Function.comp_apply]
  split
  · exact hf run
  · rfl

theorem follows_purged {store : Store} {runs : List StoredRun} {runId : Uuid} {now : Instant}
    (h : store.Follows runs) :
    store.Follows (runs.map fun run => if run.id = runId then run.purged now else run) where
  ids := by
    rw [map_purged (·.id) fun _ => rfl]
    exact h.ids
  evidence := h.evidence
  facts := by
    unfold RecordKind.Reading.Follows
    rw [map_purged _ fun _ => rfl]
    exact h.facts
  relationships := by
    unfold RecordKind.Reading.Follows
    rw [map_purged _ fun _ => rfl]
    exact h.relationships
  findings := by
    unfold RecordKind.Reading.Follows
    rw [map_purged _ fun _ => rfl]
    exact h.findings
  contradictions := by
    unfold RecordKind.Reading.Follows
    rw [map_purged _ fun _ => rfl]
    exact h.contradictions

theorem follows_empty {workspace : WorkspaceRows}
    (hevidence : (workspace.evidence.map (·.id)).Nodup) :
    Store.Follows ⟨workspace, [], [], [], []⟩ [] where
  ids := List.nodup_nil
  evidence := hevidence
  facts := Retained.tracks_empty
  relationships := Retained.tracks_empty
  findings := Retained.tracks_empty
  contradictions := Retained.tracks_empty

theorem get_of_lockedJob {jobId workspaceId : Uuid} {job : AnalysisJob}
    (h : s.lockedJob jobId workspaceId = some job) : Dict.get s.jobs jobId = some job :=
  (Option.filter_eq_some_iff.1 h).1

/-- What a call leaves of a job that is there. -/
inductive JobStep (job : AnalysisJob) : AnalysisJob → Prop
  | claimed {workerId : Str} {now : Instant} {leaseSeconds : Nat} {job' : AnalysisJob}
      {granted : Bool} : job.claim workerId now leaseSeconds = .ok (job', granted) →
        verify job'.constraints = .ok () → JobStep job job'
  | failed {input : AnalysisJob.FailInput} {job' : AnalysisJob} : job.fail input = .ok job' →
      verify job'.constraints = .ok () → JobStep job job'
  | cancelled (now : Instant) : verify (job.requestCancellation now).constraints = .ok () →
      JobStep job (job.requestCancellation now)
  | closed (now : Instant) : job.cancelRequestedAt.isSome = true →
      JobStep job (job.finishCancelled now)
  | replayed (run : AuditRun) : JobStep job (job.finishFromRun run)

/-- What a step does to the world. -/
inductive Stepped (setting : Setting) (s : AuditWorld) : AuditWorld → Prop
  | stayed : Stepped setting s s
  | enqueued {id : Uuid} {job : AnalysisJob} : id ∉ s.jobIds → job.id = id →
      job.scope.repositoryId = setting.repositoryId → verify job.constraints = .ok () →
        Stepped setting s { s with jobs := Dict.set s.jobs id job, jobIds := id :: s.jobIds }
  | called {jobId : Uuid} {job job' : AnalysisJob} : Dict.get s.jobs jobId = some job →
      JobStep job job' → Stepped setting s { s with jobs := Dict.set s.jobs jobId job' }
  | stored {jobId : Uuid} {input : PersistInput} {drawn : Drawn} {job : AnalysisJob}
      {store : Store} : s.lockedJob jobId input.payload.workspaceId = some job →
      persistVerdict setting.manifestSize job (s.existing jobId) input = .store →
      persistRecords s.store s.runs (StoredRun.ofInput drawn job input) drawn.evidence =
        .ok store →
        Stepped setting s
          { s with
            jobs := Dict.set s.jobs jobId
              (job.finishFromRun (StoredRun.ofInput drawn job input).toAuditRun)
            runs := StoredRun.ofInput drawn job input :: s.runs
            store := store }
  | purged (runId : Uuid) (now : Instant) : Stepped setting s
      { s with runs := s.runs.map fun run => if run.id = runId then run.purged now else run }
  | deleted : Stepped setting s s.deleteRecords
  | registered (workspace : WorkspaceRows) : s.store.workspace.Grows workspace →
      Stepped setting s (s.mapWorkspace workspace)

theorem stepped_of_enqueue {id : Uuid} {request : AnalysisRequest} {requestedBy : UserId}
    {admin : Bool} {now : Instant} {job : AnalysisJob} (hid : id ∉ s.jobIds)
    (hrepository : request.repositoryId = setting.repositoryId)
    (h : s.enqueue id request requestedBy admin now = .ok (job, t)) : Stepped setting s t := by
  obtain ⟨_, -, h⟩ := ok_of_bind_ok h
  obtain ⟨_, -, h⟩ := ok_of_bind_ok h
  split at h
  · obtain ⟨_, -, h⟩ := ok_of_bind_ok h
    cases h
    exact .stayed
  · obtain ⟨_, hverify, h⟩ := ok_of_bind_ok h
    cases h
    exact .enqueued hid rfl hrepository hverify

theorem stepped_of_change {jobId : Uuid} {call : AnalysisJob → Except AuditError AnalysisJob}
    (hcall : ∀ job job', call job = .ok job' → verify job'.constraints = .ok () →
      JobStep job job') : Stepped setting s (s.orRollBack (s.change jobId call)) := by
  cases hchange : s.change jobId call with
  | error => exact .stayed
  | ok t =>
    obtain ⟨job, job', hjob, hok, hverify, rfl⟩ := change_ok hchange
    exact .called hjob (hcall job job' hok hverify)

theorem stepped_of_closeCancelled {jobId : Uuid} {input : PersistInput} :
    Stepped setting s (s.closeCancelled setting jobId input) := by
  unfold closeCancelled
  split
  · exact .stayed
  · rename_i hlocked
    split
    · rename_i hverdict
      obtain ⟨-, -, hcancel, rfl⟩ := verdict_cancelled.1 hverdict
      exact .called (get_of_lockedJob hlocked) (.closed _ hcancel)
    · exact .stayed

theorem stepped_of_step {a : AuditAction} (hstep : s.step setting a = some t) :
    Stepped setting s t := by
  cases a with
  | enqueue id request requestedBy admin now =>
    simp only [step] at hstep
    split at hstep
    case isFalse => cases hstep
    rename_i hguard
    cases hstep
    cases henqueue : s.enqueue id request requestedBy admin now with
    | error => exact .stayed
    | ok both => exact stepped_of_enqueue (by simpa using hguard.2.2) hguard.2.1 henqueue
  | claim jobId workerId now leaseSeconds =>
    cases hstep
    refine stepped_of_change fun job job' hclaim hverify => ?_
    obtain ⟨both, hboth, rfl⟩ := map_eq_ok hclaim
    exact .claimed hboth hverify
  | fail jobId input =>
    cases hstep
    exact stepped_of_change fun job job' hfail hverify => .failed hfail hverify
  | cancel jobId now =>
    cases hstep
    refine stepped_of_change fun job job' hcancel hverify => ?_
    cases hcancel
    exact .cancelled now hverify
  | persist jobId input drawn committed =>
    simp only [step] at hstep
    split at hstep
    · rename_i run t' hpersist
      cases hstep
      cases persisted_of_persist hpersist with
      | replayed hlocked hverdict =>
        obtain ⟨-, rfl⟩ := verdict_replayed hverdict
        exact .called (get_of_lockedJob hlocked) (.replayed run)
      | stored hlocked hverdict hstore => exact .stored hlocked hverdict hstore
    · cases hstep
      split
      · exact stepped_of_closeCancelled
      · exact .stayed
  | confirmDeleted runId now =>
    cases hstep
    cases hconfirm : s.confirmDeleted runId now with
    | error => exact .stayed
    | ok t =>
      obtain rfl := confirmDeleted_ok hconfirm
      exact .purged runId now
  | deleteRecords =>
    cases hstep
    exact .deleted
  | register repositories sourceRecords =>
    cases hstep
    exact .registered _ ⟨List.prefix_rfl, id⟩
  | insertEvidence row =>
    simp only [step] at hstep
    split at hstep
    · cases hstep
      exact .stayed
    · rename_i hverify
      cases hstep
      exact .registered _ (.insert (verify_ok.1 hverify))

theorem follows_step {a : AuditAction} (hs : s.store.Follows s.runs)
    (hstep : s.step setting a = some t) : t.store.Follows t.runs := by
  cases stepped_of_step hstep with
  | stayed => exact hs
  | enqueued => exact hs
  | called => exact hs
  | stored _ _ hstore => exact persistRecords_ok hstore hs
  | purged runId now => exact follows_purged hs
  | deleted => exact follows_empty (hs.evidence.sublist (List.filter_sublist.map _))
  | registered workspace hgrows => exact hs.grows hgrows

theorem follows_of_reaches (h : Reaches (step setting) anyStep emptyAuditWorld s) :
    s.store.Follows s.runs :=
  h.invariant (P := fun s : AuditWorld => s.store.Follows s.runs)
    (fun _ _ _ hs _ hstep => follows_step hs hstep) (follows_empty List.nodup_nil)

end steps

end AuditWorld

def sampleSetting : Setting := ⟨sampleWorkspace, sampleRepository, emptyManifestSize⟩

def sampleId (n : Nat) : Uuid := if h : n < 10 then sampleUuid ⟨n, h⟩ else sampleWorkspace

def sampleDrawn (n : Nat) : Drawn := ⟨sampleId n, sampleId n, fun _ => sampleId n⟩

def sampleJobRequest (n : Nat) (profile : String) : AnalysisRequest :=
  { sampleRequest with idempotencyKey := [97 + n], profile := Str.of profile }

def sampleInput (profile : String) (result : AnalyzerResult) (completedAt : Instant) :
    PersistInput :=
  ⟨sampleWorker, { samplePayload result with profile := Str.of profile }, sampleCoverage, [], 0,
    completedAt⟩

def sampleRegister : AuditAction := .register [sampleRepository] []

/-- A job is enqueued and claimed. -/
def startedJob (n : Nat) (profile : String) : List AuditAction :=
  [.enqueue (sampleId n) (sampleJobRequest n profile) 7 true 0, .claim (sampleId n) sampleWorker 0 60]

def samplePersist (n : Nat) (profile : String) (result : AnalyzerResult) (completedAt : Instant) :
    AuditAction :=
  .persist (sampleId n) (sampleInput profile result completedAt) (sampleDrawn n) false

def sampleUnknown (question : String) : RepositoryUnknown :=
  ⟨Str.of "owner", sampleWorkspace, Str.of question, []⟩

/-- A result whose one finding of interest is an open question. -/
def asking (question : String) : AnalyzerResult :=
  { emptyResult with unknowns := [sampleUnknown question] }

end FounderOs.RepositoryAudit
