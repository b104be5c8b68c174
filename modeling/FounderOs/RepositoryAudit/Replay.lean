import FounderOs.RepositoryAudit.World

namespace FounderOs.RepositoryAudit

open Headquarters Transition
open Execution (Instant UserId)

/-- The job has an outcome for the payload, and nobody has asked to cancel it. -/
structure AnalysisJob.Settled (job : AnalysisJob) (payload : RepositoryIntelligence) : Prop where
  terminal : job.status.terminal = true
  uncancelled : job.cancelRequestedAt = none
  scope : job.scope = payload.scope

/-- What no call on a job takes from it. -/
structure Continues (job job' : AnalysisJob) : Prop where
  id : job'.id = job.id
  settled : ∀ payload, job.Settled payload → job'.Settled payload

section jobs

variable {job job' : AnalysisJob} {payload : RepositoryIntelligence} {now : Instant}

theorem Continues.refl (job : AnalysisJob) : Continues job job := ⟨rfl, fun _ h => h⟩

theorem continues_claim {workerId : Str} {leaseSeconds : Nat} {granted : Bool}
    (h : job.claim workerId now leaseSeconds = .ok (job', granted)) : Continues job job' := by
  refine ⟨?_, fun payload hsettled => ?_⟩
  · unfold AnalysisJob.claim at h
    obtain ⟨_, -, h⟩ := ok_of_bind_ok h
    obtain ⟨_, -, h⟩ := ok_of_bind_ok h
    have h := Except.ok.inj h
    split_ifs at h <;> cases h <;> rfl
  · cases claimed_of_claim h with
    | turnedAway => exact hsettled
    | closed hopen => rw [hsettled.terminal] at hopen; cases hopen
    | granted hopen => rw [hsettled.terminal] at hopen; cases hopen

theorem continues_fail {input : AnalysisJob.FailInput} (h : job.fail input = .ok job') :
    Continues job job' := by
  obtain ⟨-, hrunning, -, rfl⟩ := fail_ok.1 h
  refine ⟨?_, fun payload hsettled => ?_⟩
  · unfold AnalysisJob.failed
    dsimp only
    split <;> rfl
  · have hterminal := hsettled.terminal
    rw [hrunning] at hterminal
    cases hterminal

theorem continues_cancel : Continues job (job.requestCancellation now) := by
  refine ⟨?_, fun payload hsettled => ?_⟩
  · unfold AnalysisJob.requestCancellation
    dsimp only
    split_ifs <;> rfl
  · rw [AnalysisJob.requestCancellation, if_pos hsettled.terminal]
    exact hsettled

theorem continues_finishCancelled (hcancel : job.cancelRequestedAt.isSome = true) :
    Continues job (job.finishCancelled now) := by
  refine ⟨rfl, fun payload hsettled => ?_⟩
  rw [hsettled.uncancelled] at hcancel
  cases hcancel

theorem settled_finishFromRun (run : AuditRun) (huncancelled : job.cancelRequestedAt = none)
    (hscope : job.scope = payload.scope) : (job.finishFromRun run).Settled payload :=
  ⟨run.status.terminal_ofJob, huncancelled, hscope⟩

theorem continues_finishFromRun (run : AuditRun) : Continues job (job.finishFromRun run) :=
  ⟨rfl, fun _ hsettled => settled_finishFromRun run hsettled.uncancelled hsettled.scope⟩

theorem continues_of_jobStep (h : AuditWorld.JobStep job job') : Continues job job' := by
  cases h with
  | claimed hclaim => exact continues_claim hclaim
  | failed hfail => exact continues_fail hfail
  | cancelled => exact continues_cancel
  | closed now hcancel => exact continues_finishCancelled hcancel
  | replayed run => exact continues_finishFromRun run

end jobs

/-- The row of a run, whose artifacts may have been purged since. -/
def StoredRun.Left (run row : StoredRun) : Prop := row = run ∨ ∃ now, row = run.purged now

/-- What the ids of the jobs say about each other. -/
structure AuditWorld.Identified (s : AuditWorld) : Prop where
  named : ∀ id job, Dict.get s.jobs id = some job → job.id = id
  drawn : ∀ id job, Dict.get s.jobs id = some job → id ∈ s.jobIds
  single : (s.runs.map (·.jobId)).Nodup

/-- A stored run is there for its job, until both are deleted for good. -/
inductive Remembered (run : StoredRun) (s : AuditWorld) : Prop
  | kept (job : AnalysisJob) (row : StoredRun) : Dict.get s.jobs run.jobId = some job →
      job.Settled run.resultHash → row ∈ s.runs → run.Left row → Remembered run s
  | deleted : Dict.get s.jobs run.jobId = none → run.jobId ∈ s.jobIds → Remembered run s

section worlds

variable {setting : Setting} {s t : AuditWorld} {run : StoredRun} {jobId : Uuid}
variable {job job' : AnalysisJob}

theorem AuditWorld.Identified.change (h : s.Identified) (hjob : Dict.get s.jobs jobId = some job)
    (hid : job'.id = job.id) :
    AuditWorld.Identified { s with jobs := Dict.set s.jobs jobId job' } := by
  refine ⟨fun id found hfound => ?_, fun id found hfound => ?_, h.single⟩
  · rw [Dict.get_set] at hfound
    split at hfound
    · rename_i heq
      cases hfound
      exact hid.trans ((h.named _ _ hjob).trans heq)
    · exact h.named id found hfound
  · rw [Dict.get_set] at hfound
    split at hfound
    · rename_i heq
      exact heq ▸ h.drawn _ _ hjob
    · exact h.drawn id found hfound

theorem Remembered.change (h : Remembered run s) (hjob : Dict.get s.jobs jobId = some job)
    (hsettled : ∀ payload, job.Settled payload → job'.Settled payload) :
    Remembered run { s with jobs := Dict.set s.jobs jobId job' } := by
  cases h with
  | kept found row hfound hsettledRun hrow hleft =>
    by_cases heq : jobId = run.jobId
    · subst heq
      obtain rfl := Option.some.inj (hjob.symm.trans hfound)
      refine .kept job' row ?_ (hsettled _ hsettledRun) hrow hleft
      rw [Dict.get_set, if_pos rfl]
    · refine .kept found row ?_ hsettledRun hrow hleft
      rw [Dict.get_set, if_neg heq]
      exact hfound
  | deleted hnone hdrawn =>
    refine .deleted ?_ hdrawn
    rw [Dict.get_set, if_neg fun heq => ?_]
    · exact hnone
    · rw [← heq, hjob] at hnone
      cases hnone

/-- The ids are in order, and the given runs are remembered. -/
structure AuditWorld.Keeps (s : AuditWorld) (stored : List StoredRun) : Prop where
  identified : s.Identified
  remembered : ∀ run ∈ stored, Remembered run s

variable {stored : List StoredRun}

theorem AuditWorld.Keeps.change (hs : s.Keeps stored)
    (hjob : Dict.get s.jobs jobId = some job) (h : Continues job job') :
    AuditWorld.Keeps { s with jobs := Dict.set s.jobs jobId job' } stored :=
  ⟨hs.identified.change hjob h.id, fun run hrun => (hs.remembered run hrun).change hjob h.settled⟩

theorem AuditWorld.Keeps.mapWorkspace {workspace : WorkspaceRows} (hs : s.Keeps stored) :
    (s.mapWorkspace workspace).Keeps stored where
  identified := ⟨hs.identified.named, hs.identified.drawn, hs.identified.single⟩
  remembered run hrun := by
    cases hs.remembered run hrun with
    | kept job row hjob hsettled hrow hleft => exact .kept job row hjob hsettled hrow hleft
    | deleted hnone hdrawn => exact .deleted hnone hdrawn

theorem keeps_enqueued (hs : s.Keeps stored) (hfresh : jobId ∉ s.jobIds) (hid : job.id = jobId) :
    AuditWorld.Keeps
      { s with jobs := Dict.set s.jobs jobId job, jobIds := jobId :: s.jobIds } stored := by
  refine ⟨⟨fun other found hfound => ?_, fun other found hfound => ?_, hs.identified.single⟩, ?_⟩
  · rw [Dict.get_set] at hfound
    split at hfound
    · rename_i heq
      cases hfound
      exact hid.trans heq
    · exact hs.identified.named other found hfound
  · rw [Dict.get_set] at hfound
    split at hfound
    · rename_i heq
      exact heq ▸ List.mem_cons_self ..
    · exact List.mem_cons_of_mem _ (hs.identified.drawn other found hfound)
  · intro run hrun
    cases hs.remembered run hrun with
    | kept found row hfound hsettled hrow hleft =>
      have hne : jobId ≠ run.jobId := fun heq =>
        hfresh (heq ▸ hs.identified.drawn _ _ hfound)
      refine .kept found row ?_ hsettled hrow hleft
      rw [Dict.get_set, if_neg hne]
      exact hfound
    | deleted hnone hdrawn =>
      have hne : jobId ≠ run.jobId := fun heq => hfresh (heq ▸ hdrawn)
      refine .deleted ?_ (List.mem_cons_of_mem _ hdrawn)
      rw [Dict.get_set, if_neg hne]
      exact hnone

theorem keeps_purged (hs : s.Keeps stored) (runId : Uuid) (now : Instant) : AuditWorld.Keeps
    { s with runs := s.runs.map fun run => if run.id = runId then run.purged now else run }
      stored := by
  refine ⟨⟨hs.identified.named, hs.identified.drawn, ?_⟩, ?_⟩
  · change (List.map (fun run : StoredRun => run.jobId) (s.runs.map _)).Nodup
    rw [AuditWorld.map_purged _ fun _ => rfl]
    exact hs.identified.single
  · intro run hrun
    cases hs.remembered run hrun with
    | deleted hnone hdrawn => exact .deleted hnone hdrawn
    | kept job row hjob hsettled hrow hleft =>
      refine .kept job _ hjob hsettled (List.mem_map_of_mem hrow) ?_
      split
      · refine .inr ⟨now, ?_⟩
        obtain rfl | ⟨earlier, rfl⟩ := hleft <;> rfl
      · exact hleft

theorem identified_of_empty (hjobs : s.jobs = []) (hruns : s.runs = []) : s.Identified where
  named id job hjob := by
    rw [hjobs] at hjob
    cases hjob
  drawn id job hjob := by
    rw [hjobs] at hjob
    cases hjob
  single := by
    rw [hruns]
    exact List.nodup_nil

theorem keeps_deleteRecords (hs : s.Keeps stored) : s.deleteRecords.Keeps stored where
  identified := identified_of_empty rfl rfl
  remembered run hrun := by
    refine .deleted rfl ?_
    cases hs.remembered run hrun with
    | kept job row hjob => exact hs.identified.drawn _ _ hjob
    | deleted hnone hdrawn => exact hdrawn

/-- A run that is stored is kept with its job from then on. -/
theorem keeps_stored {input : PersistInput} {drawn : Drawn} {store : Store}
    (hs : s.Keeps stored) (hlocked : s.lockedJob jobId input.payload.workspaceId = some job)
    (hverdict : persistVerdict setting.manifestSize job (s.existing jobId) input = .store)
    (hstore : persistRecords s.store s.runs (StoredRun.ofInput drawn job input) drawn.evidence =
      .ok store) :
    AuditWorld.Keeps
      { s with
        jobs := Dict.set s.jobs jobId
          (job.finishFromRun (StoredRun.ofInput drawn job input).toAuditRun)
        runs := StoredRun.ofInput drawn job input :: s.runs
        store := store }
      (StoredRun.ofInput drawn job input :: stored) := by
  obtain ⟨-, -, -, hawaits, -⟩ := verdict_store.1 hverdict
  have hjob := AuditWorld.get_of_lockedJob hlocked
  have hnamed : job.id = jobId := hs.identified.named _ _ hjob
  obtain ⟨_, hverify, -⟩ := ok_of_bind_ok hstore
  have hcontinues : Continues job
      (job.finishFromRun (StoredRun.ofInput drawn job input).toAuditRun) :=
    continues_finishFromRun _
  have hchanged := hs.change hjob hcontinues
  refine ⟨⟨hchanged.identified.named, hchanged.identified.drawn, ?_⟩, ?_⟩
  · exact List.nodup_cons.2 ⟨(fresh_of_constraints hverify).2, hs.identified.single⟩
  · intro run hrun
    rcases List.mem_cons.1 hrun with rfl | hrun
    · have hsettled := settled_finishFromRun (StoredRun.ofInput drawn job input).toAuditRun
        hawaits.uncancelled hawaits.scope
      refine .kept _ _ ?_ hsettled (List.mem_cons_self ..) (.inl rfl)
      change Dict.get (Dict.set s.jobs jobId _) job.id = _
      rw [Dict.get_set, if_pos hnamed.symm]
    · cases hchanged.remembered run hrun with
      | kept found row hfound hsettled hrow hleft =>
        exact .kept found row hfound hsettled (List.mem_cons_of_mem _ hrow) hleft
      | deleted hnone hdrawn => exact .deleted hnone hdrawn

theorem keeps_step {a : AuditAction} (hs : s.Keeps stored) (hstep : s.step setting a = some t) :
    t.Keeps stored := by
  cases AuditWorld.stepped_of_step hstep with
  | stayed => exact hs
  | enqueued hfresh hid => exact keeps_enqueued hs hfresh hid
  | called hjob hcall => exact hs.change hjob (continues_of_jobStep hcall)
  | stored hlocked hverdict hstore =>
    have hkeeps := keeps_stored hs hlocked hverdict hstore
    exact ⟨hkeeps.identified, fun run hrun =>
      hkeeps.remembered run (List.mem_cons_of_mem _ hrun)⟩
  | purged runId now => exact keeps_purged hs runId now
  | deleted => exact keeps_deleteRecords hs
  | registered => exact hs.mapWorkspace

theorem keeps_of_reaches (hs : s.Keeps stored)
    (h : Reaches (AuditWorld.step setting) anyStep s t) : t.Keeps stored :=
  h.invariant (P := fun s : AuditWorld => s.Keeps stored)
    (fun _ _ _ hs _ hstep => keeps_step hs hstep) hs

theorem keeps_empty : emptyAuditWorld.Keeps [] where
  identified := identified_of_empty rfl rfl
  remembered := by rintro _ ⟨⟩

end worlds

section replay

variable {setting : Setting} {s s₁ s₂ s₃ t : AuditWorld} {run : StoredRun} {jobId : Uuid}
variable {job job' : AnalysisJob} {input input' : PersistInput} {drawn drawn' : Drawn}
variable {committed : Bool}

/-- The call is made again for the same result; who makes it and when is left open. -/
structure PersistInput.Repeats (input' input : PersistInput) : Prop where
  payload : input'.payload = input.payload
  coverage : input'.coverage = input.coverage
  artifactManifest : input'.artifactManifest = input.artifactManifest

/-- The call returns the run and changes no run and no record. -/
def Replays (setting : Setting) (s : AuditWorld) (jobId : Uuid) (input : PersistInput)
    (drawn : Drawn) (run : StoredRun) : Prop :=
  ∃ row t, s.persist setting jobId input drawn = .ok (row, t) ∧ row.id = run.id ∧
    t.runs = s.runs ∧ t.store = s.store

theorem checkPersist_ok : AuditWorld.checkPersist input = .ok () ↔ input.WellTimed := by
  constructor
  · intro h
    obtain ⟨_, hworker, h⟩ := ok_of_bind_ok h
    exact ⟨by simpa using rejectIf_ok.1 hworker,
      Nat.le_of_not_lt (of_decide_eq_false (rejectIf_ok.1 h))⟩
  · rintro ⟨hworker, horder⟩
    simp [AuditWorld.checkPersist, rejectIf, hworker, Nat.not_lt.2 horder]
    rfl

theorem verdict_replayed_iff {manifestSize : List Artifact → Nat} {found returned : AuditRun} :
    persistVerdict manifestSize job (some found) input = .replayed returned job' ↔
      input.WellTimed ∧ job.scope = input.payload.scope ∧ job.cancelRequestedAt = none ∧
        manifestSize input.artifactManifest ≤ artifactManifestMaxBytes ∧
        found.resultHash = input.payload ∧ found.coverage = input.coverage ∧
        found.artifactManifestHash = input.artifactManifest ∧
        found.status = runStatus (input.coverage.isCompleteFor input.payload.auditLevel) ∧
        returned = found ∧ job' = job.finishFromRun found := by
  constructor
  · intro h
    unfold persistVerdict at h
    dsimp only at h
    split_ifs at h with hworker horder hscope hcancel hsize hsame
    obtain ⟨rfl, rfl⟩ := PersistVerdict.replayed.inj h
    simp only [not_or, not_not] at hsame
    exact ⟨⟨by simpa using hworker, Nat.le_of_not_lt horder⟩, not_not.1 hscope,
      Option.not_isSome_iff_eq_none.1 hcancel, Nat.le_of_not_lt hsize, hsame.1, hsame.2.1,
      hsame.2.2.1, hsame.2.2.2, rfl, rfl⟩
  · rintro ⟨⟨hworker, horder⟩, hscope, hcancel, hsize, hhash, hcoverage, hmanifest, hstatus, rfl,
      rfl⟩
    simp [persistVerdict, hworker, Nat.not_lt.2 horder, hscope, hcancel, Nat.not_lt.2 hsize,
      hhash, hcoverage, hmanifest, hstatus]

theorem existing_eq (hsingle : (s.runs.map (·.jobId)).Nodup) {row : StoredRun}
    (hrow : row ∈ s.runs) : s.existing row.jobId = some row.toAuditRun := by
  have hfind : s.runs.find? (fun other => other.jobId = row.jobId) = some row :=
    (Dict.find?_key (.of_nodup hsingle)).2 ⟨hrow, rfl⟩
  rw [AuditWorld.existing, hfind, Option.map_some]

/-- A persist that adds a run has stored what its job and its input come to. -/
theorem stored_by_step (hstep : s₁.step setting (.persist jobId input drawn committed) = some s₂)
    (hstored : s₂.runs = run :: s₁.runs) : ∃ job store,
      s₁.lockedJob jobId input.payload.workspaceId = some job ∧
        persistVerdict setting.manifestSize job (s₁.existing jobId) input = .store ∧
        persistRecords s₁.store s₁.runs run drawn.evidence = .ok store ∧
        run = StoredRun.ofInput drawn job input ∧
        s₂ = { s₁ with
          jobs := Dict.set s₁.jobs jobId (job.finishFromRun run.toAuditRun)
          runs := run :: s₁.runs
          store := store } := by
  have hnot : ¬s₁.runs = run :: s₁.runs := fun h => by
    have hlength := congrArg List.length h
    simp at hlength
  simp only [AuditWorld.step] at hstep
  split at hstep
  · rename_i returned t hpersist
    cases hstep
    cases AuditWorld.persisted_of_persist hpersist with
    | replayed => exact absurd hstored hnot
    | stored hlocked hverdict hstore =>
      obtain ⟨rfl, -⟩ := List.cons.inj hstored
      exact ⟨_, _, hlocked, hverdict, hstore, rfl, rfl⟩
  · cases hstep
    split at hstored
    · exact absurd ((AuditWorld.sameRecords_closeCancelled).runs.symm.trans hstored) hnot
    · exact absurd hstored hnot

/-- What a persist that stores a run leaves behind. -/
theorem stored_of_step (hs : s₁.Keeps [])
    (hstep : s₁.step setting (.persist jobId input drawn committed) = some s₂)
    (hstored : s₂.runs = run :: s₁.runs) :
    s₂.Keeps [run] ∧ run.jobId = jobId ∧ run.resultHash = input.payload ∧
      run.coverage = input.coverage ∧ run.artifactManifestHash = input.artifactManifest ∧
      run.artifactPurgedAt = none ∧
      run.status = runStatus (input.coverage.isCompleteFor input.payload.auditLevel) ∧
      setting.manifestSize input.artifactManifest ≤ artifactManifestMaxBytes := by
  obtain ⟨job, store, hlocked, hverdict, hstore, rfl, rfl⟩ := stored_by_step hstep hstored
  have hkeeps := keeps_stored hs hlocked hverdict hstore
  have hnamed := hs.identified.named _ _ (AuditWorld.get_of_lockedJob hlocked)
  exact ⟨hkeeps, hnamed, rfl, rfl, rfl, rfl, rfl, (verdict_store.1 hverdict).2.1⟩

/-- The run has its artifacts still, or never had any. -/
def ManifestKept (s : AuditWorld) (run : StoredRun) (input : PersistInput) : Prop :=
  ∀ row ∈ s.runs, row.id = run.id → row.artifactPurgedAt = none ∨ input.artifactManifest = []

/-- In every later state, a persist that repeats the result of a stored run returns the run and
changes nothing, exactly if its own checks pass, the job is not deleted and no artifacts of the run
have been purged. -/
theorem replay_returns_run_iff (h : Reaches (AuditWorld.step setting) anyStep emptyAuditWorld s₁)
    (hstep : s₁.step setting (.persist jobId input drawn committed) = some s₂)
    (hstored : s₂.runs = run :: s₁.runs)
    (hlater : Reaches (AuditWorld.step setting) anyStep s₂ s₃) (hrepeats : input'.Repeats input) :
    Replays setting s₃ jobId input' drawn' run ↔
      input'.WellTimed ∧ (Dict.get s₃.jobs jobId).isSome = true ∧
        ManifestKept s₃ run input' := by
  obtain ⟨hkeeps, rfl, hhash, hcoverage, hmanifest, hunpurged, hstatus, hsize⟩ :=
    stored_of_step (keeps_of_reaches keeps_empty h) hstep hstored
  have hids := (AuditWorld.follows_of_reaches
    ((h.tail trivial hstep).trans hlater)).ids
  have hkept := keeps_of_reaches hkeeps hlater
  cases hkept.remembered run (List.mem_singleton_self run) with
  | deleted hnone =>
    constructor
    · rintro ⟨row, t, hpersist, -⟩
      cases AuditWorld.persisted_of_persist hpersist with
      | replayed hlocked => rw [AuditWorld.get_of_lockedJob hlocked] at hnone; cases hnone
      | stored hlocked => rw [AuditWorld.get_of_lockedJob hlocked] at hnone; cases hnone
    · rintro ⟨-, hsome, -⟩
      rw [hnone] at hsome
      cases hsome
  | kept job row hjob hsettled hrow hleft =>
    have hleftId : row.id = run.id := by
      obtain rfl | ⟨now, rfl⟩ := hleft <;> rfl
    have hleftJob : row.jobId = run.jobId := by
      obtain rfl | ⟨now, rfl⟩ := hleft <;> rfl
    have hexisting : s₃.existing run.jobId = some row.toAuditRun :=
      hleftJob ▸ existing_eq hkept.identified.single hrow
    constructor
    · rintro ⟨returned, t, hpersist, -⟩
      cases AuditWorld.persisted_of_persist hpersist with
      | stored hlocked hverdict =>
        rw [hexisting] at hverdict
        cases (verdict_store.1 hverdict).2.2.1
      | replayed hlocked hverdict =>
        rw [hexisting] at hverdict
        obtain ⟨htimed, -, -, -, -, -, hrowManifest, -⟩ := verdict_replayed_iff.1 hverdict
        refine ⟨htimed, by rw [hjob]; rfl, fun other hother hid => ?_⟩
        obtain rfl := List.inj_on_of_nodup_map hids hother hrow (hid.trans hleftId.symm)
        obtain rfl | ⟨now, rfl⟩ := hleft
        · exact .inl hunpurged
        · exact .inr hrowManifest.symm
    · rintro ⟨htimed, -, hunchanged⟩
      have hlocked : s₃.lockedJob run.jobId input'.payload.workspaceId = some job := by
        rw [AuditWorld.lockedJob, hjob, Option.filter_some, if_pos]
        rw [hrepeats.payload, ← hhash, hsettled.scope]
        exact decide_eq_true rfl
      have hrowHash : row.resultHash = input'.payload := by
        rw [hrepeats.payload, ← hhash]
        obtain rfl | ⟨now, rfl⟩ := hleft <;> rfl
      have hrowCoverage : row.coverage = input'.coverage := by
        rw [hrepeats.coverage, ← hcoverage]
        obtain rfl | ⟨now, rfl⟩ := hleft <;> rfl
      have hrowStatus : row.status =
          runStatus (input'.coverage.isCompleteFor input'.payload.auditLevel) := by
        rw [hrepeats.coverage, hrepeats.payload, ← hstatus]
        obtain rfl | ⟨now, rfl⟩ := hleft <;> rfl
      have hrowManifest : row.artifactManifestHash = input'.artifactManifest := by
        have hrowKept := hunchanged row hrow hleftId
        obtain rfl | ⟨now, rfl⟩ := hleft
        · rw [hrepeats.artifactManifest, ← hmanifest]
        · rcases hrowKept with hnone | hempty
          · cases hnone
          · exact hempty.symm
      have hscope : job.scope = input'.payload.scope := by
        rw [hrepeats.payload, ← hhash]
        exact hsettled.scope
      have hverdict : persistVerdict setting.manifestSize job (some row.toAuditRun) input' =
          .replayed row.toAuditRun (job.finishFromRun row.toAuditRun) :=
        verdict_replayed_iff.2 ⟨htimed, hscope, hsettled.uncancelled,
          hrepeats.artifactManifest ▸ hsize, hrowHash, hrowCoverage, hrowManifest, hrowStatus, rfl,
          rfl⟩
      refine ⟨row.toAuditRun, { s₃ with
        jobs := Dict.set s₃.jobs run.jobId (job.finishFromRun row.toAuditRun) }, ?_, hleftId, rfl,
          rfl⟩
      rw [AuditWorld.persist, checkPersist_ok.2 htimed]
      simp only [hlocked, hexisting, hverdict]
      rfl

end replay

def sampleArtifact : Artifact :=
  ⟨.report, Str.of "repository-intelligence/report-1", List.replicate 64 48, 1⟩

def reportedInput : PersistInput :=
  { sampleInput "standard" emptyResult 6 with artifactManifest := [sampleArtifact] }

/-- Past the retention of its artifacts, the deletion of the run's report is confirmed. -/
theorem purged_report : ∃ s₁ s₂ s₃ run,
    Reaches (AuditWorld.step sampleSetting) anyStep emptyAuditWorld s₁ ∧
      s₁.step sampleSetting (.persist (sampleId 1) reportedInput (sampleDrawn 1) false) =
        some s₂ ∧
      s₂.runs = run :: s₁.runs ∧ Reaches (AuditWorld.step sampleSetting) anyStep s₂ s₃ ∧
        (s₃.persist sampleSetting (sampleId 1) reportedInput (sampleDrawn 2)).toOption.isNone =
          true := by
  have hrun : (exec (AuditWorld.step sampleSetting) emptyAuditWorld
      (sampleRegister :: startedJob 1 "standard")).any (fun s₁ =>
        (s₁.step sampleSetting
          (.persist (sampleId 1) reportedInput (sampleDrawn 1) false)).any fun s₂ =>
            s₂.runs.head?.any fun run => s₂.runs == run :: s₁.runs &&
              (exec (AuditWorld.step sampleSetting) s₂
                [.confirmDeleted (sampleId 1) (seconds (31 * 86400))]).any fun s₃ =>
                  (s₃.persist sampleSetting (sampleId 1) reportedInput
                    (sampleDrawn 2)).toOption.isNone) = true := by
    decide +kernel
  obtain ⟨s₁, hs₁, hend⟩ := (Option.any_eq_true _ _).1 hrun
  obtain ⟨s₂, hs₂, hend⟩ := (Option.any_eq_true _ _).1 hend
  obtain ⟨run, -, hend⟩ := (Option.any_eq_true _ _).1 hend
  obtain ⟨hstored, hend⟩ := Bool.and_eq_true_iff.1 hend
  obtain ⟨s₃, hs₃, hrefused⟩ := (Option.any_eq_true _ _).1 hend
  exact ⟨s₁, s₂, s₃, run, reaches_of_exec hs₁, hs₂, eq_of_beq hstored, reaches_of_exec hs₃,
    hrefused⟩

theorem replay_returns_run_iff_purged : ∃ s₁ s₂ s₃ run,
    Reaches (AuditWorld.step sampleSetting) anyStep emptyAuditWorld s₁ ∧
      s₂.runs = run :: s₁.runs ∧ Reaches (AuditWorld.step sampleSetting) anyStep s₂ s₃ ∧
        (Replays sampleSetting s₃ (sampleId 1) reportedInput (sampleDrawn 2) run ↔
          reportedInput.WellTimed ∧ (Dict.get s₃.jobs (sampleId 1)).isSome = true ∧
            ManifestKept s₃ run reportedInput) := by
  obtain ⟨s₁, s₂, s₃, run, hs₁, hstep, hstored, hlater, -⟩ := purged_report
  exact ⟨s₁, s₂, s₃, run, hs₁, hstored, hlater,
    replay_returns_run_iff hs₁ hstep hstored hlater ⟨rfl, rfl, rfl⟩⟩

/-- The run is there, and yet the same result is a conflict. -/
theorem purged_run_not_replayed : ¬∀ s₁ s₂ s₃ run jobId input drawn committed drawn',
    Reaches (AuditWorld.step sampleSetting) anyStep emptyAuditWorld s₁ →
      s₁.step sampleSetting (.persist jobId input drawn committed) = some s₂ →
        s₂.runs = run :: s₁.runs → Reaches (AuditWorld.step sampleSetting) anyStep s₂ s₃ →
          Replays sampleSetting s₃ jobId input drawn' run := by
  intro hall
  obtain ⟨s₁, s₂, s₃, run, hs₁, hstep, hstored, hlater, hrefused⟩ := purged_report
  obtain ⟨row, t, hpersist, -⟩ :=
    hall s₁ s₂ s₃ run _ _ _ _ (sampleDrawn 2) hs₁ hstep hstored hlater
  rw [hpersist] at hrefused
  cases hrefused

end FounderOs.RepositoryAudit
