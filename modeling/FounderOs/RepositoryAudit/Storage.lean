import FounderOs.Headquarters.Verification
import FounderOs.RepositoryAudit.Constraints

namespace FounderOs.RepositoryAudit

open Headquarters Transition
open Execution (Instant UserId)

/-- The call goes through, or raises an error that the module declares. -/
def Declares {A : Type} (outcome : Except AuditError A) : Prop :=
  ∀ name, outcome ≠ .error (.constraint name)

section outcomes

variable {A B : Type} {outcome : Except AuditError A} {f : A → Except AuditError B}
variable {checks : List (Bool × AuditError)} {Q : A → Prop}

theorem declares_ok {a : A} : Declares (.ok a : Except AuditError A) := fun _ h => nomatch h

theorem declares_declared {errorClass : ErrorClass} {detail : String} :
    Declares (.error (.declared errorClass detail) : Except AuditError A) := fun _ h => nomatch h

theorem Declares.bind (h : Declares outcome) (hf : ∀ a, outcome = .ok a → Declares (f a)) :
    Declares (outcome >>= f) := by
  cases outcome with
  | error error => exact fun name hname => h name (congrArg _ (Except.error.inj hname))
  | ok a => exact hf a rfl

theorem declares_rejectIf {bad : Bool} {errorClass : ErrorClass} {detail : String} :
    Declares (rejectIf bad (.declared errorClass detail)) := by
  cases bad with
  | true => exact declares_declared
  | false => exact declares_ok

/-- Where nothing is rejected, the rest decides. -/
theorem declares_rejectIf_bind {bad : Bool} {errorClass : ErrorClass} {detail : String}
    {rest : Unit → Except AuditError B} :
    Declares (rejectIf bad (.declared errorClass detail) >>= rest) ↔
      (bad = false → Declares (rest ())) := by
  cases bad with
  | true => exact ⟨fun _ h => (nomatch h), fun _ => declares_declared⟩
  | false => exact ⟨fun h _ => h, fun h => h rfl⟩

/-- Where the rest declares its errors, the first part decides. -/
theorem declares_bind_iff (hf : ∀ a, outcome = .ok a → Declares (f a)) :
    Declares (outcome >>= f) ↔ Declares outcome := by
  refine ⟨fun hdeclares => ?_, fun hdeclares => hdeclares.bind hf⟩
  cases outcome with
  | ok a => exact declares_ok
  | error error => exact fun name heq => hdeclares name (congrArg _ (Except.error.inj heq))

theorem Declares.map {g : A → B} (h : Declares outcome) : Declares (outcome.map g) := by
  cases outcome with
  | ok a => exact declares_ok
  | error error => exact fun name heq => h name (congrArg _ (Except.error.inj heq))

/-- Checks of constraints alone declare nothing. -/
theorem declares_verify (h : ∀ entry ∈ checks, ∃ name, entry.2 = .constraint name) :
    Declares (verify checks) ↔ verify checks = .ok () := by
  refine ⟨fun hdeclares => ?_, fun hok => hok ▸ declares_ok⟩
  induction checks with
  | nil => rfl
  | cons entry checks ih =>
    obtain ⟨failed, error⟩ := entry
    cases failed with
    | true =>
      obtain ⟨name, hname⟩ := h _ (List.mem_cons_self ..)
      exact absurd (congrArg Except.error hname) (hdeclares name)
    | false => exact ih (fun entry hentry => h entry (List.mem_cons_of_mem _ hentry)) hdeclares

/-- A constraint that is broken stands behind a check that fails before it. -/
def Shielded (checks : List (Bool × AuditError)) : Prop :=
  ∀ first name rest, checks = first ++ (true, .constraint name) :: rest →
    ∃ entry ∈ first, entry.1 = true

theorem shielded_cons_iff {entry : Bool × AuditError} (hpassed : entry.1 = false) :
    Shielded (entry :: checks) ↔ Shielded checks := by
  constructor
  · rintro h first name rest rfl
    obtain ⟨other, hother, hfailed⟩ := h (entry :: first) name rest rfl
    rcases List.mem_cons.1 hother with rfl | hother
    · rw [hpassed] at hfailed
      cases hfailed
    · exact ⟨other, hother, hfailed⟩
  · intro h first name rest heq
    cases first with
    | nil =>
      obtain ⟨rfl, -⟩ := List.cons.inj heq
      cases hpassed
    | cons head first =>
      obtain ⟨-, rfl⟩ := List.cons.inj heq
      obtain ⟨other, hother, hfailed⟩ := h first name rest rfl
      exact ⟨other, List.mem_cons_of_mem _ hother, hfailed⟩

theorem declares_verify_iff : Declares (verify checks) ↔ Shielded checks := by
  induction checks with
  | nil => exact ⟨fun _ first name rest heq => by simp at heq, fun _ => declares_ok⟩
  | cons entry checks ih =>
    obtain ⟨failed, error⟩ := entry
    cases failed with
    | false => exact ih.trans (shielded_cons_iff rfl).symm
    | true =>
      constructor
      · intro h first name rest heq
        cases first with
        | nil =>
          obtain ⟨hentry, -⟩ := List.cons.inj heq
          exact absurd (congrArg Except.error (Prod.mk.inj hentry).2) (h name)
        | cons head first =>
          obtain ⟨rfl, -⟩ := List.cons.inj heq
          exact ⟨_, List.mem_cons_self .., rfl⟩
      · intro h name hname
        obtain rfl : error = .constraint name := Except.error.inj hname
        obtain ⟨other, hother, -⟩ := h [] name checks rfl
        cases hother

theorem Mirrors.declares_iff (h : Mirrors outcome checks Q) :
    Declares outcome ↔ Declares (verify checks) := by
  cases hverify : verify checks with
  | ok =>
    obtain ⟨a, rfl, -⟩ := h.of_ok hverify
    exact ⟨fun _ => declares_ok, fun _ => declares_ok⟩
  | error error =>
    rw [h.of_error hverify]
    exact ⟨fun hname name heq => hname name (congrArg _ (Except.error.inj heq)),
      fun hname name heq => hname name (congrArg _ (Except.error.inj heq))⟩

end outcomes

section constrained

/-- What the constraints on the columns of a scope say. -/
structure AuditScope.Constrained (scope : AuditScope) : Prop where
  metadataSnapshotId : scope.metadataSnapshotId.all (storable 255) = true
  profile : storable 80 scope.profile = true
  engineVersion : storable 80 scope.engineVersion = true
  targetShape : scope.targetShape = true
  exactDeepTarget : (scope.auditLevel == .l0 || scope.targetStatus == .exact) = true
  commitSha : scope.commitSha.all (lowerHex 40) = true
  policyHash : lowerHex 64 scope.policyHash = true

structure AnalysisJob.Constrained (job : AnalysisJob) : Prop where
  idempotencyKey : storable 128 job.idempotencyKey = true
  leaseOwner : job.leaseOwner.all (storable 64) = true
  errorCode : job.errorCode.all (storable 80) = true
  attempts : 1 ≤ job.maxAttempts ∧ job.attemptCount ≤ job.maxAttempts
  leaseShape : job.leaseOwner.isSome = job.leaseExpiresAt.isSome
  completedStatus : job.completedAt = none ∨ job.status.terminal = true
  scope : job.scope.Constrained

variable {scope : AuditScope} {job job' : AnalysisJob} {table hashes : String}

theorem scope_constraints :
    (∀ entry ∈ scope.constraints table hashes, entry.1 = false) ↔ scope.Constrained := by
  simp only [AuditScope.constraints, nullableColumn, column, check, List.forall_mem_cons,
    Bool.not_eq_eq_eq_not, Bool.not_false, List.not_mem_nil, false_implies, implies_true, and_true]
  constructor
  · rintro ⟨hsnapshot, hprofile, hengine, hshape, hdeep, hcommit, hpolicy⟩
    exact ⟨hsnapshot, hprofile, hengine, hshape, hdeep, hcommit, hpolicy⟩
  · intro h
    exact ⟨h.metadataSnapshotId, h.profile, h.engineVersion, h.targetShape, h.exactDeepTarget,
      h.commitSha, h.policyHash⟩

theorem job_constraints : verify job.constraints = .ok () ↔ job.Constrained := by
  rw [verify_ok]
  simp only [AnalysisJob.constraints, List.forall_mem_cons, scope_constraints, nullableColumn,
    column, check, Bool.not_eq_eq_eq_not, Bool.not_false, Bool.and_eq_true, decide_eq_true_eq,
    Bool.or_eq_true, beq_iff_eq, Option.isNone_iff_eq_none]
  constructor
  · rintro ⟨hkey, howner, hcode, hattempts, hlease, hcompleted, hscope⟩
    exact ⟨hkey, howner, hcode, hattempts, hlease, hcompleted, hscope⟩
  · intro h
    exact ⟨h.idempotencyKey, h.leaseOwner, h.errorCode, h.attempts, h.leaseShape,
      h.completedStatus, h.scope⟩

/-- A job that is finished holds no lease. -/
theorem AnalysisJob.Constrained.finished (h : job.Constrained)
    (hkey : job'.idempotencyKey = job.idempotencyKey) (hscope : job'.scope = job.scope)
    (hmost : job'.maxAttempts = job.maxAttempts) (hcount : job'.attemptCount = job.attemptCount)
    (howner : job'.leaseOwner = none) (hexpires : job'.leaseExpiresAt = none)
    (hcode : job'.errorCode.all (storable 80) = true) (hterminal : job'.status.terminal = true) :
    job'.Constrained where
  idempotencyKey := hkey ▸ h.idempotencyKey
  leaseOwner := by rw [howner]; rfl
  errorCode := hcode
  attempts := by rw [hmost, hcount]; exact h.attempts
  leaseShape := by rw [howner, hexpires]; rfl
  completedStatus := .inr hterminal
  scope := hscope ▸ h.scope

theorem constrained_finishFromRun (h : job.Constrained) (run : AuditRun) :
    (job.finishFromRun run).Constrained :=
  h.finished rfl rfl rfl rfl rfl rfl rfl run.status.terminal_ofJob

theorem constrained_finishCancelled (h : job.Constrained) (now : Instant) :
    (job.finishCancelled now).Constrained :=
  h.finished rfl rfl rfl rfl rfl rfl rfl rfl

theorem constrained_claim {workerId : Str} {now : Instant} {leaseSeconds : Nat} {granted : Bool}
    (h : job.Constrained) (hclaim : job.claim workerId now leaseSeconds = .ok (job', granted)) :
    job'.Constrained := by
  unfold AnalysisJob.claim at hclaim
  obtain ⟨_, hworker, hclaim⟩ := ok_of_bind_ok hclaim
  obtain ⟨_, -, hclaim⟩ := ok_of_bind_ok hclaim
  have hclaim := Except.ok.inj hclaim
  have hexhausted : storable 80 (Str.of "attempts_exhausted") = true := by decide
  split_ifs at hclaim with hterminal hcancel hearly hleased hattempts <;> cases hclaim
  · exact h
  · exact constrained_finishCancelled h now
  · exact h
  · exact h
  · exact h.finished rfl rfl rfl rfl rfl rfl hexhausted rfl
  · have hsafe : safeKey 64 workerId = true := by simpa using rejectIf_ok.1 hworker
    have hopen : job.completedAt = none := h.completedStatus.resolve_right hterminal
    exact ⟨h.idempotencyKey, storable_of_safeKey hsafe, rfl, ⟨h.attempts.1, Nat.lt_of_not_le hattempts⟩, rfl,
      .inl hopen, h.scope⟩

end constrained

/-- What is kept of a job of a repository. -/
structure AnalysisJob.Kept (repositoryId : Uuid) (job : AnalysisJob) : Prop where
  constrained : job.Constrained
  repository : job.scope.repositoryId = repositoryId

/-- Every row is as its constraints have it. -/
structure AuditWorld.Lawful (setting : Setting) (s : AuditWorld) : Prop where
  jobs : ∀ entry ∈ s.jobs, entry.2.Kept setting.repositoryId
  store : s.store.Kept setting.repositoryId

section worlds

variable {setting : Setting} {s t : AuditWorld} {jobId : Uuid} {job job' : AnalysisJob}

theorem scope_claim {workerId : Str} {now : Instant} {leaseSeconds : Nat} {granted : Bool}
    (h : job.claim workerId now leaseSeconds = .ok (job', granted)) : job'.scope = job.scope := by
  unfold AnalysisJob.claim at h
  obtain ⟨_, -, h⟩ := ok_of_bind_ok h
  obtain ⟨_, -, h⟩ := ok_of_bind_ok h
  have h := Except.ok.inj h
  split_ifs at h <;> cases h <;> rfl

theorem scope_fail {input : AnalysisJob.FailInput} (h : job.fail input = .ok job') :
    job'.scope = job.scope := by
  obtain ⟨-, -, -, rfl⟩ := fail_ok.1 h
  unfold AnalysisJob.failed
  dsimp only
  split <;> rfl

theorem scope_cancel {now : Instant} : (job.requestCancellation now).scope = job.scope := by
  unfold AnalysisJob.requestCancellation
  dsimp only
  split_ifs <;> rfl

theorem kept_of_jobStep {repositoryId : Uuid} (h : job.Kept repositoryId)
    (hstep : AuditWorld.JobStep job job') : job'.Kept repositoryId := by
  obtain ⟨hconstrained, hrepository⟩ := h
  cases hstep with
  | claimed hclaim hverify =>
    exact ⟨job_constraints.1 hverify, scope_claim hclaim ▸ hrepository⟩
  | failed hfail hverify => exact ⟨job_constraints.1 hverify, scope_fail hfail ▸ hrepository⟩
  | cancelled now hverify =>
    exact ⟨job_constraints.1 hverify, (congrArg (·.repositoryId) scope_cancel).trans hrepository⟩
  | closed now => exact ⟨constrained_finishCancelled hconstrained now, hrepository⟩
  | replayed run => exact ⟨constrained_finishFromRun hconstrained run, hrepository⟩

theorem AuditWorld.Lawful.kept (h : s.Lawful setting) (hjob : Dict.get s.jobs jobId = some job) :
    job.Kept setting.repositoryId :=
  kept_get h.jobs job hjob

theorem lawful_step {a : AuditAction} (hs : s.Lawful setting) (hstep : s.step setting a = some t) :
    t.Lawful setting := by
  cases AuditWorld.stepped_of_step hstep with
  | stayed => exact hs
  | enqueued _ _ hrepository hverify =>
    exact ⟨kept_set hs.jobs ⟨job_constraints.1 hverify, hrepository⟩, hs.store⟩
  | called hjob hcall => exact ⟨kept_set hs.jobs (kept_of_jobStep (hs.kept hjob) hcall), hs.store⟩
  | stored hlocked hverdict hstore =>
    obtain ⟨-, -, -, hawaits, -⟩ := verdict_store.1 hverdict
    have hjob := hs.kept (AuditWorld.get_of_lockedJob hlocked)
    have hrepository := (congrArg (·.repositoryId) hawaits.scope).symm.trans hjob.repository
    exact ⟨kept_set hs.jobs (kept_of_jobStep hjob (.replayed _)),
      persistRecords_keeps hstore hrepository hs.store⟩
  | purged runId now => exact ⟨hs.jobs, hs.store⟩
  | deleted => exact ⟨by rintro _ ⟨⟩, by rintro _ ⟨⟩, by rintro _ ⟨⟩, by rintro _ ⟨⟩, by rintro _ ⟨⟩⟩
  | registered =>
    exact ⟨hs.jobs, hs.store.facts, hs.store.relationships, hs.store.findings,
      hs.store.contradictions⟩

theorem lawful_of_reaches (h : Reaches (AuditWorld.step setting) anyStep emptyAuditWorld s) :
    s.Lawful setting :=
  h.invariant (P := fun s : AuditWorld => s.Lawful setting)
    (fun _ _ _ hs _ hstep => lawful_step hs hstep)
    ⟨by rintro _ ⟨⟩, by rintro _ ⟨⟩, by rintro _ ⟨⟩, by rintro _ ⟨⟩, by rintro _ ⟨⟩⟩

end worlds

/-- What the contract leaves open of the job of a request. -/
structure AnalysisRequest.Storable (request : AnalysisRequest) : Prop where
  targetShape : request.scope.targetShape = true
  metadataSnapshotId :
    request.analysisTarget.metadataSnapshotId.all (fun text => !text.contains 0) = true

section calls

variable {Digest : Type} {rules : EvidenceRules Digest}
variable {setting : Setting} {s : AuditWorld} {id jobId : Uuid} {job : AnalysisJob}
variable {request : AnalysisRequest} {requestedBy : UserId} {admin : Bool} {now : Instant}

theorem constrained_queued (hvalid : request.valid = true) :
    (AnalysisJob.queued id request requestedBy now).Constrained ↔ request.Storable := by
  simp only [AnalysisRequest.valid, AnalysisTarget.valid, Bool.and_eq_true, decide_eq_true_eq,
    and_assoc] at hvalid
  obtain ⟨-, -, hkey, hcommit, hsnapshot, -, -, hprofile, hpolicy, hengine, hengineSafe, hleast, -,
    hdeep⟩ := hvalid
  constructor
  · intro h
    refine ⟨h.scope.targetShape, ?_⟩
    have hall := h.scope.metadataSnapshotId
    change request.analysisTarget.metadataSnapshotId.all (storable 255) = true at hall
    cases htext : request.analysisTarget.metadataSnapshotId with
    | none => rfl
    | some text =>
      rw [htext, Option.all_some] at hall
      exact (Bool.and_eq_true_iff.1 hall).2
  · rintro ⟨hshape, hzero⟩
    refine ⟨storable_of_safeKey hkey, rfl, rfl, ⟨hleast, Nat.zero_le _⟩, rfl, .inl rfl, ?_,
      storable_of_profile hprofile, storable_of_safe hengine hengineSafe, hshape, hdeep, hcommit,
      hpolicy⟩
    change request.analysisTarget.metadataSnapshotId.all (storable 255) = true
    cases htext : request.analysisTarget.metadataSnapshotId with
    | none => rfl
    | some text =>
      rw [htext, Option.all_some] at hsnapshot hzero
      exact Bool.and_eq_true_iff.2 ⟨(Bool.and_eq_true_iff.1 hsnapshot).2, hzero⟩

theorem constraints_of_job :
    ∀ entry ∈ job.constraints, ∃ name, entry.2 = AuditError.constraint name := by
  simp [AnalysisJob.constraints, AuditScope.constraints, column, nullableColumn, check]

/-- A request that comes to be stored has a job that can be. -/
theorem enqueue_declares_iff (hvalid : request.valid = true) :
    Declares (s.enqueue id request requestedBy admin now) ↔
      (admin = true → s.store.workspace.repositories.contains request.repositoryId = true →
        s.jobs.find? (·.2.idempotencyKey = request.idempotencyKey) = none →
          request.Storable) := by
  unfold AuditWorld.enqueue
  refine declares_rejectIf_bind.trans (imp_congr (by simp) ?_)
  refine declares_rejectIf_bind.trans (imp_congr (by simp) ?_)
  cases hfind : s.jobs.find? (·.2.idempotencyKey = request.idempotencyKey) with
  | some entry =>
    have hdeclares : Declares (rejectIf
        (entry.2.requestHash ≠ { request with idempotencyKey := [] })
        (conflictError "analysis idempotency key was reused with different input") >>= fun _ =>
          .ok (entry.2, s)) :=
      declares_rejectIf.bind fun _ _ => declares_ok
    exact ⟨fun _ hnone => (nomatch hnone), fun _ => hdeclares⟩
  | none =>
    refine (declares_bind_iff fun _ _ => declares_ok).trans ((declares_verify constraints_of_job).trans ?_)
    rw [job_constraints, constrained_queued hvalid]
    exact ⟨fun hstorable _ => hstorable, fun hstorable => hstorable rfl⟩

theorem claim_declares {workerId : Str} {leaseSeconds : Nat} (hs : s.Lawful setting) :
    Declares (s.claim jobId workerId now leaseSeconds) := by
  unfold AuditWorld.claim AuditWorld.change
  cases hjob : Dict.get s.jobs jobId with
  | none => exact declares_declared
  | some job =>
    have hclaim : Declares (job.claim workerId now leaseSeconds) :=
      declares_rejectIf.bind fun _ _ => declares_rejectIf.bind fun _ _ => declares_ok
    refine hclaim.map.bind fun job' hok => ?_
    obtain ⟨both, hboth, rfl⟩ := map_eq_ok hok
    rw [job_constraints.2 (constrained_claim (hs.kept hjob).constrained hboth)]
    exact declares_ok

/-- The ids that are drawn for a persist are not in use. -/
structure Drawn.Fresh (drawn : Drawn) (s : AuditWorld) (result : AnalyzerResult) : Prop where
  runId : ∀ run ∈ s.runs, run.id ≠ drawn.runId
  sourceRecordId : s.store.workspace.sourceRecords.contains drawn.sourceRecordId = false
  evidence : FreshDraws drawn.evidence s.store.workspace result.references

instance (drawn : Drawn) (s : AuditWorld) (result : AnalyzerResult) :
    Decidable (drawn.Fresh s result) :=
  decidable_of_iff ((∀ run ∈ s.runs, run.id ≠ drawn.runId) ∧
    s.store.workspace.sourceRecords.contains drawn.sourceRecordId = false ∧
      FreshDraws drawn.evidence s.store.workspace result.references)
    ⟨fun h => ⟨h.1, h.2.1, h.2.2⟩, fun h => ⟨h.runId, h.sourceRecordId, h.evidence⟩⟩

variable {input : PersistInput} {drawn : Drawn} {manifestSize : List Artifact → Nat}
variable {existing : Option AuditRun} {error : AuditError}

theorem declared_of_refused (h : persistVerdict manifestSize job existing input = .refused error) :
    ∃ errorClass detail, error = .declared errorClass detail := by
  unfold persistVerdict at h
  cases existing with
  | none =>
    dsimp only at h
    split_ifs at h <;> cases h <;> exact ⟨_, _, rfl⟩
  | some run =>
    dsimp only at h
    split_ifs at h <;> cases h <;> exact ⟨_, _, rfl⟩

theorem jobId_ne_of_existing (h : s.existing jobId = none) :
    s.runs.any (fun run => run.jobId = jobId) = false := by
  have hfind := Option.map_eq_none_iff.1 h
  simpa using List.find?_eq_none.1 hfind

theorem accepted_payload {payload : RepositoryIntelligence} (h : payload.valid rules = true) :
    payload.result.Accepted := by
  simp only [RepositoryIntelligence.valid, Bool.and_eq_true, and_assoc] at h
  obtain ⟨-, -, -, -, -, -, -, -, hresult, -⟩ := h
  exact accepted_result hresult

/-- What the run of a job brings to the table of runs. -/
theorem run_constraints (hjob : job.Constrained) (hid : job.id = jobId)
    (hverdict : persistVerdict manifestSize job (s.existing jobId) input = .store)
    (hfresh : drawn.Fresh s input.payload.result) :
    verify ((StoredRun.ofInput drawn job input).constraints s.runs s.store.workspace) =
      .ok () := by
  obtain ⟨htimed, -, hexisting, hawaits, -⟩ := verdict_store.1 hverdict
  have hscope : input.payload.scope.Constrained := hawaits.scope ▸ hjob.scope
  have hruns : s.runs.any (fun run => run.id = drawn.runId) = false := by
    simpa using hfresh.runId
  have hjobs : s.runs.any (fun run => run.jobId = job.id) = false :=
    hid ▸ jobId_ne_of_existing hexisting
  have hreconciled : (!input.coverage.isCompleteFor input.payload.auditLevel ||
      runStatus (input.coverage.isCompleteFor input.payload.auditLevel) = .succeeded) = true := by
    cases input.coverage.isCompleteFor input.payload.auditLevel <;> rfl
  rw [verify_ok]
  simp only [StoredRun.constraints, List.forall_mem_cons, scope_constraints, check]
  refine ⟨?_, ?_, ?_, ?_, ?_, hscope⟩
  · exact congrArg (fun b => !!b) hfresh.sourceRecordId
  · exact congrArg (fun b => !!b) hruns
  · exact congrArg (fun b => !!b) hjobs
  · exact congrArg (!·) (decide_eq_true htimed.order)
  · exact congrArg (!·) hreconciled

theorem persist_of_store (hlocked : s.lockedJob jobId input.payload.workspaceId = some job)
    (hverdict : persistVerdict setting.manifestSize job (s.existing jobId) input = .store) :
    s.persist setting jobId input drawn =
      persistRecords s.store s.runs (StoredRun.ofInput drawn job input) drawn.evidence >>=
        fun store => verify (job.finishFromRun
            (StoredRun.ofInput drawn job input).toAuditRun).constraints >>= fun _ =>
          .ok ((StoredRun.ofInput drawn job input).toAuditRun, { s with
            jobs := Dict.set s.jobs jobId
              (job.finishFromRun (StoredRun.ofInput drawn job input).toAuditRun)
            runs := StoredRun.ofInput drawn job input :: s.runs
            store := store }) := by
  rw [AuditWorld.persist, checkPersist_ok.2 (verdict_store.1 hverdict).1]
  simp only [hlocked, hverdict]
  rfl

/-- Where nothing is to be stored, the module declares what it raises. -/
theorem declares_persist (hnot : ∀ job, s.lockedJob jobId input.payload.workspaceId = some job →
    persistVerdict setting.manifestSize job (s.existing jobId) input ≠ .store) :
    Declares (s.persist setting jobId input drawn) := by
  have hchecked : Declares (AuditWorld.checkPersist input) :=
    declares_rejectIf.bind fun _ _ => declares_rejectIf
  unfold AuditWorld.persist
  refine hchecked.bind fun _ _ => ?_
  cases hlocked : s.lockedJob jobId input.payload.workspaceId with
  | none => exact declares_declared
  | some job =>
    dsimp only
    cases hverdict : persistVerdict setting.manifestSize job (s.existing jobId) input with
    | refused error =>
      obtain ⟨errorClass, detail, rfl⟩ := declared_of_refused hverdict
      exact declares_declared
    | cancelled job' => exact declares_declared
    | replayed run job' => exact declares_ok
    | store => exact absurd hverdict (hnot job hlocked)

/-- The checks on the payload decide what becomes of a run that is to be stored. -/
theorem persist_declares_iff (h : Reaches (AuditWorld.step setting) anyStep emptyAuditWorld s)
    (hvalid : input.payload.valid rules = true) (hfresh : drawn.Fresh s input.payload.result) :
    Declares (s.persist setting jobId input drawn) ↔
      ∀ job, s.lockedJob jobId input.payload.workspaceId = some job →
        persistVerdict setting.manifestSize job (s.existing jobId) input = .store →
          Shielded (input.payload.result.checks
            (s.store.workspace.withRun (StoredRun.ofInput drawn job input))
            (StoredRun.ofInput drawn job input)) := by
  by_cases hstore : ∃ job, s.lockedJob jobId input.payload.workspaceId = some job ∧
      persistVerdict setting.manifestSize job (s.existing jobId) input = .store
  case neg =>
    refine ⟨fun _ job hlocked hverdict => absurd ⟨job, hlocked, hverdict⟩ hstore, fun _ => ?_⟩
    exact declares_persist fun job hlocked hverdict => hstore ⟨job, hlocked, hverdict⟩
  obtain ⟨job, hlocked, hverdict⟩ := hstore
  have hkept := (lawful_of_reaches h).kept (AuditWorld.get_of_lockedJob hlocked)
  have hnamed := (keeps_of_reaches keeps_empty h).identified.named _ _ (AuditWorld.get_of_lockedJob hlocked)
  have hscope : job.scope = input.payload.scope := (verdict_store.1 hverdict).2.2.2.1.scope
  have hrepository : input.payload.scope.repositoryId = setting.repositoryId :=
    (congrArg (·.repositoryId) hscope).symm.trans hkept.repository
  have hdraws : FreshDraws drawn.evidence
      (s.store.workspace.withRun (StoredRun.ofInput drawn job input))
      input.payload.result.references :=
    ⟨hfresh.evidence.distinct, hfresh.evidence.unused, hfresh.evidence.unmentioned⟩
  have hmirrors := persistRecords_mirrors
    (run_constraints hkept.constrained hnamed hverdict hfresh)
    (AuditWorld.follows_of_reaches h).evidence (hrepository ▸ (lawful_of_reaches h).store)
    (accepted_payload hvalid) hdraws
  have hchecks := hmirrors.declares_iff.trans declares_verify_iff
  have hfinished := job_constraints.2 (constrained_finishFromRun hkept.constrained
    (StoredRun.ofInput drawn job input).toAuditRun)
  rw [persist_of_store hlocked hverdict]
  refine (declares_bind_iff fun store _ => ?_).trans (hchecks.trans ⟨?_, ?_⟩)
  · rw [hfinished]
    exact declares_ok
  · intro hshielded found hfound _
    obtain rfl := Option.some.inj (hlocked.symm.trans hfound)
    exact hshielded
  · intro hall
    exact hall job hlocked hverdict

/-- In every reachable state, a claim ends in no violation of a constraint; an enqueue exactly if
what it comes to insert has the shape of its target and a snapshot id without a zero character; a
persist exactly if, once it is to store, each constraint that its payload breaks stands behind a
check that fails before it. -/
theorem accepted_stored_iff {claimedId : Uuid} {workerId : Str} {claimedAt : Instant}
    {leaseSeconds : Nat}
    (h : Reaches (AuditWorld.step setting) anyStep emptyAuditWorld s)
    (hrequest : request.valid = true) (hpayload : input.payload.valid rules = true)
    (hfresh : drawn.Fresh s input.payload.result) :
    (Declares (s.enqueue id request requestedBy admin now) ↔
      (admin = true → s.store.workspace.repositories.contains request.repositoryId = true →
        s.jobs.find? (·.2.idempotencyKey = request.idempotencyKey) = none →
          request.Storable)) ∧
    Declares (s.claim claimedId workerId claimedAt leaseSeconds) ∧
    (Declares (s.persist setting jobId input drawn) ↔
      ∀ job, s.lockedJob jobId input.payload.workspaceId = some job →
        persistVerdict setting.manifestSize job (s.existing jobId) input = .store →
          Shielded (input.payload.result.checks
            (s.store.workspace.withRun (StoredRun.ofInput drawn job input))
            (StoredRun.ofInput drawn job input))) :=
  ⟨enqueue_declares_iff hrequest, claim_declares (lawful_of_reaches h),
    persist_declares_iff h hpayload hfresh⟩

end calls

/-- An unavailable target that names no snapshot. -/
def bareRequest : AnalysisRequest :=
  { sampleJobRequest 4 "standard" with analysisTarget := ⟨.unavailable, none, none, none⟩ }

def citedFile (ref : String) : EvidenceRefV1 :=
  ⟨.repositoryFile, .github, some (sampleId 6), none, none, some (Str.of ref), none, none⟩

/-- Two references to one row of evidence. -/
def repeatedEvidence : AnalyzerResult :=
  { emptyResult with
    purpose :=
      { emptyResult.purpose with
        status := .observed
        evidenceRefs := [citedFile "a", citedFile "b"]
        summary := some (Str.of "app")
        repositoryType := .library } }

def ownReference (externalId : String) : RepositoryReference :=
  ⟨sampleWorkspace, some sampleRepository, Str.of externalId, Str.of "acme/app", .canonical⟩

/-- A relationship of the repository to itself, under another external id. -/
def selfEdge : Relationship where
  workspaceId := sampleWorkspace
  status := .observed
  confidence := 1
  evidenceRefs := [citedFile "a"]
  contradictingEvidenceRefs := []
  relationshipId := Str.of "edge"
  fromRepository := ownReference "7"
  toRepository := ownReference "8"
  relationshipType := .tests
  summary := none

def selfRelated : AnalyzerResult := { emptyResult with relationshipCandidates := [selfEdge] }

/-- A job is running, and there is a row of evidence. -/
def citingRun : List AuditAction :=
  .register [sampleRepository] [sampleId 5] ::
    .insertEvidence ⟨sampleId 6, sampleId 5, none, none, none⟩ :: startedJob 1 "standard"

def sampleDraws : Drawn := ⟨sampleId 2, sampleId 3, sampleId⟩

def violated {A : Type} : Except AuditError A → Option String
  | .error (.constraint name) => some name
  | _ => none

theorem eq_of_violated {A : Type} {outcome : Except AuditError A} {name : String}
    (h : violated outcome = some name) : outcome = .error (.constraint name) := by
  unfold violated at h
  split at h
  · rw [Option.some.inj h]
  · cases h

/-- The calls on one world that the contract lets through and the constraints do not. -/
theorem citing_world : ∃ s, Reaches (AuditWorld.step sampleSetting) anyStep emptyAuditWorld s ∧
    sampleDraws.Fresh s repeatedEvidence ∧ sampleDraws.Fresh s selfRelated ∧
    s.enqueue (sampleId 4) bareRequest 7 true 0 =
      .error (.constraint "ck_repository_analysis_jobs_target_shape") ∧
    s.persist sampleSetting (sampleId 1) (sampleInput "standard" repeatedEvidence 6) sampleDraws =
      .error (.constraint "uq_repository_evidence_links_fact") ∧
    s.persist sampleSetting (sampleId 1) (sampleInput "standard" selfRelated 6) sampleDraws =
      .error (.constraint "ck_repository_relationships_no_self_edge") := by
  have hrun : (exec (AuditWorld.step sampleSetting) emptyAuditWorld citingRun).any (fun s =>
      decide (sampleDraws.Fresh s repeatedEvidence) && (decide (sampleDraws.Fresh s selfRelated) &&
      (violated (s.enqueue (sampleId 4) bareRequest 7 true 0) ==
        some "ck_repository_analysis_jobs_target_shape" &&
      (violated (s.persist sampleSetting (sampleId 1)
        (sampleInput "standard" repeatedEvidence 6) sampleDraws) ==
          some "uq_repository_evidence_links_fact" &&
      violated (s.persist sampleSetting (sampleId 1)
        (sampleInput "standard" selfRelated 6) sampleDraws) ==
          some "ck_repository_relationships_no_self_edge")))) = true := by
    rfl
  obtain ⟨s, hs, hend⟩ := (Option.any_eq_true _ _).1 hrun
  obtain ⟨hrepeated, hend⟩ := Bool.and_eq_true_iff.1 hend
  obtain ⟨hrelated, hend⟩ := Bool.and_eq_true_iff.1 hend
  obtain ⟨henqueue, hend⟩ := Bool.and_eq_true_iff.1 hend
  obtain ⟨hlinks, hedge⟩ := Bool.and_eq_true_iff.1 hend
  exact ⟨s, reaches_of_exec hs, of_decide_eq_true hrepeated, of_decide_eq_true hrelated,
    eq_of_violated (eq_of_beq henqueue), eq_of_violated (eq_of_beq hlinks),
    eq_of_violated (eq_of_beq hedge)⟩

theorem repeatedEvidence_valid :
    (sampleInput "standard" repeatedEvidence 6).payload.valid asciiRules = true := rfl

theorem selfRelated_valid :
    (sampleInput "standard" selfRelated 6).payload.valid asciiRules = true := rfl

theorem bareRequest_valid : bareRequest.valid = true := rfl

theorem accepted_stored_iff_citing :
    ∃ s, Reaches (AuditWorld.step sampleSetting) anyStep emptyAuditWorld s ∧
      (Declares (s.enqueue (sampleId 4) bareRequest 7 true 0) ↔
        (true = true →
          s.store.workspace.repositories.contains bareRequest.repositoryId = true →
            s.jobs.find? (·.2.idempotencyKey = bareRequest.idempotencyKey) = none →
              bareRequest.Storable)) ∧
      Declares (s.claim (sampleId 1) sampleWorker 6 60) ∧
      (Declares (s.persist sampleSetting (sampleId 1) (sampleInput "standard" repeatedEvidence 6)
          sampleDraws) ↔
        ∀ job, s.lockedJob (sampleId 1) sampleWorkspace = some job →
          persistVerdict sampleSetting.manifestSize job (s.existing (sampleId 1))
              (sampleInput "standard" repeatedEvidence 6) = .store →
            Shielded (repeatedEvidence.checks (s.store.workspace.withRun
                (StoredRun.ofInput sampleDraws job (sampleInput "standard" repeatedEvidence 6)))
              (StoredRun.ofInput sampleDraws job (sampleInput "standard" repeatedEvidence 6)))) := by
  obtain ⟨s, hs, hfresh, -⟩ := citing_world
  exact ⟨s, hs, accepted_stored_iff hs bareRequest_valid repeatedEvidence_valid hfresh⟩

/-- An unavailable target without a snapshot, a row of evidence that is cited twice, and a
relationship of the repository to itself all meet the contract. -/
theorem accepted_violates_constraints :
    (¬∀ s, Reaches (AuditWorld.step sampleSetting) anyStep emptyAuditWorld s →
      ∀ id request requestedBy admin now, request.valid = true →
        s.enqueue id request requestedBy admin now ≠
          .error (.constraint "ck_repository_analysis_jobs_target_shape")) ∧
    (¬∀ s, Reaches (AuditWorld.step sampleSetting) anyStep emptyAuditWorld s →
      ∀ jobId input drawn, input.payload.valid asciiRules = true →
        drawn.Fresh s input.payload.result → s.persist sampleSetting jobId input drawn ≠
          .error (.constraint "uq_repository_evidence_links_fact")) ∧
    (¬∀ s, Reaches (AuditWorld.step sampleSetting) anyStep emptyAuditWorld s →
      ∀ jobId input drawn, input.payload.valid asciiRules = true →
        drawn.Fresh s input.payload.result → s.persist sampleSetting jobId input drawn ≠
          .error (.constraint "ck_repository_relationships_no_self_edge")) := by
  obtain ⟨s, hs, hrepeated, hrelated, henqueue, hlinks, hedge⟩ := citing_world
  exact ⟨fun hall => hall s hs _ _ _ _ _ bareRequest_valid henqueue,
    fun hall => hall s hs _ _ _ repeatedEvidence_valid hrepeated hlinks,
    fun hall => hall s hs _ _ _ selfRelated_valid hrelated hedge⟩

end FounderOs.RepositoryAudit
