import FounderOs.Foundation.Outcome
import FounderOs.Foundation.Transition
import FounderOs.RepositoryAudit.Job

namespace FounderOs.RepositoryAudit

open Headquarters Transition
open Execution (Instant UserId)

/-- One job with the runs that are stored for it. `grants` is history: the worker of each claim that
was granted, whose place in the list numbers the attempt. -/
structure JobWorld where
  job : Option AnalysisJob
  runs : List AuditRun
  grants : List Str

def emptyJobWorld : JobWorld := ⟨none, [], []⟩

/-- Each call is one transaction under the lock of the row. `attempt` is the attempt that a call is
made on behalf of, if any. A persist that stores its result may still fail, and is then rolled back;
one that raises after it has cancelled the job may be committed by its caller all the same. -/
inductive JobAction where
  | create (id : Uuid) (request : AnalysisRequest) (requestedBy : UserId) (now : Instant)
  | claim (workerId : Str) (now : Instant) (leaseSeconds : Nat)
  | fail (attempt : Option Nat) (input : AnalysisJob.FailInput)
  | cancel (now : Instant)
  | persist (attempt : Option Nat) (input : PersistInput) (stored : Option Uuid)
      (committed : Bool)

section steps

variable (manifestSize : List Artifact → Nat) (s : JobWorld)

/-- The caller has the name of the attempt it speaks for. -/
def JobWorld.speaksFor (attempt : Option Nat) (workerId : Str) : Bool :=
  attempt.all fun n => s.grants[n]? = some workerId

def JobWorld.existing : Option AuditRun := s.runs.head?

def persistStep (job : AnalysisJob) (input : PersistInput) (stored : Option Uuid)
    (committed : Bool) : JobWorld :=
  match persistVerdict manifestSize job s.existing input with
  | .refused _ => s
  | .cancelled job => if committed then { s with job := some job } else s
  | .replayed _ job => { s with job := some job }
  | .store =>
    match stored with
    | none => s
    | some id =>
      let run := AuditRun.ofInput id job input
      { s with job := some (job.finishFromRun run), runs := s.runs ++ [run] }

def step : JobAction → Option JobWorld
  | .create id request requestedBy now =>
    match s.job with
    | none => some { s with job := some (.queued id request requestedBy now) }
    | some _ => some s
  | .claim workerId now leaseSeconds =>
    match s.job with
    | none => some s
    | some job =>
      match job.claim workerId now leaseSeconds with
      | .error _ => some s
      | .ok (job, granted) =>
        some { s with
          job := some job
          grants := if granted then s.grants ++ [workerId] else s.grants }
  | .fail attempt input =>
    if s.speaksFor attempt input.workerId then
      match s.job with
      | none => some s
      | some job =>
        match job.fail input with
        | .error _ => some s
        | .ok job => some { s with job := some job }
    else none
  | .cancel now => some { s with job := s.job.map (·.requestCancellation now) }
  | .persist attempt input stored committed =>
    if s.speaksFor attempt input.workerId then
      match s.job with
      | none => some s
      | some job => some (persistStep manifestSize s job input stored committed)
    else none

end steps

/-- The attempt that a call is made on behalf of. -/
def JobAction.attempt : JobAction → Option Nat
  | .fail attempt _ => attempt
  | .persist attempt _ _ _ => attempt
  | _ => none

/-- A later claim was granted. -/
def JobWorld.superseded (s : JobWorld) (attempt : Option Nat) : Bool :=
  attempt.any fun n => n + 1 < s.grants.length

/-- What a step is to leave alone: a terminal status, and for a superseded attempt the stored runs
and, unless a cancellation is pending, the status. -/
structure SafeStep (s : JobWorld) (a : JobAction) (t : JobWorld) : Prop where
  terminal : ∀ job, s.job = some job → job.status.terminal = true →
    ∃ job', t.job = some job' ∧ job'.status = job.status
  runs : s.superseded a.attempt = true → t.runs = s.runs
  fenced : s.superseded a.attempt = true → ∀ job, s.job = some job →
    ∃ job', t.job = some job' ∧ (job'.status = job.status ∨
      job.cancelRequestedAt.isSome = true ∧ job'.status = .cancelled)

/-- The job has no outcome yet, and is the one that the payload is for. -/
structure AnalysisJob.Awaits (job : AnalysisJob) (payload : RepositoryIntelligence) : Prop where
  running : job.status = .running
  scope : job.scope = payload.scope
  uncancelled : job.cancelRequestedAt = none

/-- The checks of a persist on its own arguments. -/
structure PersistInput.WellTimed (input : PersistInput) : Prop where
  worker : safeKey 64 input.workerId = true
  order : input.startedAt ≤ input.completedAt

/-- A call that goes through on behalf of a superseded attempt does not bear the name of the worker
that was granted the last claim, and no persist on a job that has failed while its cancellation was
pending is committed. -/
def Keeps (manifestSize : List Artifact → Nat) (s : JobWorld) : JobAction → Prop
  | .fail attempt input =>
    s.superseded attempt = true → input.check = .ok () →
      ∀ job, s.job = some job → job.status = .running → s.grants.getLast? ≠ some input.workerId
  | .persist attempt input stored committed =>
    (s.superseded attempt = true → stored.isSome = true → input.WellTimed →
      manifestSize input.artifactManifest ≤ artifactManifestMaxBytes →
        ∀ job, s.job = some job → job.Awaits input.payload →
          s.grants.getLast? ≠ some input.workerId) ∧
    (committed = true → input.WellTimed → ∀ job, s.job = some job →
      job.scope = input.payload.scope → job.cancelRequestedAt.isSome = true →
        job.status ≠ .failed)
  | _ => True

section operations

variable {job job' : AnalysisJob} {workerId : Str} {now : Instant} {leaseSeconds : Nat}
variable {granted : Bool}

theorem rejectIf_ok {bad : Bool} {error : AuditError} :
    rejectIf bad error = .ok () ↔ bad = false := by
  cases bad <;> simp [rejectIf]

/-- What a claim can do to a job. -/
inductive Claimed (job : AnalysisJob) (workerId : Str) : AnalysisJob → Bool → Prop
  | turnedAway : Claimed job workerId job false
  | closed {job' : AnalysisJob} : job.status.terminal = false →
      (job'.status = .cancelled ∨ job'.status = .failed) → job'.attemptCount = job.attemptCount →
        job'.maxAttempts = job.maxAttempts → Claimed job workerId job' false
  | granted {job' : AnalysisJob} : job.status.terminal = false → job.cancelRequestedAt = none →
      job.attemptCount < job.maxAttempts → job'.status = .running →
        job'.attemptCount = job.attemptCount + 1 → job'.maxAttempts = job.maxAttempts →
          job'.leaseOwner = some workerId → Claimed job workerId job' true

theorem claimed_of_claim (h : job.claim workerId now leaseSeconds = .ok (job', granted)) :
    Claimed job workerId job' granted := by
  unfold AnalysisJob.claim at h
  obtain ⟨_, -, h⟩ := ok_of_bind_ok h
  obtain ⟨_, -, h⟩ := ok_of_bind_ok h
  have h := Except.ok.inj h
  split at h
  · cases h
    exact .turnedAway
  · rename_i hopen
    have hopen := Bool.eq_false_iff.2 hopen
    split at h
    · cases h
      exact .closed hopen (.inl rfl) rfl rfl
    · rename_i huncancelled
      split at h
      · cases h
        exact .turnedAway
      · split at h
        · cases h
          exact .turnedAway
        · split at h
          · cases h
            exact .closed hopen (.inr rfl) rfl rfl
          · rename_i hleft
            cases h
            exact .granted hopen (Option.not_isSome_iff_eq_none.1 huncancelled)
              (Nat.lt_of_not_le hleft) rfl rfl rfl rfl

theorem fail_ok {input : AnalysisJob.FailInput} : job.fail input = .ok job' ↔
    input.check = .ok () ∧ job.status = .running ∧ job.leaseOwner = some input.workerId ∧
      job' = job.failed input := by
  unfold AnalysisJob.fail
  constructor
  · intro h
    obtain ⟨_, hcheck, h⟩ := ok_of_bind_ok h
    obtain ⟨_, hrunning, h⟩ := ok_of_bind_ok h
    obtain ⟨_, howner, h⟩ := ok_of_bind_ok h
    exact ⟨hcheck, by simpa using rejectIf_ok.1 hrunning, by simpa using rejectIf_ok.1 howner,
      (Except.ok.inj h).symm⟩
  · rintro ⟨hcheck, hrunning, howner, rfl⟩
    rw [hcheck, rejectIf_ok.2 (by simpa using hrunning), rejectIf_ok.2 (by simpa using howner)]
    rfl

theorem failed_status (job : AnalysisJob) (input : AnalysisJob.FailInput) :
    (job.failed input).status = .queued ∨ (job.failed input).status = .failed := by
  unfold AnalysisJob.failed
  dsimp only
  split
  · exact .inl rfl
  · exact .inr rfl

theorem failed_same (job : AnalysisJob) (input : AnalysisJob.FailInput) :
    (job.failed input).attemptCount = job.attemptCount ∧
      (job.failed input).maxAttempts = job.maxAttempts ∧
        (job.failed input).cancelRequestedAt = job.cancelRequestedAt := by
  unfold AnalysisJob.failed
  dsimp only
  split <;> exact ⟨rfl, rfl, rfl⟩

theorem requestCancellation_cases (job : AnalysisJob) (now : Instant) :
    job.requestCancellation now = job ∨
    (job.status.terminal = false ∧ (job.requestCancellation now).attemptCount = job.attemptCount ∧
      (job.requestCancellation now).maxAttempts = job.maxAttempts ∧
      ((job.requestCancellation now).status = .cancelled ∨
        (job.requestCancellation now).status = .running ∧ job.status = .running ∧
          (job.requestCancellation now).leaseOwner = job.leaseOwner)) := by
  unfold AnalysisJob.requestCancellation
  split
  · exact .inl rfl
  · rename_i hopen
    refine .inr ⟨Bool.eq_false_iff.2 hopen, ?_⟩
    dsimp only
    split
    · exact ⟨rfl, rfl, .inl rfl⟩
    · rename_i hqueued
      have hrunning : job.status = .running := by
        cases hstatus : job.status <;> simp_all [JobStatus.terminal]
      exact ⟨rfl, rfl, .inr ⟨hrunning, hrunning, rfl⟩⟩

section verdict

variable {manifestSize : List Artifact → Nat} {existing : Option AuditRun} {input : PersistInput}
variable {run : AuditRun}

theorem verdict_cancelled :
    persistVerdict manifestSize job existing input = .cancelled job' ↔
      input.WellTimed ∧ job.scope = input.payload.scope ∧ job.cancelRequestedAt.isSome = true ∧
        job' = job.finishCancelled input.completedAt := by
  constructor
  · intro h
    unfold persistVerdict at h
    cases existing with
    | some run =>
      dsimp only at h
      split_ifs at h with hworker horder hscope hcancel
      exact ⟨⟨by simpa using hworker, Nat.le_of_not_lt horder⟩, not_not.1 hscope, hcancel,
        (PersistVerdict.cancelled.inj h).symm⟩
    | none =>
      dsimp only at h
      split_ifs at h with hworker horder hscope hcancel
      exact ⟨⟨by simpa using hworker, Nat.le_of_not_lt horder⟩, not_not.1 hscope, hcancel,
        (PersistVerdict.cancelled.inj h).symm⟩
  · rintro ⟨⟨hworker, horder⟩, hscope, hcancel, rfl⟩
    simp [persistVerdict, hworker, Nat.not_lt.2 horder, hscope, hcancel]

theorem verdict_store :
    persistVerdict manifestSize job existing input = .store ↔
      input.WellTimed ∧ manifestSize input.artifactManifest ≤ artifactManifestMaxBytes ∧
        existing = none ∧ job.Awaits input.payload ∧ job.leaseOwner = some input.workerId := by
  constructor
  · intro h
    unfold persistVerdict at h
    cases existing with
    | some run =>
      dsimp only at h
      split_ifs at h
    | none =>
      dsimp only at h
      split_ifs at h with hworker horder hscope hcancel hsize hrunning howner
      exact ⟨⟨by simpa using hworker, Nat.le_of_not_lt horder⟩, Nat.le_of_not_lt hsize, rfl,
        ⟨not_not.1 hrunning, not_not.1 hscope, Option.not_isSome_iff_eq_none.1 hcancel⟩,
        not_not.1 howner⟩
  · rintro ⟨⟨hworker, horder⟩, hsize, rfl, ⟨hrunning, hscope, hcancel⟩, howner⟩
    simp [persistVerdict, hworker, Nat.not_lt.2 horder, hscope, hcancel, Nat.not_lt.2 hsize,
      hrunning, howner]

theorem verdict_replayed
    (h : persistVerdict manifestSize job existing input = .replayed run job') :
    existing = some run ∧ job' = job.finishFromRun run := by
  unfold persistVerdict at h
  cases existing with
  | none =>
    dsimp only at h
    split_ifs at h
  | some found =>
    dsimp only at h
    split_ifs at h
    obtain ⟨rfl, rfl⟩ := PersistVerdict.replayed.inj h
    exact ⟨rfl, rfl⟩

end verdict

end operations

/-- What the stored rows of one job say about each other. -/
structure Accounts (job : AnalysisJob) (runs : List AuditRun) (grants : List Str) : Prop where
  counted : grants.length = job.attemptCount
  bounded : job.attemptCount ≤ job.maxAttempts
  leased : job.status = .running → job.leaseOwner = grants.getLast?
  single : runs.length ≤ 1
  finished : ∀ run ∈ runs, job.cancelRequestedAt = none ∧ job.status = run.status.ofJob
  outcome : job.status = .succeeded ∨ job.status = .partially → runs ≠ []

def JobWorld.Consistent (s : JobWorld) : Prop :=
  match s.job with
  | none => s.runs = [] ∧ s.grants = []
  | some job => Accounts job s.runs s.grants

section accounts

variable {job job' : AnalysisJob} {runs : List AuditRun} {grants : List Str} {workerId : Str}

theorem RunStatus.terminal_ofJob (status : RunStatus) : status.ofJob.terminal = true := by
  cases status <;> rfl

theorem Accounts.no_run (h : Accounts job runs grants) (hopen : job.status.terminal = false) :
    runs = [] := by
  refine List.eq_nil_iff_forall_not_mem.2 fun run hrun => ?_
  have hstatus := (h.finished run hrun).2
  rw [hstatus, run.status.terminal_ofJob] at hopen
  cases hopen

theorem Accounts.uncancelled (h : Accounts job runs grants)
    (hdone : job.status = .succeeded ∨ job.status = .partially) : job.cancelRequestedAt = none := by
  obtain ⟨run, rest, rfl⟩ := List.exists_cons_of_ne_nil (h.outcome hdone)
  exact (h.finished run List.mem_cons_self).1

/-- Without a run, a job that is at rest and not done satisfies all of it. -/
theorem Accounts.idle (hcount : grants.length = job.attemptCount)
    (hbound : job.attemptCount ≤ job.maxAttempts)
    (hrest : job.status = .queued ∨ job.status = .failed ∨ job.status = .cancelled) :
    Accounts job [] grants where
  counted := hcount
  bounded := hbound
  leased hrunning := by rcases hrest with h | h | h <;> rw [h] at hrunning <;> cases hrunning
  single := Nat.zero_le 1
  finished := by rintro _ ⟨⟩
  outcome hdone := by rcases hrest with h | h | h <;> rw [h] at hdone <;> simp at hdone

theorem Accounts.claimed {granted : Bool} (h : Accounts job runs grants)
    (hclaim : Claimed job workerId job' granted) :
    Accounts job' runs (if granted then grants ++ [workerId] else grants) := by
  cases hclaim with
  | turnedAway => exact h
  | closed hopen hstatus hattempt hmax =>
    rw [h.no_run hopen]
    exact .idle (h.counted.trans hattempt.symm) (hattempt ▸ hmax ▸ h.bounded)
      (.inr hstatus.symm)
  | granted hopen hcancel hleft hstatus hattempt hmax howner =>
    rw [h.no_run hopen]
    refine ⟨?_, ?_, ?_, Nat.zero_le 1, ?_, ?_⟩
    · simp [h.counted, hattempt]
    · rw [hattempt, hmax]
      exact hleft
    · intro _
      simp [howner]
    · rintro _ ⟨⟩
    · rw [hstatus]
      simp

theorem Accounts.failed (h : Accounts job runs grants) (hrunning : job.status = .running)
    (input : AnalysisJob.FailInput) : Accounts (job.failed input) runs grants := by
  obtain ⟨hattempt, hmax, -⟩ := failed_same job input
  rw [h.no_run (by rw [hrunning]; rfl)]
  exact .idle (h.counted.trans hattempt.symm) (by rw [hattempt, hmax]; exact h.bounded)
    ((failed_status job input).imp_right .inl)

theorem Accounts.cancelled (h : Accounts job runs grants) (now : Instant) :
    Accounts (job.requestCancellation now) runs grants := by
  rcases requestCancellation_cases job now with hsame | ⟨hopen, hattempt, hmax, hstatus⟩
  · rw [hsame]
    exact h
  · have hcount := h.counted.trans hattempt.symm
    have hbound : (job.requestCancellation now).attemptCount ≤
        (job.requestCancellation now).maxAttempts := by rw [hattempt, hmax]; exact h.bounded
    rw [h.no_run hopen]
    rcases hstatus with hdone | ⟨hrunning, hbefore, howner⟩
    · exact .idle hcount hbound (.inr (.inr hdone))
    · refine ⟨hcount, hbound, fun _ => howner.trans (h.leased hbefore), Nat.zero_le 1, ?_, ?_⟩
      · rintro _ ⟨⟩
      · rw [hrunning]
        simp

theorem Accounts.finishCancelled (h : Accounts job runs grants)
    (hcancel : job.cancelRequestedAt.isSome = true) (at' : Instant) :
    Accounts (job.finishCancelled at') runs grants := by
  have hnone : runs = [] := by
    refine List.eq_nil_iff_forall_not_mem.2 fun run hrun => ?_
    rw [(h.finished run hrun).1] at hcancel
    cases hcancel
  rw [hnone]
  exact .idle h.counted h.bounded (.inr (.inr rfl))

theorem Accounts.replayed (h : Accounts job runs grants) {run : AuditRun} (hrun : run ∈ runs) :
    Accounts (job.finishFromRun run) runs grants := by
  have hstatus : (job.finishFromRun run).status = job.status := (h.finished run hrun).2.symm
  refine ⟨h.counted, h.bounded, ?_, h.single, ?_, ?_⟩
  · intro hrunning
    have hterminal := run.status.terminal_ofJob
    rw [show run.status.ofJob = .running from hrunning] at hterminal
    cases hterminal
  · intro other hother
    exact ⟨(h.finished other hother).1, hstatus.trans (h.finished other hother).2⟩
  · intro _
    exact List.ne_nil_of_mem hrun

theorem Accounts.stored {payload : RepositoryIntelligence} (h : Accounts job runs grants)
    (hawaits : job.Awaits payload) (run : AuditRun) :
    Accounts (job.finishFromRun run) (runs ++ [run]) grants := by
  rw [h.no_run (by rw [hawaits.running]; rfl)]
  refine ⟨h.counted, h.bounded, ?_, Nat.le_refl 1, ?_, ?_⟩
  · intro hrunning
    have hterminal := run.status.terminal_ofJob
    rw [show run.status.ofJob = .running from hrunning] at hterminal
    cases hterminal
  · intro other hother
    obtain rfl : other = run := by simpa using hother
    exact ⟨hawaits.uncancelled, rfl⟩
  · simp

end accounts

section run

variable {manifestSize : List Artifact → Nat} {s t : JobWorld} {a : JobAction}

theorem consistent_persistStep {job : AnalysisJob} {input : PersistInput} {stored : Option Uuid}
    {committed : Bool} (hjob : s.job = some job) (h : Accounts job s.runs s.grants) :
    (persistStep manifestSize s job input stored committed).Consistent := by
  have hs : s.Consistent := by
    unfold JobWorld.Consistent
    rw [hjob]
    exact h
  unfold persistStep
  split
  · exact hs
  · rename_i hverdict
    obtain ⟨-, -, hcancel, rfl⟩ := verdict_cancelled.1 hverdict
    split
    · exact h.finishCancelled hcancel _
    · exact hs
  · rename_i hverdict
    obtain ⟨hexisting, rfl⟩ := verdict_replayed hverdict
    exact h.replayed (List.mem_of_mem_head? hexisting)
  · rename_i hverdict
    obtain ⟨-, -, -, hawaits, -⟩ := verdict_store.1 hverdict
    split
    · exact hs
    · exact h.stored hawaits _

theorem consistent_step (hs : s.Consistent) (hstep : step manifestSize s a = some t) :
    t.Consistent := by
  cases hjob : s.job with
  | none =>
    have hempty : s.runs = [] ∧ s.grants = [] := by
      unfold JobWorld.Consistent at hs
      rwa [hjob] at hs
    cases a with
    | create id request requestedBy now =>
      simp only [step, hjob, Option.some.injEq] at hstep
      subst hstep
      unfold JobWorld.Consistent
      rw [hempty.1, hempty.2]
      exact .idle rfl (Nat.zero_le _) (.inl rfl)
    | claim workerId now leaseSeconds =>
      simp only [step, hjob, Option.some.injEq] at hstep
      exact hstep ▸ hs
    | fail attempt input =>
      simp only [step, hjob] at hstep
      split at hstep
      · exact Option.some.inj hstep ▸ hs
      · cases hstep
    | cancel now =>
      simp only [step, hjob, Option.map_none, Option.some.injEq] at hstep
      subst hstep
      exact hempty
    | persist attempt input stored committed =>
      simp only [step, hjob] at hstep
      split at hstep
      · exact Option.some.inj hstep ▸ hs
      · cases hstep
  | some job =>
    have h : Accounts job s.runs s.grants := by
      unfold JobWorld.Consistent at hs
      rwa [hjob] at hs
    cases a with
    | create id request requestedBy now =>
      simp only [step, hjob, Option.some.injEq] at hstep
      exact hstep ▸ hs
    | claim workerId now leaseSeconds =>
      simp only [step, hjob] at hstep
      cases hclaim : job.claim workerId now leaseSeconds with
      | error error =>
        rw [hclaim] at hstep
        exact Option.some.inj hstep ▸ hs
      | ok claimed =>
        rw [hclaim] at hstep
        cases hstep
        exact h.claimed (claimed_of_claim hclaim)
    | fail attempt input =>
      simp only [step, hjob] at hstep
      split at hstep
      · cases hfail : job.fail input with
        | error error =>
          rw [hfail] at hstep
          exact Option.some.inj hstep ▸ hs
        | ok failed =>
          rw [hfail] at hstep
          obtain ⟨-, hrunning, -, rfl⟩ := fail_ok.1 hfail
          cases hstep
          exact h.failed hrunning input
      · cases hstep
    | cancel now =>
      simp only [step, hjob, Option.map_some, Option.some.injEq] at hstep
      subst hstep
      exact h.cancelled now
    | persist attempt input stored committed =>
      simp only [step, hjob] at hstep
      split at hstep
      · exact Option.some.inj hstep ▸ consistent_persistStep hjob h
      · cases hstep

theorem consistent_of_reaches (h : Reaches (step manifestSize) anyStep emptyJobWorld s) :
    s.Consistent :=
  h.invariant (fun _ _ _ hs _ hstep => consistent_step hs hstep) ⟨rfl, rfl⟩

theorem SafeStep.refl (s : JobWorld) (a : JobAction) : SafeStep s a s :=
  ⟨fun job hjob _ => ⟨job, hjob, rfl⟩, fun _ => rfl, fun _ job hjob => ⟨job, hjob, .inl rfl⟩⟩

/-- A call that is made on behalf of no attempt has terminal statuses to leave alone only. -/
theorem SafeStep.of_unattempted (hnone : a.attempt = none)
    (h : ∀ job, s.job = some job → ∃ job', t.job = some job' ∧
      (job.status.terminal = true → job'.status = job.status)) : SafeStep s a t := by
  have hnot : ¬ s.superseded a.attempt = true := by
    rw [hnone]
    exact Bool.false_ne_true
  refine ⟨?_, fun hsuper => absurd hsuper hnot, fun hsuper => absurd hsuper hnot⟩
  intro job hjob hterminal
  obtain ⟨job', hjob', hsame⟩ := h job hjob
  exact ⟨job', hjob', hsame hterminal⟩

theorem safe_claim {workerId : Str} {now : Instant} {leaseSeconds : Nat}
    (hstep : step manifestSize s (.claim workerId now leaseSeconds) = some t) :
    SafeStep s (.claim workerId now leaseSeconds) t := by
  cases hjob : s.job with
  | none =>
    simp only [step, hjob, Option.some.injEq] at hstep
    exact hstep ▸ .refl s _
  | some job =>
    simp only [step, hjob] at hstep
    cases hclaim : job.claim workerId now leaseSeconds with
    | error error =>
      rw [hclaim] at hstep
      exact Option.some.inj hstep ▸ .refl s _
    | ok claimed =>
      rw [hclaim] at hstep
      cases hstep
      obtain ⟨after, granted⟩ := claimed
      refine .of_unattempted rfl fun before hbefore => ⟨after, rfl, fun hterminal => ?_⟩
      obtain rfl : job = before := Option.some.inj (hjob.symm.trans hbefore)
      cases claimed_of_claim hclaim with
      | turnedAway => rfl
      | closed hopen => rw [hterminal] at hopen; cases hopen
      | granted hopen => rw [hterminal] at hopen; cases hopen

theorem safe_cancel {now : Instant} (hstep : step manifestSize s (.cancel now) = some t) :
    SafeStep s (.cancel now) t := by
  simp only [step, Option.some.injEq] at hstep
  subst hstep
  refine .of_unattempted rfl fun job hjob => ⟨job.requestCancellation now, by simp [hjob], ?_⟩
  intro hterminal
  simp [AnalysisJob.requestCancellation, hterminal]

theorem safe_create {id : Uuid} {request : AnalysisRequest} {requestedBy : UserId} {now : Instant}
    (hstep : step manifestSize s (.create id request requestedBy now) = some t) :
    SafeStep s (.create id request requestedBy now) t := by
  cases hjob : s.job with
  | none =>
    simp only [step, hjob, Option.some.injEq] at hstep
    refine .of_unattempted rfl fun job hsome => ?_
    rw [hjob] at hsome
    cases hsome
  | some job =>
    simp only [step, hjob, Option.some.injEq] at hstep
    exact hstep ▸ .refl s _

/-- A failure that a running job records changes its status. -/
theorem safe_fail_iff {attempt : Option Nat} {input : AnalysisJob.FailInput}
    (hs : s.Consistent) (hstep : step manifestSize s (.fail attempt input) = some t) :
    SafeStep s (.fail attempt input) t ↔ Keeps manifestSize s (.fail attempt input) := by
  simp only [step] at hstep
  split at hstep
  case isFalse => cases hstep
  cases hjob : s.job with
  | none =>
    rw [hjob] at hstep
    cases hstep
    refine ⟨?_, fun _ => .refl s _⟩
    intro _ _ _ job hsome
    rw [hjob] at hsome
    cases hsome
  | some job =>
    have h : Accounts job s.runs s.grants := by
      unfold JobWorld.Consistent at hs
      rwa [hjob] at hs
    simp only [hjob] at hstep
    cases hfail : job.fail input with
    | error error =>
      rw [hfail] at hstep
      cases hstep
      refine ⟨?_, fun _ => .refl s _⟩
      intro _ _ hcheck job' hsome hrunning howner
      obtain rfl : job = job' := Option.some.inj (hjob.symm.trans hsome)
      have hok : job.fail input = .ok (job.failed input) :=
        fail_ok.2 ⟨hcheck, hrunning, (h.leased hrunning).trans howner, rfl⟩
      rw [hfail] at hok
      cases hok
    | ok failed =>
      rw [hfail] at hstep
      obtain ⟨hcheck, hrunning, howner, rfl⟩ := fail_ok.1 hfail
      cases hstep
      have hmoved : (job.failed input).status ≠ .running := by
        rcases failed_status job input with hstatus | hstatus <;> rw [hstatus] <;> simp
      constructor
      · intro hsafe hsuper _ job' hsome _ hlast
        obtain rfl : job = job' := Option.some.inj (hjob.symm.trans hsome)
        obtain ⟨after, hafter, hsame | ⟨-, hcancelled⟩⟩ := hsafe.fenced hsuper job hjob
        · cases hafter
          exact hmoved (hsame.trans hrunning)
        · cases hafter
          rcases failed_status job input with hstatus | hstatus <;>
            rw [hstatus] at hcancelled <;> cases hcancelled
      · intro hkeeps
        have hnot : ¬ s.superseded attempt = true := fun hsuper =>
          hkeeps hsuper hcheck job hjob hrunning ((h.leased hrunning).symm.trans howner)
        refine ⟨?_, fun hsuper => absurd hsuper hnot, fun hsuper => absurd hsuper hnot⟩
        intro job' hsome hterminal
        obtain rfl : job = job' := Option.some.inj (hjob.symm.trans hsome)
        rw [hrunning] at hterminal
        cases hterminal

theorem existing_eq_none {job : AnalysisJob} (h : Accounts job s.runs s.grants)
    (hopen : job.status.terminal = false) : s.existing = none := by
  rw [JobWorld.existing, h.no_run hopen]
  rfl

/-- The condition on a persist, on the outcome of its verdict. -/
theorem safe_persist_iff {attempt : Option Nat} {input : PersistInput} {stored : Option Uuid}
    {committed : Bool} (hs : s.Consistent)
    (hstep : step manifestSize s (.persist attempt input stored committed) = some t) :
    SafeStep s (.persist attempt input stored committed) t ↔
      Keeps manifestSize s (.persist attempt input stored committed) := by
  simp only [step] at hstep
  split at hstep
  case isFalse => cases hstep
  cases hjob : s.job with
  | none =>
    rw [hjob] at hstep
    cases hstep
    refine ⟨fun _ => ⟨?_, ?_⟩, fun _ => .refl s _⟩
    · intro _ _ _ _ job hsome
      rw [hjob] at hsome
      cases hsome
    · intro _ _ job hsome
      rw [hjob] at hsome
      cases hsome
  | some job =>
    have h : Accounts job s.runs s.grants := by
      unfold JobWorld.Consistent at hs
      rwa [hjob] at hs
    simp only [hjob, Option.some.injEq] at hstep
    -- What the condition forbids is exactly the two verdicts that can do harm.
    have hstores : input.WellTimed → manifestSize input.artifactManifest ≤ artifactManifestMaxBytes →
        job.Awaits input.payload → s.grants.getLast? = some input.workerId →
          persistVerdict manifestSize job s.existing input = .store := by
      intro htimed hsize hawaits hlast
      have hopen : job.status.terminal = false := by rw [hawaits.running]; rfl
      exact verdict_store.2 ⟨htimed, hsize, existing_eq_none h hopen, hawaits,
        (h.leased hawaits.running).trans hlast⟩
    constructor
    · intro hsafe
      refine ⟨?_, ?_⟩
      · intro hsuper hstored htimed hsize job' hsome hawaits hlast
        obtain rfl : job = job' := Option.some.inj (hjob.symm.trans hsome)
        obtain ⟨id, rfl⟩ := Option.isSome_iff_exists.1 hstored
        have hruns := hsafe.runs hsuper
        rw [← hstep, persistStep, hstores htimed hsize hawaits hlast] at hruns
        simp at hruns
      · intro hcommitted htimed job' hsome hscope hcancel hfailed
        obtain rfl : job = job' := Option.some.inj (hjob.symm.trans hsome)
        have hverdict : persistVerdict manifestSize job s.existing input =
            .cancelled (job.finishCancelled input.completedAt) :=
          verdict_cancelled.2 ⟨htimed, hscope, hcancel, rfl⟩
        obtain ⟨after, hafter, hsame⟩ := hsafe.terminal job hjob (by rw [hfailed]; rfl)
        rw [← hstep] at hafter
        unfold persistStep at hafter
        rw [hverdict] at hafter
        simp only [hcommitted, if_true, Option.some.injEq] at hafter
        rw [← hafter, hfailed] at hsame
        cases hsame
    · rintro ⟨hfenced, hpending⟩
      subst hstep
      unfold persistStep
      split
      · exact .refl s _
      · rename_i hverdict
        obtain ⟨htimed, hscope, hcancel, rfl⟩ := verdict_cancelled.1 hverdict
        split
        case isFalse => exact .refl s _
        rename_i hcommitted
        refine ⟨?_, fun _ => rfl, ?_⟩
        · intro before hbefore hterminal
          obtain rfl : job = before := Option.some.inj (hjob.symm.trans hbefore)
          refine ⟨_, rfl, ?_⟩
          have hnot := hpending hcommitted htimed job hjob hscope hcancel
          cases hstatus : job.status with
          | queued => rw [hstatus] at hterminal; cases hterminal
          | running => rw [hstatus] at hterminal; cases hterminal
          | succeeded => rw [h.uncancelled (.inl hstatus)] at hcancel; cases hcancel
          | partially => rw [h.uncancelled (.inr hstatus)] at hcancel; cases hcancel
          | failed => exact absurd hstatus hnot
          | cancelled => rfl
        · intro _ before hbefore
          obtain rfl : job = before := Option.some.inj (hjob.symm.trans hbefore)
          exact ⟨_, rfl, .inr ⟨hcancel, rfl⟩⟩
      · rename_i hverdict
        obtain ⟨hexisting, rfl⟩ := verdict_replayed hverdict
        have hsame := (h.finished _ (List.mem_of_mem_head? hexisting)).2.symm
        refine ⟨?_, fun _ => rfl, ?_⟩
        · intro before hbefore _
          obtain rfl : job = before := Option.some.inj (hjob.symm.trans hbefore)
          exact ⟨_, rfl, hsame⟩
        · intro _ before hbefore
          obtain rfl : job = before := Option.some.inj (hjob.symm.trans hbefore)
          exact ⟨_, rfl, .inl hsame⟩
      · rename_i hverdict
        obtain ⟨htimed, hsize, -, hawaits, howner⟩ := verdict_store.1 hverdict
        split
        case h_1 => exact .refl s _
        have hnot : ¬ s.superseded attempt = true := fun hsuper =>
          hfenced hsuper rfl htimed hsize job hjob hawaits
            ((h.leased hawaits.running).symm.trans howner)
        refine ⟨?_, fun hsuper => absurd hsuper hnot, fun hsuper => absurd hsuper hnot⟩
        intro before hbefore hterminal
        obtain rfl : job = before := Option.some.inj (hjob.symm.trans hbefore)
        rw [hawaits.running] at hterminal
        cases hterminal

/-- At most one run is stored and at most `max_attempts` claims are granted, in every run; a step
replaces no terminal status and lets no superseded attempt act, exactly if it keeps the
condition. -/
theorem job_protocol_iff (h : Reaches (step manifestSize) anyStep emptyJobWorld s) :
    s.runs.length ≤ 1 ∧ (∀ job, s.job = some job → s.grants.length ≤ job.maxAttempts) ∧
      ∀ a t, step manifestSize s a = some t → (SafeStep s a t ↔ Keeps manifestSize s a) := by
  have hs := consistent_of_reaches h
  refine ⟨?_, ?_, ?_⟩
  · cases hjob : s.job with
    | none =>
      unfold JobWorld.Consistent at hs
      rw [hjob] at hs
      rw [hs.1]
      exact Nat.zero_le 1
    | some job =>
      unfold JobWorld.Consistent at hs
      rw [hjob] at hs
      exact hs.single
  · intro job hjob
    unfold JobWorld.Consistent at hs
    rw [hjob] at hs
    exact hs.counted ▸ hs.bounded
  · intro a t hstep
    cases a with
    | create id request requestedBy now => exact ⟨fun _ => trivial, fun _ => safe_create hstep⟩
    | claim workerId now leaseSeconds => exact ⟨fun _ => trivial, fun _ => safe_claim hstep⟩
    | fail attempt input => exact safe_fail_iff hs hstep
    | cancel now => exact ⟨fun _ => trivial, fun _ => safe_cancel hstep⟩
    | persist attempt input stored committed => exact safe_persist_iff hs hstep

end run

/-- The size of the empty list, whatever the manifest. -/
def emptyManifestSize : List Artifact → Nat := fun _ => 2

def sampleWorker : Str := Str.of "worker-1"

def firstPersist : PersistInput :=
  ⟨sampleWorker, samplePayload emptyResult, sampleCoverage, [], 5, 6⟩

def sampleFailure (retryable : Bool) : AnalysisJob.FailInput :=
  ⟨sampleWorker, Str.of "crashed", retryable, 7, 0⟩

def sampleCreate : JobAction := .create sampleRepository sampleRequest 7 0

/-- The worker is restarted under its name and granted the job again after the lease has expired. -/
def restartedRun : List JobAction :=
  [sampleCreate, .claim sampleWorker 0 1, .claim sampleWorker (seconds 2) 60]

/-- A running job whose cancellation is pending fails for good. -/
def failedRun : List JobAction :=
  [sampleCreate, .claim sampleWorker 0 1, .cancel 3, .fail (some 0) (sampleFailure false)]

theorem job_protocol_iff_restarted :
    (∃ s, Reaches (step emptyManifestSize) anyStep emptyJobWorld s ∧ s.grants.length = 2 ∧
      s.runs.length ≤ 1 ∧ (∀ job, s.job = some job → s.grants.length ≤ job.maxAttempts) ∧
        ∀ a t, step emptyManifestSize s a = some t →
          (SafeStep s a t ↔ Keeps emptyManifestSize s a)) := by
  have hrun : (exec (step emptyManifestSize) emptyJobWorld restartedRun).map
      (fun s => s.grants.length == 2) = some true := by
    decide +kernel
  obtain ⟨s, hs, hgrants⟩ := reaches_of_exec_check hrun
  exact ⟨s, hs, by simpa using hgrants, job_protocol_iff hs⟩

/-- The first attempt re-queues the job of the second, or stores its result in its place; a persist
that is committed after its error turns a failed job into a cancelled one. -/
theorem restarted_worker_not_fenced :
    (¬∀ s, Reaches (step emptyManifestSize) anyStep emptyJobWorld s → ∀ attempt input t,
      step emptyManifestSize s (.fail attempt input) = some t →
        s.superseded attempt = true → t.job = s.job) ∧
    (¬∀ s, Reaches (step emptyManifestSize) anyStep emptyJobWorld s →
      ∀ attempt input stored committed t,
        step emptyManifestSize s (.persist attempt input stored committed) = some t →
          s.superseded attempt = true → t.runs = s.runs) ∧
    (¬∀ s, Reaches (step emptyManifestSize) anyStep emptyJobWorld s → ∀ a t,
      step emptyManifestSize s a = some t → ∀ job, s.job = some job →
        job.status.terminal = true → t.job.map (·.status) = some job.status) := by
  refine ⟨fun hall => ?_, fun hall => ?_, fun hall => ?_⟩
  · have hrun : (exec (step emptyManifestSize) emptyJobWorld restartedRun).any (fun s =>
        s.superseded (some 0) && (step emptyManifestSize s
          (.fail (some 0) (sampleFailure true))).any fun t => t.job ≠ s.job) = true := by
      decide +kernel
    obtain ⟨s, hs, hend⟩ := (Option.any_eq_true _ _).1 hrun
    obtain ⟨hsuper, hstep⟩ := Bool.and_eq_true_iff.1 hend
    obtain ⟨t, ht, hmoved⟩ := (Option.any_eq_true _ _).1 hstep
    exact of_decide_eq_true hmoved (hall s (reaches_of_exec hs) _ _ t ht hsuper)
  · have hrun : (exec (step emptyManifestSize) emptyJobWorld restartedRun).any (fun s =>
        s.superseded (some 0) && (step emptyManifestSize s
          (.persist (some 0) firstPersist (some sampleWorkspace) true)).any
            fun t => t.runs.length ≠ s.runs.length) = true := by
      decide +kernel
    obtain ⟨s, hs, hend⟩ := (Option.any_eq_true _ _).1 hrun
    obtain ⟨hsuper, hstep⟩ := Bool.and_eq_true_iff.1 hend
    obtain ⟨t, ht, hmoved⟩ := (Option.any_eq_true _ _).1 hstep
    exact of_decide_eq_true hmoved
      (congrArg List.length (hall s (reaches_of_exec hs) _ _ _ _ t ht hsuper))
  · have hrun : (exec (step emptyManifestSize) emptyJobWorld failedRun).any (fun s =>
        s.job.any (·.status = .failed) && (step emptyManifestSize s
          (.persist (some 0) firstPersist none true)).any
            fun t => t.job.map (·.status) = some .cancelled) = true := by
      decide +kernel
    obtain ⟨s, hs, hend⟩ := (Option.any_eq_true _ _).1 hrun
    obtain ⟨hfailed, hstep⟩ := Bool.and_eq_true_iff.1 hend
    obtain ⟨job, hjob, hstatus⟩ := (Option.any_eq_true _ _).1 hfailed
    obtain ⟨t, ht, hcancelled⟩ := (Option.any_eq_true _ _).1 hstep
    have hstatus : job.status = .failed := of_decide_eq_true hstatus
    have hsame := hall s (reaches_of_exec hs) _ t ht job hjob (by rw [hstatus]; rfl)
    rw [of_decide_eq_true hcancelled, hstatus] at hsame
    cases hsame

end FounderOs.RepositoryAudit
