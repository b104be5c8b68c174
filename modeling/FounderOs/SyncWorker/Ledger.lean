import FounderOs.SyncWorker.Fencing
import Mathlib.Algebra.BigOperators.Group.List.Basic
import Mathlib.Data.List.Perm.Subperm

namespace FounderOs.SyncWorker

open Transition

variable {R K : Type} {casefold : R → K}

def World.completedKeys (s : World casefold) : List K :=
  s.committed.map (fun c => casefold c.batch.fullName)

def Covered (request : LiveSyncRequest casefold) (s : World casefold) : Prop :=
  ∀ repository ∈ request.repositories, casefold repository ∈ s.completedKeys

def total (field : CommittedBatch R → Nat) (committed : List (CommittedBatch R)) : Nat :=
  (committed.map field).sum

@[simp] theorem total_nil (field : CommittedBatch R → Nat) : total field [] = 0 := rfl

@[simp] theorem total_concat (field : CommittedBatch R → Nat) (committed : List (CommittedBatch R))
    (c : CommittedBatch R) : total field (committed ++ [c]) = total field committed + field c := by
  simp [total]

/-- The counters of the row are those of the batches committed. -/
structure CountersAgree (job : SyncJob casefold) (committed : List (CommittedBatch R)) : Prop where
  repositories : (progress job.cursorAfter).counts.repositories = committed.length
  issues : (progress job.cursorAfter).counts.issues = total (·.batch.issues) committed
  pullRequests :
    (progress job.cursorAfter).counts.pullRequests = total (·.batch.pullRequests) committed
  skippedPullRequests : (progress job.cursorAfter).counts.skippedPullRequests =
    total (·.batch.skippedPullRequests) committed
  recordsSeen : job.recordsSeen = committed.length + total (·.batch.issues) committed +
    total (·.batch.pullRequests) committed
  recordsCreated : job.recordsCreated = total (·.recordsCreated) committed
  recordsUpdated : job.recordsUpdated = total (·.recordsUpdated) committed

structure Complete (request : LiveSyncRequest casefold) (s : World casefold) : Prop where
  once : s.completedKeys.Nodup
  requested : ∀ c ∈ s.committed, c.batch.fullName ∈ request.repositories
  counters : CountersAgree s.job s.committed
  covered : s.job.status = .succeeded → Covered request s

/-- While `token` holds the job, nobody else writes to it or records anything for it; a
cancellation, and a claim once the lease has expired, are what takes it away. -/
def Exclusive (s : World casefold) (a : Action R) (t : World casefold) : Prop :=
  ∀ token, s.job.heldBy token →
    (t.job = s.job ∧ t.committed = s.committed ∧ t.localRuns = s.localRuns) ∨
      a.token = some token ∨ (∃ now, a = .requestCancellation now) ∨
      ∃ picked now, a = .poll picked now ∧ s.job.leaseExpired now = true

structure NothingLocal (options : NormalizationOptions R) (read : NormalizationRead) : Prop where
  missing : missingRequestedData options read = true
  repositories : options.includeRepositories = true → read.repositories = 0
  issues : options.includeIssues = true → read.issues = 0
  pullRequests : options.includePullRequests = true → read.pullRequests = 0
  created : options.persistIfSupported = true → read.recordsCreated = 0
  updated : options.persistIfSupported = true → read.recordsUpdated = 0

/-- A normalize-local commit lands on an unclaimed job without a committed batch, and finds and
stores nothing. -/
def LocalRunsIdle (s : World casefold) (a : Action R) : Prop :=
  ∀ call read now loaded options, a = .normalizeLocal call read now →
    s.calls call = .loaded loaded options →
    s.job.status ≠ .running ∧ s.committed = [] ∧ NothingLocal options read

def WorkerPc.planned : WorkerPc R → List R
  | .looping remaining => remaining
  | .reading repository rest => repository :: rest
  | .persisting batch rest => batch.fullName :: rest
  | _ => []

structure Ledger (request : LiveSyncRequest casefold) (s : World casefold) : Prop where
  complete : Complete request s
  payload : s.job.request = some request
  completed : (progress s.job.cursorAfter).completedRepositories =
    s.committed.map (fun c => c.batch.fullName)

/-- What the workers and calls in flight have read still holds of the job. -/
structure InFlight (request : LiveSyncRequest casefold) (s : World casefold) : Prop where
  issued : ∀ (token : Nat) w, s.workers token = some w → token < s.claims
  payload : ∀ token w, s.workers token = some w → w.request = request
  planned : ∀ token w, s.workers token = some w →
    ∀ repository ∈ w.pc.planned, repository ∈ request.repositories
  resumed : ∀ token w, s.workers token = some w → w.pc = .finishing → s.job.heldBy token →
    Covered request s
  loaded : ∀ call job options, s.calls call = .loaded job options → s.committed = [] →
    job.recordsSeen = 0 ∧ job.recordsCreated = 0 ∧ job.recordsUpdated = 0

namespace SyncJob

variable {settings : Settings} {job job' : SyncJob casefold}

structure SameProgress (job job' : SyncJob casefold) : Prop where
  request : job'.request = job.request
  completed : (progress job'.cursorAfter).completedRepositories =
    (progress job.cursorAfter).completedRepositories
  counts : (progress job'.cursorAfter).counts = (progress job.cursorAfter).counts
  recordsSeen : job'.recordsSeen = job.recordsSeen
  recordsCreated : job'.recordsCreated = job.recordsCreated
  recordsUpdated : job'.recordsUpdated = job.recordsUpdated

theorem SameProgress.refl (job : SyncJob casefold) : SameProgress job job :=
  ⟨rfl, rfl, rfl, rfl, rfl, rfl⟩

theorem SameProgress.counters {committed : List (CommittedBatch R)} (h : SameProgress job job')
    (hcounters : CountersAgree job committed) : CountersAgree job' committed where
  repositories := h.counts ▸ hcounters.repositories
  issues := h.counts ▸ hcounters.issues
  pullRequests := h.counts ▸ hcounters.pullRequests
  skippedPullRequests := h.counts ▸ hcounters.skippedPullRequests
  recordsSeen := h.recordsSeen.trans hcounters.recordsSeen
  recordsCreated := h.recordsCreated.trans hcounters.recordsCreated
  recordsUpdated := h.recordsUpdated.trans hcounters.recordsUpdated

theorem HeldWrite.sameProgress (h : HeldWrite settings job job') : SameProgress job job' := by
  cases h with
  | cancelled now hcancel => exact ⟨rfl, rfl, rfl, rfl, rfl, rfl⟩
  | renewed now => exact ⟨rfl, rfl, rfl, rfl, rfl, rfl⟩
  | released error now =>
    unfold SyncJob.released
    split <;> exact ⟨rfl, rfl, rfl, rfl, rfl, rfl⟩

theorem HeldWrite.not_succeeded (h : HeldWrite settings job job') (hrun : job.status = .running) :
    job'.status ≠ .succeeded := by
  cases h with
  | cancelled now hcancel => exact fun hstatus => by cases hstatus
  | renewed now => exact fun hstatus => by cases hrun.symm.trans hstatus
  | released error now =>
    unfold SyncJob.released
    split <;> exact fun hstatus => by cases hstatus

theorem expireExhaustedLeases_sameProgress (now : Instant) :
    SameProgress job (job.expireExhaustedLeases now) := by
  unfold expireExhaustedLeases
  split <;> exact ⟨rfl, rfl, rfl, rfl, rfl, rfl⟩

theorem requestCancellation_sameProgress {now : Instant}
    (h : job.requestCancellation now = some job') : SameProgress job job' := by
  unfold requestCancellation at h
  split at h <;> cases h <;> exact ⟨rfl, rfl, rfl, rfl, rfl, rfl⟩

end SyncJob

theorem ledger_queued (request : LiveSyncRequest casefold) (maxAttempts : Nat)
    (queuedAt : Instant) : Ledger request (queuedWorld request maxAttempts queuedAt) where
  complete :=
    { once := List.nodup_nil
      requested := by
        intro c hc
        cases hc
      counters := ⟨rfl, rfl, rfl, rfl, rfl, rfl, rfl⟩
      covered := by
        intro hstatus
        cases hstatus }
  payload := rfl
  completed := rfl

theorem inFlight_queued (request : LiveSyncRequest casefold) (maxAttempts : Nat)
    (queuedAt : Instant) : InFlight request (queuedWorld request maxAttempts queuedAt) where
  issued := by
    intro token w hw
    cases hw
  payload := by
    intro token w hw
    cases hw
  planned := by
    intro token w hw
    cases hw
  resumed := by
    intro token w hw
    cases hw
  loaded := by
    intro call job options hcall
    cases hcall

section Moves

/-- How a step can change where a worker stands. -/
inductive Move (s : World casefold) (token : LeaseToken) (w : Worker casefold) :
    WorkerPc R → Prop
  | onward (pc : WorkerPc R) (hpc : pc ≠ .finishing)
      (hplanned : ∀ repository ∈ pc.planned,
        repository ∈ w.request.repositories ∨ repository ∈ w.pc.planned) : Move s token w pc
  | resumed (hall : ∀ repository ∈ w.request.repositories, casefold repository ∈
      (progress s.job.cursorAfter).completedRepositories.map casefold) :
      Move s token w .finishing

inductive WorkersAfter (s t : World casefold) : Prop
  | same (workers : t.workers = s.workers)
  | joined (request : LiveSyncRequest casefold) (hrequest : s.job.request = some request)
      (workers : t.workers = Function.update s.workers s.claims (some ⟨request, .preparing⟩))
      (claims : t.claims = s.claims + 1)
  | moved (token : LeaseToken) (w : Worker casefold) (pc : WorkerPc R)
      (hw : s.workers token = some w) (hmove : Move s token w pc)
      (workers : t.workers = Function.update s.workers token (some { w with pc := pc }))

variable {settings : Settings} {s t : World casefold} {a : Action R} {token : LeaseToken}
  {w : Worker casefold}

theorem stop_pc_onward (stop : WorkerStop) :
    (stop.pc : WorkerPc R) ≠ .finishing ∧ (stop.pc : WorkerPc R).planned = [] := by
  cases stop <;> exact ⟨by simp [WorkerStop.pc], rfl⟩

theorem commit_move (hw : s.workers token = some w) (c : WorkerCommit casefold)
    (next : WorkerPc R) (hnext : next ≠ .finishing)
    (hplanned : ∀ repository ∈ next.planned,
      repository ∈ w.request.repositories ∨ repository ∈ w.pc.planned) :
    WorkersAfter s (s.commit token w c next) := by
  refine .moved token w (c.stop.elim next WorkerStop.pc) hw ?_ rfl
  cases hstop : c.stop with
  | none => exact .onward next hnext hplanned
  | some stop =>
    have honward := stop_pc_onward (R := R) stop
    refine .onward stop.pc honward.1 ?_
    simp [honward.2]

theorem pollStep_workers (picked : Bool) (now : Instant) :
    WorkersAfter s (pollStep settings s picked now) := by
  have heffect := SyncJob.claimNext_effect settings s.job s.claims picked now
  unfold pollStep
  generalize s.job.claimNext settings s.claims picked now = result at heffect
  cases heffect with
  | unchanged => exact .same rfl
  | swept hrun hexpired hmax => exact .same rfl
  | rejected hclaimable hrequest => exact .same rfl
  | claimed request hclaimable hrequest => exact .joined request hrequest rfl rfl

variable [DecidableEq K]

theorem readCompletedStep_workers (hw : s.workers token = some w) :
    WorkersAfter s (readCompletedStep s token w) := by
  unfold readCompletedStep
  split
  · exact .moved token w .stopped hw (.onward _ (by simp) (by simp [WorkerPc.planned])) rfl
  · dsimp only
    split
    · rename_i hremaining
      refine .moved token w .finishing hw (.resumed fun repository hrepository => ?_) rfl
      have hnone := List.filter_eq_nil_iff.1 hremaining repository hrepository
      simpa using hnone
    · refine .moved token w (.looping _) hw (.onward _ (by simp) ?_) rfl
      intro repository hrepository
      exact .inl (List.mem_of_mem_filter hrepository)

theorem workerStep_workers (ha : a.token = some token) (hw : s.workers token = some w)
    (h : workerStep settings s token w a = some t) : WorkersAfter s t := by
  have hidle : ∀ pc : WorkerPc R, pc ≠ .finishing → pc.planned = [] → Move s token w pc := by
    intro pc hpc hplanned
    exact .onward pc hpc (by simp [hplanned])
  unfold workerStep at h
  split at h
  · cases h
    exact .moved token w .renewing hw (hidle _ (by simp) rfl) rfl
  · unfold renewStep at h
    split at h
    · cases h
      exact commit_move hw _ _ (by simp) (by simp [WorkerPc.planned])
    · rename_i repository rest hpc
      cases h
      exact commit_move hw _ _ (by simp) (fun r hr => .inr (by simpa [hpc, WorkerPc.planned] using hr))
    · cases h
  · cases h
    exact .moved token w .resuming hw (hidle _ (by simp) rfl) rfl
  · cases h
    exact readCompletedStep_workers hw
  · cases h
    exact commit_move hw _ _ (by simp) (by simp [WorkerPc.planned])
  · rename_i found repository rest hpc
    cases h
    refine .moved token w _ hw (.onward _ (by simp) fun r hr => .inr ?_) rfl
    simpa [hpc, WorkerPc.planned, BatchRead.batch] using hr
  · rename_i read now batch rest hpc
    cases h
    have hmove := commit_move hw
      (s.job.persistRepositoryBatch settings token w.request batch read now).1 (.looping rest)
      (by simp)
      (fun r hr => .inr (by
        rw [hpc]
        exact List.mem_cons_of_mem _ hr))
    cases hmove with
    | same workers => exact .same workers
    | joined request hrequest workers claims => exact .joined request hrequest workers claims
    | moved token w pc hw hmove workers => exact .moved token w pc hw hmove workers
  · split at h
    · cases h
      exact .moved token w (.failing _) hw (hidle _ (by simp) rfl) rfl
    · cases h
  · cases h
    exact commit_move hw _ _ (by simp) (by simp [WorkerPc.planned])
  · cases h

theorem step_workers (h : step settings s a = some t) : WorkersAfter s t := by
  cases htoken : a.token with
  | some token =>
    obtain ⟨w, hw, hstep⟩ := step_worker htoken h
    exact workerStep_workers htoken hw hstep
  | none =>
    cases a with
    | poll picked now =>
      cases h
      exact pollStep_workers picked now
    | requestCancellation now =>
      obtain ⟨job, hjob, rfl⟩ := Option.map_eq_some_iff.1 h
      exact .same rfl
    | loadLocal call options =>
      simp only [step, loadLocalStep] at h
      split at h
      · split at h
        · cases h
          exact .same rfl
        · cases h
      · cases h
    | normalizeLocal call read now =>
      simp only [step, normalizeLocalStep] at h
      split at h
      · obtain ⟨summary, hsummary, rfl⟩ := Option.map_eq_some_iff.1 h
        exact .same rfl
      · cases h
    | _ => cases htoken

end Moves

end FounderOs.SyncWorker
