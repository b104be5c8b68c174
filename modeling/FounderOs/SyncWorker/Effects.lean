import FounderOs.SyncWorker.Protocol

namespace FounderOs.SyncWorker

variable {R K : Type} {casefold : R → K}

namespace SyncJob

variable {job : SyncJob casefold} {settings : Settings} {token : LeaseToken} {now : Instant}

theorem lockedClaimJob_of_heldBy (h : job.heldBy token) : job.lockedClaimJob token = some job :=
  if_pos h

theorem lockedClaimJob_of_not_heldBy (h : ¬job.heldBy token) : job.lockedClaimJob token = none :=
  if_neg h

theorem expireExhaustedLeases_cases (job : SyncJob casefold) (now : Instant) :
    job.expireExhaustedLeases now = job ∨
      (job.status = .running ∧ job.leaseExpired now = true ∧ job.maxAttempts ≤ job.attemptCount ∧
        (job.expireExhaustedLeases now).status = .failed) := by
  by_cases h : job.status = .running ∧ job.leaseExpired now = true ∧
      job.maxAttempts ≤ job.attemptCount
  · exact .inr ⟨h.1, h.2.1, h.2.2, by simp [expireExhaustedLeases, h]⟩
  · exact .inl (if_neg h)

theorem not_claimable_of_failed (h : job.status = .failed) : job.claimable now = false := by
  simp [claimable, eligible, h]

/-- What the transaction of a claim does to the row. -/
inductive ClaimEffect (settings : Settings) (job : SyncJob casefold) (token : LeaseToken)
    (picked : Bool) (now : Instant) :
    SyncJob casefold × Option (LiveSyncRequest casefold) → Prop
  | unchanged : ClaimEffect settings job token picked now (job, none)
  | swept (hrun : job.status = .running) (hexpired : job.leaseExpired now = true)
      (hmax : job.maxAttempts ≤ job.attemptCount) :
      ClaimEffect settings job token picked now (job.expireExhaustedLeases now, none)
  | rejected (hclaimable : job.claimable now = true) (hrequest : job.request = none) :
      ClaimEffect settings job token picked now (job.failInvalidRequest now, none)
  | claimed (request : LiveSyncRequest casefold) (hclaimable : job.claimable now = true)
      (hrequest : job.request = some request) :
      ClaimEffect settings job token picked now (job.claimed settings token now, some request)

theorem claimNext_effect (settings : Settings) (job : SyncJob casefold) (token : LeaseToken)
    (picked : Bool) (now : Instant) :
    ClaimEffect settings job token picked now (job.claimNext settings token picked now) := by
  rcases expireExhaustedLeases_cases job now with heq | ⟨hrun, hexpired, hmax, hfailed⟩
  · simp only [claimNext, heq]
    split
    · rename_i hpick
      have hclaimable : job.claimable now = true := (Bool.and_eq_true _ _ ▸ hpick).2
      cases hrequest : job.request with
      | none => exact .rejected hclaimable hrequest
      | some request => exact .claimed request hclaimable hrequest
    · exact .unchanged
  · have hskip : (picked && (job.expireExhaustedLeases now).claimable now) = false := by
      simp [not_claimable_of_failed hfailed]
    simp only [claimNext, hskip]
    exact .swept hrun hexpired hmax

/-- The writes a worker makes under its lease without committing a batch. -/
inductive HeldWrite (settings : Settings) (job : SyncJob casefold) : SyncJob casefold → Prop
  | cancelled (now : Instant) (hcancel : job.cancelRequestedAt ≠ none) :
      HeldWrite settings job (job.markCancelled now)
  | renewed (now : Instant) : HeldWrite settings job (job.renewed settings now)
  | released (error : WorkerError) (now : Instant) :
      HeldWrite settings job (job.released settings error now)

theorem renewOrCancel_effect (settings : Settings) (job : SyncJob casefold) (token : LeaseToken)
    (now : Instant) :
    job.renewOrCancel settings token now = ⟨job, some .lostLease⟩ ∨
      (job.heldBy token ∧ HeldWrite settings job (job.renewOrCancel settings token now).job) := by
  by_cases h : job.heldBy token
  · refine .inr ⟨h, ?_⟩
    simp only [renewOrCancel, lockedClaimJob_of_heldBy h]
    split
    · rename_i hcancel
      exact .cancelled now (Option.isSome_iff_ne_none.1 hcancel)
    · exact .renewed now
  · exact .inl (by simp only [renewOrCancel, lockedClaimJob_of_not_heldBy h])

theorem retryOrFail_effect (settings : Settings) (job : SyncJob casefold) (token : LeaseToken)
    (error : WorkerError) (now : Instant) :
    job.retryOrFail settings token error now = job ∨
      (job.heldBy token ∧ HeldWrite settings job (job.retryOrFail settings token error now)) := by
  by_cases h : job.heldBy token
  · refine .inr ⟨h, ?_⟩
    simp only [retryOrFail, lockedClaimJob_of_heldBy h]
    split
    · rename_i hcancel
      exact .cancelled now (Option.isSome_iff_ne_none.1 hcancel)
    · exact .released error now
  · exact .inl (by simp only [retryOrFail, lockedClaimJob_of_not_heldBy h])

theorem finishResumedJob_effect (settings : Settings) (job : SyncJob casefold)
    (token : LeaseToken) (now : Instant) :
    job.finishResumedJob token now = ⟨job, some .lostLease⟩ ∨
      (job.heldBy token ∧ (HeldWrite settings job (job.finishResumedJob token now).job ∨
        (job.finishResumedJob token now).job = job.finished now)) := by
  by_cases h : job.heldBy token
  · refine .inr ⟨h, ?_⟩
    simp only [finishResumedJob, lockedClaimJob_of_heldBy h]
    split
    · rename_i hcancel
      exact .inl (.cancelled now (Option.isSome_iff_ne_none.1 hcancel))
    · exact .inr rfl
  · exact .inl (by simp only [finishResumedJob, lockedClaimJob_of_not_heldBy h])

section Persist

variable [DecidableEq K]

/-- What `_persist_repository_batch` leaves, and the batch it commits. -/
inductive PersistEffect (settings : Settings) (job : SyncJob casefold) (token : LeaseToken)
    (prepared : LiveSyncRequest casefold) (batch : RepositoryBatch R) (read : NormalizationRead)
    (now : Instant) : SyncJob casefold → Option (CommittedBatch R) → Prop
  | unchanged : PersistEffect settings job token prepared batch read now job none
  | cancelled (hheld : job.heldBy token) (hcancel : job.cancelRequestedAt ≠ none) :
      PersistEffect settings job token prepared batch read now (job.markCancelled now) none
  | committed (summary : NormalizationSummary) (hheld : job.heldBy token)
      (hnew : casefold batch.fullName ∉
        (progress job.cursorAfter).completedRepositories.map casefold)
      (hsummary : normalizationSummary (batchOptions prepared batch) read = some summary) :
      PersistEffect settings job token prepared batch read now
        (job.withBatch settings prepared batch summary now)
        (some ⟨token, batch, summary.recordsCreated, summary.recordsUpdated⟩)

theorem persistRepositoryBatch_effect (settings : Settings) (job : SyncJob casefold)
    (token : LeaseToken) (prepared : LiveSyncRequest casefold) (batch : RepositoryBatch R)
    (read : NormalizationRead) (now : Instant) :
    PersistEffect settings job token prepared batch read now
      (job.persistRepositoryBatch settings token prepared batch read now).1.job
      (job.persistRepositoryBatch settings token prepared batch read now).2 := by
  by_cases h : job.heldBy token
  · simp only [persistRepositoryBatch, lockedClaimJob_of_heldBy h]
    split
    · rename_i hcancel
      exact .cancelled h (Option.isSome_iff_ne_none.1 hcancel)
    · split
      · exact .unchanged
      · rename_i hnew
        cases hsummary : normalizationSummary (batchOptions prepared batch) read with
        | none => exact .unchanged
        | some summary => exact .committed summary h hnew hsummary
  · simp only [persistRepositoryBatch, lockedClaimJob_of_not_heldBy h]
    exact .unchanged

end Persist

end SyncJob

structure SameHistory (s t : World casefold) : Prop where
  claims : t.claims = s.claims
  committed : t.committed = s.committed
  localRuns : t.localRuns = s.localRuns

/-- All that one step can do to the job and to what has been recorded for it. -/
inductive Effect (settings : Settings) (s : World casefold) (a : Action R) (t : World casefold) :
    Prop
  | quiet (history : SameHistory s t) (job : t.job = s.job)
  | swept (picked : Bool) (now : Instant) (action : a = .poll picked now)
      (hrun : s.job.status = .running) (hexpired : s.job.leaseExpired now = true)
      (hmax : s.job.maxAttempts ≤ s.job.attemptCount) (history : SameHistory s t)
      (job : t.job = s.job.expireExhaustedLeases now)
  | rejected (picked : Bool) (now : Instant) (action : a = .poll picked now)
      (hclaimable : s.job.claimable now = true) (hrequest : s.job.request = none)
      (history : SameHistory s t) (job : t.job = s.job.failInvalidRequest now)
  | claimed (picked : Bool) (now : Instant) (action : a = .poll picked now)
      (hclaimable : s.job.claimable now = true)
      (job : t.job = s.job.claimed settings s.claims now) (claims : t.claims = s.claims + 1)
      (committed : t.committed = s.committed) (localRuns : t.localRuns = s.localRuns)
  | wrote (token : LeaseToken) (action : a.token = some token) (hheld : s.job.heldBy token)
      (write : SyncJob.HeldWrite settings s.job t.job) (history : SameHistory s t)
  | finished (token : LeaseToken) (w : Worker casefold) (now : Instant)
      (action : a.token = some token) (hheld : s.job.heldBy token)
      (worker : s.workers token = some w) (pc : w.pc = .finishing)
      (job : t.job = s.job.finished now) (history : SameHistory s t)
  | persisted (token : LeaseToken) (w : Worker casefold) (batch : RepositoryBatch R)
      (rest : List R) (summary : NormalizationSummary) (now : Instant)
      (action : a.token = some token) (hheld : s.job.heldBy token)
      (worker : s.workers token = some w) (pc : w.pc = .persisting batch rest)
      (hnew : casefold batch.fullName ∉
        (progress s.job.cursorAfter).completedRepositories.map casefold)
      (job : t.job = s.job.withBatch settings w.request batch summary now)
      (claims : t.claims = s.claims)
      (committed : t.committed =
        s.committed ++ [⟨token, batch, summary.recordsCreated, summary.recordsUpdated⟩])
      (localRuns : t.localRuns = s.localRuns)
  | cancelled (now : Instant) (action : a = .requestCancellation now)
      (hrequest : s.job.requestCancellation now = some t.job) (history : SameHistory s t)
  | ranLocally (call : CallId) (loaded : SyncJob casefold) (options : NormalizationOptions R)
      (read : NormalizationRead) (summary : NormalizationSummary) (now : Instant)
      (action : a = .normalizeLocal call read now)
      (hloaded : s.calls call = .loaded loaded options)
      (hsummary : normalizationSummary options read = some summary)
      (job : t.job = s.job.normalizedLocally loaded options summary now)
      (claims : t.claims = s.claims) (committed : t.committed = s.committed)
      (localRuns : t.localRuns = s.localRuns ++ [⟨call, summary⟩])

section StepEffect

variable {settings : Settings} {s t : World casefold} {a : Action R}

theorem pollStep_effect (picked : Bool) (now : Instant) :
    Effect settings s (.poll picked now) (pollStep settings s picked now) := by
  have heffect := SyncJob.claimNext_effect settings s.job s.claims picked now
  unfold pollStep
  generalize s.job.claimNext settings s.claims picked now = result at heffect
  cases heffect with
  | unchanged => exact .quiet ⟨rfl, rfl, rfl⟩ rfl
  | swept hrun hexpired hmax =>
    exact .swept picked now rfl hrun hexpired hmax ⟨rfl, rfl, rfl⟩ rfl
  | rejected hclaimable hrequest =>
    exact .rejected picked now rfl hclaimable hrequest ⟨rfl, rfl, rfl⟩ rfl
  | claimed request hclaimable hrequest =>
    exact .claimed picked now rfl hclaimable rfl rfl rfl rfl

theorem renewStep_effect {token : LeaseToken} {w : Worker casefold} {now : Instant}
    (h : renewStep settings s token w now = some t) :
    Effect settings s (.renew token now) t := by
  have hjob : t.job = (s.job.renewOrCancel settings token now).job ∧ SameHistory s t := by
    unfold renewStep at h
    split at h
    · cases h
      exact ⟨rfl, rfl, rfl, rfl⟩
    · cases h
      exact ⟨rfl, rfl, rfl, rfl⟩
    · cases h
  obtain ⟨hjob, history⟩ := hjob
  rcases SyncJob.renewOrCancel_effect settings s.job token now with hlost | ⟨hheld, hwrite⟩
  · exact .quiet history (by rw [hjob, hlost])
  · exact .wrote token rfl hheld (hjob ▸ hwrite) history

theorem normalizeLocalStep_effect {call : CallId} {read : NormalizationRead} {now : Instant}
    (h : normalizeLocalStep s call read now = some t) :
    Effect settings s (.normalizeLocal call read now) t := by
  unfold normalizeLocalStep at h
  split at h
  · rename_i loaded options hloaded
    obtain ⟨summary, hsummary, rfl⟩ := Option.map_eq_some_iff.1 h
    exact .ranLocally call loaded options read summary now rfl hloaded hsummary rfl rfl rfl rfl
  · cases h

variable [DecidableEq K]

theorem persistStep_effect {token : LeaseToken} {w : Worker casefold} {batch : RepositoryBatch R}
    {rest : List R} (hw : s.workers token = some w) (hpc : w.pc = .persisting batch rest)
    (read : NormalizationRead) (now : Instant) :
    Effect settings s (.persist token read now)
      (persistStep settings s token w batch rest read now) := by
  have heffect := SyncJob.persistRepositoryBatch_effect settings s.job token w.request batch read now
  have hjob : (persistStep settings s token w batch rest read now).job =
      (s.job.persistRepositoryBatch settings token w.request batch read now).1.job := rfl
  have hcommitted : (persistStep settings s token w batch rest read now).committed =
      s.committed ++
        (s.job.persistRepositoryBatch settings token w.request batch read now).2.toList := rfl
  generalize (s.job.persistRepositoryBatch settings token w.request batch read now).1.job = job'
    at heffect hjob
  generalize (s.job.persistRepositoryBatch settings token w.request batch read now).2 = committed'
    at heffect hcommitted
  cases heffect with
  | unchanged => exact .quiet ⟨rfl, by simpa using hcommitted, rfl⟩ hjob
  | cancelled hheld hcancel =>
    refine .wrote token rfl hheld ?_ ⟨rfl, by simpa using hcommitted, rfl⟩
    rw [hjob]
    exact .cancelled now hcancel
  | committed summary hheld hnew hsummary =>
    exact .persisted token w batch rest summary now rfl hheld hw hpc hnew hjob rfl hcommitted rfl

theorem workerStep_effect {token : LeaseToken} {w : Worker casefold} (ha : a.token = some token)
    (hw : s.workers token = some w) (h : workerStep settings s token w a = some t) :
    Effect settings s a t := by
  unfold workerStep at h
  split at h
  · cases h
    exact .quiet ⟨rfl, rfl, rfl⟩ rfl
  · cases ha
    exact renewStep_effect h
  · cases h
    exact .quiet ⟨rfl, rfl, rfl⟩ rfl
  · cases h
    unfold readCompletedStep
    split
    · exact .quiet ⟨rfl, rfl, rfl⟩ rfl
    · dsimp only
      split <;> exact .quiet ⟨rfl, rfl, rfl⟩ rfl
  · rename_i now hpc
    cases h
    rcases SyncJob.finishResumedJob_effect settings s.job token now with
      hlost | ⟨hheld, hwrite | hfinished⟩
    · exact .quiet ⟨rfl, rfl, rfl⟩ (by simp only [World.commit, hlost])
    · exact .wrote token ha hheld hwrite ⟨rfl, rfl, rfl⟩
    · exact .finished token w now ha hheld hw hpc hfinished ⟨rfl, rfl, rfl⟩
  · cases h
    exact .quiet ⟨rfl, rfl, rfl⟩ rfl
  · rename_i read now batch rest hpc
    cases h
    cases ha
    exact persistStep_effect hw hpc read now
  · split at h
    · cases h
      exact .quiet ⟨rfl, rfl, rfl⟩ rfl
    · cases h
  · rename_i now error hpc
    cases h
    rcases SyncJob.retryOrFail_effect settings s.job token error now with hsame | ⟨hheld, hwrite⟩
    · exact .quiet ⟨rfl, rfl, rfl⟩ hsame
    · exact .wrote token ha hheld hwrite ⟨rfl, rfl, rfl⟩
  · cases h

theorem step_worker {token : LeaseToken} (ha : a.token = some token)
    (h : step settings s a = some t) :
    ∃ w, s.workers token = some w ∧ workerStep settings s token w a = some t := by
  cases a <;> cases ha <;> exact Option.bind_eq_some_iff.1 h

theorem step_effect (h : step settings s a = some t) : Effect settings s a t := by
  cases htoken : a.token with
  | some token =>
    obtain ⟨w, hw, hstep⟩ := step_worker htoken h
    exact workerStep_effect htoken hw hstep
  | none =>
    cases a with
    | poll picked now =>
      cases h
      exact pollStep_effect picked now
    | requestCancellation now =>
      obtain ⟨job, hjob, rfl⟩ := Option.map_eq_some_iff.1 h
      exact .cancelled now rfl hjob ⟨rfl, rfl, rfl⟩
    | loadLocal call options =>
      simp only [step, loadLocalStep] at h
      split at h
      · split at h
        · cases h
          exact .quiet ⟨rfl, rfl, rfl⟩ rfl
        · cases h
      · cases h
    | normalizeLocal call read now => exact normalizeLocalStep_effect h
    | _ => cases htoken

end StepEffect

end FounderOs.SyncWorker
