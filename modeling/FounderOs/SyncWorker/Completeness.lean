import FounderOs.SyncWorker.Ledger

namespace FounderOs.SyncWorker

open Transition

variable {R K : Type} {casefold : R → K} {request : LiveSyncRequest casefold}
  {settings : Settings} {s t : World casefold} {a : Action R} {token : Nat}

theorem completedKeys_congr (h : t.committed = s.committed) : t.completedKeys = s.completedKeys := by
  simp only [World.completedKeys, h]

theorem Covered.congr (h : t.committed = s.committed) (hcovered : Covered request s) :
    Covered request t := by
  intro repository hrepository
  rw [completedKeys_congr h]
  exact hcovered repository hrepository

theorem Covered.mono (h : s.committed <+: t.committed) (hcovered : Covered request s) :
    Covered request t := by
  intro repository hrepository
  obtain ⟨later, hlater⟩ := h
  simp only [World.completedKeys, ← hlater, List.map_append, List.mem_append]
  exact .inl (hcovered repository hrepository)

theorem Ledger.completed_keys (h : Ledger request s) :
    (progress s.job.cursorAfter).completedRepositories.map casefold = s.completedKeys := by
  rw [h.completed, List.map_map]
  rfl

theorem Ledger.kept (h : Ledger request s) (hsame : SyncJob.SameProgress s.job t.job)
    (hcommitted : t.committed = s.committed)
    (hcovered : t.job.status = .succeeded → Covered request s) : Ledger request t where
  complete :=
    { once := completedKeys_congr hcommitted ▸ h.complete.once
      requested := hcommitted ▸ h.complete.requested
      counters := hcommitted ▸ hsame.counters h.complete.counters
      covered := fun hstatus => (hcovered hstatus).congr hcommitted }
  payload := hsame.request.trans h.payload
  completed := by rw [hsame.completed, hcommitted, h.completed]

/-- Distinct requested names, as many as were requested, are all of them. -/
theorem covered_of_length (h : (s.completedKeys).Nodup)
    (hrequested : ∀ c ∈ s.committed, c.batch.fullName ∈ request.repositories)
    (hlength : request.repositories.length ≤ s.committed.length) : Covered request s := by
  have hsub : s.completedKeys ⊆ request.repositories.map casefold := by
    intro key hkey
    obtain ⟨c, hc, rfl⟩ := List.mem_map.1 hkey
    exact List.mem_map_of_mem (hrequested c hc)
  have hperm : s.completedKeys.Perm (request.repositories.map casefold) :=
    (List.subperm_of_subset h hsub).perm_of_length_le (by
      simpa [World.completedKeys] using hlength)
  intro repository hrepository
  exact hperm.mem_iff.2 (List.mem_map_of_mem hrepository)

theorem withBatch_counters {job : SyncJob casefold} {committed : List (CommittedBatch R)}
    (h : CountersAgree job committed) (batch : RepositoryBatch R) (summary : NormalizationSummary)
    (now : Instant) :
    CountersAgree (job.withBatch settings request batch summary now)
      (committed ++ [⟨token, batch, summary.recordsCreated, summary.recordsUpdated⟩]) where
  repositories := by simp [Counts.add, RepositoryBatch.counts, h.repositories]
  issues := by simp [Counts.add, RepositoryBatch.counts, h.issues]
  pullRequests := by simp [Counts.add, RepositoryBatch.counts, h.pullRequests]
  skippedPullRequests := by simp [Counts.add, RepositoryBatch.counts, h.skippedPullRequests]
  recordsSeen := by
    have hrepositories := h.repositories
    have hissues := h.issues
    have hpulls := h.pullRequests
    simp only [SyncJob.withBatch, Counts.add, RepositoryBatch.counts, total_concat,
      List.length_append, List.length_singleton]
    omega
  recordsCreated := by simp [SyncJob.withBatch, h.recordsCreated]
  recordsUpdated := by simp [SyncJob.withBatch, h.recordsUpdated]

theorem length_le_of_withBatch_succeeded {job : SyncJob casefold} {batch : RepositoryBatch R}
    {summary : NormalizationSummary} {now : Instant}
    (h : (job.withBatch settings request batch summary now).status = .succeeded) :
    request.repositories.length ≤ (progress job.cursorAfter).completedRepositories.length + 1 := by
  simp only [SyncJob.withBatch] at h
  split at h
  · rename_i hlast
    simpa using hlast
  · cases h

theorem Ledger.persisted (h : Ledger request s) {batch : RepositoryBatch R}
    {summary : NormalizationSummary} {now : Instant}
    (hnew : casefold batch.fullName ∉
      (progress s.job.cursorAfter).completedRepositories.map casefold)
    (hrequested : batch.fullName ∈ request.repositories)
    (job : t.job = s.job.withBatch settings request batch summary now)
    (committed : t.committed =
      s.committed ++ [⟨token, batch, summary.recordsCreated, summary.recordsUpdated⟩]) :
    Ledger request t := by
  have hkeys : t.completedKeys = s.completedKeys ++ [casefold batch.fullName] := by
    simp [World.completedKeys, committed]
  have honce : t.completedKeys.Nodup := by
    rw [hkeys]
    refine h.complete.once.append (List.nodup_singleton _) (List.disjoint_singleton.2 ?_)
    rwa [h.completed_keys] at hnew
  have hall : ∀ c ∈ t.committed, c.batch.fullName ∈ request.repositories := by
    intro c hc
    rw [committed, List.mem_append, List.mem_singleton] at hc
    rcases hc with hc | rfl
    · exact h.complete.requested c hc
    · exact hrequested
  refine ⟨⟨honce, hall, ?_, ?_⟩, ?_, ?_⟩
  · rw [job, committed]
    exact withBatch_counters h.complete.counters batch summary now
  · intro hstatus
    rw [job] at hstatus
    have hlength := length_le_of_withBatch_succeeded hstatus
    rw [h.completed, List.length_map] at hlength
    refine covered_of_length honce hall ?_
    simpa [committed] using hlength
  · rw [job]
    exact h.payload
  · rw [job, committed, List.map_append, ← h.completed, SyncJob.progress_withBatch_completed]
    rfl

theorem missing_status {options : NormalizationOptions R} {read : NormalizationRead}
    {summary : NormalizationSummary} (hsummary : normalizationSummary options read = some summary) :
    summary.status = .partially ↔ missingRequestedData options read = true := by
  rw [normalizationSummary_status hsummary]
  split <;> simp_all

theorem nothingLocal_iff {options : NormalizationOptions R} {read : NormalizationRead}
    {summary : NormalizationSummary} (hsummary : normalizationSummary options read = some summary) :
    NothingLocal options read ↔ summary.status = .partially ∧ summary.recordsSeen = 0 ∧
      summary.recordsCreated = 0 ∧ summary.recordsUpdated = 0 := by
  rw [missing_status hsummary]
  unfold normalizationSummary at hsummary
  split at hsummary
  · cases hsummary
  · cases hsummary
    simp only [NormalizationSummary.recordsSeen, Nat.add_eq_zero_iff, ite_eq_right_iff]
    constructor
    · rintro ⟨hmissing, hrepositories, hissues, hpulls, hcreated, hupdated⟩
      exact ⟨hmissing, ⟨⟨hrepositories, hissues⟩, hpulls⟩, hcreated, hupdated⟩
    · rintro ⟨hmissing, ⟨⟨hrepositories, hissues⟩, hpulls⟩, hcreated, hupdated⟩
      exact ⟨hmissing, hrepositories, hissues, hpulls, hcreated, hupdated⟩

theorem CountersAgree.records_zero {job : SyncJob casefold} (h : CountersAgree job []) :
    job.recordsSeen = 0 ∧ job.recordsCreated = 0 ∧ job.recordsUpdated = 0 :=
  ⟨h.recordsSeen, h.recordsCreated, h.recordsUpdated⟩

theorem assign_zero (loaded : Nat) : SyncJob.assign loaded 0 0 = 0 := by
  unfold SyncJob.assign
  split <;> rfl

theorem assign_from_zero (new : Nat) : SyncJob.assign 0 new 0 = new := by
  unfold SyncJob.assign
  split <;> simp_all

/-- A normalize-local run that stores nothing leaves the counters of a job without batches. -/
theorem Ledger.ranLocally (h : Ledger request s) {loaded : SyncJob casefold}
    {options : NormalizationOptions R} {read : NormalizationRead} {summary : NormalizationSummary}
    {now : Instant} (hempty : s.committed = []) (hnothing : NothingLocal options read)
    (hsummary : normalizationSummary options read = some summary)
    (job : t.job = s.job.normalizedLocally loaded options summary now)
    (committed : t.committed = s.committed) : Ledger request t := by
  obtain ⟨hended, hseen, hcreated, hupdated⟩ := (nothingLocal_iff hsummary).1 hnothing
  have hcounters := h.complete.counters
  rw [hempty] at hcounters
  obtain ⟨hseen₀, hcreated₀, hupdated₀⟩ := hcounters.records_zero
  refine ⟨⟨?_, ?_, ?_, ?_⟩, ?_, ?_⟩
  · rw [completedKeys_congr committed]
    exact h.complete.once
  · rw [committed]
    exact h.complete.requested
  · rw [job, committed, hempty]
    refine ⟨rfl, rfl, rfl, rfl, ?_, ?_, ?_⟩
    · simp [SyncJob.normalizedLocally, hseen, hseen₀, assign_zero]
    · simp [SyncJob.normalizedLocally, hcreated, hcreated₀, assign_zero]
    · simp [SyncJob.normalizedLocally, hupdated, hupdated₀, assign_zero]
  · intro hstatus
    rw [job] at hstatus
    cases hended.symm.trans hstatus
  · rw [job]
    exact h.payload
  · rw [job, committed, hempty]
    rfl

theorem Effect.committed_prefix (h : Effect settings s a t) : s.committed <+: t.committed := by
  cases h with
  | quiet history job => exact history.committed ▸ List.prefix_rfl
  | swept picked now action hrun hexpired hmax history job =>
    exact history.committed ▸ List.prefix_rfl
  | rejected picked now action hclaimable hrequest history job =>
    exact history.committed ▸ List.prefix_rfl
  | claimed picked now action hclaimable job claims committed localRuns =>
    exact committed ▸ List.prefix_rfl
  | wrote holder action hholder write history => exact history.committed ▸ List.prefix_rfl
  | finished holder w now action hholder worker pc job history =>
    exact history.committed ▸ List.prefix_rfl
  | persisted holder w batch rest summary now action hholder worker pc hnew job claims
      committed localRuns => exact committed ▸ List.prefix_append _ _
  | cancelled now action hrequest history => exact history.committed ▸ List.prefix_rfl
  | ranLocally call loaded options read summary now action hloaded hsummary job claims committed
      localRuns => exact committed ▸ List.prefix_rfl

theorem Ledger.preserved (h : Ledger request s) (hinflight : InFlight request s)
    (hidle : LocalRunsIdle s a) (heffect : Effect settings s a t) : Ledger request t := by
  have hcovered := h.complete.covered
  cases heffect with
  | quiet history job =>
    exact h.kept (job ▸ SyncJob.SameProgress.refl s.job) history.committed (job ▸ hcovered)
  | swept picked now action hrun hexpired hmax history job =>
    refine h.kept (job ▸ SyncJob.expireExhaustedLeases_sameProgress now) history.committed ?_
    intro hstatus
    rcases SyncJob.expireExhaustedLeases_cases s.job now with heq | ⟨-, -, -, hfailed⟩
    · exact hcovered ((job.trans heq) ▸ hstatus)
    · cases (job ▸ hfailed).symm.trans hstatus
  | rejected picked now action hclaimable hrequest history job =>
    refine h.kept (job ▸ ⟨rfl, rfl, rfl, rfl, rfl, rfl⟩) history.committed ?_
    intro hstatus
    rw [job] at hstatus
    cases hstatus
  | claimed picked now action hclaimable job claims committed localRuns =>
    refine h.kept (job ▸ ⟨rfl, rfl, rfl, rfl, rfl, rfl⟩) committed ?_
    intro hstatus
    rw [job] at hstatus
    cases hstatus
  | wrote holder action hholder write history =>
    exact h.kept write.sameProgress history.committed
      (fun hstatus => absurd hstatus (write.not_succeeded hholder.1))
  | finished holder w now action hholder worker pc job history =>
    exact h.kept (job ▸ ⟨rfl, rfl, rfl, rfl, rfl, rfl⟩) history.committed
      (fun _ => hinflight.resumed holder w worker pc hholder)
  | persisted holder w batch rest summary now action hholder worker pc hnew job claims
      committed localRuns =>
    have hrequested : batch.fullName ∈ request.repositories :=
      hinflight.planned holder w worker _ (by simp [pc, WorkerPc.planned])
    rw [hinflight.payload holder w worker] at job
    exact h.persisted hnew hrequested job committed
  | cancelled now action hrequest history =>
    refine h.kept (SyncJob.requestCancellation_sameProgress hrequest) history.committed ?_
    intro hstatus
    cases (SyncJob.requestCancellation_status hrequest).symm.trans hstatus
  | ranLocally call loaded options read summary now action hloaded hsummary job claims committed
      localRuns =>
    obtain ⟨-, hempty, hnothing⟩ := hidle call read now loaded options action hloaded
    exact h.ranLocally hempty hnothing hsummary job committed

theorem leaseExpired_of_claimable {job : SyncJob casefold} {now : Instant}
    (h : job.claimable now = true) (hrun : job.status = .running) : job.leaseExpired now = true := by
  simp only [SyncJob.claimable, SyncJob.eligible, hrun, Bool.and_eq_true, Bool.or_eq_true,
    decide_eq_true_eq] at h
  rcases h.2 with ⟨hqueued, -⟩ | ⟨-, hexpired⟩
  · cases hqueued
  · exact hexpired

theorem Effect.exclusive (h : Effect settings s a t) (hidle : LocalRunsIdle s a) :
    Exclusive s a t := by
  intro token hheld
  have hsame : ∀ holder, s.job.heldBy holder → holder = token := by
    intro holder hholder
    exact Option.some.inj (hholder.2.symm.trans hheld.2)
  cases h with
  | quiet history job => exact .inl ⟨job, history.committed, history.localRuns⟩
  | swept picked now action hrun hexpired hmax history job =>
    exact .inr (.inr (.inr ⟨picked, now, action, hexpired⟩))
  | rejected picked now action hclaimable hrequest history job =>
    exact .inr (.inr (.inr ⟨picked, now, action, leaseExpired_of_claimable hclaimable hheld.1⟩))
  | claimed picked now action hclaimable job claims committed localRuns =>
    exact .inr (.inr (.inr ⟨picked, now, action, leaseExpired_of_claimable hclaimable hheld.1⟩))
  | wrote holder action hholder write history => exact .inr (.inl (hsame holder hholder ▸ action))
  | finished holder w now action hholder worker pc job history =>
    exact .inr (.inl (hsame holder hholder ▸ action))
  | persisted holder w batch rest summary now action hholder worker pc hnew job claims
      committed localRuns => exact .inr (.inl (hsame holder hholder ▸ action))
  | cancelled now action hrequest history => exact .inr (.inr (.inl ⟨now, action⟩))
  | ranLocally call loaded options read summary now action hloaded hsummary job claims committed
      localRuns =>
    have hunclaimed := (hidle call read now loaded options action hloaded).1
    exact absurd hheld.1 hunclaimed

/-- The worker at `token` after a step is the one before it, or a new claimant, or has moved. -/
theorem worker_after {w : Worker casefold} (h : WorkersAfter s t) (hw : t.workers token = some w) :
    s.workers token = some w ∨
      (token = s.claims ∧ t.claims = s.claims + 1 ∧ w.pc = .preparing ∧
        s.job.request = some w.request) ∨
      ∃ w₀, s.workers token = some w₀ ∧ w.request = w₀.request ∧ Move s token w₀ w.pc := by
  cases h with
  | same workers => exact .inl (workers ▸ hw)
  | joined request hrequest workers claims =>
    rw [workers] at hw
    by_cases heq : token = s.claims
    · rw [heq, Function.update_self, Option.some.injEq] at hw
      subst hw
      exact .inr (.inl ⟨heq, claims, rfl, hrequest⟩)
    · rw [Function.update_of_ne heq] at hw
      exact .inl hw
  | moved holder w₀ pc hw₀ hmove workers =>
    rw [workers] at hw
    by_cases heq : token = holder
    · rw [heq, Function.update_self, Option.some.injEq] at hw
      subst hw heq
      exact .inr (.inr ⟨w₀, hw₀, rfl, hmove⟩)
    · rw [Function.update_of_ne heq] at hw
      exact .inl hw

section Runs

variable [DecidableEq K]

theorem workerStep_calls {w : Worker casefold} (h : workerStep settings s token w a = some t) :
    t.calls = s.calls := by
  unfold workerStep at h
  split at h
  case h_2 =>
    unfold renewStep at h
    split at h <;> cases h <;> rfl
  case h_4 =>
    cases h
    unfold readCompletedStep
    split
    · rfl
    · dsimp only
      split <;> rfl
  case h_8 =>
    split at h <;> cases h
    rfl
  all_goals
    cases h
    try rfl

theorem step_calls {call : CallId} {job : SyncJob casefold} {options : NormalizationOptions R}
    (h : step settings s a = some t) (hcall : t.calls call = .loaded job options) :
    s.calls call = .loaded job options ∨ (job = s.job ∧ t.committed = s.committed) := by
  cases htoken : a.token with
  | some token =>
    obtain ⟨w, hw, hstep⟩ := step_worker htoken h
    exact .inl (workerStep_calls hstep ▸ hcall)
  | none =>
    cases a with
    | poll picked now =>
      cases h
      unfold pollStep at hcall
      split at hcall <;> exact .inl hcall
    | requestCancellation now =>
      obtain ⟨job', hjob, rfl⟩ := Option.map_eq_some_iff.1 h
      exact .inl hcall
    | loadLocal n options' =>
      simp only [step, loadLocalStep] at h
      split at h
      · split at h
        · cases h
          by_cases hn : call = n
          · subst hn
            simp only [Function.update_self, LocalCall.loaded.injEq] at hcall
            exact .inr ⟨hcall.1.symm, rfl⟩
          · exact .inl (by simpa [Function.update_of_ne hn] using hcall)
        · cases h
      · cases h
    | normalizeLocal n read now =>
      simp only [step, normalizeLocalStep] at h
      split at h
      · obtain ⟨summary, hsummary, rfl⟩ := Option.map_eq_some_iff.1 h
        by_cases hn : call = n
        · subst hn
          simp at hcall
        · exact .inl (by simpa [Function.update_of_ne hn] using hcall)
      · cases h
    | _ => cases htoken

theorem InFlight.preserved (h : InFlight request s) (hledger : Ledger request s)
    (hstep : step settings s a = some t) : InFlight request t := by
  have heffect := step_effect hstep
  have hworkers := step_workers hstep
  have hclaims := heffect.claims_le
  refine ⟨?_, ?_, ?_, ?_, ?_⟩
  · intro token w hw
    rcases worker_after hworkers hw with hbefore | ⟨htoken, hnext, -, -⟩ | ⟨w₀, hw₀, -, -⟩
    · exact Nat.lt_of_lt_of_le (h.issued token w hbefore) hclaims
    · omega
    · exact Nat.lt_of_lt_of_le (h.issued token w₀ hw₀) hclaims
  · intro token w hw
    rcases worker_after hworkers hw with hbefore | ⟨-, -, -, hrequest⟩ | ⟨w₀, hw₀, hsame, -⟩
    · exact h.payload token w hbefore
    · exact Option.some.inj (hrequest.symm.trans hledger.payload)
    · exact hsame.trans (h.payload token w₀ hw₀)
  · intro token w hw repository hrepository
    rcases worker_after hworkers hw with hbefore | ⟨-, -, hpc, -⟩ | ⟨w₀, hw₀, -, hmove⟩
    · exact h.planned token w hbefore repository hrepository
    · rw [hpc] at hrepository
      cases hrepository
    · generalize w.pc = pc at hmove hrepository
      cases hmove with
      | onward pc hpc hplanned =>
        rcases hplanned repository hrepository with hrequested | hplanned
        · exact h.payload token w₀ hw₀ ▸ hrequested
        · exact h.planned token w₀ hw₀ repository hplanned
      | resumed hall => cases hrepository
  · intro token w hw hfinishing hheld
    rcases worker_after hworkers hw with hbefore | ⟨-, -, hpc, -⟩ | ⟨w₀, hw₀, -, hmove⟩
    · have hissued := h.issued token w hbefore
      rcases heffect.heldBy hheld with ⟨hheld₀, -⟩ | ⟨hnew, -⟩
      · exact (h.resumed token w hbefore hfinishing hheld₀).mono heffect.committed_prefix
      · exact absurd hnew (Nat.ne_of_lt hissued)
    · cases hpc.symm.trans hfinishing
    · rw [hfinishing] at hmove
      cases hmove with
      | onward pc hpc hplanned => exact absurd rfl hpc
      | resumed hall =>
        have hcovered : Covered request s := by
          intro repository hrepository
          rw [← hledger.completed_keys]
          exact hall repository (h.payload token w₀ hw₀ ▸ hrepository)
        exact hcovered.mono heffect.committed_prefix
  · intro call job options hcall hempty
    have hempty₀ : s.committed = [] := List.prefix_nil.1 (hempty ▸ heffect.committed_prefix)
    rcases step_calls hstep hcall with hbefore | ⟨rfl, -⟩
    · exact h.loaded call job options hbefore hempty₀
    · exact (hempty₀ ▸ hledger.complete.counters).records_zero

theorem ledger_of_reaches {maxAttempts : Nat} {queuedAt : Instant}
    (h : Reaches (step settings) LocalRunsIdle (queuedWorld request maxAttempts queuedAt) s) :
    Ledger request s ∧ InFlight request s :=
  h.invariant (P := fun x => Ledger request x ∧ InFlight request x)
    (fun _ _ _ hinv hidle hstep =>
      ⟨hinv.1.preserved hinv.2 hidle (step_effect hstep), hinv.2.preserved hinv.1 hstep⟩)
    ⟨ledger_queued request maxAttempts queuedAt, inFlight_queued request maxAttempts queuedAt⟩

/-- The condition excludes exactly the normalize-local commits that do harm. -/
theorem local_run_harmless_iff {maxAttempts : Nat} {call : CallId} {read : NormalizationRead}
    {now : Instant} (hledger : Ledger request s) (hinflight : InFlight request s)
    (haccount : LeaseAccount maxAttempts s)
    (hstep : step settings s (.normalizeLocal call read now) = some t) :
    (Complete request t ∧ Exclusive s (.normalizeLocal call read now) t) ↔
      LocalRunsIdle s (.normalizeLocal call read now) := by
  have heffect := step_effect hstep
  constructor
  · rintro ⟨hcomplete, hexclusive⟩ call' read' now' loaded options heq hloaded
    cases heq
    simp only [step, normalizeLocalStep, hloaded] at hstep
    obtain ⟨summary, hsummary, rfl⟩ := Option.map_eq_some_iff.1 hstep
    have hempty : s.committed = [] :=
      List.eq_nil_of_length_eq_zero hcomplete.counters.repositories.symm
    have hunclaimed : s.job.status ≠ .running := by
      intro hrun
      obtain ⟨token, hheld⟩ := haccount.owned hrun
      rcases hexclusive token hheld with ⟨hjob, -, -⟩ | htoken | ⟨now', hcancel⟩ | ⟨_, _, hpoll, -⟩
      · have hstatus : summary.status = s.job.status := congrArg SyncJob.status hjob
        exact normalizationSummary_not_running hsummary (hstatus.trans hrun)
      · cases htoken
      · cases hcancel
      · cases hpoll
    refine ⟨hunclaimed, hempty, (nothingLocal_iff hsummary).2 ?_⟩
    obtain ⟨hseen, hcreated, hupdated⟩ := hinflight.loaded call loaded options hloaded hempty
    have hbefore := hledger.complete.counters
    have hafter := hcomplete.counters
    simp only [hempty] at hbefore hafter
    obtain ⟨hseen₀, hcreated₀, hupdated₀⟩ := hbefore.records_zero
    obtain ⟨hseen₁, hcreated₁, hupdated₁⟩ := hafter.records_zero
    simp only [SyncJob.normalizedLocally, hseen, hcreated, hupdated, hseen₀, hcreated₀,
      hupdated₀, assign_from_zero] at hseen₁ hcreated₁ hupdated₁
    refine ⟨?_, hseen₁, hcreated₁, hupdated₁⟩
    have hended : summary.status ≠ .succeeded := by
      intro hstatus
      obtain ⟨repository, hrepository⟩ := List.exists_mem_of_ne_nil _ request.nonempty
      have hcovered := hcomplete.covered hstatus repository hrepository
      simp [World.completedKeys, hempty] at hcovered
    have hstatus := normalizationSummary_status hsummary
    split at hstatus
    · exact hstatus
    · exact absurd hstatus hended
  · intro hidle
    exact ⟨(hledger.preserved hinflight hidle heffect).complete, heffect.exclusive hidle⟩

theorem sync_job_complete_and_exclusive {maxAttempts : Nat} {queuedAt : Instant}
    (h : Reaches (step settings) LocalRunsIdle (queuedWorld request maxAttempts queuedAt) s) :
    Complete request s ∧
      ∀ a t, LocalRunsIdle s a → step settings s a = some t → Exclusive s a t :=
  ⟨(ledger_of_reaches h).1.complete, fun _ _ hidle hstep => (step_effect hstep).exclusive hidle⟩

end Runs

theorem sync_job_complete_and_exclusive_one_repository :
    ∃ s, Reaches (step ⟨300, 5⟩) LocalRunsIdle (queuedWorld oneRepository 2 0) s ∧
      s.job.status = .succeeded ∧ Complete oneRepository s := by
  have hrun : (exec (restrict (step ⟨300, 5⟩) fun _ a => a.isNormalizeLocal = false)
      (queuedWorld oneRepository 2 0)
      [.poll true 0, .prepareClaim 0, .renew 0 1, .openProvider 0, .readCompleted 0, .renew 0 2,
        .readBatch 0 ⟨3, 1, 0, 0⟩, .persist 0 ⟨1, 1, 0, 2, 0⟩ 4]).any
      (fun s => decide (s.job.status = .succeeded)) = true := by decide
  obtain ⟨s, hs, hstatus⟩ := (Option.any_eq_true _ _).1 hrun
  have hreach : Reaches (step ⟨300, 5⟩) LocalRunsIdle (queuedWorld oneRepository 2 0) s := by
    refine (reaches_of_exec_restrict hs).weaken ?_
    intro s a ha call read now loaded options heq
    cases heq
    cases ha
  exact ⟨s, hreach, of_decide_eq_true hstatus, (sync_job_complete_and_exclusive hreach).1⟩

def repositoriesOnly : NormalizationOptions Nat where
  includeRepositories := true
  includeIssues := false
  includePullRequests := false
  persistIfSupported := false
  snapshotObservedAt := none
  providerAttested := false
  authoritativeIssueRepositories := []
  authoritativePullRequestRepositories := []

/-- The endpoint reads the queued row, a worker claims the job, and the endpoint commits. -/
theorem local_run_succeeds_claimed_job :
    ¬∀ s, Reaches (step ⟨300, 5⟩) anyStep (queuedWorld oneRepository 2 0) s →
      Complete oneRepository s ∧ ∀ a t, step ⟨300, 5⟩ s a = some t → Exclusive s a t := by
  intro hall
  have hrun : (exec (step ⟨300, 5⟩) (queuedWorld oneRepository 2 0)
      [.loadLocal 0 repositoriesOnly, .poll true 0, .normalizeLocal 0 ⟨1, 0, 0, 0, 0⟩ 1]).map
      (fun s => decide (s.job.status = .succeeded ∧ s.committed.length = 0)) = some true := by
    decide
  obtain ⟨s, hreach, hcheck⟩ := reaches_of_exec_check hrun
  obtain ⟨hstatus, hnone⟩ := of_decide_eq_true hcheck
  have hcomplete := (hall s hreach).1
  have hcovered := hcomplete.covered hstatus 0 (by decide)
  have hlength := List.length_pos_of_mem hcovered
  simp only [World.completedKeys, List.length_map, hnone] at hlength
  exact absurd hlength (by decide)

end FounderOs.SyncWorker
