import FounderOs.SyncWorker.Effects

namespace FounderOs.SyncWorker

open Transition

variable {R K : Type} {casefold : R → K}

namespace SyncJob

variable {settings : Settings} {job job' : SyncJob casefold} {token : LeaseToken}

theorem HeldWrite.heldBy (h : HeldWrite settings job job') (hheld : job'.heldBy token) :
    job.heldBy token := by
  cases h with
  | cancelled now hcancel => cases hheld.1
  | renewed now => exact hheld
  | released error now =>
    have hstatus := hheld.1
    unfold SyncJob.released at hstatus
    split at hstatus <;> cases hstatus

theorem HeldWrite.owner (h : HeldWrite settings job job') (hrun : job'.status = .running) :
    job'.leaseOwner = job.leaseOwner := by
  cases h with
  | cancelled now hcancel => cases hrun
  | renewed now => rfl
  | released error now =>
    unfold SyncJob.released at hrun
    split at hrun <;> cases hrun

theorem HeldWrite.attempts (h : HeldWrite settings job job') :
    job'.attemptCount = job.attemptCount ∧ job'.maxAttempts = job.maxAttempts := by
  cases h with
  | cancelled now hcancel => exact ⟨rfl, rfl⟩
  | renewed now => exact ⟨rfl, rfl⟩
  | released error now =>
    unfold SyncJob.released
    split <;> exact ⟨rfl, rfl⟩

theorem finished_not_running (now : Instant) : (job.finished now).status ≠ .running := by
  simp only [finished]
  split <;> decide

theorem heldBy_of_withBatch {prepared : LiveSyncRequest casefold} {batch : RepositoryBatch R}
    {summary : NormalizationSummary} {now : Instant}
    (h : (job.withBatch settings prepared batch summary now).heldBy token) :
    job.leaseOwner = some token := by
  obtain ⟨-, howner⟩ := h
  simp only [withBatch] at howner
  split at howner
  · cases howner
  · exact howner

theorem withBatch_owner {prepared : LiveSyncRequest casefold} {batch : RepositoryBatch R}
    {summary : NormalizationSummary} {now : Instant}
    (h : (job.withBatch settings prepared batch summary now).status = .running) :
    (job.withBatch settings prepared batch summary now).leaseOwner = job.leaseOwner := by
  simp only [withBatch] at h ⊢
  split at h
  · split at h <;> cases h
  · rename_i hlast
    rw [if_neg hlast]

theorem requestCancellation_status {now : Instant} (h : job.requestCancellation now = some job') :
    job'.status = .cancelled := by
  unfold requestCancellation at h
  split at h <;> cases h <;> rfl

theorem requestCancellation_attempts {now : Instant}
    (h : job.requestCancellation now = some job') :
    job'.attemptCount = job.attemptCount ∧ job'.maxAttempts = job.maxAttempts := by
  unfold requestCancellation at h
  split at h <;> cases h <;> exact ⟨rfl, rfl⟩

theorem expireExhaustedLeases_attempts (job : SyncJob casefold) (now : Instant) :
    (job.expireExhaustedLeases now).attemptCount = job.attemptCount ∧
      (job.expireExhaustedLeases now).maxAttempts = job.maxAttempts := by
  unfold expireExhaustedLeases
  split <;> exact ⟨rfl, rfl⟩

theorem heldBy_of_expireExhaustedLeases {now : Instant}
    (h : (job.expireExhaustedLeases now).heldBy token) : job.heldBy token := by
  rcases expireExhaustedLeases_cases job now with heq | ⟨-, -, -, hfailed⟩
  · exact heq ▸ h
  · cases hfailed.symm.trans h.1

end SyncJob

theorem normalizationSummary_status {options : NormalizationOptions R} {read : NormalizationRead}
    {summary : NormalizationSummary} (h : normalizationSummary options read = some summary) :
    summary.status = if missingRequestedData options read then .partially else .succeeded := by
  unfold normalizationSummary at h
  split at h
  · cases h
  · cases h
    rfl

theorem normalizationSummary_not_running {options : NormalizationOptions R}
    {read : NormalizationRead} {summary : NormalizationSummary}
    (h : normalizationSummary options read = some summary) : summary.status ≠ .running := by
  rw [normalizationSummary_status h]
  split <;> decide

variable {settings : Settings} {s t u : World casefold} {a : Action R} {token : Nat}

theorem Effect.heldBy (h : Effect settings s a t) (hheld : t.job.heldBy token) :
    (s.job.heldBy token ∧ t.claims = s.claims) ∨ (token = s.claims ∧ t.claims = s.claims + 1) := by
  cases h with
  | quiet history job => exact .inl ⟨job ▸ hheld, history.claims⟩
  | swept picked now action hrun hexpired hmax history job =>
    exact .inl ⟨SyncJob.heldBy_of_expireExhaustedLeases (job ▸ hheld), history.claims⟩
  | rejected picked now action hclaimable hrequest history job =>
    rw [job] at hheld
    cases hheld.1
  | claimed picked now action hclaimable job claims committed localRuns =>
    rw [job] at hheld
    exact .inr ⟨(Option.some.inj hheld.2).symm, claims⟩
  | wrote holder action hholder write history => exact .inl ⟨write.heldBy hheld, history.claims⟩
  | finished holder w now action hholder worker pc job history =>
    exact absurd (job ▸ hheld).1 (SyncJob.finished_not_running now)
  | persisted holder w batch rest summary now action hholder worker pc hnew job claims
      committed localRuns =>
    exact .inl ⟨⟨hholder.1, SyncJob.heldBy_of_withBatch (job ▸ hheld)⟩, claims⟩
  | cancelled now action hrequest history =>
    cases (SyncJob.requestCancellation_status hrequest).symm.trans hheld.1
  | ranLocally call loaded options read summary now action hloaded hsummary job claims committed
      localRuns =>
    rw [job] at hheld
    exact absurd hheld.1 (normalizationSummary_not_running hsummary)

/-- Every claim issued has been counted in the row, and a lease names the newest one. -/
structure LeaseAccount (maxAttempts : Nat) (s : World casefold) : Prop where
  attempts : s.job.attemptCount = s.claims
  limit : s.job.maxAttempts = maxAttempts
  bounded : s.claims ≤ maxAttempts
  newest : ∀ token : Nat, s.job.heldBy token → token + 1 = s.claims
  owned : s.job.status = .running → ∃ token, s.job.heldBy token

theorem leaseAccount_queued (request : LiveSyncRequest casefold) (maxAttempts : Nat)
    (queuedAt : Instant) : LeaseAccount maxAttempts (queuedWorld request maxAttempts queuedAt) where
  attempts := rfl
  limit := rfl
  bounded := Nat.zero_le maxAttempts
  newest := by
    rintro token ⟨hstatus, -⟩
    cases hstatus
  owned := by
    intro hstatus
    cases hstatus

theorem Effect.attempts (h : Effect settings s a t) :
    t.job.maxAttempts = s.job.maxAttempts ∧
      ((t.job.attemptCount = s.job.attemptCount ∧ t.claims = s.claims) ∨
        (t.job.attemptCount = s.job.attemptCount + 1 ∧ t.claims = s.claims + 1 ∧
          s.job.attemptCount < s.job.maxAttempts)) := by
  cases h with
  | quiet history job =>
    rw [job]
    exact ⟨rfl, .inl ⟨rfl, history.claims⟩⟩
  | swept picked now action hrun hexpired hmax history job =>
    have hsame := SyncJob.expireExhaustedLeases_attempts s.job now
    rw [job]
    exact ⟨hsame.2, .inl ⟨hsame.1, history.claims⟩⟩
  | rejected picked now action hclaimable hrequest history job =>
    rw [job]
    exact ⟨rfl, .inl ⟨rfl, history.claims⟩⟩
  | claimed picked now action hclaimable job claims committed localRuns =>
    have hbelow : s.job.attemptCount < s.job.maxAttempts := by
      simp only [SyncJob.claimable, Bool.and_eq_true, decide_eq_true_eq] at hclaimable
      exact hclaimable.1.2
    rw [job]
    exact ⟨rfl, .inr ⟨rfl, claims, hbelow⟩⟩
  | wrote holder action hholder write history =>
    exact ⟨write.attempts.2, .inl ⟨write.attempts.1, history.claims⟩⟩
  | finished holder w now action hholder worker pc job history =>
    rw [job]
    exact ⟨rfl, .inl ⟨rfl, history.claims⟩⟩
  | persisted holder w batch rest summary now action hholder worker pc hnew job claims
      committed localRuns =>
    rw [job]
    exact ⟨rfl, .inl ⟨rfl, claims⟩⟩
  | cancelled now action hrequest history =>
    have hsame := SyncJob.requestCancellation_attempts hrequest
    exact ⟨hsame.2, .inl ⟨hsame.1, history.claims⟩⟩
  | ranLocally call loaded options read summary now action hloaded hsummary job claims committed
      localRuns =>
    rw [job]
    exact ⟨rfl, .inl ⟨rfl, claims⟩⟩

theorem Effect.owned (h : Effect settings s a t)
    (howned : s.job.status = .running → ∃ token, s.job.heldBy token) (hrun : t.job.status = .running) :
    ∃ token, t.job.heldBy token := by
  cases h with
  | quiet history job => exact job ▸ howned (job ▸ hrun)
  | swept picked now action hwas hexpired hmax history job =>
    have hfailed : t.job.status = .failed := by
      rw [job]
      simp [SyncJob.expireExhaustedLeases, hwas, hexpired, hmax]
    cases hfailed.symm.trans hrun
  | rejected picked now action hclaimable hrequest history job =>
    rw [job] at hrun
    cases hrun
  | claimed picked now action hclaimable job claims committed localRuns =>
    rw [job]
    exact ⟨s.claims, rfl, rfl⟩
  | wrote holder action hholder write history =>
    exact ⟨holder, hrun, (write.owner hrun).trans hholder.2⟩
  | finished holder w now action hholder worker pc job history =>
    exact absurd (job ▸ hrun) (SyncJob.finished_not_running now)
  | persisted holder w batch rest summary now action hholder worker pc hnew job claims
      committed localRuns =>
    rw [job] at hrun ⊢
    exact ⟨holder, hrun, (SyncJob.withBatch_owner hrun).trans hholder.2⟩
  | cancelled now action hrequest history =>
    cases (SyncJob.requestCancellation_status hrequest).symm.trans hrun
  | ranLocally call loaded options read summary now action hloaded hsummary job claims committed
      localRuns =>
    rw [job] at hrun
    exact absurd hrun (normalizationSummary_not_running hsummary)

theorem LeaseAccount.preserved {maxAttempts : Nat} (hinv : LeaseAccount maxAttempts s)
    (h : Effect settings s a t) : LeaseAccount maxAttempts t := by
  obtain ⟨hmax, hattempts⟩ := h.attempts
  have hcount := hinv.attempts
  have hlimit := hinv.limit
  have hbounded := hinv.bounded
  refine ⟨?_, by omega, ?_, ?_, h.owned hinv.owned⟩
  · rcases hattempts with ⟨hsame, hclaims⟩ | ⟨hnext, hclaims, -⟩ <;> omega
  · rcases hattempts with ⟨hsame, hclaims⟩ | ⟨hnext, hclaims, hbelow⟩ <;> omega
  · intro token hheld
    rcases h.heldBy hheld with ⟨hbefore, hsame⟩ | ⟨hnew, hissued⟩
    · have hnewest := hinv.newest token hbefore
      omega
    · omega

def Stale (s : World casefold) (token : Nat) : Prop :=
  token < s.claims ∧ ¬s.job.heldBy token

/-- The claim was issued, and then another one was, or the job was cancelled, or it has failed
because its attempts are exhausted (or cannot succeed). -/
structure Superseded (s : World casefold) (token : Nat) : Prop where
  issued : token < s.claims
  lost : token + 1 < s.claims ∨ s.job.status = .cancelled ∨ s.job.status = .failed

theorem LeaseAccount.stale {maxAttempts : Nat} (hinv : LeaseAccount maxAttempts s)
    (h : Superseded s token) : Stale s token := by
  refine ⟨h.issued, fun hheld => ?_⟩
  have hnewest := hinv.newest token hheld
  rcases h.lost with hnewer | hcancelled | hfailed
  · omega
  · cases hcancelled.symm.trans hheld.1
  · cases hfailed.symm.trans hheld.1

theorem Effect.claims_le (h : Effect settings s a t) : s.claims ≤ t.claims := by
  obtain ⟨-, ⟨-, hclaims⟩ | ⟨-, hclaims, -⟩⟩ := h.attempts <;> omega

theorem Stale.preserved (hstale : Stale s token) (h : Effect settings s a t) : Stale t token := by
  refine ⟨Nat.lt_of_lt_of_le hstale.1 h.claims_le, fun hheld => ?_⟩
  rcases h.heldBy hheld with ⟨hbefore, -⟩ | ⟨hnew, -⟩
  · exact hstale.2 hbefore
  · exact Nat.lt_irrefl s.claims (hnew ▸ hstale.1)

/-- Every write a worker makes passes the lease check under the row lock. -/
theorem Effect.fenced (h : Effect settings s a t) (ha : a.token = some token)
    (hheld : ¬s.job.heldBy token) : t.job = s.job ∧ SameHistory s t := by
  cases h with
  | quiet history job => exact ⟨job, history⟩
  | wrote holder action hholder write history =>
    exact absurd (Option.some.inj (action.symm.trans ha) ▸ hholder) hheld
  | finished holder w now action hholder worker pc job history =>
    exact absurd (Option.some.inj (action.symm.trans ha) ▸ hholder) hheld
  | persisted holder w batch rest summary now action hholder worker pc hnew job claims
      committed localRuns =>
    exact absurd (Option.some.inj (action.symm.trans ha) ▸ hholder) hheld
  | swept picked now action hrun hexpired hmax history job => cases action ▸ ha
  | rejected picked now action hclaimable hrequest history job => cases action ▸ ha
  | claimed picked now action hclaimable job claims committed localRuns => cases action ▸ ha
  | cancelled now action hrequest history => cases action ▸ ha
  | ranLocally call loaded options read summary now action hloaded hsummary job claims committed
      localRuns => cases action ▸ ha

variable [DecidableEq K]

theorem leaseAccount_of_reaches {request : LiveSyncRequest casefold} {maxAttempts : Nat}
    {queuedAt : Instant}
    (h : Reaches (step settings) anyStep (queuedWorld request maxAttempts queuedAt) s) :
    LeaseAccount maxAttempts s :=
  h.invariant (fun _ _ _ hinv _ hstep => hinv.preserved (step_effect hstep))
    (leaseAccount_queued request maxAttempts queuedAt)

theorem Stale.of_reaches (hstale : Stale s token) (h : Reaches (step settings) anyStep s t) :
    Stale t token :=
  h.invariant (P := fun x => Stale x token)
    (fun _ _ _ hinv _ hstep => hinv.preserved (step_effect hstep)) hstale

theorem superseded_claim_fenced {request : LiveSyncRequest casefold} {maxAttempts : Nat}
    {queuedAt : Instant}
    (h : Reaches (step settings) anyStep (queuedWorld request maxAttempts queuedAt) s) :
    s.claims ≤ maxAttempts ∧
      ∀ token, Superseded s token → ∀ t a u, Reaches (step settings) anyStep s t →
        a.token = some token → step settings t a = some u → u.job = t.job ∧ SameHistory t u := by
  have hinv := leaseAccount_of_reaches h
  refine ⟨hinv.bounded, fun token hsuperseded t a u hreach ha hstep => ?_⟩
  have hstale := (hinv.stale hsuperseded).of_reaches hreach
  exact (step_effect hstep).fenced ha hstale.2

def oneRepository : LiveSyncRequest (fun repository : Nat => repository) where
  repositories := [0]
  includeIssues := true
  includePullRequests := false
  issueStates := [.all]
  pullRequestStates := []
  nonempty := by decide
  distinct := by decide

/-- A worker pauses between its provider read and its persist while its lease expires. -/
def pausedBeforePersist : List (Action Nat) :=
  [.poll true 0, .prepareClaim 0, .renew 0 1, .openProvider 0, .readCompleted 0, .renew 0 2,
    .readBatch 0 ⟨3, 1, 0, 0⟩, .poll true 900000000]

theorem superseded_claim_fenced_paused_worker :
    ∃ s u, Reaches (step ⟨300, 5⟩) anyStep (queuedWorld oneRepository 2 0) s ∧
      step ⟨300, 5⟩ s (.persist 0 ⟨1, 1, 0, 2, 0⟩ 900000001) = some u ∧
      u.job = s.job ∧ SameHistory s u := by
  have hrun : (exec (step ⟨300, 5⟩) (queuedWorld oneRepository 2 0) pausedBeforePersist).map
      (fun s => decide (s.claims = 2) &&
        (step ⟨300, 5⟩ s (.persist 0 ⟨1, 1, 0, 2, 0⟩ 900000001)).isSome) = some true := by decide
  obtain ⟨s, hreach, hcheck⟩ := reaches_of_exec_check hrun
  obtain ⟨hclaims, hstep⟩ := Bool.and_eq_true_iff.1 hcheck
  have hissued : s.claims = 2 := of_decide_eq_true hclaims
  obtain ⟨u, hu⟩ := Option.isSome_iff_exists.1 hstep
  have hsuperseded : Superseded s 0 := ⟨by omega, .inl (by omega)⟩
  have hfenced := superseded_claim_fenced hreach
  exact ⟨s, u, hreach, hu, hfenced.2 0 hsuperseded s _ u (.refl s) rfl hu⟩

end FounderOs.SyncWorker
