import FounderOs.SyncWorker.Fencing

namespace FounderOs.SyncWorker

open Transition

variable {R K : Type} {casefold : R → K}

def SyncJobStatus.isTerminal : SyncJobStatus → Bool
  | succeeded | failed | partially | cancelled => true
  | queued | running => false

def ProgressPhase.isTerminal : ProgressPhase → Bool
  | ofStatus status => status.isTerminal
  | retryScheduled => false

namespace SyncJob

def phase (job : SyncJob casefold) : Option ProgressPhase := (progress job.cursorAfter).phase

/-- The phase in the cursor is that of the status where the status is terminal, and where it is not,
the phase is not terminal either. -/
structure TellsTruth (job : SyncJob casefold) : Prop where
  ended : job.status.isTerminal = true → job.phase = some (.ofStatus job.status)
  pending : job.status.isTerminal = false → job.phase.any (·.isTerminal) = false

variable {settings : Settings} {job job' : SyncJob casefold} {token : LeaseToken} {now : Instant}

theorem tellsTruth_enqueue (request : LiveSyncRequest casefold) (maxAttempts : Nat)
    (queuedAt : Instant) : (enqueue request maxAttempts queuedAt).TellsTruth where
  ended h := by cases h
  pending _ := rfl

/-- A write that has the status for its phase. -/
theorem tellsTruth_of_phase (h : job.phase = some (.ofStatus job.status)) : job.TellsTruth where
  ended _ := h
  pending hstatus := by
    rw [h]
    exact hstatus

theorem TellsTruth.congr (h : job.TellsTruth) (hstatus : job'.status = job.status)
    (hcursor : job'.cursorAfter = job.cursorAfter) : job'.TellsTruth where
  ended hended := by
    rw [phase, hcursor, hstatus]
    exact h.ended (hstatus ▸ hended)
  pending hpending := by
    rw [phase, hcursor]
    exact h.pending (hstatus ▸ hpending)

/-- What ends a pending job and leaves its cursor. -/
theorem TellsTruth.not_of_ended (h : job.TellsTruth) (hpending : job.status.isTerminal = false)
    (hended : job'.status.isTerminal = true) (hcursor : job'.cursorAfter = job.cursorAfter) :
    ¬job'.TellsTruth := by
  intro h'
  have hphase : job.phase = some (.ofStatus job'.status) := by
    rw [← h'.ended hended, phase, phase, hcursor]
  have hsilent := h.pending hpending
  rw [hphase] at hsilent
  exact Bool.noConfusion (hsilent.symm.trans hended)

theorem HeldWrite.tellsTruth (h : HeldWrite settings job job') (hjob : job.TellsTruth) :
    job'.TellsTruth := by
  cases h with
  | cancelled now hcancel => exact tellsTruth_of_phase rfl
  | renewed now => exact hjob.congr rfl rfl
  | released error now =>
    unfold SyncJob.released
    split
    · exact ⟨(fun h => by cases h), fun _ => rfl⟩
    · exact tellsTruth_of_phase rfl

theorem requestCancellation_eq_none (h : job.status.isTerminal = true) :
    job.requestCancellation now = none := by
  unfold requestCancellation
  split
  all_goals first | rfl | (rename_i hstatus; rw [hstatus] at h; cases h)

theorem requestCancellation_cursor (h : job.requestCancellation now = some job') :
    job'.cursorAfter = job.cursorAfter := by
  unfold requestCancellation at h
  split at h <;> cases h <;> rfl

theorem isTerminal_of_requestCancellation (h : job.requestCancellation now = some job') :
    job.status.isTerminal = false := by
  cases hterminal : job.status.isTerminal with
  | true => cases (requestCancellation_eq_none hterminal).symm.trans h
  | false => rfl

/-- The lease of the last attempt has run out. -/
def Exhausted (job : SyncJob casefold) (now : Instant) : Prop :=
  job.status = .running ∧ job.leaseExpired now = true ∧ job.maxAttempts ≤ job.attemptCount

instance (now : Instant) : Decidable (job.Exhausted now) :=
  inferInstanceAs (Decidable (_ ∧ _ ∧ _))

theorem expireExhaustedLeases_of_exhausted (h : job.Exhausted now) :
    (job.expireExhaustedLeases now).status = .failed ∧
      (job.expireExhaustedLeases now).cursorAfter = job.cursorAfter := by
  have hswept : job.expireExhaustedLeases now = _ := if_pos h
  rw [hswept]
  exact ⟨rfl, rfl⟩

theorem claimNext_of_exhausted (h : job.Exhausted now) (picked : Bool) :
    job.claimNext settings token picked now = (job.expireExhaustedLeases now, none) := by
  have hfailed := (expireExhaustedLeases_of_exhausted h).1
  simp [claimNext, not_claimable_of_failed hfailed]

theorem not_terminal_of_claimable (h : job.claimable now = true) :
    job.status.isTerminal = false := by
  simp only [claimable, eligible, Bool.and_eq_true, Bool.or_eq_true, decide_eq_true_eq] at h
  rcases h.2 with ⟨hqueued, -⟩ | ⟨hrunning, -⟩
  · rw [hqueued]
    rfl
  · rw [hrunning]
    rfl

theorem broken_of_normalizedLocally {loaded : SyncJob casefold}
    {options : NormalizationOptions R} {read : NormalizationRead} {summary : NormalizationSummary}
    (h : normalizationSummary options read = some summary) :
    (job.normalizedLocally loaded options summary now).status.isTerminal = true ∧
      ¬(job.normalizedLocally loaded options summary now).TellsTruth := by
  have hended : summary.status.isTerminal = true := by
    rw [normalizationSummary_status h]
    split <;> rfl
  exact ⟨hended, fun htruth => by cases htruth.ended hended⟩

end SyncJob

/-- The step is none of the three that end a job without writing the phase of its status: the sweep
of a lease whose attempts are exhausted, a cancellation request that is accepted, and the commit of
the endpoint that normalizes locally. -/
def KeepsPhase (s : World casefold) : Action R → Prop
  | .poll _ now => ¬s.job.Exhausted now
  | .requestCancellation _ => s.job.status.isTerminal = true
  | .normalizeLocal _ _ _ => False
  | _ => True

variable {settings : Settings} {s t : World casefold} {a : Action R}

theorem Effect.tellsTruth (h : Effect settings s a t) (hs : s.job.TellsTruth)
    (ha : KeepsPhase s a) : t.job.TellsTruth := by
  cases h with
  | quiet history job => exact job ▸ hs
  | swept picked now action hrun hexpired hmax history job =>
    subst action
    exact absurd ⟨hrun, hexpired, hmax⟩ ha
  | rejected picked now action hclaimable hrequest history job =>
    exact job ▸ SyncJob.tellsTruth_of_phase rfl
  | claimed picked now action hclaimable job claims committed localRuns =>
    exact job ▸ SyncJob.tellsTruth_of_phase rfl
  | wrote holder action hholder write history => exact write.tellsTruth hs
  | finished holder w now action hholder worker pc job history =>
    exact job ▸ SyncJob.tellsTruth_of_phase rfl
  | persisted holder w batch rest summary now action hholder worker pc hnew job claims
      committed localRuns =>
    exact job ▸ SyncJob.tellsTruth_of_phase rfl
  | cancelled now action hrequest history =>
    subst action
    cases (SyncJob.requestCancellation_eq_none ha).symm.trans hrequest
  | ranLocally call loaded options read summary now action hloaded hsummary job claims committed
      localRuns =>
    subst action
    exact ha.elim

/-- No step but the commit of the normalizing endpoint changes a job that has ended. -/
theorem Effect.ended (h : Effect settings s a t) (hended : s.job.status.isTerminal = true)
    (ha : a.isNormalizeLocal = false) : t.job = s.job := by
  have hnot : s.job.status ≠ .running := by
    intro hrun
    rw [hrun] at hended
    cases hended
  cases h with
  | quiet history job => exact job
  | swept picked now action hrun hexpired hmax history job => exact absurd hrun hnot
  | rejected picked now action hclaimable hrequest history job =>
    cases (SyncJob.not_terminal_of_claimable hclaimable).symm.trans hended
  | claimed picked now action hclaimable job claims committed localRuns =>
    cases (SyncJob.not_terminal_of_claimable hclaimable).symm.trans hended
  | wrote holder action hholder write history => exact absurd hholder.1 hnot
  | finished holder w now action hholder worker pc job history => exact absurd hholder.1 hnot
  | persisted holder w batch rest summary now action hholder worker pc hnew job claims
      committed localRuns => exact absurd hholder.1 hnot
  | cancelled now action hrequest history =>
    cases (SyncJob.isTerminal_of_requestCancellation hrequest).symm.trans hended
  | ranLocally call loaded options read summary now action hloaded hsummary job claims committed
      localRuns =>
    subst action
    cases ha

variable [DecidableEq K]

/-- What the three steps leave: a job that has ended, with another phase. -/
theorem broken_of_step (h : step settings s a = some t) (hs : s.job.TellsTruth)
    (ha : ¬KeepsPhase s a) : t.job.status.isTerminal = true ∧ ¬t.job.TellsTruth := by
  cases a with
  | poll picked now =>
    have hexhausted : s.job.Exhausted now := Decidable.not_not.1 ha
    have hpending : s.job.status.isTerminal = false := hexhausted.1 ▸ rfl
    obtain ⟨hfailed, hcursor⟩ := SyncJob.expireExhaustedLeases_of_exhausted hexhausted
    have hended : (s.job.expireExhaustedLeases now).status.isTerminal = true := hfailed ▸ rfl
    simp only [step, pollStep, SyncJob.claimNext_of_exhausted hexhausted, Option.some.injEq] at h
    subst h
    exact ⟨hended, hs.not_of_ended hpending hended hcursor⟩
  | requestCancellation now =>
    obtain ⟨job, hjob, rfl⟩ := Option.map_eq_some_iff.1 h
    have hended : job.status.isTerminal = true := SyncJob.requestCancellation_status hjob ▸ rfl
    exact ⟨hended, hs.not_of_ended (SyncJob.isTerminal_of_requestCancellation hjob) hended
      (SyncJob.requestCancellation_cursor hjob)⟩
  | normalizeLocal call read now =>
    simp only [step, normalizeLocalStep] at h
    split at h
    · obtain ⟨summary, hsummary, rfl⟩ := Option.map_eq_some_iff.1 h
      exact SyncJob.broken_of_normalizedLocally hsummary
    · cases h
  | _ => exact absurd trivial ha

theorem tellsTruth_of_reaches {request : LiveSyncRequest casefold} {maxAttempts : Nat}
    {queuedAt : Instant}
    (h : Reaches (step settings) KeepsPhase (queuedWorld request maxAttempts queuedAt) s) :
    s.job.TellsTruth :=
  h.invariant (P := fun s => s.job.TellsTruth)
    (fun _ _ _ hs ha hstep => (step_effect hstep).tellsTruth hs ha)
    (SyncJob.tellsTruth_enqueue request maxAttempts queuedAt)

/-- What one step has broken, no later one repairs. -/
theorem ended_or_keptPhase {request : LiveSyncRequest casefold} {maxAttempts : Nat}
    {queuedAt : Instant}
    (h : Reaches (step settings) (fun _ a => a.isNormalizeLocal = false)
      (queuedWorld request maxAttempts queuedAt) s) :
    (s.job.status.isTerminal = true ∧ ¬s.job.TellsTruth) ∨
      Reaches (step settings) KeepsPhase (queuedWorld request maxAttempts queuedAt) s := by
  induction h with
  | refl => exact .inr (.refl _)
  | tail _ htail ih =>
    obtain ⟨a, ha, hstep⟩ := htail
    rcases ih with ⟨hended, hbroken⟩ | hkept
    · rw [(step_effect hstep).ended hended ha]
      exact .inl ⟨hended, hbroken⟩
    · rcases Classical.em (KeepsPhase _ a) with hkeeps | hbreaks
      · exact .inr (hkept.tail hkeeps hstep)
      · exact .inl (broken_of_step hstep (tellsTruth_of_reaches hkept) hbreaks)

theorem phase_tells_truth_iff {request : LiveSyncRequest casefold} {maxAttempts : Nat}
    {queuedAt : Instant}
    (h : Reaches (step settings) (fun _ a => a.isNormalizeLocal = false)
      (queuedWorld request maxAttempts queuedAt) s) :
    s.job.TellsTruth ↔
      Reaches (step settings) KeepsPhase (queuedWorld request maxAttempts queuedAt) s := by
  refine ⟨fun htruth => ?_, tellsTruth_of_reaches⟩
  exact (ended_or_keptPhase h).resolve_left fun hbroken => hbroken.2 htruth

theorem phase_tells_truth_iff_retried :
    ∃ s, Reaches (step ⟨300, 5⟩) (fun _ a => a.isNormalizeLocal = false)
        (queuedWorld oneRepository 2 0) s ∧ s.claims = 2 ∧
      (s.job.TellsTruth ↔
        Reaches (step ⟨300, 5⟩) KeepsPhase (queuedWorld oneRepository 2 0) s) := by
  have hrun : (exec (restrict (step ⟨300, 5⟩) fun _ a => a.isNormalizeLocal = false)
      (queuedWorld oneRepository 2 0) pausedBeforePersist).any
      (fun s => decide (s.claims = 2)) = true := by decide
  obtain ⟨s, hs, hclaims⟩ := (Option.any_eq_true _ _).1 hrun
  have hreach := reaches_of_exec_restrict hs
  exact ⟨s, hreach, of_decide_eq_true hclaims, phase_tells_truth_iff hreach⟩

/-- A cancellation request for a job that no worker has claimed. -/
theorem cancelled_job_stays_queued :
    ¬∀ s, Reaches (step ⟨300, 5⟩) (fun _ a => a.isNormalizeLocal = false)
      (queuedWorld oneRepository 2 0) s → s.job.TellsTruth := by
  intro hall
  have hstep : (step ⟨300, 5⟩ (queuedWorld oneRepository 2 0) (.requestCancellation 1)).any
      (fun s => decide (s.job.status = .cancelled ∧ s.job.phase = some (.ofStatus .queued))) =
      true := by decide
  obtain ⟨s, hs, hcheck⟩ := (Option.any_eq_true _ _).1 hstep
  obtain ⟨hstatus, hphase⟩ := of_decide_eq_true hcheck
  have hended := (hall s (.one hs rfl)).ended (hstatus ▸ rfl)
  rw [hphase, hstatus] at hended
  cases hended

end FounderOs.SyncWorker
