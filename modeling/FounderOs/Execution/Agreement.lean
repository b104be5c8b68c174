import FounderOs.Execution.Wiring

namespace FounderOs.Execution

open Transition

variable {Content : Type}

def World.hasSucceeded (w : World Content) (e : ExecutionId) : Bool :=
  w.executions.rows.any (fun r => r.id = e ∧ r.status = .succeeded)

/-- Whoever commits `running`, `failed` or `uncertain` finds the row not yet `succeeded`. -/
def notYetSucceeded (w : World Content) : Action Content → Bool
  | .tokenUnavailable k _ | .start k _ | .evidenceInvalid k _ | .markUncertain k _ =>
    (w.executors k).all (fun x => !w.hasSucceeded x.execution.id)
  | .commitSync j _ =>
    (w.resultSyncs j).all (fun x =>
      decide (x.verdict ≠ some .writeNotObserved) || !w.hasSucceeded x.execution.id)
  | _ => true

def NotYetSucceeded (w : World Content) (a : Action Content) : Prop := notYetSucceeded w a = true

instance (w : World Content) (a : Action Content) : Decidable (NotYetSucceeded w a) :=
  inferInstanceAs (Decidable (_ = true))

theorem hasSucceeded_iff {w : World Content} {e : ExecutionId} :
    w.hasSucceeded e = true ↔ ∃ r ∈ w.executions.rows, r.id = e ∧ r.status = .succeeded := by
  simp [World.hasSucceeded]

theorem flushProposal_unchanged {proposals : ProposalTable Content} {p : ActionProposal Content}
    {s : Option ProposalStatus} {now : Instant} (hs : ∀ q, s = some q → p.status = q) :
    flushProposal proposals p s now = proposals := by
  cases s with
  | none => rfl
  | some q => exact if_pos (hs q rfl)

theorem flushProposal_changed {proposals : ProposalTable Content} {p : ActionProposal Content}
    {q : ProposalStatus} {now : Instant} (hs : p.status ≠ q) :
    flushProposal proposals p (some q) now = Function.update proposals p.id
      ((proposals p.id).map (fun p => { p with status := q, updatedAt := now })) :=
  if_neg hs

structure Agreement (w : World Content) : Prop where
  keyed : ∀ id p, w.proposals id = some p → p.id = id
  decided : ∀ x ∈ w.executions.rows, ∀ p, w.proposals x.actionProposalId = some p →
    p.status = .approved ∨ p.status = .executed
  syncLoaded : ∀ j x, w.resultSyncs j = some x → x.execution.status ≠ .succeeded →
    x.proposal.status = .approved
  executed : ∀ id p, w.proposals id = some p → (p.status = .executed ↔
    ∃ x ∈ w.executions.rows, x.actionProposalId = id ∧ x.status = .succeeded)

theorem Initial.agreement {w : World Content} (h : Initial w) : Agreement w where
  keyed := h.keyed
  decided x hx := by simp [h.executions] at hx
  syncLoaded j x hx := by simp [h.resultSyncs j] at hx
  executed id p hp := by simp [h.executions, h.notExecuted id p hp]

namespace Agreement

variable {w t : World Content} {e : ExecutionId} {m : Mark} {p : ActionProposal Content}

theorem congr (h : Agreement w) (hp : t.proposals = w.proposals)
    (he : t.executions = w.executions)
    (hs : ∀ j x, t.resultSyncs j = some x → x.execution.status ≠ .succeeded →
      x.proposal.status = .approved) : Agreement t where
  keyed := hp ▸ h.keyed
  decided := by rw [hp, he]; exact h.decided
  syncLoaded := hs
  executed := by rw [hp, he]; exact h.executed

theorem setResultSync (h : Agreement w) {j : Nat} {x : ResultSync Content}
    (hx : x.execution.status ≠ .succeeded → x.proposal.status = .approved) :
    Agreement (w.setResultSync j x) := by
  refine h.congr rfl rfl ?_
  intro j' y hy
  rcases World.setResultSync_some hy with ⟨_, rfl⟩ | ⟨_, hy⟩
  · exact hx
  · exact h.syncLoaded j' y hy

theorem decide (h : Agreement w) {id : ProposalId} {status : ProposalStatus} {now : Instant}
    (hp : w.proposals id = some p) (hst : p.status = .proposed) (hne : status ≠ .executed) :
    Agreement { w with
      proposals :=
        Function.update w.proposals id (some { p with status := status, updatedAt := now }) } := by
  have hrows : ∀ x ∈ w.executions.rows, x.actionProposalId ≠ id := by
    rintro x hx rfl
    rcases h.decided x hx p hp with h' | h' <;> simp [hst] at h'
  refine ⟨?_, ?_, h.syncLoaded, ?_⟩
  · intro id' q hq
    by_cases hid : id' = id
    · subst hid
      simp only [Function.update_self, Option.some.injEq] at hq
      subst hq
      exact h.keyed _ p hp
    · exact h.keyed id' q (by simpa [Function.update_of_ne hid] using hq)
  · intro x hx q hq
    exact h.decided x hx q (by simpa [Function.update_of_ne (hrows x hx)] using hq)
  · intro id' q hq
    by_cases hid : id' = id
    · subst hid
      simp only [Function.update_self, Option.some.injEq] at hq
      subst hq
      refine ⟨fun he => absurd he hne, ?_⟩
      rintro ⟨x, hx, hid, _⟩
      exact absurd hid (hrows x hx)
    · exact h.executed id' q (by simpa [Function.update_of_ne hid] using hq)

theorem claim (h : Agreement w) {x : ActionExecution Content} {table : ExecutionTable Content}
    {k : Nat} {y : Executor Content} (hi : w.executions.insert x = some table)
    (hx : x.status = .claimed)
    (hp : ∀ q, w.proposals x.actionProposalId = some q → q.status = .approved) :
    Agreement { w with
      executions := table, executors := Function.update w.executors k (some y) } := by
  refine ⟨h.keyed, ?_, h.syncLoaded, ?_⟩
  · intro r hr q hq
    rcases (ExecutionTable.mem_insert hi).mp hr with hr | rfl
    · exact h.decided r hr q hq
    · exact .inl (hp q hq)
  · intro id q hq
    rw [h.executed id q hq]
    constructor
    · rintro ⟨r, hr, hrest⟩
      exact ⟨r, (ExecutionTable.mem_insert hi).mpr (.inl hr), hrest⟩
    · rintro ⟨r, hr, hid, hst⟩
      rcases (ExecutionTable.mem_insert hi).mp hr with hr | rfl
      · exact ⟨r, hr, hid, hst⟩
      · simp [hx] at hst

/-- A mark other than a success touches no proposal and no succeeded row. -/
theorem markOpen (h : Agreement w) {s : Option ProposalStatus} {now : Instant}
    (hs : ∀ q, s = some q → p.status = q) (hm : m.status ≠ .succeeded)
    (hopen : w.hasSucceeded e = false) (hc : w.commitMark e m p s now = some t) :
    Agreement t := by
  obtain ⟨table, ht, rfl⟩ := World.commitMark_some hc
  rw [flushProposal_unchanged hs]
  refine ⟨h.keyed, ?_, h.syncLoaded, ?_⟩
  · intro y hy q hq
    obtain ⟨r, hr, rfl⟩ := (ExecutionTable.mem_update ht).mp hy
    exact h.decided r hr q (by simpa using hq)
  · intro id q hq
    rw [h.executed id q hq]
    constructor
    · rintro ⟨r, hr, hid, hst⟩
      have hne : r.id ≠ e := by
        rintro rfl
        rw [hasSucceeded_iff.mpr ⟨r, hr, rfl, hst⟩] at hopen
        cases hopen
      exact ⟨r, (ExecutionTable.mem_update ht).mpr
        ⟨r, hr, ExecutionTable.amend_other hne⟩, hid, hst⟩
    · rintro ⟨y, hy, hid, hst⟩
      obtain ⟨r, hr, rfl⟩ := (ExecutionTable.mem_update ht).mp hy
      by_cases hre : r.id = e
      · rw [ExecutionTable.amend_self hre, Mark.apply_status] at hst
        exact absurd hst hm
      · rw [ExecutionTable.amend_other hre] at hid hst
        exact ⟨r, hr, hid, hst⟩

theorem markSucceeded (h : Agreement w) {issue : IssueNumber} {now : Instant}
    (hp : p.status = .approved)
    (hrow : ∃ r ∈ w.executions.rows, r.id = e ∧ r.actionProposalId = p.id)
    (hc : w.commitMark e (.succeeded issue) p (some .executed) now = some t) :
    Agreement t := by
  obtain ⟨table, ht, rfl⟩ := World.commitMark_some hc
  obtain ⟨r, hr, hre, hrp⟩ := hrow
  rw [flushProposal_changed (by simp [hp])]
  refine ⟨?_, ?_, h.syncLoaded, ?_⟩
  · intro id q hq
    by_cases hid : id = p.id
    · subst hid
      simp only [Function.update_self, Option.map_eq_some_iff] at hq
      obtain ⟨q', hq', rfl⟩ := hq
      exact h.keyed _ q' hq'
    · exact h.keyed id q (by simpa [Function.update_of_ne hid] using hq)
  · intro y hy q hq
    by_cases hid : y.actionProposalId = p.id
    · simp only [hid, Function.update_self, Option.map_eq_some_iff] at hq
      obtain ⟨q', _, rfl⟩ := hq
      exact .inr rfl
    · obtain ⟨r', hr', rfl⟩ := (ExecutionTable.mem_update ht).mp hy
      rw [ExecutionTable.amend_actionProposalId] at hid hq
      exact h.decided r' hr' q (by simpa [Function.update_of_ne hid] using hq)
  · intro id q hq
    by_cases hid : id = p.id
    · subst hid
      simp only [Function.update_self, Option.map_eq_some_iff] at hq
      obtain ⟨q', _, rfl⟩ := hq
      refine ⟨fun _ => ?_, fun _ => rfl⟩
      refine ⟨_, (ExecutionTable.mem_update ht).mpr ⟨r, hr, rfl⟩, by simpa using hrp, ?_⟩
      rw [ExecutionTable.amend_self hre]
      rfl
    · rw [h.executed id q (by simpa [Function.update_of_ne hid] using hq)]
      have hother : ∀ r' ∈ w.executions.rows, r'.actionProposalId = id → r'.id ≠ e := by
        rintro r' hr' rfl hre'
        rw [ExecutionTable.row_unique hr' hr (hre'.trans hre.symm)] at hid
        exact hid hrp
      constructor
      · rintro ⟨r', hr', hid', hst⟩
        exact ⟨r', (ExecutionTable.mem_update ht).mpr
          ⟨r', hr', ExecutionTable.amend_other (hother r' hr' hid')⟩, hid', hst⟩
      · rintro ⟨y, hy, hid', hst⟩
        obtain ⟨r', hr', rfl⟩ := (ExecutionTable.mem_update ht).mp hy
        have hne := hother r' hr' (by simpa using hid')
        rw [ExecutionTable.amend_other hne] at hid' hst
        exact ⟨r', hr', hid', hst⟩

/-- The row a result sync loads is the only active one, so it decides what the proposal can be. -/
theorem loaded (h : Agreement w) {ws : WorkspaceId} {id : ProposalId} {observedAt : Instant}
    {x : ResultSync Content} (hb : beginResultSync w ws id observedAt = some x)
    (hx : x.execution.status ≠ .succeeded) : x.proposal.status = .approved := by
  obtain ⟨hp, _, ha⟩ := beginResultSync_some hb
  obtain ⟨hp, _⟩ := getProposal_some hp
  obtain ⟨hr, hrp, hract⟩ := ExecutionTable.activeOrSuccessful_some ha
  have hid := h.keyed id _ hp
  rw [← hid] at hp
  rcases h.decided _ hr x.proposal (hrp ▸ hp) with hst | hst
  · exact hst
  · obtain ⟨y, hy, hyp, hyst⟩ := (h.executed _ _ hp).mp hst
    have heq := ExecutionTable.active_unique hr hy (hrp.trans hyp.symm) hract (by rw [hyst]; rfl)
    rw [heq] at hx
    exact absurd hyst hx

end Agreement

theorem ExecutorCommit.mark {a : Action Content} {k : Nat} {pc pc' : ExecutorPc} {m : Mark}
    {s : Option ProposalStatus} {now : Instant} (hc : ExecutorCommit a k pc m s now pc') :
    m.status ≠ .succeeded ∧ ∀ q, s = some q → q = .approved := by
  cases hc <;> simp [Mark.status]

theorem ExecutorCommit.guard {a : Action Content} {k : Nat} {pc pc' : ExecutorPc} {m : Mark}
    {s : Option ProposalStatus} {now : Instant} {w : World Content} {x : Executor Content}
    (hc : ExecutorCommit a k pc m s now pc') (hx : w.executors k = some x)
    (ho : w.hasSucceeded x.execution.id = false) : NotYetSucceeded w a := by
  cases hc <;> simpa [NotYetSucceeded, notYetSucceeded, hx] using ho

theorem ExecutorCommit.open {a : Action Content} {k : Nat} {pc pc' : ExecutorPc} {m : Mark}
    {s : Option ProposalStatus} {now : Instant} {w : World Content} {x : Executor Content}
    (hc : ExecutorCommit a k pc m s now pc') (hx : w.executors k = some x)
    (ha : NotYetSucceeded w a) : w.hasSucceeded x.execution.id = false := by
  cases hc <;> simpa [NotYetSucceeded, notYetSucceeded, hx] using ha

theorem NotYetSucceeded.open {w : World Content} {j : Nat} {now : Instant}
    {x : ResultSync Content} (ha : NotYetSucceeded w (.commitSync j now))
    (hx : w.resultSyncs j = some x) (hv : x.verdict = some .writeNotObserved) :
    w.hasSucceeded x.execution.id = false := by
  simpa [NotYetSucceeded, notYetSucceeded, hx, hv] using ha

theorem ResultSync.status_of_verdict {x : ResultSync Content} {v : SyncVerdict}
    (h : x.verdict = some v) : x.execution.status ≠ .succeeded := by
  intro hst
  simp [ResultSync.verdict, hst] at h

section Runs

variable [DecidableEq Content] {w₀ w t : World Content} {a : Action Content}

theorem agreement_step (h : Agreement w) (hw : Wiring w) (ha : NotYetSucceeded w a)
    (hs : step w a = some t) : Agreement t := by
  cases stepped_of_step hs with
  | decide hp hst hnew => exact h.decide hp hst (by rcases hnew with rfl | rfl <;> simp)
  | refused => exact h
  | existing => exact h.congr rfl rfl h.syncLoaded
  | claimed hk he =>
    obtain ⟨hp, hst, rfl, hi⟩ := execute_claimed he
    obtain ⟨hp, _⟩ := getProposal_some hp
    refine h.claim hi rfl ?_
    intro q hq
    have hid := h.keyed _ _ hp
    simp only [claimRow, hid, hp, Option.some.injEq] at hq
    exact hq ▸ hst
  | executorCommit hx hc =>
    obtain ⟨hm, hs⟩ := hc.mark
    have hopen := hc.open hx ha
    unfold World.commitExecutor
    split
    · rename_i w' hcommit
      have hsame := fun q hq => (hw.loaded _ _ hx).2.trans (hs q hq).symm
      exact (h.markOpen hsame hm hopen hcommit).congr rfl rfl
        (h.markOpen hsame hm hopen hcommit).syncLoaded
    · exact h.congr rfl rfl h.syncLoaded
  | createIssue => exact h.congr rfl rfl h.syncLoaded
  | resolveCall => exact h.congr rfl rfl h.syncLoaded
  | succeed hx hpc hc hcommit =>
    obtain ⟨hid, hst⟩ := hw.loaded _ _ hx
    obtain ⟨r, hr, hsame⟩ := hw.executorRow _ _ hx
    have h' := h.markSucceeded hst ⟨r, hr, hsame.id, hsame.proposal.trans hid.symm⟩ hcommit
    exact h'.congr rfl rfl h'.syncLoaded
  | finishExecutor => exact h.congr rfl rfl h.syncLoaded
  | beginSync _ hb => exact h.setResultSync (h.loaded hb)
  | listIssues hx =>
    have hl := h.syncLoaded _ _ hx
    exact h.setResultSync hl
  | commitSync hx hv =>
    obtain ⟨hid, r, hr, hsame⟩ := hw.syncRow _ _ hx
    unfold World.commitResultSync
    split
    · rename_i w' hcommit
      have h' : Agreement w' := by
        cases hv with
        | writeNotObserved hv =>
          have hst := h.syncLoaded _ _ hx (ResultSync.status_of_verdict hv)
          exact h.markOpen (by simp [hst]) (by simp [Mark.status]) (ha.open hx hv) hcommit
        | reconciledSuccess hv =>
          have hst := h.syncLoaded _ _ hx (ResultSync.status_of_verdict hv)
          exact h.markSucceeded hst ⟨r, hr, hsame.id, hsame.proposal.trans hid.symm⟩ hcommit
      have hl := h.syncLoaded _ _ hx
      exact h'.setResultSync hl
    · have hl := h.syncLoaded _ _ hx
      exact h.setResultSync hl
  | finishSync hx _ =>
    have hl := h.syncLoaded _ _ hx
    exact h.setResultSync hl
  | foreignIssue => exact h.congr rfl rfl h.syncLoaded

omit [DecidableEq Content] in
theorem hasSucceeded_commitMark {e e' : ExecutionId} {m : Mark} {p : ActionProposal Content}
    {s : Option ProposalStatus} {now : Instant} (hc : w.commitMark e' m p s now = some t)
    (hm : m.status = .succeeded ∨ w.hasSucceeded e' = false) (he : w.hasSucceeded e = true) :
    t.hasSucceeded e = true := by
  obtain ⟨table, ht, rfl⟩ := World.commitMark_some hc
  obtain ⟨r, hr, rfl, hst⟩ := hasSucceeded_iff.mp he
  refine hasSucceeded_iff.mpr ⟨_, (ExecutionTable.mem_update ht).mpr ⟨r, hr, rfl⟩, by simp, ?_⟩
  by_cases hre : r.id = e'
  · rcases hm with hm | hopen
    · rw [ExecutionTable.amend_self hre, Mark.apply_status, hm]
    · rw [← hre, he] at hopen
      cases hopen
  · rw [ExecutionTable.amend_other hre, hst]

theorem hasSucceeded_step {e : ExecutionId} (ha : NotYetSucceeded w a) (hs : step w a = some t)
    (he : w.hasSucceeded e = true) : t.hasSucceeded e = true := by
  cases stepped_of_step hs with
  | claimed hk hx =>
    obtain ⟨_, _, rfl, hi⟩ := execute_claimed hx
    obtain ⟨r, hr, hrest⟩ := hasSucceeded_iff.mp he
    exact hasSucceeded_iff.mpr ⟨r, (ExecutionTable.mem_insert hi).mpr (.inl hr), hrest⟩
  | executorCommit hx hc =>
    unfold World.commitExecutor
    split
    · rename_i w' hcommit
      have hkept := hasSucceeded_commitMark hcommit (.inr (hc.open hx ha)) he
      exact hkept
    · exact he
  | succeed hx hpc hc hcommit =>
    have hkept := hasSucceeded_commitMark hcommit (.inl rfl) he
    exact hkept
  | commitSync hx hv =>
    unfold World.commitResultSync
    split
    · rename_i w' hcommit
      have hkept : w'.hasSucceeded e = true := by
        refine hasSucceeded_commitMark hcommit ?_ he
        cases hv with
        | writeNotObserved hv => exact .inr (ha.open hx hv)
        | reconciledSuccess => exact .inl rfl
      exact hkept
    · exact he
  | decide | refused | existing | createIssue | resolveCall | finishExecutor | beginSync
  | listIssues | finishSync | foreignIssue => exact he

omit [DecidableEq Content] in
theorem hasSucceeded_lost {e : ExecutionId} {m : Mark} (p : ActionProposal Content)
    (s : Option ProposalStatus) (now : Instant) (he : w.hasSucceeded e = true)
    (hm : m.status ≠ .succeeded) :
    ∃ w', w.commitMark e m p s now = some w' ∧ w'.hasSucceeded e = false := by
  obtain ⟨r, hr, hre, hst⟩ := hasSucceeded_iff.mp he
  obtain ⟨table, ht⟩ := ExecutionTable.update_of_active m hr hre (by rw [hst]; rfl)
  refine ⟨_, by rw [World.commitMark, ht]; rfl, ?_⟩
  rw [← Bool.not_eq_true, hasSucceeded_iff]
  rintro ⟨y, hy, hye, hyst⟩
  obtain ⟨r', _, rfl⟩ := (ExecutionTable.mem_update ht).mp hy
  rw [ExecutionTable.amend_self (by simpa using hye), Mark.apply_status] at hyst
  exact hm hyst

/-- Every step the condition excludes does take a committed success back. -/
theorem hasSucceeded_step_iff (hs : step w a = some t) :
    NotYetSucceeded w a ↔ ∀ e, w.hasSucceeded e = true → t.hasSucceeded e = true := by
  refine ⟨fun ha e he => hasSucceeded_step ha hs he, fun hkept => ?_⟩
  by_contra hna
  suffices hlost : ∃ e, w.hasSucceeded e = true ∧ t.hasSucceeded e = false by
    obtain ⟨e, he, hte⟩ := hlost
    rw [hkept e he] at hte
    cases hte
  cases stepped_of_step hs with
  | @executorCommit a k x m s now pc hx hc =>
    have he : w.hasSucceeded x.execution.id = true := by
      by_contra hopen
      exact hna (hc.guard hx (by simpa using hopen))
    obtain ⟨w', hcommit, hte⟩ := hasSucceeded_lost x.proposal s now he hc.mark.1
    refine ⟨x.execution.id, he, ?_⟩
    rw [World.commitExecutor, hcommit]
    exact hte
  | @commitSync j now x m s hx hv =>
    cases hv with
    | writeNotObserved hv =>
      have he : w.hasSucceeded x.execution.id = true := by
        by_contra hopen
        refine hna ?_
        simpa [NotYetSucceeded, notYetSucceeded, hx, hv] using hopen
      obtain ⟨w', hcommit, hte⟩ :=
        hasSucceeded_lost (m := .failed) x.proposal (some .approved) now he (by simp [Mark.status])
      refine ⟨x.execution.id, he, ?_⟩
      rw [World.commitResultSync, hcommit]
      exact hte
    | reconciledSuccess hv =>
      refine absurd ?_ hna
      simp [NotYetSucceeded, notYetSucceeded, hx, hv]
  | finishExecutor _ ha => rcases ha with rfl | ⟨now, rfl⟩ <;> exact absurd rfl hna
  | finishSync hx ha =>
    rcases ha with rfl | ⟨now, rfl, hv⟩
    · exact absurd rfl hna
    · refine absurd ?_ hna
      simp [NotYetSucceeded, notYetSucceeded, hx, hv]
  | decide | refused | existing | claimed | createIssue | resolveCall | succeed | beginSync
  | listIssues | foreignIssue => exact absurd rfl hna

theorem agreement_reaches (h₀ : Initial w₀) (h : Reaches step NotYetSucceeded w₀ w) :
    Wiring w ∧ Agreement w :=
  h.invariant (P := fun w => Wiring w ∧ Agreement w)
    (fun _ _ _ hi ha hs => ⟨wiring_step hi.1 hs, agreement_step hi.2 hi.1 ha hs⟩)
    ⟨h₀.wiring, h₀.agreement⟩

structure ExecutionsAgree (ok : World Content → Action Content → Prop) (w : World Content) :
    Prop where
  oneActive : ∀ x ∈ w.executions.rows, ∀ y ∈ w.executions.rows,
    x.actionProposalId = y.actionProposalId → x.status.activeOrSucceeded = true →
    y.status.activeOrSucceeded = true → x = y
  executedIffSucceeded : ∀ id p, w.proposals id = some p → (p.status = .executed ↔
    ∃ x ∈ w.executions.rows, x.actionProposalId = id ∧ x.status = .succeeded)
  successStays : ∀ e t, w.hasSucceeded e = true → Reaches step ok w t → t.hasSucceeded e = true

theorem execution_proposal_agreement (h₀ : Initial w₀) (h : Reaches step NotYetSucceeded w₀ w) :
    ExecutionsAgree NotYetSucceeded w where
  oneActive _ hx _ hy hp ax ay := ExecutionTable.active_unique hx hy hp ax ay
  executedIffSucceeded := (agreement_reaches h₀ h).2.executed
  successStays e _ he ht :=
    ht.invariant (P := fun w => w.hasSucceeded e = true)
      (fun _ _ _ hi ha hs => hasSucceeded_step ha hs hi) he

theorem execution_proposal_agreement_single_run :
    ∃ w, Reaches step NotYetSucceeded approvedWorld w ∧ ExecutionsAgree NotYetSucceeded w := by
  have hrun : (exec (restrict step NotYetSucceeded) approvedWorld
      [.execute 0 (confirmedRequest 1) ⟨true, none⟩ 10 0, .start 0 1, .beginSync 0 0 0 1,
        .createIssue 0, .resolveCall 0 true, .listIssues 0, .succeed 0 2,
        .commitSync 0 3]).isSome = true := by decide
  obtain ⟨w, hw⟩ := Option.isSome_iff_exists.mp hrun
  have hreach := reaches_of_exec_restrict hw
  exact ⟨w, hreach, execution_proposal_agreement approvedWorld_initial hreach⟩

/-- A result sync that listed the issues before the executor's call commits after its success. -/
theorem late_absence_overwrites_success :
    ¬∀ w₀ w : World Unit, Initial w₀ → Reaches step anyStep w₀ w → ExecutionsAgree anyStep w := by
  intro hall
  have hrun : (exec step approvedWorld
      [.execute 0 (confirmedRequest 1) ⟨true, none⟩ 10 0, .start 0 1,
        .beginSync 0 0 0 60000001, .listIssues 0, .createIssue 0,
        .resolveCall 0 true, .succeed 0 60000002, .commitSync 0 60000003]).map
      (fun w => decide ((w.proposals 0).map (fun p => p.status) = some .executed ∧
        ∀ x ∈ w.executions.rows, x.status ≠ .succeeded)) = some true := by decide
  obtain ⟨w, hw, hend⟩ := reaches_of_exec_check hrun
  obtain ⟨hp, hnone⟩ := of_decide_eq_true hend
  obtain ⟨p, hp, hst⟩ := Option.map_eq_some_iff.mp hp
  have hagree := hall approvedWorld w approvedWorld_initial hw
  obtain ⟨x, hx, _, hsucc⟩ := (hagree.executedIffSucceeded 0 p hp).mp hst
  exact hnone x hx hsucc

end Runs

end FounderOs.Execution
