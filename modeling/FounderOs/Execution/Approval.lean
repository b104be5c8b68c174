import FounderOs.Execution.Replay

namespace FounderOs.Execution

open Transition

variable {Content : Type}

/-- The proposal has been approved, and perhaps executed since. -/
def Approved (proposals : ProposalTable Content) (id : ProposalId) : Prop :=
  ∃ p, proposals id = some p ∧ (p.status = .approved ∨ p.status = .executed)

/-- No execution without an approval. -/
def Gated (w : World Content) : Prop :=
  ∀ r ∈ w.executions.rows, Approved w.proposals r.actionProposalId

theorem Initial.gated {w : World Content} (h : Initial w) : Gated w := by
  intro r hr
  simp [h.executions] at hr

section Writes

variable {w t : World Content} {a : Action Content} {p loaded : ActionProposal Content}
  {s : Option ProposalStatus} {id : ProposalId} {now : Instant}

/-- A flush writes `approved` or `executed`, if it writes a status at all. -/
def Reviewed (s : Option ProposalStatus) : Prop :=
  ∀ status, s = some status → status = .approved ∨ status = .executed

theorem flushProposal_other (hid : id ≠ loaded.id) (proposals : ProposalTable Content) :
    flushProposal proposals loaded s now id = proposals id := by
  unfold flushProposal
  split
  · rfl
  · split
    · rfl
    · exact Function.update_of_ne hid _ _

theorem Approved.flush {proposals : ProposalTable Content} (h : Approved proposals id)
    (hs : Reviewed s) : Approved (flushProposal proposals loaded s now) id := by
  obtain ⟨p, hp, hst⟩ := h
  unfold flushProposal
  split
  · exact ⟨p, hp, hst⟩
  · rename_i status
    split
    · exact ⟨p, hp, hst⟩
    · by_cases hid : id = loaded.id
      · subst hid
        exact ⟨_, by rw [Function.update_self, hp]; rfl, hs status rfl⟩
      · exact ⟨p, (Function.update_of_ne hid _ _).trans hp, hst⟩

theorem ExecutorCommit.reviewed {k : Nat} {pc pc' : ExecutorPc} {m : Mark}
    (hc : ExecutorCommit a k pc m s now pc') : Reviewed s := by
  cases hc <;> simp [Reviewed]

theorem SyncCommit.reviewed {x : ResultSync Content} {m : Mark} {status : ProposalStatus}
    (hv : SyncCommit x m status) : Reviewed (some status) := by
  cases hv <;> simp [Reviewed]

theorem Gated.commitMark {e : ExecutionId} {m : Mark} (h : Gated w) (hs : Reviewed s)
    (hc : w.commitMark e m loaded s now = some t) : Gated t := by
  obtain ⟨table, ht, rfl⟩ := World.commitMark_some hc
  intro r' hr'
  obtain ⟨r, hr, rfl⟩ := (ExecutionTable.mem_update ht).mp hr'
  rw [ExecutionTable.amend_actionProposalId]
  exact (h r hr).flush hs

theorem Gated.commitExecutor {k : Nat} {x : Executor Content} {m : Mark} {pc : ExecutorPc}
    (h : Gated w) (hs : Reviewed s) : Gated (w.commitExecutor k x m s now pc) := by
  unfold World.commitExecutor
  split
  · rename_i w' hw
    have hmarked : Gated w' := h.commitMark hs hw
    exact hmarked
  · exact h

theorem Gated.commitResultSync {j : Nat} {x : ResultSync Content} {m : Mark}
    (h : Gated w) (hs : Reviewed s) : Gated (w.commitResultSync j x m s now) := by
  unfold World.commitResultSync
  split
  · rename_i w' hw
    have hmarked : Gated w' := h.commitMark hs hw
    exact hmarked
  · exact h

theorem commitMark_other {e : ExecutionId} {m : Mark} (hid : id ≠ loaded.id)
    (hc : w.commitMark e m loaded s now = some t) : t.proposals id = w.proposals id := by
  obtain ⟨table, -, rfl⟩ := World.commitMark_some hc
  exact flushProposal_other hid w.proposals

theorem commitExecutor_other {k : Nat} {x : Executor Content} {m : Mark} {pc : ExecutorPc}
    (hid : id ≠ x.proposal.id) :
    (w.commitExecutor k x m s now pc).proposals id = w.proposals id := by
  unfold World.commitExecutor
  split
  · rename_i w' hw
    exact commitMark_other (t := w') hid hw
  · rfl

theorem commitResultSync_other {j : Nat} {x : ResultSync Content} {m : Mark}
    (hid : id ≠ x.proposal.id) :
    (w.commitResultSync j x m s now).proposals id = w.proposals id := by
  unfold World.commitResultSync
  split
  · rename_i w' hw
    exact commitMark_other (t := w') hid hw
  · rfl

/-- What a process in flight has loaded is approved in the table too. -/
theorem Gated.executor (h : Gated w) (hw : Wiring w) {k : Nat} {x : Executor Content}
    (hx : w.executors k = some x) : Approved w.proposals x.proposal.id := by
  obtain ⟨r, hr, hsame⟩ := hw.executorRow k x hx
  rw [(hw.loaded k x hx).1, ← hsame.proposal]
  exact h r hr

theorem Gated.resultSync (h : Gated w) (hw : Wiring w) {j : Nat} {x : ResultSync Content}
    (hx : w.resultSyncs j = some x) : Approved w.proposals x.proposal.id := by
  obtain ⟨hid, r, hr, hsame⟩ := hw.syncRow j x hx
  rw [hid, ← hsame.proposal]
  exact h r hr

theorem Approved.ne_of_rejected {id' : ProposalId} (h : Approved w.proposals id')
    (hp : w.proposals id = some p) (hst : p.status = .rejected) : id ≠ id' := by
  rintro rfl
  obtain ⟨q, hq, happroved⟩ := h
  obtain rfl := Option.some.inj (hp.symm.trans hq)
  rw [hst] at happroved
  rcases happroved with h | h <;> cases h

end Writes

section Runs

variable [DecidableEq Content] {w₀ w t : World Content} {a : Action Content}
  {p : ActionProposal Content} {id : ProposalId}

theorem gated_step (h : Gated w) (hk : ∀ id p, w.proposals id = some p → p.id = id)
    (hs : step w a = some t) : Gated t := by
  cases stepped_of_step hs with
  | @decide id' status now q hq hst hstatus =>
    intro r hr
    obtain ⟨p, hp, happroved⟩ := h r hr
    have hne : r.actionProposalId ≠ id' := by
      rintro rfl
      obtain rfl := Option.some.inj (hp.symm.trans hq)
      rw [hst] at happroved
      rcases happroved with h | h <;> cases h
    exact ⟨p, (Function.update_of_ne hne _ _).trans hp, happroved⟩
  | @claimed k request env id now q x table hk' he =>
    obtain ⟨hq, hst, rfl, hi⟩ := execute_claimed he
    obtain ⟨hq, -⟩ := getProposal_some hq
    intro r hr
    rcases (ExecutionTable.mem_insert hi).mp hr with hr | rfl
    · exact h r hr
    · have hown : w.proposals q.id = some q := by rw [hk _ q hq]; exact hq
      exact ⟨q, hown, .inl hst⟩
  | executorCommit hx hc => exact h.commitExecutor hc.reviewed
  | @succeed k now x i issue q marker w' hx hpc hc hw' =>
    have hmarked : Gated w' := h.commitMark (by simp [Reviewed]) hw'
    exact hmarked
  | commitSync hx hv => exact h.commitResultSync hv.reviewed
  | refused | existing | createIssue | resolveCall | finishExecutor | beginSync | listIssues
  | finishSync | foreignIssue => exact h

theorem rejected_step (h : Gated w) (hw : Wiring w) (hp : w.proposals id = some p)
    (hst : p.status = .rejected) (hs : step w a = some t) : t.proposals id = some p := by
  cases stepped_of_step hs with
  | @decide id' status now q hq hproposed =>
    have hne : id ≠ id' := by
      rintro rfl
      obtain rfl := Option.some.inj (hp.symm.trans hq)
      rw [hst] at hproposed
      cases hproposed
    exact (Function.update_of_ne hne _ _).trans hp
  | executorCommit hx =>
    exact (commitExecutor_other ((h.executor hw hx).ne_of_rejected hp hst)).trans hp
  | @succeed k now x i issue q marker w' hx hpc hc hw' =>
    exact (commitMark_other (t := w') ((h.executor hw hx).ne_of_rejected hp hst) hw').trans hp
  | commitSync hx =>
    exact (commitResultSync_other ((h.resultSync hw hx).ne_of_rejected hp hst)).trans hp
  | refused | existing | claimed | createIssue | resolveCall | finishExecutor | beginSync
  | listIssues | finishSync | foreignIssue => exact hp

theorem gated_reaches (h₀ : Initial w₀) (h : Reaches step anyStep w₀ w) : Gated w :=
  h.invariant_of (fun _ _ _ hi _ hs => replayable_step hi hs)
    (fun _ _ _ hi hg _ hs => gated_step hg hi.keyed hs) h₀.replayable h₀.gated

/-- Nothing is executed, and the provider is asked for nothing, unless the proposal is approved;
what has been rejected stays as it was rejected, and is never executed. -/
theorem nothing_without_approval (h₀ : Initial w₀) (h : Reaches step anyStep w₀ w) :
    (∀ r ∈ w.executions.rows, Approved w.proposals r.actionProposalId) ∧
    (∀ c ∈ w.calls, Approved w.proposals c.proposalId) ∧
    ∀ id p, w.proposals id = some p → p.status = .rejected → ∀ t, Reaches step anyStep w t →
      t.proposals id = some p ∧ (∀ r ∈ t.executions.rows, r.actionProposalId ≠ id) ∧
        ∀ c ∈ t.calls, c.proposalId ≠ id := by
  have hcalls : ∀ {u : World Content}, Gated u → Wiring u →
      ∀ c ∈ u.calls, Approved u.proposals c.proposalId := by
    intro u hgated hwiring c hc
    obtain ⟨r, hr, -, hproposal⟩ := hwiring.callRow c hc
    exact hproposal ▸ hgated r hr
  have hgated := gated_reaches h₀ h
  have hwiring := wiring_reaches h h₀.wiring
  refine ⟨hgated, hcalls hgated hwiring, fun id p hp hst t ht => ?_⟩
  have hgated' := gated_reaches h₀ (h.trans ht)
  have hwiring' := wiring_reaches ht hwiring
  have hp' : t.proposals id = some p :=
    ht.invariant_of (I := fun u => (Gated u ∧ Replayable u) ∧ Wiring u)
      (P := fun u => u.proposals id = some p)
      (fun u a v hi _ hs => ⟨⟨gated_step hi.1.1 hi.1.2.keyed hs, replayable_step hi.1.2 hs⟩,
        wiring_step hi.2 hs⟩)
      (fun u a v hi hu _ hs => rejected_step hi.1.1 hi.2 hu hst hs)
      ⟨⟨hgated, replayable_reaches h₀ h⟩, hwiring⟩ hp
  exact ⟨hp', fun r hr heq => (hgated' r hr).ne_of_rejected hp' hst heq.symm,
    fun c hc heq => (hcalls hgated' hwiring' c hc).ne_of_rejected hp' hst heq.symm⟩

end Runs

def reviewedWorld : World Unit where
  proposals id :=
    if id < 2 then some ⟨id, 0, .github, .createGithubIssue, (), .proposed, 0⟩ else none
  executions := .empty
  issues := []
  calls := []
  executors _ := none
  resultSyncs _ := none
  answered := []

theorem reviewedWorld_initial : Initial reviewedWorld where
  keyed id p h := by
    obtain ⟨-, h⟩ := Option.ite_none_right_eq_some.1 h
    cases h
    rfl
  notExecuted id p h := by
    obtain ⟨-, h⟩ := Option.ite_none_right_eq_some.1 h
    cases h
    simp
  executions := rfl
  calls := rfl
  executors _ := rfl
  resultSyncs _ := rfl
  answered := rfl

/-- One proposal is approved and executed, the other one rejected and asked for in vain. -/
theorem nothing_without_approval_two : ∃ w, Reaches step anyStep reviewedWorld w ∧
    w.calls.length = 1 ∧ ∀ c ∈ w.calls, Approved w.proposals c.proposalId := by
  have hrun : (exec step reviewedWorld
      [.decide 0 .approved 1, .decide 1 .rejected 2,
        .execute 0 (confirmedRequest 1) ⟨true, none⟩ 10 3, .start 0 4, .createIssue 0,
        .execute 1 ⟨0, 1, 0, 0, 2, true⟩ ⟨true, none⟩ 11 5]).map
      (fun w => decide (w.calls.length = 1)) = some true := by decide
  obtain ⟨w, hw, hone⟩ := reaches_of_exec_check hrun
  exact ⟨w, hw, of_decide_eq_true hone, (nothing_without_approval reviewedWorld_initial hw).2.1⟩

end FounderOs.Execution
