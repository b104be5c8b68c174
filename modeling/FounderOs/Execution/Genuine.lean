import FounderOs.Execution.Replay

namespace FounderOs.Execution

open Transition

variable {Content : Type}

/-- The provider has an issue of this number that carries the marker. -/
def World.HasIssue (w : World Content) (marker : ExecutionMarker Content) (number : IssueNumber) :
    Prop :=
  ∃ issue ∈ w.issues, issue.number = number ∧ issue.isPullRequest = false ∧
    issue.marker = some marker

/-- Whatever is taken for the issue of an execution carries that execution's marker. -/
structure Genuine (w : World Content) : Prop where
  rows : ∀ r ∈ w.executions.rows, r.status = .succeeded →
    ∃ number, r.providerResponse = some number ∧ w.HasIssue (executionRequestMarker r) number
  calling : ∀ k x i, w.executors k = some x → x.pc = .calling i →
    ∃ c, w.calls[i]? = some c ∧ c.marker = executionRequestMarker x.execution
  written : ∀ c ∈ w.calls, ∀ number, c.outcome = .written number → w.HasIssue c.marker number
  listed : ∀ j x found, w.resultSyncs j = some x → x.pc = .listed found →
    ∀ issue ∈ found, w.HasIssue (executionRequestMarker x.execution) issue.number
  answered : ∀ y ∈ w.answered, ∃ r ∈ w.executions.rows, r.id = y.2.executionId ∧
    ∃ number, y.2.issue = some number ∧ w.HasIssue (executionRequestMarker r) number

theorem Initial.genuine {w : World Content} (h : Initial w) : Genuine w where
  rows r hr := by simp [h.executions] at hr
  calling k x i hx := by simp [h.executors k] at hx
  written c hc := by simp [h.calls] at hc
  listed j x found hx := by simp [h.resultSyncs j] at hx
  answered y hy := by simp [h.answered] at hy

theorem SameClaim.marker {r x : ActionExecution Content} (h : SameClaim r x) :
    executionRequestMarker r = executionRequestMarker x := by
  rw [executionRequestMarker, executionRequestMarker, h.id, h.hash]

theorem World.HasIssue.mono {w t : World Content} {marker : ExecutionMarker Content}
    {number : IssueNumber} (h : w.HasIssue marker number) (hissues : w.issues ⊆ t.issues) :
    t.HasIssue marker number := by
  obtain ⟨issue, hissue, hrest⟩ := h
  exact ⟨issue, hissues hissue, hrest⟩

namespace Genuine

variable {w t : World Content} {e : ExecutionId} {m : Mark} {p : ActionProposal Content}
  {s : Option ProposalStatus} {now : Instant}

theorem commitMark (h : Genuine w) (hc : w.commitMark e m p s now = some t)
    (hm : ∀ number, m = .succeeded number → ∀ r ∈ w.executions.rows, r.id = e →
      w.HasIssue (executionRequestMarker r) number) : Genuine t := by
  obtain ⟨table, ht, rfl⟩ := World.commitMark_some hc
  refine ⟨?_, h.calling, h.written, h.listed, ?_⟩
  · intro r' hr' hst
    obtain ⟨r, hr, rfl⟩ := (ExecutionTable.mem_update ht).mp hr'
    rw [(sameClaim_amend e m r).marker]
    by_cases hid : r.id = e
    · rw [ExecutionTable.amend_self hid] at hst ⊢
      cases m with
      | succeeded number => exact ⟨number, rfl, hm number rfl r hr hid⟩
      | running | failed | uncertain => cases hst
    · rw [ExecutionTable.amend_other hid] at hst ⊢
      exact h.rows r hr hst
  · intro y hy
    obtain ⟨r, hr, hid, number, hissue, hhas⟩ := h.answered y hy
    refine ⟨_, (ExecutionTable.mem_update ht).mpr ⟨r, hr, rfl⟩,
      (ExecutionTable.amend_id).trans hid, number, hissue, ?_⟩
    rw [(sameClaim_amend e m r).marker]
    exact hhas

theorem setPc (h : Genuine w) {k : Nat} {x : Executor Content} {pc : ExecutorPc}
    (hpc : ∀ i, pc ≠ .calling i) : Genuine (w.setExecutor k { x with pc := pc }) := by
  refine ⟨h.rows, ?_, h.written, h.listed, h.answered⟩
  intro k' y i hy hi
  rcases World.setExecutor_some hy with ⟨-, rfl⟩ | ⟨-, hy⟩
  · exact absurd hi (hpc i)
  · exact h.calling k' y i hy hi

theorem setResultSync (h : Genuine w) {j : Nat} {x : ResultSync Content}
    (hx : ∀ found, x.pc = .listed found →
      ∀ issue ∈ found, w.HasIssue (executionRequestMarker x.execution) issue.number) :
    Genuine (w.setResultSync j x) := by
  refine ⟨h.rows, h.calling, h.written, ?_, h.answered⟩
  intro j' y found hy hfound
  rcases World.setResultSync_some hy with ⟨-, rfl⟩ | ⟨-, hy⟩
  · exact hx found hfound
  · exact h.listed j' y found hy hfound

theorem commitExecutor (h : Genuine w) {k : Nat} {x : Executor Content} {pc : ExecutorPc}
    (hm : ∀ number, m ≠ .succeeded number) (hpc : ∀ i, pc ≠ .calling i) :
    Genuine (w.commitExecutor k x m s now pc) := by
  unfold World.commitExecutor
  split
  · rename_i w' hw
    exact (h.commitMark hw fun number hn => absurd hn (hm number)).setPc hpc
  · exact h.setPc (by simp)

theorem commitResultSync (h : Genuine w) {j : Nat} {x : ResultSync Content}
    (hm : ∀ number, m = .succeeded number → ∀ r ∈ w.executions.rows, r.id = x.execution.id →
      w.HasIssue (executionRequestMarker r) number) :
    Genuine (w.commitResultSync j x m s now) := by
  unfold World.commitResultSync
  split
  · rename_i w' hw
    exact (h.commitMark hw hm).setResultSync (by simp)
  · exact h.setResultSync (by simp)

theorem answer (h : Genuine w) {request : ExecuteRequest} {result : ExecutionResult}
    (hr : ∃ r ∈ w.executions.rows, r.id = result.executionId ∧
      ∃ number, result.issue = some number ∧ w.HasIssue (executionRequestMarker r) number) :
    Genuine { w with answered := (request, result) :: w.answered } := by
  refine ⟨h.rows, h.calling, h.written, h.listed, ?_⟩
  intro y hy
  rcases List.mem_cons.mp hy with rfl | hy
  · exact hr
  · exact h.answered y hy

theorem claim (h : Genuine w) {x : ActionExecution Content} {table : ExecutionTable Content}
    {k : Nat} {y : Executor Content} (hi : w.executions.insert x = some table)
    (hx : x.status = .claimed) (hy : y.pc = .claimed) :
    Genuine { w with
      executions := table, executors := Function.update w.executors k (some y) } := by
  refine ⟨?_, ?_, h.written, h.listed, ?_⟩
  · intro r hr hst
    rcases (ExecutionTable.mem_insert hi).mp hr with hr | rfl
    · exact h.rows r hr hst
    · rw [hx] at hst
      cases hst
  · intro k' z i hz hpc
    rcases World.setExecutor_some (w := w) hz with ⟨-, rfl⟩ | ⟨-, hz⟩
    · rw [hy] at hpc
      cases hpc
    · exact h.calling k' z i hz hpc
  · intro z hz
    obtain ⟨r, hr, hrest⟩ := h.answered z hz
    exact ⟨r, (ExecutionTable.mem_insert hi).mpr (.inl hr), hrest⟩

theorem createIssue (h : Genuine w) {k : Nat} {x : Executor Content} :
    Genuine { w with
      calls := w.calls ++
        [⟨x.execution.actionProposalId, executionRequestMarker x.execution, .pending⟩]
      executors :=
        Function.update w.executors k (some { x with pc := .calling w.calls.length }) } := by
  refine ⟨h.rows, ?_, ?_, h.listed, h.answered⟩
  · intro k' y i hy hpc
    rcases World.setExecutor_some (w := w) hy with ⟨-, rfl⟩ | ⟨-, hy⟩
    · cases hpc
      exact ⟨_, List.getElem?_concat_length, rfl⟩
    · obtain ⟨c, hc, hmarker⟩ := h.calling k' y i hy hpc
      obtain ⟨hlt, -⟩ := List.getElem?_eq_some_iff.mp hc
      exact ⟨c, by simpa [List.getElem?_append_left hlt] using hc, hmarker⟩
  · intro c hc number hn
    rcases List.mem_append.mp hc with hc | hc
    · exact h.written c hc number hn
    · obtain rfl := List.mem_singleton.mp hc
      cases hn

/-- The provider's answer to one call; it only ever adds issues. -/
theorem resolveCall (h : Genuine w) {i : Nat} {id : ProposalId} {marker : ExecutionMarker Content}
    {issues : List (Issue Content)} {outcome : CallOutcome}
    (hc : w.calls[i]? = some ⟨id, marker, .pending⟩) (hissues : w.issues ⊆ issues)
    (hwritten : ∀ number, outcome = .written number →
      ({ w with issues := issues } : World Content).HasIssue marker number) :
    Genuine { w with issues := issues, calls := w.calls.set i ⟨id, marker, outcome⟩ } := by
  refine ⟨?_, ?_, ?_, ?_, ?_⟩
  · intro r hr hst
    obtain ⟨number, hresponse, hhas⟩ := h.rows r hr hst
    exact ⟨number, hresponse, hhas.mono hissues⟩
  · intro k x i' hx hpc
    obtain ⟨c, hc', hmarker⟩ := h.calling k x i' hx hpc
    obtain ⟨d, hd, -, hsame⟩ := Wiring.getElem?_same_markers (Wiring.map_set_marker hc) hc'
    exact ⟨d, hd, hsame.trans hmarker⟩
  · intro c hmem number hn
    rcases List.mem_or_eq_of_mem_set hmem with hmem | rfl
    · exact (h.written c hmem number hn).mono hissues
    · exact hwritten number hn
  · intro j x found hx hfound issue hissue
    exact (h.listed j x found hx hfound issue hissue).mono hissues
  · intro y hy
    obtain ⟨r, hr, hid, number, hissue, hhas⟩ := h.answered y hy
    exact ⟨r, hr, hid, number, hissue, hhas.mono hissues⟩

theorem foreign (h : Genuine w) {issues : List (Issue Content)} (hissues : w.issues ⊆ issues) :
    Genuine { w with issues := issues } := by
  refine ⟨?_, h.calling, ?_, ?_, ?_⟩
  · intro r hr hst
    obtain ⟨number, hresponse, hhas⟩ := h.rows r hr hst
    exact ⟨number, hresponse, hhas.mono hissues⟩
  · intro c hc number hn
    exact (h.written c hc number hn).mono hissues
  · intro j x found hx hfound issue hissue
    exact (h.listed j x found hx hfound issue hissue).mono hissues
  · intro y hy
    obtain ⟨r, hr, hid, number, hissue, hhas⟩ := h.answered y hy
    exact ⟨r, hr, hid, number, hissue, hhas.mono hissues⟩

end Genuine

/-- The row of a process in flight is the one that carries its id. -/
theorem marker_of_row {w : World Content} {r x : ActionExecution Content}
    (hr : r ∈ w.executions.rows) (hid : r.id = x.id)
    (hrow : ∃ r ∈ w.executions.rows, SameClaim r x) :
    executionRequestMarker r = executionRequestMarker x := by
  obtain ⟨r', hr', hsame⟩ := hrow
  obtain rfl := ExecutionTable.row_unique hr hr' (hid.trans hsame.id.symm)
  exact hsame.marker

theorem ExecutorCommit.quiet {a : Action Content} {k : Nat} {pc pc' : ExecutorPc} {m : Mark}
    {s : Option ProposalStatus} {now : Instant} (hc : ExecutorCommit a k pc m s now pc') :
    (∀ number, m ≠ .succeeded number) ∧ ∀ i, pc' ≠ .calling i := by
  cases hc <;> simp

theorem reconciled_listed {x : ResultSync Content} {number : IssueNumber}
    (h : x.verdict = some (.reconciledSuccess number)) :
    ∃ issue, x.pc = .listed [issue] ∧ issue.number = number := by
  unfold ResultSync.verdict at h
  split at h
  case h_1 => cases h
  case h_4 => cases h
  all_goals
    split at h
    · split at h <;> cases h
    · rename_i issue hpc
      cases h
      exact ⟨issue, hpc, rfl⟩
    · cases h

section Runs

variable [DecidableEq Content] {w₀ w t : World Content} {a : Action Content}

theorem mem_matching {issues : List (Issue Content)} {x : ActionExecution Content}
    {issue : Issue Content} (h : issue ∈ issuesMatchingExecutionMarker issues x) :
    issue ∈ issues ∧ issue.isPullRequest = false ∧
      issue.marker = some (executionRequestMarker x) := by
  obtain ⟨hmem, hmatch⟩ := List.mem_filter.mp h
  rw [Bool.and_eq_true, Bool.not_eq_true', decide_eq_true_eq] at hmatch
  exact ⟨hmem, hmatch⟩

theorem genuine_listIssues {j : Nat} (h : Genuine w) (hs : step w (.listIssues j) = some t) :
    Genuine t := by
  simp only [step] at hs
  split at hs
  · rename_i x hx
    split at hs <;> cases hs
    all_goals
      refine h.setResultSync fun found hfound issue hissue => ?_
      cases hfound
      obtain ⟨hmem, hrest⟩ := mem_matching hissue
      exact ⟨issue, hmem, rfl, hrest⟩
  · cases hs

theorem genuine_resolveCall {i : Nat} {written : Bool} (h : Genuine w)
    (hs : step w (.resolveCall i written) = some t) : Genuine t := by
  simp only [step] at hs
  split at hs
  · rename_i p marker hc
    split at hs <;> cases hs
    · refine h.resolveCall hc (List.subset_append_left _ _) fun number hn => ?_
      cases hn
      exact ⟨_, List.mem_append_right _ (List.mem_singleton_self _), rfl, rfl, rfl⟩
    · exact h.resolveCall hc (List.Subset.refl _) fun number hn => absurd hn (by simp)
  · cases hs

theorem genuine_foreignIssue {isPullRequest : Bool} {marker : Option (ExecutionMarker Content)}
    (h : Genuine w) (hs : step w (.foreignIssue isPullRequest marker) = some t) : Genuine t := by
  cases hs
  exact h.foreign (List.subset_append_left _ _)

theorem genuine_step (h : Genuine w) (hw : Wiring w) (hs : step w a = some t) : Genuine t := by
  cases stepped_of_step hs with
  | decide => exact ⟨h.rows, h.calling, h.written, h.listed, h.answered⟩
  | refused => exact h
  | existing he =>
    obtain ⟨p, -, hx, -, hst, -⟩ := execute_existing he
    obtain ⟨number, hresponse, hhas⟩ := h.rows _ hx hst
    exact h.answer ⟨_, hx, rfl, number, hresponse, hhas⟩
  | claimed hk he =>
    obtain ⟨-, -, rfl, hi⟩ := execute_claimed he
    exact h.claim hi rfl rfl
  | executorCommit hx hc => exact h.commitExecutor hc.quiet.1 hc.quiet.2
  | createIssue => exact h.createIssue
  | resolveCall => exact genuine_resolveCall h hs
  | @succeed k now x i issue p marker w' hx hpc hc hw' =>
    obtain ⟨c, hc', hmarker⟩ := h.calling k x i hx hpc
    obtain rfl := Option.some.inj (hc.symm.trans hc')
    have hhas := h.written _ (List.mem_of_getElem? hc) issue rfl
    have hrow := hw.executorRow k x hx
    have hmarked := h.commitMark hw' (fun number hn r hr hid => by
      cases hn
      rw [marker_of_row hr hid hrow, ← hmarker]
      exact hhas)
    obtain ⟨table, ht, rfl⟩ := World.commitMark_some hw'
    obtain ⟨r, hr, hsame⟩ := hrow
    have hsucceeded : ∃ r ∈ table.rows, r.id = x.execution.id ∧
        ∃ number, some issue = some number ∧ w.HasIssue (executionRequestMarker r) number := by
      refine ⟨_, (ExecutionTable.mem_update ht).mpr ⟨r, hr, rfl⟩,
        (ExecutionTable.amend_id).trans hsame.id, issue, rfl, ?_⟩
      rw [(sameClaim_amend x.execution.id (.succeeded issue) r).marker, hsame.marker, ← hmarker]
      exact hhas
    exact Genuine.answer (hmarked.setPc (by simp)) hsucceeded
  | finishExecutor => exact h.setPc (by simp)
  | @beginSync j workspace proposal observedAt x hj hb =>
    refine h.setResultSync fun found hfound => ?_
    rw [(beginResultSync_some hb).2.1] at hfound
    cases hfound
  | listIssues => exact genuine_listIssues h hs
  | @commitSync j now x m s hx hv =>
    refine h.commitResultSync fun number hn r hr hid => ?_
    rw [marker_of_row hr hid (hw.syncRow j x hx).2]
    cases hv with
    | writeNotObserved => cases hn
    | reconciledSuccess hverdict =>
      cases hn
      obtain ⟨issue, hlisted, rfl⟩ := reconciled_listed hverdict
      exact h.listed j x [issue] hx hlisted issue (List.mem_singleton_self issue)
  | finishSync => exact h.setResultSync (by simp)
  | foreignIssue => exact genuine_foreignIssue h hs

theorem genuine_reaches (h₀ : Initial w₀) (h : Reaches step anyStep w₀ w) : Genuine w :=
  h.invariant_of (fun _ _ _ hi _ hs => wiring_step hi hs)
    (fun _ _ _ hi hg _ hs => genuine_step hg hi hs) h₀.wiring h₀.genuine

/-- A success that is recorded, and a result that is answered, is an issue of the provider that was
written for that very execution, and the execution answered is one of the proposal asked for. -/
theorem success_is_genuine (h₀ : Initial w₀) (h : Reaches step anyStep w₀ w) :
    (∀ r ∈ w.executions.rows, r.status = .succeeded → ∃ number,
      r.providerResponse = some number ∧ w.HasIssue (executionRequestMarker r) number) ∧
    ∀ y ∈ w.answered, ∃ r ∈ w.executions.rows, r.id = y.2.executionId ∧
      r.actionProposalId = y.1.proposalId ∧
        ∃ number, y.2.issue = some number ∧ w.HasIssue (executionRequestMarker r) number := by
  have hgenuine := genuine_reaches h₀ h
  refine ⟨hgenuine.rows, fun y hy => ?_⟩
  obtain ⟨r, hr, hid, hissue⟩ := hgenuine.answered y hy
  obtain ⟨p, r', -, -, hr', hid', hproposal, -⟩ := ((replayable_reaches h₀ h).answered y hy).row
  obtain rfl := ExecutionTable.row_unique hr hr' (hid.trans hid'.symm)
  exact ⟨r, hr, hid, hproposal, hissue⟩

end Runs

/-- The answer of the provider is lost, a result sync finds the issue, and a second key asks. -/
theorem success_is_genuine_reconciled : ∃ w, Reaches step anyStep approvedWorld w ∧
    ∃ r ∈ w.executions.rows, r.status = .succeeded ∧
      ∃ number, w.HasIssue (executionRequestMarker r) number := by
  have hrun : (exec step approvedWorld
      [.execute 0 (confirmedRequest 1) ⟨true, none⟩ 10 0, .start 0 1, .createIssue 0,
        .resolveCall 0 true, .markUncertain 0 2, .beginSync 0 0 0 3, .listIssues 0, .commitSync 0 4,
        .execute 1 (confirmedRequest 2) ⟨true, none⟩ 11 5]).map
      (fun w => w.executions.rows.any fun r => decide (r.status = .succeeded)) = some true := by
    decide
  obtain ⟨w, hw, hend⟩ := reaches_of_exec_check hrun
  obtain ⟨r, hr, hst⟩ := List.any_eq_true.mp hend
  obtain ⟨number, -, hhas⟩ :=
    (success_is_genuine approvedWorld_initial hw).1 r hr (of_decide_eq_true hst)
  exact ⟨w, hw, r, hr, of_decide_eq_true hst, number, hhas⟩

end FounderOs.Execution
