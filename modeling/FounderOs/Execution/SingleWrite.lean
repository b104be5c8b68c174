import FounderOs.Execution.Wiring

namespace FounderOs.Execution

open Transition

variable {Content : Type}

/-- The calls of `create_issue` for one proposal that the provider has not seen fail. -/
def World.liveCalls (w : World Content) (p : ProposalId) : List (Call Content) :=
  w.calls.filter (fun c => c.proposalId = p ∧ c.outcome ≠ .failed)

/-- A result sync commits `failed` for an execution only after that execution's executor has left
the stretch between its `running` commit and its call, and after its call, if any, is known to have
failed. -/
def SettledBeforeFailure (w : World Content) (a : Action Content) : Prop :=
  ∀ j now x, a = .commitSync j now → w.resultSyncs j = some x →
    x.verdict = some .writeNotObserved →
    (∀ k y, w.executors k = some y → y.execution.id = x.execution.id → y.pc ≠ .running) ∧
    (∀ c ∈ w.calls, c.marker.executionId = x.execution.id → c.outcome = .failed)

def MayWrite (w : World Content) (e : ExecutionId) : Prop :=
  (∃ k x, w.executors k = some x ∧ x.execution.id = e ∧ x.pc = .running) ∨
    ∃ c ∈ w.calls, c.marker.executionId = e ∧ c.outcome ≠ .failed

/-- Whatever may still write, or has written, holds the proposal's one active row. -/
def Covered (w : World Content) : Prop :=
  ∀ e, MayWrite w e → ∃ r ∈ w.executions.rows, r.id = e ∧ r.status.activeOrSucceeded = true

theorem Initial.covered {w : World Content} (h : Initial w) : Covered w := by
  rintro e (⟨k, x, hx, _⟩ | ⟨c, hc, _⟩)
  · simp [h.executors k] at hx
  · simp [h.calls] at hc

namespace Covered

variable {w t : World Content} {e : ExecutionId} {m : Mark}

theorem mono (h : Covered w) (he : t.executions = w.executions)
    (hm : ∀ e, MayWrite t e → MayWrite w e) : Covered t := by
  intro e ht
  rw [he]
  exact h e (hm e ht)

theorem amend (h : Covered w) (ht : w.executions.update e m = some t.executions)
    (hrow : ∃ r ∈ w.executions.rows, r.id = e)
    (hm : ∀ e', MayWrite t e' → e' = e ∧ m.status.activeOrSucceeded = true ∨
      e' ≠ e ∧ MayWrite w e') : Covered t := by
  intro e' he'
  rcases hm e' he' with ⟨rfl, hact⟩ | ⟨hne, hw⟩
  · obtain ⟨r, hr, hid⟩ := hrow
    refine ⟨_, (ExecutionTable.mem_update ht).mpr ⟨r, hr, rfl⟩, by simpa using hid, ?_⟩
    rw [ExecutionTable.amend_self hid]
    simpa using hact
  · obtain ⟨r, hr, hid, hact⟩ := h e' hw
    refine ⟨r, (ExecutionTable.mem_update ht).mpr ⟨r, hr, ?_⟩, hid, hact⟩
    exact ExecutionTable.amend_other (hid ▸ hne)

theorem mayWrite_setExecutor {k : Nat} {x : Executor Content} {pc : ExecutorPc}
    {e' : ExecutionId}
    (h : MayWrite (w.setExecutor k { x with pc := pc }) e') :
    MayWrite w e' ∨ (pc = .running ∧ e' = x.execution.id) := by
  rcases h with ⟨k', y, hy, rfl, hpc⟩ | hcall
  · rcases World.setExecutor_some hy with ⟨_, rfl⟩ | ⟨_, hy⟩
    · exact .inr ⟨hpc, rfl⟩
    · exact .inl (.inl ⟨k', y, hy, rfl, hpc⟩)
  · exact .inl (.inr hcall)

theorem finish (h : Covered w) {k : Nat} {x : Executor Content} :
    Covered (w.setExecutor k { x with pc := .finished }) := by
  refine h.mono rfl ?_
  intro e he
  rcases mayWrite_setExecutor he with he | ⟨hpc, _⟩
  · exact he
  · cases hpc

/-- Before its call an execution can be written only through its own executor. -/
theorem mayWrite_other (hw : Wiring w) {k : Nat} {x : Executor Content}
    (hx : w.executors k = some x) (hpc : x.pc = .claimed ∨ x.pc = .running)
    (h : MayWrite (w.setExecutor k { x with pc := .finished }) e) : e ≠ x.execution.id := by
  rintro rfl
  rcases h with ⟨k', y, hy, hid, hrun⟩ | ⟨c, hc, hid, _⟩
  · rcases World.setExecutor_some hy with ⟨_, rfl⟩ | ⟨hne, hy⟩
    · cases hrun
    · exact hne (hw.executorOwn _ _ _ _ hy hx hid)
  · exact hw.beforeCall k x hx hpc c hc hid

theorem commitExecutor (h : Covered w) (hw : Wiring w) {k : Nat} {x : Executor Content}
    (hx : w.executors k = some x) {s : Option ProposalStatus} {now : Instant} {pc : ExecutorPc}
    (hm : m.status.activeOrSucceeded = true ∨
      (pc = .finished ∧ (x.pc = .claimed ∨ x.pc = .running))) :
    Covered (w.commitExecutor k x m s now pc) := by
  unfold World.commitExecutor
  split
  · rename_i w' hc
    obtain ⟨table, ht, rfl⟩ := World.commitMark_some hc
    obtain ⟨r, hr, hs⟩ := hw.executorRow k x hx
    refine h.amend ht ⟨r, hr, hs.id⟩ ?_
    intro e' he'
    have he : MayWrite (w.setExecutor k { x with pc := pc }) e' := he'
    by_cases heq : e' = x.execution.id
    · rcases hm with hact | ⟨rfl, hpc⟩
      · exact .inl ⟨heq, hact⟩
      · exact absurd heq (mayWrite_other hw hx hpc he)
    · rcases mayWrite_setExecutor he with hmay | ⟨_, hid⟩
      · exact .inr ⟨heq, hmay⟩
      · exact absurd hid heq
  · exact h.finish

theorem commitResultSync (h : Covered w) (hw : Wiring w) {j : Nat} {x : ResultSync Content}
    (hx : w.resultSyncs j = some x) {s : Option ProposalStatus} {now : Instant}
    (hm : m.status.activeOrSucceeded = true ∨ ¬MayWrite w x.execution.id) :
    Covered (w.commitResultSync j x m s now) := by
  unfold World.commitResultSync
  split
  · rename_i w' hc
    obtain ⟨table, ht, rfl⟩ := World.commitMark_some hc
    obtain ⟨_, r, hr, hs⟩ := hw.syncRow j x hx
    refine h.amend ht ⟨r, hr, hs.id⟩ ?_
    intro e' (he : MayWrite w e')
    by_cases heq : e' = x.execution.id
    · rcases hm with hact | hnot
      · exact .inl ⟨heq, hact⟩
      · exact absurd (heq ▸ he) hnot
    · exact .inr ⟨heq, he⟩
  · exact h.mono rfl (fun _ he => he)

theorem createIssue (h : Covered w) {k : Nat} {x : Executor Content}
    (hx : w.executors k = some x) (hpc : x.pc = .running) :
    Covered { w with
      calls := w.calls ++
        [⟨x.execution.actionProposalId, executionRequestMarker x.execution, .pending⟩]
      executors := Function.update w.executors k (some { x with pc := .calling w.calls.length }) } := by
  refine h.mono rfl ?_
  rintro e (⟨k', y, hy, hid, hrun⟩ | ⟨c, hc, hid, hout⟩)
  · rcases World.setExecutor_some (w := w) hy with ⟨_, rfl⟩ | ⟨_, hy⟩
    · cases hrun
    · exact .inl ⟨k', y, hy, hid, hrun⟩
  · rcases List.mem_append.mp hc with hc | hc
    · exact .inr ⟨c, hc, hid, hout⟩
    · obtain rfl := List.mem_singleton.mp hc
      exact .inl ⟨k, x, hx, hid, hpc⟩

theorem resolveCall (h : Covered w) {i : Nat} {p : ProposalId} {marker : ExecutionMarker Content}
    {issues : List (Issue Content)} {o : CallOutcome}
    (hc : w.calls[i]? = some ⟨p, marker, .pending⟩) :
    Covered { w with issues := issues, calls := w.calls.set i ⟨p, marker, o⟩ } := by
  refine h.mono rfl ?_
  rintro e (hrun | ⟨c, hmem, hid, hout⟩)
  · exact .inl hrun
  · rcases List.mem_or_eq_of_mem_set hmem with hmem | rfl
    · exact .inr ⟨c, hmem, hid, hout⟩
    · exact .inr ⟨_, List.mem_of_getElem? hc, hid, by simp⟩

end Covered

section Runs

variable [DecidableEq Content] {w₀ w t : World Content}

theorem covered_step {a : Action Content} (h : Covered w) (hw : Wiring w)
    (ha : SettledBeforeFailure w a) (hs : step w a = some t) : Covered t := by
  cases stepped_of_step hs with
  | decide => exact h.mono rfl (fun _ he => he)
  | refused => exact h
  | existing => exact h.mono rfl (fun _ he => he)
  | claimed hk he =>
    obtain ⟨_, _, rfl, hi⟩ := execute_claimed he
    intro e hmay
    have hold : MayWrite w e := by
      rcases hmay with ⟨k', y, hy, hid, hrun⟩ | hcall
      · rcases World.setExecutor_some (w := w) hy with ⟨_, rfl⟩ | ⟨_, hy⟩
        · cases hrun
        · exact .inl ⟨k', y, hy, hid, hrun⟩
      · exact .inr hcall
    obtain ⟨r, hr, hid, hact⟩ := h e hold
    exact ⟨r, (ExecutionTable.mem_insert hi).mpr (.inl hr), hid, hact⟩
  | executorCommit hx hc =>
    refine h.commitExecutor hw hx ?_
    generalize hpc : Executor.pc _ = pc at hc
    cases hc <;> simp [Mark.status, ExecutionStatus.activeOrSucceeded]
  | createIssue hx hpc => exact h.createIssue hx hpc
  | resolveCall hc => exact h.resolveCall hc
  | @succeed k now x i issue p marker w' hx hpc hc hw' =>
    have hcov : Covered (w.commitExecutor k x (.succeeded issue) (some .executed) now .finished) :=
      h.commitExecutor hw hx (.inl rfl)
    rw [World.commitExecutor, hw'] at hcov
    exact hcov.mono rfl (fun _ he => he)
  | finishExecutor => exact h.finish
  | beginSync => exact h.mono rfl (fun _ he => he)
  | listIssues => exact h.mono rfl (fun _ he => he)
  | commitSync hx hv =>
    refine h.commitResultSync hw hx ?_
    cases hv with
    | reconciledSuccess => exact .inl rfl
    | writeNotObserved hv =>
      obtain ⟨hexec, hcalls⟩ := ha _ _ _ rfl hx hv
      refine .inr ?_
      rintro (⟨k, y, hy, hid, hrun⟩ | ⟨c, hc, hid, hout⟩)
      · exact hexec k y hy hid hrun
      · exact hout (hcalls c hc hid)
  | finishSync => exact h.mono rfl (fun _ he => he)
  | foreignIssue => exact h.mono rfl (fun _ he => he)

theorem covered_reaches (h₀ : Initial w₀) (h : Reaches step SettledBeforeFailure w₀ w) :
    Wiring w ∧ Covered w :=
  h.invariant (P := fun w => Wiring w ∧ Covered w)
    (fun _ _ _ hi ha hs => ⟨wiring_step hi.1 hs, covered_step hi.2 hi.1 ha hs⟩)
    ⟨h₀.wiring, h₀.covered⟩

omit [DecidableEq Content] in
theorem liveCalls_unique (hw : Wiring w) (hc : Covered w) {p : ProposalId} {c d : Call Content}
    (hcall : c ∈ w.liveCalls p) (hdall : d ∈ w.liveCalls p) :
    c.marker.executionId = d.marker.executionId := by
  simp only [World.liveCalls, List.mem_filter, decide_eq_true_eq] at hcall hdall
  obtain ⟨hcm, hcp, hco⟩ := hcall
  obtain ⟨hdm, hdp, hdo⟩ := hdall
  obtain ⟨r, hr, hrid, hract⟩ := hc _ (.inr ⟨c, hcm, rfl, hco⟩)
  obtain ⟨s, hs, hsid, hsact⟩ := hc _ (.inr ⟨d, hdm, rfl, hdo⟩)
  obtain ⟨r', hr', hrid', hrp⟩ := hw.callRow c hcm
  obtain ⟨s', hs', hsid', hsp⟩ := hw.callRow d hdm
  obtain rfl := ExecutionTable.row_unique hr hr' (hrid.trans hrid'.symm)
  obtain rfl := ExecutionTable.row_unique hs hs' (hsid.trans hsid'.symm)
  have heq := ExecutionTable.active_unique hr hs
    (hrp.trans (hcp.trans (hsp.trans hdp).symm)) hract hsact
  rw [← hrid, heq, hsid]

theorem create_issue_at_most_once (h₀ : Initial w₀)
    (h : Reaches step SettledBeforeFailure w₀ w) (p : ProposalId) :
    (w.liveCalls p).length ≤ 1 := by
  obtain ⟨hw, hc⟩ := covered_reaches h₀ h
  have hpair : (w.liveCalls p).Pairwise
      (fun c d => c.marker.executionId ≠ d.marker.executionId) :=
    hw.callOnce.sublist List.filter_sublist
  match hl : w.liveCalls p with
  | [] => simp
  | [_] => simp
  | c :: d :: rest =>
    rw [hl] at hpair
    have hne := (List.pairwise_cons.mp hpair).1 d (by simp)
    exact absurd (liveCalls_unique hw hc (p := p) (by simp [hl]) (by simp [hl])) hne

end Runs

theorem create_issue_at_most_once_single_run :
    ∃ w, Reaches step SettledBeforeFailure approvedWorld w ∧ (w.liveCalls 0).length ≤ 1 := by
  have hrun : (exec (restrict step fun _ a => a.isCommitSync = false) approvedWorld
      [.execute 0 (confirmedRequest 1) ⟨true, none⟩ 10 0, .start 0 1, .createIssue 0,
        .resolveCall 0 true, .succeed 0 2]).isSome = true := by decide
  obtain ⟨w, hw⟩ := Option.isSome_iff_exists.mp hrun
  have hreach : Reaches step SettledBeforeFailure approvedWorld w := by
    refine (reaches_of_exec_restrict hw).weaken ?_
    intro s a ha j now x heq
    cases heq
    cases ha
  exact ⟨w, hreach, create_issue_at_most_once approvedWorld_initial hreach 0⟩

/-- The first executor is marked failed while it is about to write; a second key then writes too. -/
theorem second_key_writes_again :
    ¬∀ w₀ w : World Unit, Initial w₀ → Reaches step anyStep w₀ w →
      ∀ p, (w.liveCalls p).length ≤ 1 := by
  intro hall
  have hrun : (exec step approvedWorld
      [.execute 0 (confirmedRequest 1) ⟨true, none⟩ 10 0, .beginSync 0 0 0 1, .start 0 2,
        .commitSync 0 3, .execute 1 (confirmedRequest 2) ⟨true, none⟩ 11 4, .start 1 5,
        .createIssue 0, .createIssue 1, .resolveCall 0 true, .resolveCall 1 true]).map
      (fun w => decide ((w.liveCalls 0).length = 2)) = some true := by decide
  obtain ⟨w, hw, htwo⟩ := reaches_of_exec_check hrun
  have hle := hall approvedWorld w approvedWorld_initial hw 0
  rw [of_decide_eq_true htwo] at hle
  exact absurd hle (by decide)

end FounderOs.Execution
