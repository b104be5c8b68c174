import FounderOs.Execution.Protocol

namespace FounderOs.Execution

variable {Content : Type} {w t : World Content} {a : Action Content}

theorem getProposal_some {proposals : ProposalTable Content} {ws : WorkspaceId} {id : ProposalId}
    {p : ActionProposal Content} (h : getProposal proposals ws id = some p) :
    proposals id = some p ∧ p.workspaceId = ws := by
  simpa [getProposal, Option.filter_eq_some_iff] using h

theorem executorAt_some {k : Nat} {pc : ExecutorPc} {x : Executor Content}
    (h : w.executorAt k pc = some x) : w.executors k = some x ∧ x.pc = pc := by
  simpa [World.executorAt, Option.filter_eq_some_iff] using h

theorem beginResultSync_some {ws : WorkspaceId} {id : ProposalId} {at' : Instant}
    {x : ResultSync Content} (h : beginResultSync w ws id at' = some x) :
    getProposal w.proposals ws id = some x.proposal ∧ x.pc = .read ∧
      w.executions.activeOrSuccessful x.proposal.id = some x.execution := by
  unfold beginResultSync at h
  split at h
  · cases h
  · rename_i p hp
    split at h
    · cases h
    · simp only [Option.map_eq_some_iff] at h
      obtain ⟨r, hr, rfl⟩ := h
      exact ⟨hp, rfl, hr⟩

variable [DecidableEq Content]

theorem resolveExistingExecution_existing {p : ActionProposal Content}
    {x y : ActionExecution Content} {hash : Option (RequestHash Content)}
    (h : resolveExistingExecution p x hash = .existing y) :
    y = x ∧ x.actionProposalId = p.id ∧ x.status = .succeeded ∧
      ∀ q, hash = some q → x.requestHash = q := by
  unfold resolveExistingExecution at h
  split at h
  · cases h
  · rename_i hc
    rw [not_or, not_not] at hc
    cases hs : x.status <;> simp only [hs] at h <;> cases h
    refine ⟨rfl, hc.1, rfl, ?_⟩
    intro q hq
    simpa [hq] using hc.2

theorem resolveExistingExecution_not_claimed {p q : ActionProposal Content}
    {x y : ActionExecution Content} {hash : Option (RequestHash Content)}
    {table : ExecutionTable Content} :
    resolveExistingExecution p x hash ≠ .claimed q y table := by
  unfold resolveExistingExecution
  split
  · exact fun h => by cases h
  · cases x.status <;> exact fun h => by cases h

theorem execute_claimed {proposals : ProposalTable Content} {table table' : ExecutionTable Content}
    {request : ExecuteRequest} {env : ExecuteEnvironment} {id : ExecutionId} {now : Instant}
    {p : ActionProposal Content} {x : ActionExecution Content}
    (h : executeApprovedGithubIssueAction proposals table request env id now =
      .claimed p x table') :
    getProposal proposals request.workspaceId request.proposalId = some p ∧
      p.status = .approved ∧ x = claimRow p request id now ∧ table.insert x = some table' := by
  unfold executeApprovedGithubIssueAction at h
  split at h
  · cases h
  split at h
  · cases h
  split at h
  · cases h
  rename_i q hq
  split at h
  · exact absurd h resolveExistingExecution_not_claimed
  split at h
  · exact absurd h resolveExistingExecution_not_claimed
  split at h
  · cases h
  rename_i hv
  split at h
  · cases h
  split at h
  · rename_i hi
    cases h
    refine ⟨hq, ?_, rfl, hi⟩
    by_contra hne
    simp [validateProposalForExecution, hne] at hv
  · cases h

theorem execute_existing {proposals : ProposalTable Content} {table : ExecutionTable Content}
    {request : ExecuteRequest} {env : ExecuteEnvironment} {id : ExecutionId} {now : Instant}
    {x : ActionExecution Content}
    (h : executeApprovedGithubIssueAction proposals table request env id now = .existing x) :
    ∃ p, getProposal proposals request.workspaceId request.proposalId = some p ∧
      x ∈ table.rows ∧ x.actionProposalId = p.id ∧ x.status = .succeeded ∧
      (x.workspaceId = request.workspaceId → x.clientIdempotencyKey = request.idempotencyKey →
        x.requestHash = executionRequestHash p request) := by
  unfold executeApprovedGithubIssueAction at h
  split at h
  · cases h
  split at h
  · cases h
  split at h
  · cases h
  rename_i p hp
  refine ⟨p, hp, ?_⟩
  split at h
  · rename_i y hy
    obtain ⟨rfl, hpid, hst, hh⟩ := resolveExistingExecution_existing h
    exact ⟨(ExecutionTable.byIdempotencyKey_some hy).1, hpid, hst, fun _ _ => hh _ rfl⟩
  rename_i hnone
  split at h
  · rename_i y hy
    obtain ⟨rfl, hpid, hst, _⟩ := resolveExistingExecution_existing h
    have hmem := (ExecutionTable.activeOrSuccessful_some hy).1
    exact ⟨hmem, hpid, hst, fun hw hk =>
      absurd hk (ExecutionTable.byIdempotencyKey_none.mp hnone x hmem hw)⟩
  split at h
  · cases h
  split at h
  · cases h
  split at h <;> cases h

/-- The commits an executor makes after its claim, other than the success. -/
inductive ExecutorCommit : Action Content → Nat → ExecutorPc → Mark → Option ProposalStatus →
    Instant → ExecutorPc → Prop where
  | tokenUnavailable {k now} : ExecutorCommit (.tokenUnavailable k now) k .claimed .failed
      (some .approved) now .finished
  | start {k now} : ExecutorCommit (.start k now) k .claimed (.running now) none now .running
  | evidenceInvalid {k now} : ExecutorCommit (.evidenceInvalid k now) k .running .failed
      (some .approved) now .finished
  | markUncertain {k now i} : ExecutorCommit (.markUncertain k now) k (.calling i) .uncertain
      none now .finished

inductive SyncCommit (x : ResultSync Content) : Mark → ProposalStatus → Prop where
  | writeNotObserved : x.verdict = some .writeNotObserved → SyncCommit x .failed .approved
  | reconciledSuccess {issue} : x.verdict = some (.reconciledSuccess issue) →
      SyncCommit x (.succeeded issue) .executed

inductive Stepped (w : World Content) : Action Content → World Content → Prop where
  | decide {id status now p} : w.proposals id = some p → p.status = .proposed →
      status = .approved ∨ status = .rejected →
      Stepped w (.decide id status now) { w with
        proposals :=
          Function.update w.proposals id (some { p with status := status, updatedAt := now }) }
  | refused {k request env id now} : Stepped w (.execute k request env id now) w
  | existing {k request env id now x} :
      executeApprovedGithubIssueAction w.proposals w.executions request env id now = .existing x →
      Stepped w (.execute k request env id now)
        { w with answered := (request, executionResult x) :: w.answered }
  | claimed {k request env id now p x table} : w.executors k = none →
      executeApprovedGithubIssueAction w.proposals w.executions request env id now =
        .claimed p x table →
      Stepped w (.execute k request env id now) { w with
        executions := table
        executors := Function.update w.executors k (some ⟨request, p, x, .claimed⟩) }
  | executorCommit {a k x m s now pc} : w.executors k = some x → ExecutorCommit a k x.pc m s now pc →
      Stepped w a (w.commitExecutor k x m s now pc)
  | createIssue {k x} : w.executors k = some x → x.pc = .running →
      Stepped w (.createIssue k) { w with
        calls := w.calls ++
          [⟨x.execution.actionProposalId, executionRequestMarker x.execution, .pending⟩]
        executors := Function.update w.executors k (some { x with pc := .calling w.calls.length }) }
  | resolveCall {i written p marker issues outcome} : w.calls[i]? = some ⟨p, marker, .pending⟩ →
      Stepped w (.resolveCall i written)
        { w with issues := issues, calls := w.calls.set i ⟨p, marker, outcome⟩ }
  | succeed {k now x i issue p marker w'} : w.executors k = some x → x.pc = .calling i →
      w.calls[i]? = some ⟨p, marker, .written issue⟩ →
      w.commitMark x.execution.id (.succeeded issue) x.proposal (some .executed) now = some w' →
      Stepped w (.succeed k now) { w'.setExecutor k { x with pc := .finished } with
        answered := (x.request, ⟨x.execution.id, some issue⟩) :: w.answered }
  | finishExecutor {a k x} : w.executors k = some x →
      a = .stopExecutor k ∨ (∃ now, a = .succeed k now) →
      Stepped w a (w.setExecutor k { x with pc := .finished })
  | beginSync {j workspace proposal observedAt x} : w.resultSyncs j = none →
      beginResultSync w workspace proposal observedAt = some x →
      Stepped w (.beginSync j workspace proposal observedAt) (w.setResultSync j x)
  | listIssues {j x found} : w.resultSyncs j = some x →
      Stepped w (.listIssues j) (w.setResultSync j { x with pc := .listed found })
  | commitSync {j now x m s} : w.resultSyncs j = some x → SyncCommit x m s →
      Stepped w (.commitSync j now) (w.commitResultSync j x m (some s) now)
  | finishSync {a j x} : w.resultSyncs j = some x →
      a = .stopSync j ∨ (∃ now, a = .commitSync j now ∧ x.verdict ≠ some .writeNotObserved) →
      Stepped w a (w.setResultSync j { x with pc := .finished })
  | foreignIssue {isPullRequest marker issues} :
      Stepped w (.foreignIssue isPullRequest marker) { w with issues := issues }

theorem stepped_of_executorAt {k : Nat} {pc pc' : ExecutorPc} {m : Mark}
    {s : Option ProposalStatus} {now : Instant}
    (hs : (w.executorAt k pc).map (fun x => w.commitExecutor k x m s now pc') = some t)
    (hc : ExecutorCommit a k pc m s now pc') : Stepped w a t := by
  simp only [Option.map_eq_some_iff] at hs
  obtain ⟨x, hx, rfl⟩ := hs
  obtain ⟨hk, rfl⟩ := executorAt_some hx
  exact .executorCommit hk hc

theorem stepped_of_step (hs : step w a = some t) : Stepped w a t := by
  cases a with
  | decide id status now =>
    simp only [step] at hs
    split at hs
    · cases hs
    · rename_i p hp
      split at hs
      · rename_i hc
        cases hs
        exact .decide hp hc.1 hc.2
      · cases hs
  | execute k request env id now =>
    simp only [step] at hs
    split at hs
    · cases hs
    · rename_i hk
      cases hs
      cases he : executeApprovedGithubIssueAction w.proposals w.executions request env id now with
      | refused error => exact .refused
      | existing x => exact .existing he
      | claimed p x table => exact .claimed (by simpa using hk) he
  | tokenUnavailable k now => exact stepped_of_executorAt hs .tokenUnavailable
  | start k now => exact stepped_of_executorAt hs .start
  | evidenceInvalid k now => exact stepped_of_executorAt hs .evidenceInvalid
  | createIssue k =>
    simp only [step, Option.map_eq_some_iff] at hs
    obtain ⟨x, hx, rfl⟩ := hs
    obtain ⟨hx, hpc⟩ := executorAt_some hx
    exact .createIssue hx hpc
  | resolveCall i written =>
    simp only [step] at hs
    split at hs
    · rename_i p marker hc
      split at hs <;> cases hs
      · exact .resolveCall hc
      · have hsame : Stepped w (.resolveCall i written)
            { w with issues := w.issues, calls := w.calls.set i ⟨p, marker, .failed⟩ } :=
          .resolveCall hc
        exact hsame
    · cases hs
  | succeed k now =>
    simp only [step] at hs
    split at hs
    · rename_i x hx
      split at hs
      · rename_i i hpc
        split at hs
        · rename_i p marker issue hc
          split at hs <;> cases hs
          · rename_i w' hw
            exact .succeed hx hpc hc hw
          · exact .finishExecutor hx (.inr ⟨now, rfl⟩)
        · cases hs
      · cases hs
    · cases hs
  | markUncertain k now =>
    simp only [step] at hs
    split at hs
    · rename_i x hx
      split at hs
      · rename_i i hpc
        cases hs
        exact .executorCommit hx (hpc ▸ .markUncertain)
      · cases hs
    · cases hs
  | stopExecutor k =>
    simp only [step, Option.map_eq_some_iff] at hs
    obtain ⟨x, hx, rfl⟩ := hs
    exact .finishExecutor hx (.inl rfl)
  | beginSync j workspace proposal observedAt =>
    simp only [step] at hs
    split at hs
    · cases hs
    · rename_i hj
      simp only [Option.map_eq_some_iff] at hs
      obtain ⟨x, hx, rfl⟩ := hs
      exact .beginSync (by simpa using hj) hx
  | listIssues j =>
    simp only [step] at hs
    split at hs
    · rename_i x hx
      split at hs <;> cases hs <;> exact .listIssues hx
    · cases hs
  | commitSync j now =>
    simp only [step] at hs
    split at hs
    · rename_i x hx
      split at hs <;> cases hs
      · rename_i hv
        exact .commitSync hx (.writeNotObserved hv)
      · rename_i hv
        exact .commitSync hx (.reconciledSuccess hv)
      · rename_i hv
        exact .finishSync hx (.inr ⟨now, rfl, by simp [hv]⟩)
      · rename_i hv
        exact .finishSync hx (.inr ⟨now, rfl, by simp [hv]⟩)
    · cases hs
  | stopSync j =>
    simp only [step, Option.map_eq_some_iff] at hs
    obtain ⟨x, hx, rfl⟩ := hs
    exact .finishSync hx (.inl rfl)
  | foreignIssue isPullRequest marker =>
    simp only [step, Option.some.injEq] at hs
    exact hs ▸ .foreignIssue

end FounderOs.Execution
