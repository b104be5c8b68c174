import FounderOs.Execution.Wiring

namespace FounderOs.Execution

open Transition

variable {Content : Type}

/-- The columns of a proposal that no request rewrites. -/
def ActionProposal.frozen (p : ActionProposal Content) : ActionProposal Content :=
  { p with status := .proposed, updatedAt := 0 }

def materialAt (p : ActionProposal Content) (request : ExecuteRequest) (updatedAt : Instant) :
    RequestHash Content :=
  { executionRequestHash p request with proposalUpdatedAt := updatedAt }

theorem materialAt_frozen {p q : ActionProposal Content} (h : p.frozen = q.frozen)
    (request : ExecuteRequest) (u : Instant) : materialAt p request u = materialAt q request u := by
  simp only [ActionProposal.frozen, ActionProposal.mk.injEq] at h
  simp [materialAt, executionRequestHash, h]

theorem eq_executionRequestHash_iff {hash : RequestHash Content} {p : ActionProposal Content}
    {request : ExecuteRequest} (h : hash = materialAt p request hash.proposalUpdatedAt) :
    hash = executionRequestHash p request ↔ p.updatedAt = hash.proposalUpdatedAt := by
  constructor
  · intro he
    rw [he]
    rfl
  · intro hu
    rw [h, ← hu]
    rfl

structure Kept (w t : World Content) : Prop where
  rows : Extends t.executions w.executions
  proposals : ∀ id, (t.proposals id).map ActionProposal.frozen =
    (w.proposals id).map ActionProposal.frozen

theorem extends_refl (table : ExecutionTable Content) : Extends table table :=
  fun r hr => ⟨r, hr, .rfl⟩

theorem extends_trans {a b c : ExecutionTable Content} (h : Extends b a) (h' : Extends c b) :
    Extends c a := by
  intro r hr
  obtain ⟨s, hs, hrs⟩ := h r hr
  obtain ⟨u, hu, hsu⟩ := h' s hs
  exact ⟨u, hu, hsu.trans hrs⟩

theorem flushProposal_frozen {proposals : ProposalTable Content} {p : ActionProposal Content}
    {s : Option ProposalStatus} {now : Instant} (id : ProposalId) :
    (flushProposal proposals p s now id).map ActionProposal.frozen =
      (proposals id).map ActionProposal.frozen := by
  unfold flushProposal
  split
  · rfl
  · split
    · rfl
    · by_cases hid : id = p.id
      · subst hid
        simp only [Function.update_self, Option.map_map]
        rfl
      · rw [Function.update_of_ne hid]

namespace Kept

variable {w t u : World Content}

theorem refl (w : World Content) : Kept w w := ⟨extends_refl _, fun _ => rfl⟩

theorem trans (h : Kept w t) (h' : Kept t u) : Kept w u :=
  ⟨extends_trans h.rows h'.rows, fun id => (h'.proposals id).trans (h.proposals id)⟩

theorem congr (hx : t.executions = w.executions) (hp : t.proposals = w.proposals) : Kept w t :=
  ⟨hx ▸ extends_refl _, fun _ => by rw [hp]⟩

theorem commitMark {e : ExecutionId} {m : Mark} {p : ActionProposal Content}
    {s : Option ProposalStatus} {now : Instant} (h : w.commitMark e m p s now = some t) :
    Kept w t := by
  obtain ⟨table, ht, rfl⟩ := World.commitMark_some h
  exact ⟨extends_update ht, flushProposal_frozen⟩

theorem commitExecutor (w : World Content) (k : Nat) (x : Executor Content) (m : Mark)
    (s : Option ProposalStatus) (now : Instant) (pc : ExecutorPc) :
    Kept w (w.commitExecutor k x m s now pc) := by
  unfold World.commitExecutor
  split
  · rename_i w' hc
    exact (commitMark hc).trans (congr rfl rfl)
  · exact congr rfl rfl

theorem commitResultSync (w : World Content) (j : Nat) (x : ResultSync Content) (m : Mark)
    (s : Option ProposalStatus) (now : Instant) : Kept w (w.commitResultSync j x m s now) := by
  unfold World.commitResultSync
  split
  · rename_i w' hc
    exact (commitMark hc).trans (congr rfl rfl)
  · exact congr rfl rfl

theorem proposal (h : Kept w t) {id : ProposalId} {p : ActionProposal Content}
    (hp : w.proposals id = some p) : ∃ q, t.proposals id = some q ∧ q.frozen = p.frozen := by
  have he := h.proposals id
  rw [hp, Option.map_some, Option.map_eq_some_iff] at he
  exact he

theorem keyed (h : Kept w t) (hk : ∀ id p, w.proposals id = some p → p.id = id)
    {id : ProposalId} {p : ActionProposal Content} (hp : t.proposals id = some p) : p.id = id := by
  have he := h.proposals id
  rw [hp, Option.map_some, eq_comm, Option.map_eq_some_iff] at he
  obtain ⟨q, hq, hf⟩ := he
  have hid : p.id = q.id := (congrArg ActionProposal.id hf).symm
  rw [hid, hk id q hq]

end Kept

/-- What a request that reached a row for its proposal leaves true of that row for good. -/
structure Served (w : World Content) (request : ExecuteRequest) (e : ExecutionId) : Prop where
  confirmed : request.confirmExternalWrite = true
  row : ∃ p r, w.proposals request.proposalId = some p ∧ p.workspaceId = request.workspaceId ∧
    r ∈ w.executions.rows ∧ r.id = e ∧ r.actionProposalId = request.proposalId ∧
    (r.workspaceId = request.workspaceId → r.clientIdempotencyKey = request.idempotencyKey →
      r.requestHash = materialAt p request r.requestHash.proposalUpdatedAt)

theorem Served.mono {w t : World Content} {request : ExecuteRequest} {e : ExecutionId}
    (h : Served w request e) (hk : Kept w t) : Served t request e := by
  obtain ⟨p, r, hp, hws, hr, he, hrp, hhash⟩ := h.row
  obtain ⟨q, hq, hf⟩ := hk.proposal hp
  obtain ⟨r', hr', hs⟩ := hk.rows r hr
  have hqws : q.frozen.workspaceId = p.frozen.workspaceId := by rw [hf]
  refine ⟨h.confirmed, q, r', hq, hqws.trans hws, hr', hs.id.trans he, hs.proposal.trans hrp, ?_⟩
  intro hw hkey
  rw [hs.hash, materialAt_frozen hf]
  exact hhash (hs.workspace ▸ hw) (hs.key ▸ hkey)

structure Replayable (w : World Content) : Prop where
  keyed : ∀ id p, w.proposals id = some p → p.id = id
  executors : ∀ k x, w.executors k = some x → Served w x.request x.execution.id
  answered : ∀ y ∈ w.answered, Served w y.1 y.2.executionId

theorem Initial.replayable {w : World Content} (h : Initial w) : Replayable w where
  keyed := h.keyed
  executors k x hx := by simp [h.executors k] at hx
  answered y hy := by simp [h.answered] at hy

theorem Replayable.mono {w t : World Content} (h : Replayable w) (hk : Kept w t)
    (hx : ∀ k x, t.executors k = some x →
      (∃ y, w.executors k = some y ∧ y.request = x.request ∧ y.execution = x.execution) ∨
        Served t x.request x.execution.id)
    (ha : ∀ y ∈ t.answered, y ∈ w.answered ∨ Served t y.1 y.2.executionId) : Replayable t := by
  refine ⟨fun id p hp => hk.keyed h.keyed hp, ?_, ?_⟩
  · intro k x hkx
    rcases hx k x hkx with ⟨y, hy, hreq, hexec⟩ | hs
    · exact hreq ▸ hexec ▸ (h.executors k y hy).mono hk
    · exact hs
  · intro y hy
    rcases ha y hy with hold | hs
    · exact (h.answered y hold).mono hk
    · exact hs

theorem executor_same {w : World Content} {k k' : Nat} {x y : Executor Content} {pc : ExecutorPc}
    (hx : w.executors k = some x)
    (hy : (w.setExecutor k { x with pc := pc }).executors k' = some y) :
    ∃ z, w.executors k' = some z ∧ z.request = y.request ∧ z.execution = y.execution := by
  rcases World.setExecutor_some hy with ⟨rfl, rfl⟩ | ⟨_, hy⟩
  · exact ⟨x, hx, rfl, rfl⟩
  · exact ⟨y, hy, rfl, rfl⟩

section Runs

variable [DecidableEq Content] {w₀ w t : World Content} {a : Action Content}

theorem kept_step (hs : step w a = some t) : Kept w t := by
  cases stepped_of_step hs with
  | @decide id status now p hp =>
    refine ⟨extends_refl _, fun id' => ?_⟩
    by_cases hid : id' = id
    · subst hid
      simp [Function.update_self, hp, ActionProposal.frozen]
    · simp [Function.update_of_ne hid]
  | refused => exact Kept.refl w
  | claimed hk he =>
    obtain ⟨_, _, rfl, hi⟩ := execute_claimed he
    exact ⟨extends_insert hi, fun _ => rfl⟩
  | executorCommit => exact Kept.commitExecutor ..
  | succeed hx hpc hc hw => exact (Kept.commitMark hw).trans (Kept.congr rfl rfl)
  | commitSync => exact Kept.commitResultSync ..
  | existing | createIssue | resolveCall | finishExecutor | beginSync | listIssues | finishSync
  | foreignIssue => exact Kept.congr rfl rfl

theorem confirmed_of_answer {request : ExecuteRequest} {env : ExecuteEnvironment}
    {id : ExecutionId} {now : Instant} {answer : ExecuteAnswer Content}
    (h : executeApprovedGithubIssueAction w.proposals w.executions request env id now = answer)
    (hne : ∀ error, answer ≠ .refused error) : request.confirmExternalWrite = true := by
  unfold executeApprovedGithubIssueAction at h
  split at h
  · exact absurd h.symm (hne _)
  split at h
  · exact absurd h.symm (hne _)
  · rename_i hc
    simpa using hc

theorem served_of_existing (h : Replayable w) {request : ExecuteRequest} {env : ExecuteEnvironment}
    {id : ExecutionId} {now : Instant} {x : ActionExecution Content}
    (he : executeApprovedGithubIssueAction w.proposals w.executions request env id now =
      .existing x) : Served w request x.id := by
  obtain ⟨p, hp, hx, hxp, _, hhash⟩ := execute_existing he
  obtain ⟨hp, hws⟩ := getProposal_some hp
  refine ⟨confirmed_of_answer he (by simp), p, x, hp, hws, hx, rfl,
    hxp.trans (h.keyed _ _ hp), ?_⟩
  intro hw hk
  rw [hhash hw hk]
  rfl

theorem served_of_claimed (h : Replayable w) {request : ExecuteRequest} {env : ExecuteEnvironment}
    {id : ExecutionId} {now : Instant} {p : ActionProposal Content} {x : ActionExecution Content}
    {table : ExecutionTable Content}
    (he : executeApprovedGithubIssueAction w.proposals w.executions request env id now =
      .claimed p x table) (ht : t.executions = table) (hp' : t.proposals = w.proposals) :
    Served t request x.id := by
  have hc := confirmed_of_answer he (by simp)
  obtain ⟨hp, _, rfl, hi⟩ := execute_claimed he
  obtain ⟨hp, hws⟩ := getProposal_some hp
  refine ⟨hc, p, _, hp' ▸ hp, hws, ?_, rfl, h.keyed _ _ hp, fun _ _ => rfl⟩
  rw [ht]
  exact (ExecutionTable.mem_insert hi).mpr (.inr rfl)

theorem replayable_step (h : Replayable w) (hs : step w a = some t) : Replayable t := by
  have hkept := kept_step hs
  cases stepped_of_step hs with
  | existing he =>
    refine h.mono hkept (fun k x hx => .inl ⟨x, hx, rfl, rfl⟩) ?_
    intro y hy
    rcases List.mem_cons.mp hy with rfl | hy
    · exact .inr ((served_of_existing h he).mono hkept)
    · exact .inl hy
  | claimed hk he =>
    refine h.mono hkept ?_ (fun y hy => .inl hy)
    intro k' y hy
    rcases World.setExecutor_some (w := w) hy with ⟨_, rfl⟩ | ⟨_, hy⟩
    · exact .inr (served_of_claimed h he rfl rfl)
    · exact .inl ⟨y, hy, rfl, rfl⟩
  | executorCommit hx hc =>
    refine h.mono hkept ?_ ?_ <;> unfold World.commitExecutor
    · intro k' y hy
      split at hy
      · rename_i w' hw
        obtain ⟨_, _, rfl⟩ := World.commitMark_some hw
        exact .inl (executor_same hx hy)
      · exact .inl (executor_same hx hy)
    · intro y hy
      split at hy
      · rename_i w' hw
        obtain ⟨_, _, rfl⟩ := World.commitMark_some hw
        exact .inl hy
      · exact .inl hy
  | createIssue hx =>
    exact h.mono hkept (fun k' y hy => .inl (executor_same hx hy)) (fun y hy => .inl hy)
  | succeed hx hpc hc hw =>
    obtain ⟨_, _, rfl⟩ := World.commitMark_some hw
    refine h.mono hkept (fun k' y hy => .inl (executor_same hx hy)) ?_
    intro y hy
    rcases List.mem_cons.mp hy with rfl | hy
    · exact .inr ((h.executors _ _ hx).mono hkept)
    · exact .inl hy
  | finishExecutor hx =>
    exact h.mono hkept (fun k' y hy => .inl (executor_same hx hy)) (fun y hy => .inl hy)
  | commitSync hx hv =>
    refine h.mono hkept ?_ ?_ <;> unfold World.commitResultSync
    · intro k' y hy
      split at hy
      · rename_i w' hw
        obtain ⟨_, _, rfl⟩ := World.commitMark_some hw
        exact .inl ⟨y, hy, rfl, rfl⟩
      · exact .inl ⟨y, hy, rfl, rfl⟩
    · intro y hy
      split at hy
      · rename_i w' hw
        obtain ⟨_, _, rfl⟩ := World.commitMark_some hw
        exact .inl hy
      · exact .inl hy
  | decide | refused | resolveCall | beginSync | listIssues | finishSync | foreignIssue =>
    exact h.mono hkept (fun k x hx => .inl ⟨x, hx, rfl, rfl⟩) (fun y hy => .inl hy)

theorem replayable_reaches {ok : World Content → Action Content → Prop} (h₀ : Initial w₀)
    (h : Reaches step ok w₀ w) : Replayable w :=
  h.invariant (fun _ _ _ hi _ hs => replayable_step hi hs) h₀.replayable

theorem resolveExistingExecution_eq {p : ActionProposal Content} {x : ActionExecution Content}
    {hash : Option (RequestHash Content)} (hp : x.actionProposalId = p.id)
    (hst : x.status = .succeeded) (hh : ∀ q, hash = some q → x.requestHash = q) :
    resolveExistingExecution p x hash = .existing x := by
  unfold resolveExistingExecution
  rw [if_neg, hst]
  rintro (hne | hany)
  · exact hne hp
  · cases hash with
    | none => simp at hany
    | some q => simp [hh q rfl] at hany

theorem execute_existing_iff {request : ExecuteRequest} {env : ExecuteEnvironment}
    {id : ExecutionId} {now : Instant} {p : ActionProposal Content} {x : ActionExecution Content}
    (hp : getProposal w.proposals request.workspaceId request.proposalId = some p)
    (hc : request.confirmExternalWrite = true) :
    executeApprovedGithubIssueAction w.proposals w.executions request env id now = .existing x ↔
      env.realConnectorsEnabled = true ∧ x ∈ w.executions.rows ∧ x.actionProposalId = p.id ∧
        x.status = .succeeded ∧ ∀ y ∈ w.executions.rows, y.workspaceId = request.workspaceId →
          y.clientIdempotencyKey = request.idempotencyKey →
            y.id = x.id ∧ y.requestHash = executionRequestHash p request := by
  cases he : env.realConnectorsEnabled with
  | false => simp [executeApprovedGithubIssueAction, he]
  | true =>
    cases hy : w.executions.byIdempotencyKey request.workspaceId request.idempotencyKey with
    | some y =>
      obtain ⟨hmem, hws, hkey⟩ := ExecutionTable.byIdempotencyKey_some hy
      simp only [executeApprovedGithubIssueAction, he, hc, hp, hy, Bool.not_true,
        Bool.false_eq_true, if_false, true_and]
      constructor
      · intro hr
        obtain ⟨rfl, hxp, hst, hh⟩ := resolveExistingExecution_existing hr
        refine ⟨hmem, hxp, hst, fun z hz hzw hzk => ?_⟩
        rw [ExecutionTable.key_unique hz hmem (hzw.trans hws.symm) (hzk.trans hkey.symm)]
        exact ⟨rfl, hh _ rfl⟩
      · rintro ⟨hx, hxp, hst, hall⟩
        obtain ⟨hid, hh⟩ := hall y hmem hws hkey
        obtain rfl := ExecutionTable.row_unique hmem hx hid
        exact resolveExistingExecution_eq hxp hst (fun q hq => by cases hq; exact hh)
    | none =>
      have hnone := ExecutionTable.byIdempotencyKey_none.mp hy
      constructor
      · intro hr
        obtain ⟨q, hq, hx, hxp, hst, _⟩ := execute_existing hr
        rw [hp] at hq
        cases hq
        exact ⟨rfl, hx, hxp, hst, fun z hz hzw hzk => absurd hzk (hnone z hz hzw)⟩
      · rintro ⟨_, hx, hxp, hst, _⟩
        have ha := ExecutionTable.activeOrSuccessful_eq hx hxp (by rw [hst]; rfl)
        simp only [executeApprovedGithubIssueAction, he, hc, hp, hy, ha, Bool.not_true,
          Bool.false_eq_true, if_false]
        exact resolveExistingExecution_eq hxp hst (fun q hq => by cases hq)

/-- The request is answered from the stored row and nothing else moves. -/
def AnswersStored (w : World Content) (k : Nat) (request : ExecuteRequest)
    (result : ExecutionResult) (env : ExecuteEnvironment) (id : ExecutionId) (now : Instant) : Prop :=
  ∃ t, step w (.execute k request env id now) = some t ∧
    t.answered = (request, result) :: w.answered ∧ t.executions = w.executions ∧
    t.calls = w.calls ∧ t.issues = w.issues ∧ t.executors = w.executors ∧
    t.proposals = w.proposals

/-- The execution still succeeds with that issue, and no row but its own, hashed over the
proposal's present `updated_at`, carries the request's key. -/
def StillHashed (w : World Content) (request : ExecuteRequest) (result : ExecutionResult) : Prop :=
  ∃ x ∈ w.executions.rows, executionResult x = result ∧ x.status = .succeeded ∧
    ∀ y ∈ w.executions.rows, y.workspaceId = request.workspaceId →
      y.clientIdempotencyKey = request.idempotencyKey →
        y.id = x.id ∧ ∀ p, w.proposals request.proposalId = some p →
          p.updatedAt = y.requestHash.proposalUpdatedAt

theorem answersStored_iff_existing {k : Nat} (hk : w.executors k = none)
    {request : ExecuteRequest} {result : ExecutionResult} {env : ExecuteEnvironment}
    {id : ExecutionId} {now : Instant} :
    AnswersStored w k request result env id now ↔
      ∃ x, executeApprovedGithubIssueAction w.proposals w.executions request env id now =
        .existing x ∧ executionResult x = result := by
  have hstep : step w (.execute k request env id now) = some (answerExecute w k request
      (executeApprovedGithubIssueAction w.proposals w.executions request env id now)) := by
    simp [step, hk]
  unfold AnswersStored
  rw [hstep]
  constructor
  · rintro ⟨t, ht, hans, _⟩
    cases ht
    cases he : executeApprovedGithubIssueAction w.proposals w.executions request env id now with
    | refused error => simp [he, answerExecute] at hans
    | existing x =>
      simp only [he, answerExecute, List.cons.injEq, Prod.mk.injEq, true_and, and_true] at hans
      exact ⟨x, rfl, hans⟩
    | claimed p x table => simp [he, answerExecute] at hans
  · rintro ⟨x, he, rfl⟩
    rw [he]
    exact ⟨_, rfl, rfl, rfl, rfl, rfl, rfl, rfl⟩

theorem execute_replay_iff (h₀ : Initial w₀) (h : Reaches step anyStep w₀ w)
    {request : ExecuteRequest} {result : ExecutionResult} (hans : (request, result) ∈ w.answered)
    {k : Nat} (hk : w.executors k = none) (env : ExecuteEnvironment) (id : ExecutionId)
    (now : Instant) :
    AnswersStored w k request result env id now ↔
      env.realConnectorsEnabled = true ∧ StillHashed w request result := by
  have hr := replayable_reaches h₀ h
  obtain ⟨hc, p, r, hp, hws, hmem, hid, hrp, hhash⟩ := hr.answered _ hans
  have hget : getProposal w.proposals request.workspaceId request.proposalId = some p := by
    simp [getProposal, hp, hws]
  have hpid := hr.keyed _ _ hp
  have hrow : ∀ x ∈ w.executions.rows, executionResult x = result → x = r := by
    intro x hx he
    exact ExecutionTable.row_unique hx hmem ((congrArg ExecutionResult.executionId he).trans hid.symm)
  simp only [answersStored_iff_existing hk, execute_existing_iff hget hc, StillHashed]
  constructor
  · rintro ⟨x, ⟨hen, hx, _, hst, hall⟩, he⟩
    refine ⟨hen, x, hx, he, hst, ?_⟩
    intro y hy hyw hyk
    obtain ⟨hyx, hyh⟩ := hall y hy hyw hyk
    refine ⟨hyx, fun q hq => ?_⟩
    rw [hp] at hq
    cases hq
    rw [hyh]
    rfl
  · rintro ⟨hen, x, hx, he, hst, hall⟩
    obtain rfl := hrow x hx he
    refine ⟨x, ⟨hen, hx, hrp.trans hpid.symm, hst, ?_⟩, he⟩
    intro y hy hyw hyk
    obtain ⟨hyx, hup⟩ := hall y hy hyw hyk
    obtain rfl := ExecutionTable.row_unique hy hx hyx
    exact ⟨rfl, (eq_executionRequestHash_iff (hhash hyw hyk)).mpr (hup p hp)⟩

theorem execute_replay_iff_after_success :
    ∃ w, Reaches step anyStep approvedWorld w ∧
      (AnswersStored w 1 (confirmedRequest 1) ⟨10, some 1⟩ ⟨true, none⟩ 11 7 ↔
        (ExecuteEnvironment.mk true none).realConnectorsEnabled = true ∧
          StillHashed w (confirmedRequest 1) ⟨10, some 1⟩) := by
  have hrun : (exec step approvedWorld
      [.execute 0 (confirmedRequest 1) ⟨true, none⟩ 10 0, .start 0 1, .createIssue 0,
        .resolveCall 0 true, .succeed 0 5]).map
      (fun w => decide ((confirmedRequest 1, ⟨10, some 1⟩) ∈ w.answered) &&
        (w.executors 1).isNone) = some true := by decide
  obtain ⟨w, hw, hend⟩ := reaches_of_exec_check hrun
  obtain ⟨hans, hk⟩ := Bool.and_eq_true_iff.mp hend
  exact ⟨w, hw, execute_replay_iff approvedWorld_initial hw (of_decide_eq_true hans)
    (Option.isNone_iff_eq_none.mp hk) ⟨true, none⟩ 11 7⟩

/-- The success itself moves `updated_at`, so the identical request no longer hashes the same. -/
theorem replay_answers_conflict :
    ¬∀ w₀ w : World Unit, Initial w₀ → Reaches step anyStep w₀ w → ∀ request result,
      (request, result) ∈ w.answered → ∀ k env id now, w.executors k = none →
        env.realConnectorsEnabled = true → AnswersStored w k request result env id now := by
  intro hall
  have hrun : (exec step approvedWorld
      [.execute 0 (confirmedRequest 1) ⟨true, none⟩ 10 0, .start 0 1, .createIssue 0,
        .resolveCall 0 true, .succeed 0 5]).map
      (fun w => decide ((confirmedRequest 1, ⟨10, some 1⟩) ∈ w.answered) &&
        (w.executors 1).isNone &&
        (match executeApprovedGithubIssueAction w.proposals w.executions (confirmedRequest 1)
            ⟨true, none⟩ 11 7 with
          | .refused error => decide (error = .idempotencyReused)
          | _ => false)) = some true := by decide
  obtain ⟨w, hw, hend⟩ := reaches_of_exec_check hrun
  simp only [Bool.and_eq_true, decide_eq_true_eq, Option.isNone_iff_eq_none] at hend
  obtain ⟨⟨hans, hk⟩, hrefused⟩ := hend
  obtain ⟨x, hx, _⟩ := (answersStored_iff_existing hk).mp
    (hall approvedWorld w approvedWorld_initial hw _ _ hans 1 ⟨true, none⟩ 11 7 hk rfl)
  rw [hx] at hrefused
  cases hrefused

end Runs

end FounderOs.Execution
