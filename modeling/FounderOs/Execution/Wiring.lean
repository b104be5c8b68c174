import FounderOs.Execution.Steps

namespace FounderOs.Execution

open Transition

variable {Content : Type}

structure SameClaim (r x : ActionExecution Content) : Prop where
  id : r.id = x.id
  proposal : r.actionProposalId = x.actionProposalId
  workspace : r.workspaceId = x.workspaceId
  key : r.clientIdempotencyKey = x.clientIdempotencyKey
  hash : r.requestHash = x.requestHash

theorem SameClaim.rfl {x : ActionExecution Content} : SameClaim x x := ⟨by rfl, by rfl, by rfl, by rfl, by rfl⟩

theorem SameClaim.trans {x y z : ActionExecution Content} (h : SameClaim x y) (h' : SameClaim y z) :
    SameClaim x z :=
  ⟨h.id.trans h'.id, h.proposal.trans h'.proposal, h.workspace.trans h'.workspace,
    h.key.trans h'.key, h.hash.trans h'.hash⟩

def Extends (t' t : ExecutionTable Content) : Prop :=
  ∀ r ∈ t.rows, ∃ r' ∈ t'.rows, SameClaim r' r

theorem sameClaim_amend (id : ExecutionId) (m : Mark) (r : ActionExecution Content) :
    SameClaim (ExecutionTable.amend id m r) r := ⟨by simp, by simp, by simp, by simp, by simp⟩

theorem extends_update {t t' : ExecutionTable Content} {id : ExecutionId} {m : Mark}
    (h : t.update id m = some t') : Extends t' t :=
  fun r hr => ⟨_, (ExecutionTable.mem_update h).mpr ⟨r, hr, rfl⟩, sameClaim_amend id m r⟩

theorem extends_insert {t t' : ExecutionTable Content} {x : ActionExecution Content}
    (h : t.insert x = some t') : Extends t' t :=
  fun r hr => ⟨r, (ExecutionTable.mem_insert h).mpr (.inl hr), .rfl⟩

theorem fresh_of_insert {t t' : ExecutionTable Content} {x r : ActionExecution Content}
    (h : t.insert x = some t') (hr : r ∈ t.rows) : r.id ≠ x.id := by
  have hk := t'.constraints.primaryKey
  rw [ExecutionTable.write_eq_some.mp h] at hk
  exact (List.pairwise_append.mp hk).2.2 r hr x (by simp)

/-- How the processes in flight and the provider's calls hang on the committed rows. -/
structure Wiring (w : World Content) : Prop where
  loaded : ∀ k x, w.executors k = some x →
    x.proposal.id = x.execution.actionProposalId ∧ x.proposal.status = .approved
  executorRow : ∀ k x, w.executors k = some x → ∃ r ∈ w.executions.rows, SameClaim r x.execution
  executorOwn : ∀ k k' x x', w.executors k = some x → w.executors k' = some x' →
    x.execution.id = x'.execution.id → k = k'
  beforeCall : ∀ k x, w.executors k = some x → x.pc = .claimed ∨ x.pc = .running →
    ∀ c ∈ w.calls, c.marker.executionId ≠ x.execution.id
  calling : ∀ k x i, w.executors k = some x → x.pc = .calling i →
    ∃ c, w.calls[i]? = some c ∧ c.marker.executionId = x.execution.id
  callRow : ∀ c ∈ w.calls, ∃ r ∈ w.executions.rows,
    r.id = c.marker.executionId ∧ r.actionProposalId = c.proposalId
  callOnce : w.calls.Pairwise (fun c d => c.marker.executionId ≠ d.marker.executionId)
  syncRow : ∀ j x, w.resultSyncs j = some x →
    x.proposal.id = x.execution.actionProposalId ∧
      ∃ r ∈ w.executions.rows, SameClaim r x.execution

theorem Initial.wiring {w : World Content} (h : Initial w) : Wiring w where
  loaded k x hx := by simp [h.executors k] at hx
  executorRow k x hx := by simp [h.executors k] at hx
  executorOwn k k' x x' hx := by simp [h.executors k] at hx
  beforeCall k x hx := by simp [h.executors k] at hx
  calling k x i hx := by simp [h.executors k] at hx
  callRow c hc := by simp [h.calls] at hc
  callOnce := by simp [h.calls]
  syncRow j x hx := by simp [h.resultSyncs j] at hx

namespace World

@[simp] theorem setExecutor_executions (w : World Content) (k : Nat) (x : Executor Content) :
    (w.setExecutor k x).executions = w.executions := rfl
@[simp] theorem setExecutor_proposals (w : World Content) (k : Nat) (x : Executor Content) :
    (w.setExecutor k x).proposals = w.proposals := rfl
@[simp] theorem setExecutor_calls (w : World Content) (k : Nat) (x : Executor Content) :
    (w.setExecutor k x).calls = w.calls := rfl
@[simp] theorem setExecutor_resultSyncs (w : World Content) (k : Nat) (x : Executor Content) :
    (w.setExecutor k x).resultSyncs = w.resultSyncs := rfl
@[simp] theorem setExecutor_answered (w : World Content) (k : Nat) (x : Executor Content) :
    (w.setExecutor k x).answered = w.answered := rfl
@[simp] theorem setResultSync_executions (w : World Content) (j : Nat) (x : ResultSync Content) :
    (w.setResultSync j x).executions = w.executions := rfl
@[simp] theorem setResultSync_proposals (w : World Content) (j : Nat) (x : ResultSync Content) :
    (w.setResultSync j x).proposals = w.proposals := rfl
@[simp] theorem setResultSync_calls (w : World Content) (j : Nat) (x : ResultSync Content) :
    (w.setResultSync j x).calls = w.calls := rfl
@[simp] theorem setResultSync_executors (w : World Content) (j : Nat) (x : ResultSync Content) :
    (w.setResultSync j x).executors = w.executors := rfl
@[simp] theorem setResultSync_answered (w : World Content) (j : Nat) (x : ResultSync Content) :
    (w.setResultSync j x).answered = w.answered := rfl

theorem setExecutor_some {w : World Content} {k k' : Nat} {x y : Executor Content}
    (h : (w.setExecutor k x).executors k' = some y) :
    (k' = k ∧ y = x) ∨ (k' ≠ k ∧ w.executors k' = some y) := by
  unfold setExecutor at h
  by_cases hk : k' = k
  · subst hk
    simp only [Function.update_self, Option.some.injEq] at h
    exact .inl ⟨rfl, h.symm⟩
  · exact .inr ⟨hk, by simpa [Function.update_of_ne hk] using h⟩

theorem setResultSync_some {w : World Content} {j j' : Nat} {x y : ResultSync Content}
    (h : (w.setResultSync j x).resultSyncs j' = some y) :
    (j' = j ∧ y = x) ∨ (j' ≠ j ∧ w.resultSyncs j' = some y) := by
  unfold setResultSync at h
  by_cases hj : j' = j
  · subst hj
    simp only [Function.update_self, Option.some.injEq] at h
    exact .inl ⟨rfl, h.symm⟩
  · exact .inr ⟨hj, by simpa [Function.update_of_ne hj] using h⟩

theorem commitMark_some {w w' : World Content} {e : ExecutionId} {m : Mark}
    {p : ActionProposal Content} {s : Option ProposalStatus} {now : Instant}
    (h : w.commitMark e m p s now = some w') :
    ∃ table, w.executions.update e m = some table ∧
      w' = { w with executions := table, proposals := flushProposal w.proposals p s now } := by
  simp only [commitMark, Option.map_eq_some_iff] at h
  obtain ⟨table, ht, rfl⟩ := h
  exact ⟨table, ht, rfl⟩

end World

namespace Wiring

variable {w w' : World Content}

theorem commitMark (h : Wiring w) {e : ExecutionId} {m : Mark} {p : ActionProposal Content}
    {s : Option ProposalStatus} {now : Instant} (hc : w.commitMark e m p s now = some w') :
    Wiring w' := by
  obtain ⟨table, ht, rfl⟩ := World.commitMark_some hc
  have he := extends_update ht
  refine ⟨h.loaded, ?_, h.executorOwn, h.beforeCall, h.calling, ?_, h.callOnce, ?_⟩
  · intro k x hx
    obtain ⟨r, hr, hs⟩ := h.executorRow k x hx
    obtain ⟨r', hr', hs'⟩ := he r hr
    exact ⟨r', hr', hs'.trans hs⟩
  · intro c hcall
    obtain ⟨r, hr, hi, hp⟩ := h.callRow c hcall
    obtain ⟨r', hr', hs'⟩ := he r hr
    exact ⟨r', hr', hs'.id.trans hi, hs'.proposal.trans hp⟩
  · intro j x hx
    obtain ⟨hp, r, hr, hs⟩ := h.syncRow j x hx
    obtain ⟨r', hr', hs'⟩ := he r hr
    exact ⟨hp, r', hr', hs'.trans hs⟩

theorem setPc (h : Wiring w) {k : Nat} {x : Executor Content} (hx : w.executors k = some x)
    {pc : ExecutorPc} (hearly : pc = .claimed ∨ pc = .running → x.pc = .claimed ∨ x.pc = .running)
    (hcall : ∀ i, pc = .calling i →
      ∃ c, w.calls[i]? = some c ∧ c.marker.executionId = x.execution.id) :
    Wiring (w.setExecutor k { x with pc := pc }) := by
  refine ⟨?_, ?_, ?_, ?_, ?_, h.callRow, h.callOnce, h.syncRow⟩
  · intro k' y hy
    rcases World.setExecutor_some hy with ⟨_, rfl⟩ | ⟨_, hy⟩
    · exact h.loaded k x hx
    · exact h.loaded k' y hy
  · intro k' y hy
    rcases World.setExecutor_some hy with ⟨_, rfl⟩ | ⟨_, hy⟩
    · exact h.executorRow k x hx
    · exact h.executorRow k' y hy
  · intro k₁ k₂ y z hy hz he
    rcases World.setExecutor_some hy with ⟨e₁, rfl⟩ | ⟨_, hy'⟩ <;>
      rcases World.setExecutor_some hz with ⟨e₂, rfl⟩ | ⟨_, hz'⟩
    · exact e₁.trans e₂.symm
    · exact e₁.trans (h.executorOwn _ _ x z hx hz' he)
    · exact (h.executorOwn _ _ y x hy' hx he).trans e₂.symm
    · exact h.executorOwn _ _ y z hy' hz' he
  · intro k' y hy hpc
    rcases World.setExecutor_some hy with ⟨_, rfl⟩ | ⟨_, hy⟩
    · exact h.beforeCall k x hx (hearly hpc)
    · exact h.beforeCall k' y hy hpc
  · intro k' y i hy hpc
    rcases World.setExecutor_some hy with ⟨_, rfl⟩ | ⟨_, hy⟩
    · exact hcall i hpc
    · exact h.calling k' y i hy hpc

theorem finish (h : Wiring w) {k : Nat} {x : Executor Content} (hx : w.executors k = some x) :
    Wiring (w.setExecutor k { x with pc := .finished }) :=
  h.setPc hx (by simp) (by simp)

theorem setResultSync (h : Wiring w) {j : Nat} {x : ResultSync Content}
    (hx : x.proposal.id = x.execution.actionProposalId ∧
      ∃ r ∈ w.executions.rows, SameClaim r x.execution) :
    Wiring (w.setResultSync j x) := by
  refine ⟨h.loaded, h.executorRow, h.executorOwn, h.beforeCall, h.calling, h.callRow, h.callOnce, ?_⟩
  intro j' y hy
  rcases World.setResultSync_some hy with ⟨_, rfl⟩ | ⟨_, hy⟩
  · exact hx
  · exact h.syncRow j' y hy

theorem commitExecutor (h : Wiring w) {k : Nat} {x : Executor Content}
    (hx : w.executors k = some x) {m : Mark} {s : Option ProposalStatus} {now : Instant}
    {pc : ExecutorPc} (hearly : pc = .claimed ∨ pc = .running → x.pc = .claimed ∨ x.pc = .running)
    (hcall : ∀ i, pc ≠ .calling i) : Wiring (w.commitExecutor k x m s now pc) := by
  unfold World.commitExecutor
  split
  · rename_i w' hw
    have hx' : w'.executors k = some x := by
      obtain ⟨_, _, rfl⟩ := World.commitMark_some hw
      exact hx
    exact (h.commitMark hw).setPc hx' hearly (fun i hi => absurd hi (hcall i))
  · exact h.finish hx

theorem commitResultSync (h : Wiring w) {j : Nat} {x : ResultSync Content}
    (hx : w.resultSyncs j = some x) {m : Mark} {s : Option ProposalStatus} {now : Instant} :
    Wiring (w.commitResultSync j x m s now) := by
  unfold World.commitResultSync
  split
  · rename_i w' hw
    have hx' : w'.resultSyncs j = some x := by
      obtain ⟨_, _, rfl⟩ := World.commitMark_some hw
      exact hx
    exact (h.commitMark hw).setResultSync ((h.commitMark hw).syncRow j x hx')
  · exact h.setResultSync (h.syncRow j x hx)

theorem congr (h : Wiring w) (he : w'.executions = w.executions) (hx : w'.executors = w.executors)
    (hc : w'.calls = w.calls) (hj : w'.resultSyncs = w.resultSyncs) : Wiring w' where
  loaded := hx ▸ h.loaded
  executorRow := by rw [he, hx]; exact h.executorRow
  executorOwn := hx ▸ h.executorOwn
  beforeCall := by rw [hc, hx]; exact h.beforeCall
  calling := by rw [hc, hx]; exact h.calling
  callRow := by rw [he, hc]; exact h.callRow
  callOnce := hc ▸ h.callOnce
  syncRow := by rw [he, hj]; exact h.syncRow

/-- A fresh claim: the primary key keeps the new id apart from every earlier executor and call. -/
theorem claim (h : Wiring w) {k : Nat} {request : ExecuteRequest} {p : ActionProposal Content}
    {id : ExecutionId} {now : Instant} {table : ExecutionTable Content}
    (hstatus : p.status = .approved)
    (hi : w.executions.insert (claimRow p request id now) = some table) :
    Wiring { w with
      executions := table
      executors :=
        Function.update w.executors k (some ⟨request, p, claimRow p request id now, .claimed⟩) } := by
  have he := extends_insert hi
  have hnew : claimRow p request id now ∈ table.rows :=
    (ExecutionTable.mem_insert hi).mpr (.inr rfl)
  have hfresh : ∀ k' y, w.executors k' = some y → y.execution.id ≠ id := by
    intro k' y hy
    obtain ⟨r, hr, hs⟩ := h.executorRow k' y hy
    exact hs.id ▸ fresh_of_insert hi hr
  have hlookup : ∀ {k' y}, Function.update w.executors k
      (some ⟨request, p, claimRow p request id now, .claimed⟩) k' = some y →
      (k' = k ∧ y = ⟨request, p, claimRow p request id now, .claimed⟩) ∨
        (k' ≠ k ∧ w.executors k' = some y) :=
    fun hy => World.setExecutor_some (w := w) hy
  refine ⟨?_, ?_, ?_, ?_, ?_, ?_, h.callOnce, ?_⟩
  · intro k' y hy
    rcases hlookup hy with ⟨_, rfl⟩ | ⟨_, hy⟩
    · exact ⟨rfl, hstatus⟩
    · exact h.loaded k' y hy
  · intro k' y hy
    rcases hlookup hy with ⟨_, rfl⟩ | ⟨_, hy⟩
    · exact ⟨_, hnew, .rfl⟩
    · obtain ⟨r, hr, hs⟩ := h.executorRow k' y hy
      obtain ⟨r', hr', hs'⟩ := he r hr
      exact ⟨r', hr', hs'.trans hs⟩
  · intro k₁ k₂ y z hy hz hid
    rcases hlookup hy with ⟨e₁, rfl⟩ | ⟨_, hy'⟩ <;> rcases hlookup hz with ⟨e₂, rfl⟩ | ⟨_, hz'⟩
    · exact e₁.trans e₂.symm
    · exact absurd hid.symm (hfresh k₂ z hz')
    · exact absurd hid (hfresh k₁ y hy')
    · exact h.executorOwn _ _ y z hy' hz' hid
  · intro k' y hy hpc c hc
    rcases hlookup hy with ⟨_, rfl⟩ | ⟨_, hy⟩
    · obtain ⟨r, hr, hid, _⟩ := h.callRow c hc
      exact hid ▸ fresh_of_insert hi hr
    · exact h.beforeCall k' y hy hpc c hc
  · intro k' y i hy hpc
    rcases hlookup hy with ⟨_, rfl⟩ | ⟨_, hy⟩
    · cases hpc
    · exact h.calling k' y i hy hpc
  · intro c hc
    obtain ⟨r, hr, hid, hp⟩ := h.callRow c hc
    obtain ⟨r', hr', hs'⟩ := he r hr
    exact ⟨r', hr', hs'.id.trans hid, hs'.proposal.trans hp⟩
  · intro j y hy
    obtain ⟨hp, r, hr, hs⟩ := h.syncRow j y hy
    obtain ⟨r', hr', hs'⟩ := he r hr
    exact ⟨hp, r', hr', hs'.trans hs⟩

theorem createIssue (h : Wiring w) {k : Nat} {x : Executor Content}
    (hx : w.executors k = some x) (hpc : x.pc = .running) :
    Wiring { w with
      calls := w.calls ++
        [⟨x.execution.actionProposalId, executionRequestMarker x.execution, .pending⟩]
      executors := Function.update w.executors k (some { x with pc := .calling w.calls.length }) } := by
  have hlookup : ∀ {k' y}, Function.update w.executors k
      (some { x with pc := .calling w.calls.length }) k' = some y →
      (k' = k ∧ y = { x with pc := .calling w.calls.length }) ∨
        (k' ≠ k ∧ w.executors k' = some y) :=
    fun hy => World.setExecutor_some (w := w) hy
  refine ⟨?_, ?_, ?_, ?_, ?_, ?_, ?_, h.syncRow⟩
  · intro k' y hy
    rcases hlookup hy with ⟨_, rfl⟩ | ⟨_, hy⟩
    · exact h.loaded k x hx
    · exact h.loaded k' y hy
  · intro k' y hy
    rcases hlookup hy with ⟨_, rfl⟩ | ⟨_, hy⟩
    · exact h.executorRow k x hx
    · exact h.executorRow k' y hy
  · intro k₁ k₂ y z hy hz hid
    rcases hlookup hy with ⟨e₁, rfl⟩ | ⟨_, hy'⟩ <;> rcases hlookup hz with ⟨e₂, rfl⟩ | ⟨_, hz'⟩
    · exact e₁.trans e₂.symm
    · exact e₁.trans (h.executorOwn _ _ x z hx hz' hid)
    · exact (h.executorOwn _ _ y x hy' hx hid).trans e₂.symm
    · exact h.executorOwn _ _ y z hy' hz' hid
  · intro k' y hy hy' c hc
    rcases hlookup hy with ⟨_, rfl⟩ | ⟨hne, hy⟩
    · rcases hy' with hy' | hy' <;> cases hy'
    rcases List.mem_append.mp hc with hc | hc
    · exact h.beforeCall k' y hy hy' c hc
    · obtain rfl := List.mem_singleton.mp hc
      exact fun hid => hne (h.executorOwn k' k y x hy hx hid.symm)
  · intro k' y i hy hi
    rcases hlookup hy with ⟨_, rfl⟩ | ⟨_, hy⟩
    · cases hi
      exact ⟨_, List.getElem?_concat_length, rfl⟩
    · obtain ⟨c, hc, hid⟩ := h.calling k' y i hy hi
      have hlt := (List.getElem?_eq_some_iff.mp hc).1
      exact ⟨c, by rw [List.getElem?_append_left hlt]; exact hc, hid⟩
  · intro c hc
    rcases List.mem_append.mp hc with hc | hc
    · exact h.callRow c hc
    · obtain rfl := List.mem_singleton.mp hc
      obtain ⟨r, hr, hs⟩ := h.executorRow k x hx
      exact ⟨r, hr, hs.id, hs.proposal⟩
  · refine List.pairwise_append.mpr ⟨h.callOnce, List.pairwise_singleton _ _, ?_⟩
    intro c hc d hd
    obtain rfl := List.mem_singleton.mp hd
    exact h.beforeCall k x hx (.inr hpc) c hc

theorem map_set_marker {calls : List (Call Content)} {i : Nat} {p : ProposalId}
    {marker : ExecutionMarker Content} {o o' : CallOutcome} (hc : calls[i]? = some ⟨p, marker, o⟩) :
    (calls.set i ⟨p, marker, o'⟩).map (fun c => (c.proposalId, c.marker)) =
      calls.map (fun c => (c.proposalId, c.marker)) := by
  obtain ⟨hlt, he⟩ := List.getElem?_eq_some_iff.mp hc
  rw [List.map_set]
  apply List.ext_getElem (by simp)
  intro n h₁ h₂
  rw [List.getElem_set]
  split
  · rename_i hn
    subst hn
    simp [he]
  · rfl

theorem mem_of_same_markers {calls calls' : List (Call Content)}
    (hm : calls'.map (fun c => (c.proposalId, c.marker)) =
      calls.map (fun c => (c.proposalId, c.marker))) {c : Call Content} (hc : c ∈ calls') :
    ∃ d ∈ calls, d.proposalId = c.proposalId ∧ d.marker = c.marker := by
  have h : (c.proposalId, c.marker) ∈ calls'.map (fun c => (c.proposalId, c.marker)) :=
    List.mem_map.mpr ⟨c, hc, rfl⟩
  rw [hm] at h
  obtain ⟨d, hd, he⟩ := List.mem_map.mp h
  exact ⟨d, hd, congrArg Prod.fst he, congrArg Prod.snd he⟩

theorem getElem?_same_markers {calls calls' : List (Call Content)}
    (hm : calls'.map (fun c => (c.proposalId, c.marker)) =
      calls.map (fun c => (c.proposalId, c.marker))) {i : Nat} {c : Call Content}
    (hc : calls[i]? = some c) :
    ∃ d, calls'[i]? = some d ∧ d.proposalId = c.proposalId ∧ d.marker = c.marker := by
  have h := congrArg (fun l => l[i]?) hm
  simp only [List.getElem?_map, hc, Option.map_some, Option.map_eq_some_iff] at h
  obtain ⟨d, hd, he⟩ := h
  exact ⟨d, hd, congrArg Prod.fst he, congrArg Prod.snd he⟩

/-- What the provider learns about a call moves no row and no process. -/
theorem resolveCall (h : Wiring w) {issues : List (Issue Content)} {calls : List (Call Content)}
    (hm : calls.map (fun c => (c.proposalId, c.marker)) =
      w.calls.map (fun c => (c.proposalId, c.marker))) :
    Wiring { w with issues := issues, calls := calls } := by
  refine ⟨h.loaded, h.executorRow, h.executorOwn, ?_, ?_, ?_, ?_, h.syncRow⟩
  · intro k x hx hpc c hc
    obtain ⟨d, hd, _, he⟩ := mem_of_same_markers hm hc
    exact he ▸ h.beforeCall k x hx hpc d hd
  · intro k x i hx hpc
    obtain ⟨c, hc, hid⟩ := h.calling k x i hx hpc
    obtain ⟨d, hd, _, he⟩ := getElem?_same_markers hm hc
    exact ⟨d, hd, he ▸ hid⟩
  · intro c hc
    obtain ⟨d, hd, hp, he⟩ := mem_of_same_markers hm hc
    obtain ⟨r, hr, hid, hrp⟩ := h.callRow d hd
    exact ⟨r, hr, he ▸ hid, hp ▸ hrp⟩
  · have hpair : (w.calls.map (fun c => (c.proposalId, c.marker))).Pairwise
        (fun a b => a.2.executionId ≠ b.2.executionId) := List.pairwise_map.mpr h.callOnce
    rw [← hm, List.pairwise_map] at hpair
    exact hpair

end Wiring

variable [DecidableEq Content] {w t : World Content}

theorem wiring_step {a : Action Content} (h : Wiring w) (hs : step w a = some t) : Wiring t := by
  cases stepped_of_step hs with
  | decide => exact h.congr rfl rfl rfl rfl
  | refused => exact h
  | existing => exact h.congr rfl rfl rfl rfl
  | claimed hk he =>
    obtain ⟨_, hst, rfl, hi⟩ := execute_claimed he
    exact h.claim hst hi
  | executorCommit hx hc =>
    refine h.commitExecutor hx ?_ ?_
    · generalize hpc : Executor.pc _ = pc at hc
      cases hc <;> simp
    · generalize hpc : Executor.pc _ = pc at hc
      cases hc <;> simp
  | createIssue hx hpc => exact h.createIssue hx hpc
  | resolveCall hc => exact h.resolveCall (Wiring.map_set_marker hc)
  | succeed hx hpc hc hw =>
    have hx' := hx
    obtain ⟨table, ht, rfl⟩ := World.commitMark_some hw
    exact ((h.commitMark hw).finish (k := _) hx').congr rfl rfl rfl rfl
  | finishExecutor hx _ => exact h.finish hx
  | beginSync hj hb =>
    obtain ⟨_, _, ha⟩ := beginResultSync_some hb
    obtain ⟨hr, hp, _⟩ := ExecutionTable.activeOrSuccessful_some ha
    exact h.setResultSync ⟨hp.symm, _, hr, .rfl⟩
  | listIssues hx =>
    have hr := h.syncRow _ _ hx
    exact h.setResultSync hr
  | commitSync hx _ => exact h.commitResultSync hx
  | finishSync hx _ =>
    have hr := h.syncRow _ _ hx
    exact h.setResultSync hr
  | foreignIssue => exact h.congr rfl rfl rfl rfl

theorem wiring_reaches {ok : World Content → Action Content → Prop}
    (h : Reaches step ok w t) (hw : Wiring w) : Wiring t :=
  h.invariant (fun _ _ _ hi _ hs => wiring_step hi hs) hw

end FounderOs.Execution
