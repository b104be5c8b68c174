import FounderOs.AiSettings.Protocol

namespace FounderOs.AiSettings

open WorkspaceAiConfiguration

/-- The key, the model, the effort, the output budget and the acknowledgement of the data policy. -/
def WorkspaceAiConfiguration.settled (c : WorkspaceAiConfiguration) :
    (Option Str × Str × Str × Int × Option Str) × Option Nat × Option UserId :=
  (c.verificationFingerprint, c.dataPolicyAcknowledgedAt, c.dataPolicyAcknowledgedByUserId)

/-- The write changed nothing of what is `settled`. -/
def Write.Keeps (write : Write) : Prop :=
  ∃ before, write.before = some before ∧ before.settled = write.after.settled

/-- The form in which a save leaves a row. -/
structure WorkspaceAiConfiguration.Normal (row : WorkspaceAiConfiguration) : Prop where
  model : ∀ value, modelOf row.model = .ok value → value = row.model
  effort : ∀ table value, reasoningEffortOf table row.reasoningEffort = .ok value →
    value = row.reasoningEffort
  withdrawn : row.dataPolicyVersion = none →
    row.dataPolicyAcknowledgedAt = none ∧ row.dataPolicyAcknowledgedByUserId = none
  acknowledged : row.dataPolicyVersion ≠ none → row.policyAcknowledged = true

def versionOf (row : Option WorkspaceAiConfiguration) : Nat :=
  (row.map (·.configurationVersion)).getD 0

/-- A write numbers its row after the one it replaces, and lets a passed check stand only where it
keeps what was checked. -/
structure Write.Follows (write : Write) : Prop where
  version : write.after.configurationVersion = versionOf write.before + 1
  passed : write.after.lastCheckStatus = some .passed →
    write.Keeps ∧ ∀ before, write.before = some before → before.lastCheckStatus = some .passed
  normal : write.after.Normal

section values

variable {server : Server} {row prior saved : WorkspaceAiConfiguration} {value result : Str}

theorem modelOf_ok (h : modelOf value = .ok result) :
    result = Str.strip value ∧ aiSupportedModels.contains result = true := by
  simp only [modelOf] at h
  split at h
  · rename_i hmem
    cases h
    exact ⟨rfl, hmem⟩
  · cases h

theorem modelOf_again (h : modelOf value = .ok result) {again : Str}
    (ha : modelOf result = .ok again) : again = result := by
  rw [(modelOf_ok ha).1, (modelOf_ok h).1, Str.strip_strip]

theorem reasoningEffortOf_ok {table : Nat → Str} (h : reasoningEffortOf table value = .ok result) :
    result ∈ aiReasoningEfforts := by
  simp only [reasoningEffortOf] at h
  split at h
  · rename_i hmem
    cases h
    exact List.contains_iff_mem.1 hmem
  · cases h

theorem reasoningEffortOf_self {table : Nat → Str} (h : value ∈ aiReasoningEfforts) :
    reasoningEffortOf table value = .ok value := by
  simp only [aiReasoningEfforts, List.map_cons, List.map_nil, List.mem_cons, List.not_mem_nil,
    or_false] at h
  rcases h with rfl | rfl | rfl <;> rfl

theorem normal_effort (h : value ∈ aiReasoningEfforts) (table : Nat → Str) (result : Str)
    (hr : reasoningEffortOf table value = .ok result) : result = value := by
  rw [reasoningEffortOf_self h] at hr
  cases hr
  rfl

theorem keepCheck_passed (h : (row.keepCheck prior).lastCheckStatus = some .passed) :
    row.keepCheck prior = row ∧ prior.verificationFingerprint = row.verificationFingerprint := by
  unfold keepCheck at h ⊢
  split
  · rename_i hne
    rw [if_pos hne] at h
    cases h
  · rename_i heq
    exact ⟨rfl, not_not.1 heq⟩

theorem WorkspaceAiConfiguration.Normal.keepCheck (h : row.Normal) : (row.keepCheck prior).Normal := by
  unfold WorkspaceAiConfiguration.keepCheck
  split
  · exact ⟨h.model, h.effort, h.withdrawn, h.acknowledged⟩
  · exact h

theorem WorkspaceAiConfiguration.Normal.withdraw (h : row.Normal) : row.withdraw.Normal :=
  ⟨h.model, h.effort, fun _ => ⟨rfl, rfl⟩, fun hnone => absurd rfl hnone⟩

theorem WorkspaceAiConfiguration.Normal.acknowledge (h : row.Normal) (now : Nat) (userId : UserId) :
    (row.acknowledge now userId).Normal := by
  unfold WorkspaceAiConfiguration.acknowledge
  split
  · exact h
  · exact ⟨h.model, h.effort, fun hnone => absurd hnone (Option.some_ne_none _),
      fun _ => by simp [policyAcknowledged]⟩

theorem WorkspaceAiConfiguration.Normal.acknowledgeOrWithdraw (h : row.Normal) (acknowledged : Bool) (now : Nat)
    (userId : UserId) : (row.acknowledgeOrWithdraw acknowledged now userId).Normal := by
  unfold WorkspaceAiConfiguration.acknowledgeOrWithdraw
  split
  · exact h.acknowledge now userId
  · exact h.withdraw

/-- With the version of the policy, its acknowledgement stays. -/
theorem acknowledgeOrWithdraw_settled (h : row.Normal) {acknowledged : Bool} {now : Nat}
    {userId : UserId}
    (heq : (row.acknowledgeOrWithdraw acknowledged now userId).dataPolicyVersion =
      row.dataPolicyVersion) :
    (row.acknowledgeOrWithdraw acknowledged now userId).settled = row.settled := by
  unfold acknowledgeOrWithdraw at heq ⊢
  split at heq
  · rename_i hack
    rw [if_pos hack]
    unfold acknowledge at heq ⊢
    split at heq
    · rename_i hdone
      rw [if_pos hdone]
    · rename_i hnot
      exact absurd (h.acknowledged (heq ▸ Option.some_ne_none _)) hnot
  · rename_i hack
    rw [if_neg hack]
    have hnone : row.dataPolicyVersion = none := heq.symm
    obtain ⟨hat, hby⟩ := h.withdrawn hnone
    simp [settled, withdraw, verificationFingerprint, hnone, hat, hby]

theorem acknowledgeOrWithdraw_kept {acknowledged : Bool} {now : Nat} {userId : UserId} :
    (row.acknowledgeOrWithdraw acknowledged now userId).lastCheckStatus = row.lastCheckStatus ∧
      (row.acknowledgeOrWithdraw acknowledged now userId).configurationVersion =
        row.configurationVersion := by
  unfold acknowledgeOrWithdraw acknowledge
  split
  · split <;> exact ⟨rfl, rfl⟩
  · exact ⟨rfl, rfl⟩

theorem keepCheck_version :
    (row.keepCheck prior).configurationVersion = row.configurationVersion := by
  unfold keepCheck
  split <;> rfl

/-- A check that a save lets stand was made with what the save leaves. -/
theorem keepCheck_settled {entered : WorkspaceAiConfiguration} {acknowledged : Bool} {now : Nat}
    {userId : UserId} (hn : entered.Normal)
    (hversion : entered.dataPolicyVersion = prior.dataPolicyVersion)
    (hat : entered.dataPolicyAcknowledgedAt = prior.dataPolicyAcknowledgedAt)
    (hby : entered.dataPolicyAcknowledgedByUserId = prior.dataPolicyAcknowledgedByUserId)
    (h : ((entered.acknowledgeOrWithdraw acknowledged now userId).keepCheck
      prior).lastCheckStatus = some .passed) :
    prior.settled =
      ((entered.acknowledgeOrWithdraw acknowledged now userId).keepCheck prior).settled := by
  obtain ⟨hself, hprint⟩ := keepCheck_passed h
  have hpolicy : prior.dataPolicyVersion =
      (entered.acknowledgeOrWithdraw acknowledged now userId).dataPolicyVersion :=
    congrArg (·.2.2.2.2) hprint
  have hsettled := acknowledgeOrWithdraw_settled hn (hpolicy.symm.trans hversion.symm)
  rw [hself]
  refine Prod.ext hprint ?_
  rw [hsettled]
  exact Prod.ext hat.symm hby.symm

theorem WorkspaceAiConfiguration.Normal.enter {payload : AiSettingsInput} {encrypted : Option Str}
    {model effort : Str} {budget : Int} {version : Nat} {table : Nat → Str} {given chosen : Str}
    (h : prior.dataPolicyVersion = none → prior.dataPolicyAcknowledgedAt = none ∧
      prior.dataPolicyAcknowledgedByUserId = none)
    (hpolicy : prior.dataPolicyVersion ≠ none → prior.policyAcknowledged = true)
    (hmodel : modelOf given = .ok model) (heffort : reasoningEffortOf table chosen = .ok effort) :
    (prior.enter payload encrypted model effort budget version).Normal where
  model _ hm := modelOf_again hmodel hm
  effort := normal_effort (reasoningEffortOf_ok heffort)
  withdrawn := h
  acknowledged := hpolicy

theorem save_follows {nonce : Str} {now : Nat} {userId : UserId} {payload : AiSettingsInput}
    {stored : Option WorkspaceAiConfiguration} (hn : ∀ before, stored = some before → before.Normal)
    (h : saveWorkspaceAiSettings server nonce now userId payload stored = .ok saved) :
    Write.Follows ⟨stored, saved⟩ := by
  obtain ⟨model, hmodel, h⟩ := ok_of_bind_ok h
  obtain ⟨effort, heffort, h⟩ := ok_of_bind_ok h
  obtain ⟨budget, -, h⟩ := ok_of_bind_ok h
  obtain ⟨encrypted, -, h⟩ := ok_of_bind_ok h
  dsimp only at h
  split at h
  · cases h
  split at h
  · cases h
  obtain rfl := Except.ok.inj h
  generalize hprior : stored.getD (new model effort budget) = prior
  generalize hversion : (if stored.isSome then prior.configurationVersion + 1 else 1) = version
  have hpolicy : (prior.dataPolicyVersion = none → prior.dataPolicyAcknowledgedAt = none ∧
      prior.dataPolicyAcknowledgedByUserId = none) ∧
      (prior.dataPolicyVersion ≠ none → prior.policyAcknowledged = true) := by
    subst hprior
    cases stored with
    | none => exact ⟨fun _ => ⟨rfl, rfl⟩, fun hne => absurd rfl hne⟩
    | some before => exact ⟨(hn before rfl).withdrawn, (hn before rfl).acknowledged⟩
  have hentered : (prior.enter payload encrypted model effort budget version).Normal :=
    Normal.enter hpolicy.1 hpolicy.2 hmodel heffort
  refine ⟨?_, fun hpassed => ?_, (hentered.acknowledgeOrWithdraw _ now userId).keepCheck⟩
  · rw [keepCheck_version, acknowledgeOrWithdraw_kept.2]
    subst hprior hversion
    cases stored <;> rfl
  · have hsettled : prior.settled = _ := keepCheck_settled hentered rfl rfl rfl hpassed
    dsimp only at hpassed
    rw [(keepCheck_passed hpassed).1, acknowledgeOrWithdraw_kept.1] at hpassed
    subst hprior
    cases stored with
    | none => cases hpassed
    | some before =>
      refine ⟨⟨before, rfl, hsettled⟩, ?_⟩
      rintro _ ⟨⟩
      exact hpassed

theorem remove_follows (hn : row.Normal) :
    Write.Follows ⟨some row, removeWorkspaceAiCredential row⟩ where
  version := rfl
  passed h := by cases h
  normal := ⟨hn.model, hn.effort, fun _ => ⟨rfl, rfl⟩, fun h => absurd rfl h⟩

end values

end FounderOs.AiSettings
