import FounderOs.AiSettings.Writes
import FounderOs.Foundation.Transition

namespace FounderOs.AiSettings

open WorkspaceAiConfiguration Transition

/-- The request carries the key that the row stores, its model and its effort. -/
structure ProbeRequest.Carries (server : Server) (request : ProbeRequest)
    (row : WorkspaceAiConfiguration) : Prop where
  key : row.encryptedApiKey.bind server.decryptSecret = some request.apiKey
  model : row.model = request.model
  effort : row.reasoningEffort = request.reasoningEffort

structure Verifies (server : Server) (s : AiWorld) (probe : Probe)
    (row : WorkspaceAiConfiguration) : Prop where
  made : probe ∈ s.probes
  passed : probe.outcome = .verified
  carries : probe.request.Carries server row
  since : ∀ write ∈ s.writes.drop probe.readAfter, write.Keeps

/-- What a check may rely on: while no save and no removal commits, the row is the one it has
read. -/
structure CheckRead.Holds (server : Server) (s : AiWorld) (readAfter : Nat) (read : CheckRead) :
    Prop where
  version : read.version = readAfter
  bound : readAfter ≤ s.writes.length
  row : readAfter = s.writes.length →
    ∃ row, s.configuration = some row ∧ (read.request server).Carries server row

def AiPc.Relies (server : Server) (s : AiWorld) (i : CallId) : AiPc → Prop
  | .saveRequested _ _ | .removeRequested => True
  | .inserting row => Write.Follows ⟨none, row⟩
  | .writing write =>
    s.lock = some i ∧ s.configuration = write.before ∧ write.Follows
  | .probing readAfter read => read.Holds server s readAfter
  | .probed readAfter read outcome =>
    read.Holds server s readAfter ∧ ⟨readAfter, read.request server, outcome⟩ ∈ s.probes
  | .recording row =>
    s.lock = some i ∧ row.Normal ∧
      (∃ current, s.configuration = some current ∧ current.settled = row.settled ∧
        current.configurationVersion = row.configurationVersion) ∧
      (row.lastCheckStatus = some .passed → ∃ probe, Verifies server s probe row)

structure AiWorld.Sound (server : Server) (s : AiWorld) : Prop where
  counted : versionOf s.configuration = s.writes.length
  normal : ∀ row, s.configuration = some row → row.Normal
  verified : ∀ row, s.configuration = some row → row.lastCheckStatus = some .passed →
    ∃ probe, Verifies server s probe row
  relies : ∀ i pc, s.calls i = some pc → pc.Relies server s i

/-- What a step leaves to a call that does not make it. -/
structure Kept (s t : AiWorld) (j : CallId) : Prop where
  held : s.lock = some j → t.lock = some j ∧ t.configuration = s.configuration ∧
    t.writes = s.writes
  probes : ∀ probe ∈ s.probes, probe ∈ t.probes
  writes : s.writes.length ≤ t.writes.length
  row : t.writes.length = s.writes.length → ∀ current, s.configuration = some current →
    ∃ row, t.configuration = some row ∧ row.settled = current.settled

section frame

variable {server : Server} {s t : AiWorld} {i j : CallId} {pc : AiPc}
  {row current : WorkspaceAiConfiguration} {request : ProbeRequest} {probe : Probe}

theorem ProbeRequest.Carries.of_settled (h : request.Carries server current)
    (heq : row.settled = current.settled) : request.Carries server row := by
  have hprint : row.verificationFingerprint = current.verificationFingerprint :=
    congrArg Prod.fst heq
  have hkey : row.encryptedApiKey = current.encryptedApiKey := congrArg Prod.fst hprint
  have hmodel : row.model = current.model := congrArg (·.2.1) hprint
  have heffort : row.reasoningEffort = current.reasoningEffort := congrArg (·.2.2.1) hprint
  exact ⟨hkey ▸ h.key, hmodel ▸ h.model, heffort ▸ h.effort⟩

theorem Verifies.of_settled (h : Verifies server s probe current)
    (heq : row.settled = current.settled) : Verifies server s probe row :=
  ⟨h.made, h.passed, h.carries.of_settled heq, h.since⟩

theorem Verifies.mono (h : Verifies server s probe row)
    (hprobes : ∀ probe ∈ s.probes, probe ∈ t.probes) (hwrites : t.writes = s.writes) :
    Verifies server t probe row :=
  ⟨hprobes _ h.made, h.passed, h.carries, hwrites ▸ h.since⟩

theorem CheckRead.Holds.kept {read : CheckRead} {readAfter : Nat}
    (h : read.Holds server s readAfter) (hk : Kept s t j) : read.Holds server t readAfter where
  version := h.version
  bound := Nat.le_trans h.bound hk.writes
  row heq := by
    have hlength : t.writes.length = s.writes.length :=
      Nat.le_antisymm (heq ▸ h.bound) hk.writes
    obtain ⟨current, hcurrent, hcarries⟩ := h.row (heq.trans hlength)
    obtain ⟨row, hrow, hsettled⟩ := hk.row hlength current hcurrent
    exact ⟨row, hrow, hcarries.of_settled hsettled⟩

theorem Kept.relies (hk : Kept s t j) (h : pc.Relies server s j) : pc.Relies server t j := by
  cases pc with
  | saveRequested userId payload => trivial
  | inserting row => exact h
  | removeRequested => trivial
  | writing write =>
    obtain ⟨hlock, hbefore, hfollows⟩ := h
    obtain ⟨htaken, hrow, -⟩ := hk.held hlock
    exact ⟨htaken, hrow.trans hbefore, hfollows⟩
  | probing readAfter read => exact CheckRead.Holds.kept h hk
  | probed readAfter read outcome => exact ⟨h.1.kept hk, hk.probes _ h.2⟩
  | recording row =>
    obtain ⟨hlock, hnormal, hcurrent, hpassed⟩ := h
    obtain ⟨htaken, hrow, hwrites⟩ := hk.held hlock
    refine ⟨htaken, hnormal, hrow ▸ hcurrent, fun hstatus => ?_⟩
    obtain ⟨probe, hverifies⟩ := hpassed hstatus
    exact ⟨probe, hverifies.mono hk.probes hwrites⟩

theorem Kept.of_rows (hrow : t.configuration = s.configuration) (hwrites : t.writes = s.writes)
    (hprobes : ∀ probe ∈ s.probes, probe ∈ t.probes)
    (hlock : s.lock = some j → t.lock = some j) : Kept s t j where
  held h := ⟨hlock h, hrow, hwrites⟩
  probes := hprobes
  writes := hwrites ▸ Nat.le_refl _
  row _ current hcurrent := ⟨current, hrow ▸ hcurrent, rfl⟩

/-- A step of one call that commits nothing. -/
theorem AiWorld.Sound.local_step (i : CallId) (hs : s.Sound server)
    (hrow : t.configuration = s.configuration) (hwrites : t.writes = s.writes)
    (hprobes : ∀ probe ∈ s.probes, probe ∈ t.probes)
    (hothers : ∀ j, j ≠ i → t.calls j = s.calls j)
    (hlock : ∀ j, j ≠ i → s.lock = some j → t.lock = some j)
    (hown : ∀ pc, t.calls i = some pc → pc.Relies server t i) : t.Sound server where
  counted := hrow ▸ hwrites ▸ hs.counted
  normal := hrow ▸ hs.normal
  verified row hcurrent hstatus := by
    obtain ⟨probe, hverifies⟩ := hs.verified row (hrow ▸ hcurrent) hstatus
    exact ⟨probe, hverifies.mono hprobes hwrites⟩
  relies j pc hcall := by
    by_cases hj : j = i
    · subst hj
      exact hown pc hcall
    · rw [hothers j hj] at hcall
      exact (Kept.of_rows hrow hwrites hprobes (hlock j hj)).relies (hs.relies j pc hcall)

theorem AiWorld.Sound.put (hs : s.Sound server) (h : pc.Relies server (s.put i pc) i) :
    (s.put i pc).Sound server := by
  refine hs.local_step i rfl rfl (fun _ h => h) ?_ (fun _ _ h => h) ?_
  · exact fun j hj => Function.update_of_ne hj _ _
  · intro pc' hcall
    rw [AiWorld.put_calls_self] at hcall
    cases hcall
    exact h

theorem AiWorld.Sound.hold (hs : s.Sound server) (hfree : s.lock = none)
    (h : pc.Relies server (s.hold i pc) i) : (s.hold i pc).Sound server := by
  refine hs.local_step i rfl rfl (fun _ h => h) ?_ ?_ ?_
  · exact fun j hj => Function.update_of_ne hj _ _
  · intro j _ hj
    rw [hfree] at hj
    cases hj
  · intro pc' hcall
    rw [AiWorld.hold_calls_self] at hcall
    cases hcall
    exact h

theorem AiWorld.Sound.close (hs : s.Sound server) : (s.close i).Sound server := by
  refine hs.local_step i rfl rfl (fun _ h => h) ?_ ?_ ?_
  · exact fun j hj => Function.update_of_ne hj _ _
  · intro j hj hlock
    have hne : s.lock ≠ some i := fun h => hj (Option.some.inj (hlock.symm.trans h))
    rw [AiWorld.close, if_neg hne]
    exact hlock
  · intro pc hcall
    rw [AiWorld.close_calls_self] at hcall
    cases hcall

end frame

section steps

variable {server : Server} {s t : AiWorld} {i : CallId}

theorem ProbeOutcome.verified_of_passed {outcome : ProbeOutcome} (h : outcome.status = .passed) :
    outcome = .verified := by
  cases outcome with
  | verified => rfl
  | rejected => cases h
  | unavailable => cases h

theorem readForCheck_ok {row : Option WorkspaceAiConfiguration} {read : CheckRead}
    (hn : ∀ configuration, row = some configuration → configuration.Normal)
    (h : readForCheck server row = .ok read) :
    ∃ configuration, row = some configuration ∧
      read.version = configuration.configurationVersion ∧
      (read.request server).Carries server configuration := by
  unfold readForCheck at h
  split at h
  · cases h
  rename_i configuration hfilter
  obtain ⟨hrow, -⟩ := Option.filter_eq_some_iff.1 hfilter
  split at h
  · cases h
  split at h
  · cases h
  rename_i apiKey hkey
  obtain ⟨model, hmodel, h⟩ := ok_of_bind_ok h
  obtain ⟨effort, heffort, h⟩ := ok_of_bind_ok h
  obtain ⟨budget, -, h⟩ := ok_of_bind_ok h
  cases h
  have hnormal := hn configuration hrow
  exact ⟨configuration, hrow, rfl, hkey, (hnormal.model _ hmodel).symm,
    (hnormal.effort _ _ heffort).symm⟩

theorem lockForSave_sound (hs : s.Sound server) {nonce : Str} {userId : UserId}
    {payload : AiSettingsInput} (h : lockForSaveStep server s i nonce userId payload = some t) :
    t.Sound server := by
  have hfollows {row : WorkspaceAiConfiguration}
      (hsave : saveWorkspaceAiSettings server nonce s.clock userId payload s.configuration =
        .ok row) : Write.Follows ⟨s.configuration, row⟩ := save_follows hs.normal hsave
  unfold lockForSaveStep at h
  split at h
  · rename_i row hsave hnone
    cases h
    have hinsert : Write.Follows ⟨none, row⟩ := hnone ▸ hfollows hsave
    exact hs.put hinsert
  · cases h
    exact hs.close
  · rename_i row before hsave hbefore
    split at h
    · rename_i hfree
      cases h
      exact hs.hold hfree ⟨rfl, hbefore, hbefore ▸ hfollows hsave⟩
    · cases h
  · split at h
    · cases h
      exact hs.close
    · cases h

theorem insert_sound (hs : s.Sound server) {row : WorkspaceAiConfiguration}
    (hcall : s.calls i = some (.inserting row)) (h : insertStep s i row = some t) :
    t.Sound server := by
  unfold insertStep at h
  split at h
  · cases h
    exact hs.close
  · rename_i hnone
    split at h
    · rename_i hfree
      cases h
      exact hs.hold hfree ⟨rfl, hnone, hs.relies i _ hcall⟩
    · cases h

theorem lockForRemove_sound (hs : s.Sound server) (h : lockForRemoveStep s i = some t) :
    t.Sound server := by
  unfold lockForRemoveStep at h
  split at h
  · cases h
    exact hs.close
  · rename_i before hbefore
    split at h
    · rename_i hfree
      cases h
      exact hs.hold hfree ⟨rfl, hbefore, remove_follows (hs.normal before hbefore)⟩
    · cases h

theorem check_sound (hs : s.Sound server) : (checkStep server s i).Sound server := by
  unfold checkStep
  split
  · split
    · exact hs
    · rename_i read hread
      obtain ⟨row, hrow, hversion, hcarries⟩ := readForCheck_ok hs.normal hread
      refine hs.put ⟨?_, Nat.le_refl _, fun _ => ⟨row, hrow, hcarries⟩⟩
      rw [hversion, ← hs.counted, hrow]
      rfl
  · exact hs

theorem probe_sound (hs : s.Sound server) {readAfter : Nat} {read : CheckRead}
    {outcome : ProbeOutcome} (hcall : s.calls i = some (.probing readAfter read)) :
    (probeStep server s i readAfter read outcome).Sound server := by
  refine hs.local_step i rfl rfl (fun _ h => List.mem_append_left _ h) ?_ (fun _ _ h => h) ?_
  · exact fun j hj => Function.update_of_ne hj _ _
  · intro pc hpc
    have hput : (s.put i (.probed readAfter read outcome)).calls i = some pc := hpc
    rw [AiWorld.put_calls_self] at hput
    cases hput
    have hread : read.Holds server s readAfter := hs.relies i _ hcall
    exact ⟨⟨hread.version, hread.bound, hread.row⟩, List.mem_append_right _ List.mem_cons_self⟩

theorem lockForCheck_sound (hs : s.Sound server) {readAfter : Nat} {read : CheckRead}
    {outcome : ProbeOutcome} (hcall : s.calls i = some (.probed readAfter read outcome))
    (h : lockForCheckStep s i read outcome = some t) : t.Sound server := by
  unfold lockForCheckStep at h
  split at h
  · cases h
    exact hs.close
  · rename_i current hcurrent
    split at h
    · rename_i hfree
      split at h
      · cases h
        exact hs.close
      · rename_i hversion
        cases h
        obtain ⟨hread, hmade⟩ := hs.relies i _ hcall
        have hsame : readAfter = s.writes.length := by
          rw [← hread.version, ← not_not.1 hversion, ← hs.counted, hcurrent]
          rfl
        obtain ⟨row, hrow, hcarries⟩ := hread.row hsame
        obtain rfl : current = row := Option.some.inj (hcurrent.symm.trans hrow)
        have hnormal := hs.normal current hcurrent
        refine hs.hold hfree ⟨rfl, ⟨hnormal.model, hnormal.effort, hnormal.withdrawn,
          hnormal.acknowledged⟩, ⟨current, hcurrent, rfl, rfl⟩, fun hpassed => ?_⟩
        refine ⟨_, hmade, ProbeOutcome.verified_of_passed (Option.some.inj hpassed),
          ⟨hcarries.key, hcarries.model, hcarries.effort⟩, ?_⟩
        -- nothing has been saved or removed since the row was read
        have hnone : (s.hold i (.recording (recordCheck s.clock read.model outcome
            current))).writes.drop readAfter = [] := List.drop_eq_nil_of_le (Nat.le_of_eq hsame.symm)
        intro write hwrite
        rw [hnone] at hwrite
        cases hwrite
    · cases h

theorem commitWrite_sound (hs : s.Sound server) {write : Write}
    (hcall : s.calls i = some (.writing write)) : (commitWrite s i write).Sound server := by
  obtain ⟨hlock, hbefore, hfollows⟩ := hs.relies i _ hcall
  refine ⟨?_, ?_, ?_, ?_⟩
  · have hcounted : versionOf write.before = s.writes.length := hbefore ▸ hs.counted
    calc write.after.configurationVersion = versionOf write.before + 1 := hfollows.version
      _ = (s.writes ++ [write]).length := by rw [hcounted, List.length_append]; rfl
  · rintro row ⟨⟩
    exact hfollows.normal
  · rintro row ⟨⟩ hstatus
    obtain ⟨hkeeps, hpassed⟩ := hfollows.passed hstatus
    obtain ⟨before, hold, hsettled⟩ := id hkeeps
    obtain ⟨probe, hverifies⟩ := hs.verified before (hbefore.trans hold) (hpassed before hold)
    refine ⟨probe, hverifies.made, hverifies.passed, hverifies.carries.of_settled hsettled.symm, ?_⟩
    intro w hw
    have hdrop : w ∈ s.writes.drop probe.readAfter ∨ w ∈ [write] := by
      have hmem : w ∈ (s.writes ++ [write]).drop probe.readAfter := hw
      rw [List.drop_append] at hmem
      exact (List.mem_append.1 hmem).imp_right List.mem_of_mem_drop
    rcases hdrop with hold | hnew
    · exact hverifies.since w hold
    · rwa [List.mem_singleton.1 hnew]
  · intro j pc hpc
    by_cases hj : j = i
    · subst hj
      have hclosed : (s.close j).calls j = some pc := hpc
      rw [AiWorld.close_calls_self] at hclosed
      cases hclosed
    · have hother : s.calls j = some pc := (Function.update_of_ne hj _ _).symm.trans hpc
      have hk : Kept s (commitWrite s i write) j := by
        refine ⟨fun hheld => ?_, fun _ h => h, ?_, fun hlength => ?_⟩
        · exact absurd (Option.some.inj (hheld.symm.trans hlock)) hj
        · exact List.length_append ▸ Nat.le_add_right _ _
        · have hsucc : (s.writes ++ [write]).length = s.writes.length := hlength
          simp at hsucc
      exact hk.relies (hs.relies j pc hother)

theorem commitCheck_sound (hs : s.Sound server) {row : WorkspaceAiConfiguration}
    (hcall : s.calls i = some (.recording row)) : (commitCheck s i row).Sound server := by
  obtain ⟨hlock, hnormal, ⟨current, hcurrent, hsettled, hversion⟩, hpassed⟩ := hs.relies i _ hcall
  refine ⟨?_, ?_, ?_, ?_⟩
  · have hcounted : versionOf (some current) = s.writes.length := hcurrent ▸ hs.counted
    exact hversion.symm.trans hcounted
  · rintro row ⟨⟩
    exact hnormal
  · rintro row ⟨⟩ hstatus
    obtain ⟨probe, hverifies⟩ := hpassed hstatus
    exact ⟨probe, hverifies.mono (fun _ h => h) rfl⟩
  · intro j pc hpc
    by_cases hj : j = i
    · subst hj
      have hclosed : (s.close j).calls j = some pc := hpc
      rw [AiWorld.close_calls_self] at hclosed
      cases hclosed
    · have hother : s.calls j = some pc := (Function.update_of_ne hj _ _).symm.trans hpc
      have hk : Kept s (commitCheck s i row) j := by
        refine ⟨fun hheld => ?_, fun _ h => h, Nat.le_refl _, fun _ old hold => ?_⟩
        · exact absurd (Option.some.inj (hheld.symm.trans hlock)) hj
        · obtain rfl : current = old := Option.some.inj (hcurrent.symm.trans hold)
          exact ⟨row, rfl, hsettled.symm⟩
      exact hk.relies (hs.relies j pc hother)

theorem sound_step (s : AiWorld) (a : AiAction) (t : AiWorld) (hs : s.Sound server)
    (h : aiStep server s a = some t) : t.Sound server := by
  cases a with
  | save i userId payload =>
    simp only [aiStep] at h
    split at h
    · cases h
      exact hs.put trivial
    · cases h
  | lockForSave i nonce =>
    simp only [aiStep] at h
    split at h
    · exact lockForSave_sound hs h
    · cases h
  | insert i =>
    simp only [aiStep] at h
    split at h
    · rename_i row hcall
      exact insert_sound hs hcall h
    · cases h
  | remove i =>
    simp only [aiStep] at h
    split at h
    · cases h
      exact hs.put trivial
    · cases h
  | lockForRemove i =>
    simp only [aiStep] at h
    split at h
    · exact lockForRemove_sound hs h
    · cases h
  | check i =>
    simp only [aiStep] at h
    split at h
    · cases h
      exact check_sound hs
    · cases h
  | probe i outcome =>
    simp only [aiStep] at h
    split at h
    · rename_i readAfter read hcall
      cases h
      exact probe_sound hs hcall
    · cases h
  | lockForCheck i =>
    simp only [aiStep] at h
    split at h
    · rename_i readAfter read outcome hcall
      exact lockForCheck_sound hs hcall h
    · cases h
  | commit i =>
    simp only [aiStep] at h
    split at h
    · rename_i write hcall
      cases h
      exact commitWrite_sound hs hcall
    · rename_i row hcall
      cases h
      exact commitCheck_sound hs hcall
    · cases h
  | fail i =>
    simp only [aiStep] at h
    split at h
    · cases h
    · cases h
      exact hs.close
  | tick elapsed =>
    cases h
    refine hs.local_step 0 rfl rfl (fun _ h => h) (fun _ _ => rfl) (fun _ _ h => h) ?_
    intro pc hcall
    have hk : Kept s { s with clock := s.clock + elapsed } 0 :=
      Kept.of_rows rfl rfl (fun _ h => h) id
    exact hk.relies (hs.relies 0 pc hcall)

theorem sound_unconfigured : unconfigured.Sound server where
  counted := rfl
  normal _ h := by cases h
  verified _ h := by cases h
  relies _ _ h := by cases h

end steps

section resolution

variable {server : Server} {row : Option WorkspaceAiConfiguration}
  {runtime : AssistantRuntimeConfiguration} {warning : Option String}

theorem resolve_ok (h : resolveAssistantRuntimeConfiguration server row =
    .ok ⟨some runtime, warning⟩) :
    ∃ configuration, row = some configuration ∧ configuration.enabled = true ∧
      configuration.policyAcknowledged = true ∧ configuration.lastCheckStatus = some .passed ∧
      configuration.encryptedApiKey.bind server.decryptSecret = some runtime.apiKey ∧
      modelOf configuration.model = .ok runtime.model ∧
      reasoningEffortOf server.foldTable configuration.reasoningEffort =
        .ok runtime.reasoningEffort := by
  unfold resolveAssistantRuntimeConfiguration at h
  split at h
  · cases h
  split at h
  · cases h
  rename_i configuration
  split at h
  · cases h
  rename_i henabled
  split at h
  · cases h
  rename_i hpolicy
  split at h
  · cases h
  split at h
  · cases h
  rename_i hpassed
  split at h
  · cases h
  rename_i apiKey hkey
  obtain ⟨model, hmodel, h⟩ := ok_of_bind_ok h
  obtain ⟨effort, heffort, h⟩ := ok_of_bind_ok h
  obtain ⟨budget, -, h⟩ := ok_of_bind_ok h
  cases h
  exact ⟨configuration, rfl, by simpa using henabled, by simpa using hpolicy, not_not.1 hpassed,
    hkey, hmodel, heffort⟩

end resolution

theorem runs_only_checked (server : Server) {s : AiWorld}
    (hrun : Reaches (aiStep server) anyStep unconfigured s)
    {runtime : AssistantRuntimeConfiguration} {warning : Option String}
    (h : resolveAssistantRuntimeConfiguration server s.configuration =
      .ok ⟨some runtime, warning⟩) :
    ∃ row, s.configuration = some row ∧ row.enabled = true ∧
      row.dataPolicyVersion = some aiDataPolicyVersion ∧
      row.dataPolicyAcknowledgedAt.isSome = true ∧
      row.encryptedApiKey.bind server.decryptSecret = some runtime.apiKey ∧
      row.model = runtime.model ∧ row.reasoningEffort = runtime.reasoningEffort ∧
      ∃ probe ∈ s.probes, probe.outcome = .verified ∧ probe.request.apiKey = runtime.apiKey ∧
        probe.request.model = runtime.model ∧
        probe.request.reasoningEffort = runtime.reasoningEffort ∧
        ∀ write ∈ s.writes.drop probe.readAfter, write.Keeps := by
  have hs : s.Sound server :=
    hrun.invariant (fun s a t hx _ ht => sound_step s a t hx ht) sound_unconfigured
  obtain ⟨row, hrow, henabled, hpolicy, hpassed, hkey, hmodel, heffort⟩ := resolve_ok h
  obtain ⟨probe, hmade, hverified, hcarries, hsince⟩ := hs.verified row hrow hpassed
  have hnormal := hs.normal row hrow
  have hm : runtime.model = row.model := hnormal.model _ hmodel
  have he : runtime.reasoningEffort = row.reasoningEffort := hnormal.effort _ _ heffort
  simp only [policyAcknowledged, decide_eq_true_eq] at hpolicy
  refine ⟨row, hrow, henabled, hpolicy.1, hpolicy.2, hkey, hm.symm, he.symm, probe, hmade,
    hverified, ?_, ?_, ?_, hsince⟩
  · exact Option.some.inj (hcarries.key.symm.trans hkey)
  · exact hcarries.model.symm.trans hm.symm
  · exact hcarries.effort.symm.trans he.symm

def plainServer : Server where
  enableLlm := true
  assistantLlmTimeoutSeconds := 30
  encryptSecret nonce key := if key = [] then none else some (nonce ++ key)
  decryptSecret value := if value = [] then none else some (value.drop 1)
  foldTable c := [c]

def firstInput : AiSettingsInput :=
  ⟨true, true, Str.of "gpt-5.6", Str.of "medium", 1200, some (Str.of "key")⟩

/-- The settings are saved and checked, and then saved again with the same values and no key. -/
def checkedThenSaved : List AiAction :=
  [.save 0 7 firstInput, .lockForSave 0 [65], .insert 0, .commit 0,
    .check 1, .probe 1 .verified, .lockForCheck 1, .commit 1,
    .save 2 7 { firstInput with apiKey := none }, .lockForSave 2 [66], .commit 2]

def firstRuntime : AssistantRuntimeConfiguration :=
  ⟨Str.of "key", Str.of "gpt-5.6", Str.of "medium", 1200, 30⟩

theorem runs_only_checked_saved :
    ∃ s, Reaches (aiStep plainServer) anyStep unconfigured s ∧ s.writes.length = 2 ∧
      ∃ row, s.configuration = some row ∧ row.enabled = true ∧
        row.dataPolicyVersion = some aiDataPolicyVersion ∧
        row.dataPolicyAcknowledgedAt.isSome = true ∧
        row.encryptedApiKey.bind plainServer.decryptSecret = some firstRuntime.apiKey ∧
        row.model = firstRuntime.model ∧ row.reasoningEffort = firstRuntime.reasoningEffort ∧
        ∃ probe ∈ s.probes, probe.outcome = .verified ∧
          probe.request.apiKey = firstRuntime.apiKey ∧
          probe.request.model = firstRuntime.model ∧
          probe.request.reasoningEffort = firstRuntime.reasoningEffort ∧
          ∀ write ∈ s.writes.drop probe.readAfter, write.Keeps := by
  have hrun : (exec (aiStep plainServer) unconfigured checkedThenSaved).map
      (fun s => s.writes.length == 2 &&
        decide (resolveAssistantRuntimeConfiguration plainServer s.configuration =
          .ok ⟨some firstRuntime, none⟩)) = some true := by
    decide +kernel
  obtain ⟨s, hs, hcheck⟩ := reaches_of_exec_check hrun
  obtain ⟨hwrites, hresolved⟩ := Bool.and_eq_true_iff.1 hcheck
  exact ⟨s, hs, by simpa using hwrites,
    runs_only_checked plainServer hs (of_decide_eq_true hresolved)⟩

end FounderOs.AiSettings
