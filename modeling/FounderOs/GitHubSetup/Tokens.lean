import FounderOs.Foundation.Succession
import FounderOs.GitHubSetup.Protocol

namespace FounderOs.GitHubSetup

open Succession

/-- The callback comes from the actor of the step, in time, in the phase that expects it, with a state
of the same digest. -/
structure Callback.Answers (server : Server) (callback : Callback) (issue : Issue) : Prop where
  actor : callback.actor = issue.actor
  leg : callback.leg = issue.leg
  phase : callback.phase = issue.leg.phase
  unexpired : callback.receivedAt < issue.expiresAt
  state : ∃ hash, hashState server callback.state = .ok hash ∧
    hashState server issue.state = .ok hash

def Follows (server : Server) (last : Option SetupEvent) : SetupEvent → Prop
  | .issued _ => True
  | .accepted callback => ∃ issue, last = some (.issued issue) ∧ callback.Answers server issue

/-- What the row stores of the token that it waits for. -/
structure Issue.Stored (server : Server) (issue : Issue) (setup : GitHubAppSetupSession)
    (hash : Str) : Prop where
  state : hashState server issue.state = .ok hash
  actor : issue.actor = setup.createdByUserId
  phase : issue.leg.phase = setup.phase
  expires : issue.expiresAt = setup.expiresAt

def GitHubAppSetupSession.Backed (server : Server) (last : Option SetupEvent)
    (setup : GitHubAppSetupSession) : Prop :=
  ∀ hash, setup.stateHash = some hash →
    ∃ issue, last = some (.issued issue) ∧ issue.Stored server setup hash

def eventsOf (workspaceId : WorkspaceId) (events : List SetupEvent) : List SetupEvent :=
  events.filter (·.workspaceId = workspaceId)

def SetupPc.holds : SetupPc → Bool
  | .requested _ | .inserting _ _ => false
  | .exchanging _ _ | .writing _ _ => true

/-- What a call relies on, where `last` is the last event of its workspace. -/
def SetupPc.Fits (server : Server) (workspaceId : WorkspaceId) (last : Option SetupEvent) :
    SetupPc → Prop
  | .requested _ => True
  | .inserting row issue =>
    issue.workspaceId = workspaceId ∧ row.Backed server (some (.issued issue))
  | .exchanging setup callback =>
    callback.workspaceId = workspaceId ∧ setup.createdByUserId = callback.actor ∧
      setup.stateHash = none ∧ Follows server last (.accepted callback)
  | .writing row events =>
    (∀ event ∈ events, event.workspaceId = workspaceId) ∧ Holds (Follows server) last events ∧
      row.Backed server (latest last events)

def SetupWorld.last (s : SetupWorld) (workspaceId : WorkspaceId) : Option SetupEvent :=
  latest none (eventsOf workspaceId s.events)

structure SetupWorld.Sound (server : Server) (s : SetupWorld) : Prop where
  follows : ∀ w, Holds (Follows server) none (eventsOf w s.events)
  backed : ∀ w setup, s.rows w = some setup → setup.Backed server (s.last w)
  fits : ∀ i call, s.calls i = some call →
    call.pc.Fits server call.workspaceId (s.last call.workspaceId)
  holds : ∀ i call, s.calls i = some call → call.pc.holds = true →
    s.locks call.workspaceId = some i

section values

variable {server : Server} {now : Nat} {actor : UserId} {state rawState : Str}
  {row : Option GitHubAppSetupSession} {setup result : GitHubAppSetupSession}
  {last : Option SetupEvent} {leg : Leg}

theorem Leg.phase_inj : ∀ {a b : Leg}, a.phase = b.phase → a = b := by
  intro a b h
  cases a <;> cases b <;> first | rfl | cases h

theorem backed_of_stateHash_none (h : setup.stateHash = none) : setup.Backed server last := by
  intro hash hhash
  rw [h] at hhash
  cases hhash

theorem start_ok {reads : StartReads}
    (h : startGithubAppManifestSetup server now actor reads rawState = .ok result) :
    ∃ hash, hashState server rawState = .ok hash ∧ result.stateHash = some hash ∧
      result.createdByUserId = actor ∧ result.phase = .manifestPending := by
  obtain ⟨origin, -, h⟩ := ok_of_bind_ok h
  obtain ⟨hash, hhash, h⟩ := ok_of_bind_ok h
  cases h
  exact ⟨hash, hhash, rfl, rfl, rfl⟩

theorem claim_ok {claimed : SetupPhase}
    (h : claimSetupState server now state claimed row = .ok result) :
    ∃ setup, row = some setup ∧ setup.expired now = false ∧
      result = { setup with phase := claimed, stateHash := none } := by
  obtain ⟨hash, -, h⟩ := ok_of_bind_ok h
  cases row with
  | none => cases h
  | some setup =>
    simp only at h
    split at h
    · cases h
    · rename_i hexpired
      cases h
      exact ⟨setup, rfl, Bool.eq_false_iff.2 hexpired, rfl⟩

theorem claimable_iff {phase : SetupPhase} :
    claimable server actor state phase setup = true ↔
      ∃ hash, hashState server state = .ok hash ∧ setup.createdByUserId = actor ∧
        setup.stateHash = some hash ∧ setup.phase = phase := by
  unfold claimable
  split
  · rename_i hash hhash
    simp [hhash, and_assoc]
  · rename_i hhash
    simp [hhash]

theorem launch_ok {credentialFound : Bool}
    (h : launchGithubAppInstallation server now credentialFound rawState row = .ok result) :
    ∃ setup hash, row = some setup ∧ hashState server rawState = .ok hash ∧
      result.stateHash = some hash ∧ result.createdByUserId = setup.createdByUserId ∧
      result.phase = .installationPending := by
  cases row with
  | none => cases h
  | some setup =>
    simp only [launchGithubAppInstallation] at h
    split at h
    · cases h
    split at h
    · cases h
    obtain ⟨hash, hhash, h⟩ := ok_of_bind_ok h
    cases h
    exact ⟨setup, hash, rfl, hhash, rfl, rfl, rfl⟩

theorem begin_ok (h : beginGithubAppOauth server now state row = .ok result) :
    ∃ setup hash, row = some setup ∧ setup.phase = .installationPending ∧
      setup.expired now = false ∧ hashState server state = .ok hash ∧
      setup.stateHash = some hash ∧ result = { setup with stateHash := none } := by
  cases row with
  | none => cases h
  | some setup =>
    simp only [beginGithubAppOauth] at h
    split at h
    · cases h
    rename_i hpending
    obtain ⟨hphase, hexpired⟩ := not_or.1 hpending
    obtain ⟨hash, hhash, h⟩ := ok_of_bind_ok h
    split at h
    · cases h
    rename_i hstored
    cases h
    exact ⟨setup, hash, rfl, not_not.1 hphase, Bool.eq_false_iff.2 hexpired, hhash,
      not_not.1 hstored, rfl⟩

theorem finalize_ok {reads : FinalizeReads} {selected : List Str}
    (h : finalizeGithubAppRepositories server now reads selected row = .ok result) :
    ∃ setup, row = some setup ∧ setup.phase = .repositorySelection ∧
      result.stateHash = setup.stateHash := by
  cases row with
  | none => cases h
  | some setup =>
    simp only [finalizeGithubAppRepositories] at h
    split at h
    · cases h
    split at h
    · cases h
    rename_i hphase
    iterate 4
      split at h
      · cases h
    cases h
    exact ⟨setup, rfl, not_not.1 hphase, rfl⟩

theorem handover_cases {connection : Option Connection}
    (h : repositorySetupForUpdate actor connection setup = some result) :
    result = setup ∨ ((setup.phase = .completed ∨ setup.phase = .repositorySelection) ∧
      result.stateHash = setup.stateHash ∧ result.phase = setup.phase) := by
  unfold repositorySetupForUpdate at h
  split at h
  · exact .inl (Option.some.inj h).symm
  split at h
  · cases h
  rename_i hphase
  have hlate : setup.phase = .completed ∨ setup.phase = .repositorySelection := by
    by_contra hneither
    exact hphase (not_or.1 hneither)
  split at h
  · cases h
  split at h
  · cases h
    exact .inr ⟨hlate, rfl, rfl⟩
  · cases h

/-- A refresh changes a row only in the two phases in which no token is out. -/
theorem refresh_cases {reads : RefreshReads} :
    refreshGithubAppRepositoryInventory server now actor reads setup = setup ∨
      ((setup.phase = .completed ∨ setup.phase = .repositorySelection) ∧
        (refreshGithubAppRepositoryInventory server now actor reads setup).stateHash =
          setup.stateHash) := by
  unfold refreshGithubAppRepositoryInventory
  split
  · exact .inl rfl
  · rename_i found hfound _
    exact (handover_cases hfound).imp_right fun h => ⟨h.1, h.2.1⟩
  rename_i found installation hfound _
  have hkeeps : found.stateHash = setup.stateHash ∧ found.phase = setup.phase := by
    rcases handover_cases hfound with rfl | ⟨-, hhash, hphase⟩
    · exact ⟨rfl, rfl⟩
    · exact ⟨hhash, hphase⟩
  split
  · exact (handover_cases hfound).imp_right fun h => ⟨h.1, h.2.1⟩
  rename_i hready
  have hlate : setup.phase = .completed ∨ setup.phase = .repositorySelection := by
    rw [← hkeeps.2]
    by_contra hneither
    exact (not_or.1 hready).2 (not_or.1 hneither).symm
  refine .inr ⟨hlate, ?_⟩
  split
  · exact hkeeps.1
  simp only
  split
  · split
    · exact hkeeps.1
    · split
      · exact hkeeps.1
      · exact hkeeps.1
  · exact hkeeps.1

theorem restart_stateHash {reads : RestartReads} :
    (restartGithubAppSetup now actor reads setup).stateHash = none := by
  simp only [restartGithubAppSetup]
  split
  · split <;> rfl
  · split
    · rfl
    · rfl
    · split <;> rfl

theorem finishManifest_stateHash {stored : Except (Option Str) CredentialId}
    (h : setup.stateHash = none) : (finishManifest now stored setup).stateHash = none := by
  cases stored with
  | error code => rfl
  | ok credential => exact h

theorem finishOauth_stateHash {outcome : OauthOutcome} (h : setup.stateHash = none) :
    (finishOauth now outcome setup).stateHash = none := by
  unfold finishOauth
  split
  · rfl
  · rfl
  split
  · rfl
  split
  · rfl
  · exact h

/-- The token that a finished installation callback gives out is the one that it stores. -/
theorem finishBegin_cases {outcome : InstallationOutcome}
    (h : finishBegin server now outcome setup = .ok result) :
    result.stateHash = none ∨ ∃ installation verifier oauthState hash,
      outcome = .verified installation (some verifier) oauthState ∧
      hashState server oauthState = .ok hash ∧ result.stateHash = some hash ∧
      result.createdByUserId = setup.createdByUserId ∧ result.phase = .oauthPending := by
  cases outcome with
  | storageUnavailable | credentialsUnavailable | rejected code =>
    cases h
    exact .inl rfl
  | verified installation verifier oauthState =>
    cases verifier with
    | none =>
      cases h
      exact .inl rfl
    | some verifier =>
      obtain ⟨hash, hhash, h⟩ := ok_of_bind_ok h
      cases h
      exact .inr ⟨installation, verifier, oauthState, hash, rfl, hhash, rfl, rfl, rfl⟩

end values

section fits

variable {server : Server} {now : Nat} {w : WorkspaceId} {actor : UserId} {state : Str}
  {row : Option GitHubAppSetupSession} {setup result : GitHubAppSetupSession}
  {last : Option SetupEvent} {leg : Leg} {hash : Str} {pc : SetupPc}

theorem backed_of_late (h : setup.Backed server last)
    (hphase : setup.phase = .completed ∨ setup.phase = .repositorySelection)
    (hhash : result.stateHash = setup.stateHash) : result.Backed server last := by
  refine backed_of_stateHash_none (hhash.trans ?_)
  by_contra hne
  obtain ⟨hash, hsome⟩ := Option.ne_none_iff_exists'.1 hne
  obtain ⟨issue, -, hstored⟩ := h hash hsome
  have hleg := hstored.phase
  cases hl : issue.leg <;> rcases hphase with hp | hp <;> rw [hl, hp] at hleg <;> cases hleg

/-- What a locked row says of the state that matches it. -/
theorem follows_of_backed (h : setup.Backed server last) (hstate : hashState server state = .ok hash)
    (hactor : setup.createdByUserId = actor) (hhash : setup.stateHash = some hash)
    (hphase : setup.phase = leg.phase) (hexpired : setup.expired now = false) :
    Follows server last (.accepted ⟨w, actor, leg, state, setup.phase, now⟩) := by
  obtain ⟨issue, hlast, hstored⟩ := h hash hhash
  have hleg : leg = issue.leg := Leg.phase_inj (hphase.symm.trans hstored.phase.symm)
  refine ⟨issue, hlast, ⟨?_, hleg, hstored.phase.symm, ?_, hash, hstate, hstored.state⟩⟩
  · exact hactor.symm.trans hstored.actor.symm
  · simp only [GitHubAppSetupSession.expired, decide_eq_false_iff_not, not_le] at hexpired
    exact hexpired.trans_eq hstored.expires.symm

theorem backed_of_stored {issue : Issue} (h : issue.Stored server setup hash)
    (hhash : setup.stateHash = some hash) : setup.Backed server (some (.issued issue)) := by
  intro hash' hhash'
  obtain rfl : hash = hash' := Option.some.inj (hhash.symm.trans hhash')
  exact ⟨issue, rfl, h⟩

theorem fits_issued {issue : Issue} (h : setup.Backed server (some (.issued issue)))
    (hw : issue.workspaceId = w) : SetupPc.Fits server w last (.writing setup [.issued issue]) := by
  refine ⟨?_, ⟨trivial, trivial⟩, h⟩
  intro event hevent
  rw [List.mem_singleton.1 hevent]
  exact hw

theorem fits_accepted {callback : Callback} (h : result.stateHash = none)
    (hw : callback.workspaceId = w) (hfollows : Follows server last (.accepted callback)) :
    SetupPc.Fits server w last (.writing result [.accepted callback]) := by
  refine ⟨?_, ⟨hfollows, trivial⟩, backed_of_stateHash_none h⟩
  intro event hevent
  rw [List.mem_singleton.1 hevent]
  exact hw

theorem fits_claimed (w : WorkspaceId) {claimed expected : SetupPhase}
    (h : claimSetupState server now state claimed row = .ok result)
    (hbacked : ∀ setup, row = some setup → setup.Backed server last)
    (hlocks : ∀ setup, row = some setup → claimable server actor state expected setup = true)
    (hleg : expected = leg.phase) :
    ∃ setup, row = some setup ∧ result.stateHash = none ∧ result.createdByUserId = actor ∧
      Follows server last (.accepted ⟨w, actor, leg, state, setup.phase, now⟩) := by
  obtain ⟨setup, hrow, hexpired, rfl⟩ := claim_ok h
  obtain ⟨hash, hstate, hactor, hhash, hphase⟩ := claimable_iff.1 (hlocks setup hrow)
  exact ⟨setup, hrow, rfl, hactor, follows_of_backed (hbacked setup hrow) hstate hactor hhash
    (hphase.trans hleg) hexpired⟩

theorem perform_fits {request : SetupRequest}
    (hbacked : ∀ setup, row = some setup → setup.Backed server last)
    (hlocks : ∀ setup, row = some setup → request.locks server actor setup = true)
    (h : perform server now w actor request row = some pc) :
    pc.Fits server w last ∧ (pc.holds = true → row.isSome = true) := by
  cases request with
  | start reads rawState =>
    obtain ⟨setup, hstart, hpc⟩ := Option.map_eq_some_iff.1 h
    obtain ⟨hash, hstate, hhash, hactor, hphase⟩ :=
      start_ok (ok_of_toOption hstart)
    have hissue : setup.Backed server
        (some (.issued ⟨w, actor, .manifest, rawState, setup.expiresAt⟩)) :=
      backed_of_stored ⟨hstate, hactor.symm, hphase.symm, rfl⟩ hhash
    split at hpc
    · cases hpc
      exact ⟨⟨rfl, hissue⟩, fun hholds => by cases hholds⟩
    · rename_i hsome
      cases hpc
      exact ⟨fits_issued hissue rfl, fun _ => Option.isSome_iff_ne_none.2 (by simpa using hsome)⟩
  | completeManifest state =>
    have hleg : SetupPhase.manifestPending = Leg.manifest.phase := rfl
    obtain ⟨result, hclaim, hpc⟩ := Option.bind_eq_some_iff.1 h
    obtain ⟨setup, rfl, hnone, hactor, hfollows⟩ :=
      fits_claimed w (ok_of_toOption hclaim) hbacked hlocks hleg
    cases hpc
    exact ⟨⟨rfl, hactor, hnone, hfollows⟩, fun _ => rfl⟩
  | launch credentialFound rawState =>
    obtain ⟨result, hlaunch, hpc⟩ := Option.map_eq_some_iff.1 h
    obtain ⟨setup, hash, rfl, hstate, hhash, howner, hphase⟩ :=
      launch_ok (ok_of_toOption hlaunch)
    have hactor : setup.createdByUserId = actor := beq_iff_eq.1 (hlocks setup rfl)
    cases hpc
    exact ⟨fits_issued (backed_of_stored ⟨hstate, (howner.trans hactor).symm, hphase.symm, rfl⟩
      hhash) rfl, fun _ => rfl⟩
  | begin state =>
    obtain ⟨result, hbegin, hpc⟩ := Option.bind_eq_some_iff.1 h
    obtain ⟨setup, hash, rfl, hphase, hexpired, hstate, hhash, rfl⟩ :=
      begin_ok (ok_of_toOption hbegin)
    have hactor : setup.createdByUserId = actor := beq_iff_eq.1 (hlocks setup rfl)
    cases hpc
    exact ⟨⟨rfl, hactor, rfl, follows_of_backed (hbacked setup rfl) hstate hactor hhash hphase
      hexpired⟩, fun _ => rfl⟩
  | completeOauth state =>
    have hleg : SetupPhase.oauthPending = Leg.oauth.phase := rfl
    obtain ⟨result, hclaim, hpc⟩ := Option.bind_eq_some_iff.1 h
    obtain ⟨setup, rfl, hnone, hactor, hfollows⟩ :=
      fits_claimed w (ok_of_toOption hclaim) hbacked hlocks hleg
    cases hpc
    exact ⟨⟨rfl, hactor, hnone, hfollows⟩, fun _ => rfl⟩
  | cancel state =>
    have hleg : SetupPhase.oauthPending = Leg.oauth.phase := rfl
    obtain ⟨result, hclaim, hpc⟩ := Option.bind_eq_some_iff.1 h
    obtain ⟨setup, rfl, hnone, -, hfollows⟩ :=
      fits_claimed w (ok_of_toOption hclaim) hbacked hlocks hleg
    cases hpc
    exact ⟨fits_accepted hnone rfl hfollows, fun _ => rfl⟩
  | refresh reads =>
    obtain ⟨setup, rfl, hpc⟩ := Option.map_eq_some_iff.1 h
    cases hpc
    refine ⟨⟨List.forall_mem_nil _, trivial, ?_⟩, fun _ => rfl⟩
    rcases refresh_cases with hsame | ⟨hphase, hhash⟩
    · exact hsame ▸ hbacked setup rfl
    · exact backed_of_late (hbacked setup rfl) hphase hhash
  | finalize reads selected =>
    obtain ⟨result, hfinalize, hpc⟩ := Option.map_eq_some_iff.1 h
    obtain ⟨setup, rfl, hphase, hhash⟩ := finalize_ok (ok_of_toOption hfinalize)
    cases hpc
    exact ⟨⟨List.forall_mem_nil _, trivial,
      backed_of_late (hbacked setup rfl) (.inr hphase) hhash⟩, fun _ => rfl⟩
  | restart reads =>
    obtain ⟨setup, rfl, hpc⟩ := Option.map_eq_some_iff.1 h
    cases hpc
    exact ⟨⟨List.forall_mem_nil _, trivial,
      backed_of_stateHash_none restart_stateHash⟩, fun _ => rfl⟩

theorem finish_fits {callback : Callback} {answer : ProviderAnswer}
    (hfits : SetupPc.Fits server w last (.exchanging setup callback))
    (h : finish server now setup callback answer = some pc) : pc.Fits server w last := by
  obtain ⟨hw, hactor, hnone, hfollows⟩ := hfits
  unfold finish at h
  split at h
  · cases h
    exact fits_accepted (finishManifest_stateHash hnone) hw hfollows
  · rename_i outcome _
    obtain ⟨result, hfinish, h⟩ := Option.map_eq_some_iff.1 h
    cases h
    rcases finishBegin_cases (ok_of_toOption hfinish) with
      hhash | ⟨installation, verifier, oauthState, hash, rfl, hstate, hhash, howner, hphase⟩
    · refine ⟨?_, ⟨hfollows, ?_⟩, backed_of_stateHash_none hhash⟩
      · intro event hevent
        rcases List.mem_cons.1 hevent with rfl | hevent
        · exact hw
        · unfold oauthIssue at hevent
          split at hevent
          · rw [List.mem_singleton.1 hevent]
            exact hw
          · cases hevent
      · unfold oauthIssue
        split
        · exact ⟨trivial, trivial⟩
        · trivial
    · refine ⟨?_, ⟨hfollows, trivial, trivial⟩, ?_⟩
      · intro event hevent
        rcases List.mem_cons.1 hevent with rfl | hevent
        · exact hw
        · rw [List.mem_singleton.1 hevent]
          exact hw
      · exact backed_of_stored ⟨hstate, hactor.symm.trans howner.symm, hphase.symm, rfl⟩ hhash
  · cases h
    exact fits_accepted (finishOauth_stateHash hnone) hw hfollows
  · cases h

end fits

end FounderOs.GitHubSetup
