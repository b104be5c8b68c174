import FounderOs.GitHubSetup.Tokens

namespace FounderOs.GitHubSetup

open Transition Succession

section steps

variable {server : Server} {s t : SetupWorld} {i : CallId} {w : WorkspaceId} {call : SetupCall}
  {events : List SetupEvent}

theorem eventsOf_append {older newer : List SetupEvent} :
    eventsOf w (older ++ newer) = eventsOf w older ++ eventsOf w newer := List.filter_append _ _

theorem eventsOf_self (h : ∀ event ∈ events, event.workspaceId = w) : eventsOf w events = events :=
  List.filter_eq_self.2 fun event hevent => decide_eq_true (h event hevent)

theorem eventsOf_other {w' : WorkspaceId} (h : ∀ event ∈ events, event.workspaceId = w)
    (hw : w' ≠ w) : eventsOf w' events = [] := by
  refine List.filter_eq_nil_iff.2 fun event hevent hmem => hw ?_
  exact (of_decide_eq_true hmem).symm.trans (h event hevent)

theorem SetupWorld.Sound.local_step (i : CallId) (hs : s.Sound server) (hrows : t.rows = s.rows)
    (hevents : t.events = s.events) (hothers : ∀ j, j ≠ i → t.calls j = s.calls j)
    (hlocks : ∀ j, j ≠ i → ∀ w, s.locks w = some j → t.locks w = some j)
    (hown : ∀ call, t.calls i = some call →
      call.pc.Fits server call.workspaceId (s.last call.workspaceId) ∧
        (call.pc.holds = true → t.locks call.workspaceId = some i)) : t.Sound server := by
  have hlast : t.last = s.last := by
    funext w
    rw [SetupWorld.last, SetupWorld.last, hevents]
  refine ⟨hevents ▸ hs.follows, hlast ▸ hrows ▸ hs.backed, ?_, ?_⟩
  · intro j call hcall
    rw [hlast]
    by_cases hj : j = i
    · subst hj
      exact (hown call hcall).1
    · exact hs.fits j call ((hothers j hj).symm.trans hcall)
  · intro j call hcall hholds
    by_cases hj : j = i
    · subst hj
      exact (hown call hcall).2 hholds
    · exact hlocks j hj _ (hs.holds j call ((hothers j hj).symm.trans hcall) hholds)

theorem SetupWorld.Sound.put (hs : s.Sound server)
    (hfits : call.pc.Fits server call.workspaceId (s.last call.workspaceId))
    (hholds : call.pc.holds = true → s.locks call.workspaceId = some i) :
    (s.put i call).Sound server := by
  refine hs.local_step i rfl rfl (fun j hj => Function.update_of_ne hj _ _) (fun _ _ _ h => h) ?_
  intro call' hcall
  obtain rfl : call = call' := Option.some.inj ((Function.update_self i _ _).symm.trans hcall)
  exact ⟨hfits, hholds⟩

theorem SetupWorld.Sound.hold (hs : s.Sound server) (hfree : s.locks call.workspaceId = none)
    (hfits : call.pc.Fits server call.workspaceId (s.last call.workspaceId)) :
    (s.hold i call).Sound server := by
  refine hs.local_step i rfl rfl (fun j hj => Function.update_of_ne hj _ _) ?_ ?_
  · intro j _ w hw
    have hne : w ≠ call.workspaceId := by
      rintro rfl
      rw [hfree] at hw
      cases hw
    exact (Function.update_of_ne hne _ _).trans hw
  · intro call' hcall
    obtain rfl : call = call' := Option.some.inj ((Function.update_self i _ _).symm.trans hcall)
    exact ⟨hfits, fun _ => Function.update_self _ _ _⟩

theorem close_locks {j : CallId} (hj : j ≠ i) (h : s.locks w = some j) {w' : WorkspaceId} :
    (s.close i w').locks w = some j := by
  unfold SetupWorld.close
  simp only
  split
  · rename_i hheld
    have hne : w ≠ w' := by
      rintro rfl
      exact hj (Option.some.inj (h.symm.trans hheld))
    exact (Function.update_of_ne hne _ _).trans h
  · exact h

theorem SetupWorld.Sound.close (hs : s.Sound server) : (s.close i w).Sound server := by
  refine hs.local_step i rfl rfl (fun j hj => Function.update_of_ne hj _ _)
    (fun j hj _ h => close_locks hj h) ?_
  intro call hcall
  cases (Function.update_self i _ _).symm.trans hcall

theorem lock_sound (hs : s.Sound server) {actor : UserId} {request : SetupRequest}
    (h : lockStep server s i w actor request = some t) : t.Sound server := by
  simp only [lockStep] at h
  split at h
  · split at h
    · cases h
      exact hs.close
    · cases h
  · rename_i pc hperform
    have hfits : pc.Fits server w (s.last w) ∧ _ := perform_fits
      (fun setup hrow => hs.backed w setup (Option.filter_eq_some_iff.1 hrow).1)
      (fun setup hrow => (Option.filter_eq_some_iff.1 hrow).2) hperform
    split at h
    · rename_i hnone
      cases h
      refine hs.put hfits.1 fun hholds => ?_
      have hsome := hfits.2 hholds
      rw [Option.isNone_iff_eq_none.1 hnone] at hsome
      cases hsome
    · split at h
      · rename_i hfree
        cases h
        exact hs.hold hfree hfits.1
      · cases h

theorem insert_sound (hs : s.Sound server) {row : GitHubAppSetupSession} {issue : Issue}
    (hfits : SetupPc.Fits server call.workspaceId (s.last call.workspaceId) (.inserting row issue))
    (h : insertStep s i call row issue = some t) : t.Sound server := by
  unfold insertStep at h
  split at h
  · cases h
    exact hs.close
  · split at h
    · rename_i hfree
      cases h
      refine hs.hold hfree ?_
      exact fits_issued hfits.2 hfits.1
    · cases h

theorem answer_sound (hs : s.Sound server) {setup : GitHubAppSetupSession} {callback : Callback}
    {answer : ProviderAnswer}
    (hfits : SetupPc.Fits server call.workspaceId (s.last call.workspaceId)
      (.exchanging setup callback))
    (hheld : s.locks call.workspaceId = some i) :
    (answerStep server s i call setup callback answer).Sound server := by
  unfold answerStep
  split
  · rename_i pc hfinish
    exact hs.put (finish_fits hfits hfinish) fun _ => hheld
  · exact hs.close

theorem commit_sound (hs : s.Sound server) {row : GitHubAppSetupSession}
    (hfits : SetupPc.Fits server call.workspaceId (s.last call.workspaceId) (.writing row events))
    (hheld : s.locks call.workspaceId = some i) :
    (commitStep s i call row events).Sound server := by
  obtain ⟨hevents, hfollows, hbacked⟩ := hfits
  have hself : (commitStep s i call row events).last call.workspaceId =
      latest (s.last call.workspaceId) events := by
    rw [SetupWorld.last, commitStep, eventsOf_append, latest_append, eventsOf_self hevents]
    rfl
  have hother {w : WorkspaceId} (hw : w ≠ call.workspaceId) :
      eventsOf w (commitStep s i call row events).events = eventsOf w s.events := by
    rw [commitStep, eventsOf_append, eventsOf_other hevents hw, List.append_nil]
  have hlast {w : WorkspaceId} (hw : w ≠ call.workspaceId) :
      (commitStep s i call row events).last w = s.last w := by
    rw [SetupWorld.last, hother hw]
    rfl
  have hcalls {j : CallId} {other : SetupCall}
      (hcall : (commitStep s i call row events).calls j = some other) :
      j ≠ i ∧ s.calls j = some other := by
    have hclosed : (s.close i call.workspaceId).calls j = some other := hcall
    by_cases hj : j = i
    · subst hj
      cases (Function.update_self j _ _).symm.trans hclosed
    · exact ⟨hj, (Function.update_of_ne hj _ _).symm.trans hclosed⟩
  refine ⟨?_, ?_, ?_, ?_⟩
  · intro w
    by_cases hw : w = call.workspaceId
    · subst hw
      rw [commitStep, eventsOf_append, eventsOf_self hevents]
      exact holds_append.2 ⟨hs.follows _, hfollows⟩
    · rw [hother hw]
      exact hs.follows w
  · intro w setup hsetup
    by_cases hw : w = call.workspaceId
    · subst hw
      have hrow : (commitStep s i call row events).rows call.workspaceId = some row :=
        Function.update_self _ _ _
      obtain rfl : row = setup := Option.some.inj (hrow.symm.trans hsetup)
      rw [hself]
      exact hbacked
    · rw [hlast hw]
      exact hs.backed w setup ((Function.update_of_ne hw _ _).symm.trans hsetup)
  · intro j other hcall
    obtain ⟨hj, hopen⟩ := hcalls hcall
    by_cases hw : other.workspaceId = call.workspaceId
    · -- the row is not locked by another call
      have hfree : other.pc.holds = false := by
        refine Bool.eq_false_iff.2 fun hholds => hj ?_
        have hlock := hs.holds j other hopen hholds
        rw [hw, hheld] at hlock
        exact (Option.some.inj hlock).symm
      have hold := hs.fits j other hopen
      cases hpc : other.pc with
      | requested request => trivial
      | inserting row issue => rwa [hpc] at hold
      | exchanging setup callback => rw [hpc] at hfree; cases hfree
      | writing row events => rw [hpc] at hfree; cases hfree
    · rw [hlast hw]
      exact hs.fits j other hopen
  · intro j other hcall hholds
    obtain ⟨hj, hopen⟩ := hcalls hcall
    exact close_locks hj (hs.holds j other hopen hholds)

theorem sound_setupStep {a : SetupAction} (hs : s.Sound server)
    (h : setupStep server s a = some t) : t.Sound server := by
  cases a with
  | request i workspaceId actor request =>
    simp only [setupStep] at h
    split at h
    · cases h
      exact hs.put trivial fun hholds => by cases hholds
    · cases h
  | lock i =>
    simp only [setupStep] at h
    split at h
    · exact lock_sound hs h
    · cases h
  | insert i =>
    simp only [setupStep] at h
    split at h
    · rename_i hcall
      exact insert_sound hs (hs.fits i _ hcall) h
    · cases h
  | answer i answer =>
    simp only [setupStep] at h
    split at h
    · rename_i hcall
      cases h
      exact answer_sound hs (hs.fits i _ hcall) (hs.holds i _ hcall rfl)
    · cases h
  | commit i =>
    simp only [setupStep] at h
    split at h
    · rename_i hcall
      cases h
      exact commit_sound hs (hs.fits i _ hcall) (hs.holds i _ hcall rfl)
    · cases h
  | fail i =>
    obtain ⟨call, -, h⟩ := Option.map_eq_some_iff.1 h
    cases h
    exact hs.close
  | tick elapsed =>
    cases h
    exact ⟨hs.follows, hs.backed, hs.fits, hs.holds⟩

theorem unstarted_sound : unstarted.Sound server := by
  refine ⟨fun _ => trivial, ?_, ?_, ?_⟩
  · intro w setup h
    cases h
  · intro i call h
    cases h
  · intro i call h
    cases h

end steps

section claim

def SetupEvent.issuedState : SetupEvent → Option Str
  | .issued issue => some issue.state
  | .accepted _ => none

def SetupEvent.acceptedState : SetupEvent → Option Str
  | .issued _ => none
  | .accepted callback => some callback.state

def issuedStates (events : List SetupEvent) : List Str := events.filterMap (·.issuedState)

def acceptedStates (events : List SetupEvent) : List Str := events.filterMap (·.acceptedState)

/-- No state is drawn twice, and none has the digest of another that is drawn or presented. -/
structure StatesDiffer (server : Server) (events : List SetupEvent) : Prop where
  drawn : (issuedStates events).Nodup
  digest : ∀ x ∈ issuedStates events, ∀ y ∈ acceptedStates events,
    server.keyedSecretDigest x = server.keyedSecretDigest y → x = y

structure Callback.Uses (callback : Callback) (issue : Issue) : Prop where
  workspaceId : callback.workspaceId = issue.workspaceId
  actor : callback.actor = issue.actor
  state : callback.state = issue.state
  unexpired : callback.receivedAt < issue.expiresAt
  leg : callback.leg = issue.leg
  phase : callback.phase = issue.leg.phase

variable {server : Server} {events before after : List SetupEvent} {callback : Callback}
  {issue : Issue} {s : SetupWorld} {x y hash : Str}

theorem digest_of_hashState (h : hashState server x = .ok hash) :
    server.keyedSecretDigest x = some hash := by
  unfold hashState at h
  split at h
  · cases h
  · cases hdigest : server.keyedSecretDigest x with
    | none =>
      rw [hdigest] at h
      cases h
    | some digest =>
      rw [hdigest] at h
      exact congrArg some (Except.ok.inj h)

theorem mem_issuedStates (h : .issued issue ∈ events) : issue.state ∈ issuedStates events :=
  List.mem_filterMap.2 ⟨_, h, rfl⟩

theorem mem_acceptedStates (h : .accepted callback ∈ events) :
    callback.state ∈ acceptedStates events :=
  List.mem_filterMap.2 ⟨_, h, rfl⟩

theorem mem_eventsOf {w : WorkspaceId} {event : SetupEvent} (h : event ∈ eventsOf w events) :
    event ∈ events ∧ event.workspaceId = w :=
  ⟨(List.mem_filter.1 h).1, of_decide_eq_true (List.mem_filter.1 h).2⟩

/-- A callback comes right after the token that it answers, among the events of its workspace. -/
theorem accepted_uses (hfollows : ∀ w, Holds (Follows server) none (eventsOf w events))
    (hstates : StatesDiffer server events) (h : events = before ++ .accepted callback :: after) :
    ∃ issue, (eventsOf callback.workspaceId before).getLast? = some (.issued issue) ∧
      callback.Uses issue := by
  subst h
  have hsplit := hfollows callback.workspaceId
  rw [eventsOf_append, eventsOf, eventsOf, List.filter_cons_of_pos (by simp [SetupEvent.workspaceId])]
    at hsplit
  obtain ⟨issue, hlast, hanswers⟩ := hsplit.split
  rw [latest_eq_getLast?] at hlast
  obtain ⟨hmem, hw⟩ := mem_eventsOf (List.mem_of_getLast? hlast)
  obtain ⟨hash, hpresented, hdrawn⟩ := hanswers.state
  refine ⟨issue, hlast, hw.symm, hanswers.actor, ?_, hanswers.unexpired, hanswers.leg,
    hanswers.phase⟩
  refine (hstates.digest _ (mem_issuedStates (List.mem_append_left _ hmem)) _
    (mem_acceptedStates (List.mem_append_right _ List.mem_cons_self)) ?_).symm
  exact (digest_of_hashState hdrawn).trans (digest_of_hashState hpresented).symm

theorem issue_unique (h : (issuedStates events).Nodup) {a b : Issue} (ha : .issued a ∈ events)
    (hb : .issued b ∈ events) (hstate : a.state = b.state) : a = b := by
  by_contra hne
  let differ (x y : SetupEvent) : Prop :=
    ∀ v, x.issuedState = some v → ∀ u, y.issuedState = some u → v ≠ u
  have hsymm : Std.Symm differ := ⟨fun _ _ hxy v hv u hu => (hxy u hu v hv).symm⟩
  have hpairs : events.Pairwise differ := List.pairwise_filterMap.1 h
  exact hpairs.forall ha hb (fun h => hne (SetupEvent.issued.inj h)) _ rfl _ rfl hstate

/-- A token that has been accepted is behind its acceptance, and the next acceptance finds another
token right before it. -/
theorem accepted_other (hfollows : ∀ w, Holds (Follows server) none (eventsOf w events))
    (hstates : StatesDiffer server events) {earlier : Callback} {between : List SetupEvent}
    (h : events = (before ++ .accepted earlier :: between) ++ .accepted callback :: after) :
    earlier.state ≠ callback.state := by
  intro hsame
  obtain ⟨issue, hlast, huses⟩ := accepted_uses hfollows hstates h
  obtain ⟨first, hfirst, hused⟩ := accepted_uses hfollows hstates
    (h.trans (List.append_assoc _ (.accepted earlier :: between) _))
  have hmem := (mem_eventsOf (List.mem_of_getLast? hlast)).1
  have hbefore := (mem_eventsOf (List.mem_of_getLast? hfirst)).1
  have hdrawn : (issuedStates (before ++ .accepted earlier :: between)).Nodup := by
    have hall := h ▸ hstates.drawn
    rw [issuedStates, List.filterMap_append] at hall
    exact (List.nodup_append.1 hall).1
  obtain rfl : issue = first := issue_unique hdrawn hmem (List.mem_append_left _ hbefore)
    (huses.state.symm.trans (hsame.symm.trans hused.state))
  have hw : earlier.workspaceId = callback.workspaceId :=
    hused.workspaceId.trans huses.workspaceId.symm
  rw [eventsOf_append, eventsOf, eventsOf, List.filter_cons_of_pos (by simp [SetupEvent.workspaceId, hw]),
    List.getLast?_append_of_ne_nil _ (List.cons_ne_nil _ _)] at hlast
  rcases List.mem_cons.1 (List.mem_of_getLast? hlast) with hself | hbetween
  · cases hself
  · rw [issuedStates, List.filterMap_append] at hdrawn
    refine (List.nodup_append.1 hdrawn).2.2 issue.state (mem_issuedStates hbefore) issue.state ?_ rfl
    exact mem_issuedStates (List.mem_cons_of_mem _ (List.mem_filter.1 hbetween).1)

theorem acceptedStates_nodup (hfollows : ∀ w, Holds (Follows server) none (eventsOf w events))
    (hstates : StatesDiffer server events) (h : events = before ++ after) :
    (acceptedStates before).Nodup := by
  induction before using List.reverseRecOn generalizing after with
  | nil => exact List.nodup_nil
  | append_singleton before event ih =>
    rw [List.append_assoc] at h
    have hbefore := ih h
    cases event with
    | issued issue =>
      rw [acceptedStates, List.filterMap_append]
      exact (List.append_nil _).symm ▸ hbefore
    | accepted callback =>
      rw [acceptedStates, List.filterMap_append]
      refine List.nodup_append.2 ⟨hbefore, List.pairwise_singleton _ _, ?_⟩
      intro x hx y hy
      obtain rfl : y = callback.state := List.mem_singleton.1 hy
      obtain ⟨event, hevent, hstate⟩ := List.mem_filterMap.1 hx
      cases event with
      | issued issue => cases hstate
      | accepted earlier =>
        cases hstate
        obtain ⟨older, between, rfl⟩ := List.append_of_mem hevent
        exact accepted_other hfollows hstates h

theorem callbacks_bound_and_single_use (hrun : Reaches (setupStep server) anyStep unstarted s)
    (hstates : StatesDiffer server s.events) :
    (∀ before callback after, s.events = before ++ .accepted callback :: after →
      ∃ issue, (eventsOf callback.workspaceId before).getLast? = some (.issued issue) ∧
        callback.Uses issue) ∧
      (acceptedStates s.events).Nodup := by
  have hs : s.Sound server := hrun.invariant (fun _ _ _ hx _ ht => sound_setupStep hx ht)
    unstarted_sound
  exact ⟨fun _ _ _ h => accepted_uses hs.follows hstates h,
    acceptedStates_nodup hs.follows hstates (List.append_nil _).symm⟩

section sample

def sampleServer : Server where
  foldTable c := [c]
  isDigit text := text.all RepositoryAudit.isDigit
  isAlnum := RepositoryAudit.nameChar
  isIsoformat _ := true
  keyedSecretDigest := some

def sampleState (step : Nat) : Str := [97 + step]

def sampleReads : StartReads := ⟨true, .ok (Str.of "https://app.example"), .ok (), true, false, false⟩

def sampleInstallation : Installation :=
  ⟨7, 9, Str.of "11", Str.of "acme", none, Str.of "selected"⟩

/-- A user creates the app, launches its installation and denies the authorization. -/
def deniedSetup : List SetupAction :=
  [.request 0 5 1 (.start sampleReads (sampleState 0)), .lock 0, .insert 0, .commit 0,
    .request 1 5 1 (.completeManifest (sampleState 0)), .lock 1, .answer 1 (.manifest (.ok 7)),
    .commit 1, .request 2 5 1 (.launch true (sampleState 1)), .lock 2, .commit 2, .tick 3,
    .request 3 5 1 (.begin (sampleState 1)), .lock 3,
    .answer 3 (.installation (.verified sampleInstallation (some []) (sampleState 2))), .commit 3,
    .request 4 5 1 (.cancel (sampleState 2)), .lock 4, .commit 4]

def deniedEvents : List SetupEvent :=
  [.issued ⟨5, 1, .manifest, sampleState 0, 60⟩,
    .accepted ⟨5, 1, .manifest, sampleState 0, .manifestPending, 0⟩,
    .issued ⟨5, 1, .installation, sampleState 1, 60⟩,
    .accepted ⟨5, 1, .installation, sampleState 1, .installationPending, 3⟩,
    .issued ⟨5, 1, .oauth, sampleState 2, 18⟩,
    .accepted ⟨5, 1, .oauth, sampleState 2, .oauthPending, 3⟩]

theorem callbacks_bound_and_single_use_denied :
    ∃ s, Reaches (setupStep sampleServer) anyStep unstarted s ∧ s.events = deniedEvents ∧
      (∀ before callback after, s.events = before ++ .accepted callback :: after →
        ∃ issue, (eventsOf callback.workspaceId before).getLast? = some (.issued issue) ∧
          callback.Uses issue) ∧
        (acceptedStates s.events).Nodup := by
  have hexec : (exec (setupStep sampleServer) unstarted deniedSetup).map
      (fun s => decide (s.events = deniedEvents)) = some true := by decide +kernel
  obtain ⟨s, hrun, hevents⟩ := reaches_of_exec_check hexec
  have hdenied : s.events = deniedEvents := of_decide_eq_true hevents
  have hstates : StatesDiffer sampleServer s.events := by
    rw [hdenied]
    exact ⟨by decide, fun x _ y _ h => Option.some.inj h⟩
  exact ⟨s, hrun, hdenied, callbacks_bound_and_single_use hrun hstates⟩

end sample

end claim

end FounderOs.GitHubSetup
