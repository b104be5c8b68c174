import FounderOs.Auth.Enrollment
import Mathlib.Data.List.Nodup

namespace FounderOs.Auth

open Locks Transition

section taken

variable {s : EnrollmentWorld}

theorem taken_user {id : AccountId} : s.taken (.user id) = false ↔ id ∉ s.users.map (·.id) := by
  simp [EnrollmentWorld.taken]

theorem taken_email {email : Str} :
    s.taken (.email email) = false ↔ email ∉ s.users.map (·.email) := by
  simp [EnrollmentWorld.taken]

theorem taken_workspace {id : WorkspaceId} :
    s.taken (.workspace id) = false ↔ id ∉ s.workspaces.map (·.id) := by
  simp [EnrollmentWorld.taken]

theorem taken_slug {slug : Str} :
    s.taken (.slug slug) = false ↔ slug ∉ s.workspaces.map (·.slug) := by
  simp [EnrollmentWorld.taken]

theorem taken_membership {workspaceId : WorkspaceId} {userId : AccountId} :
    s.taken (.membership workspaceId userId) = false ↔
      (workspaceId, userId) ∉ s.memberships.map fun row => (row.workspaceId, row.userId) := by
  simp [EnrollmentWorld.taken]

theorem nodup_map_append {A B : Type} {f : A → B} {xs : List A} {x : A} (hxs : (xs.map f).Nodup)
    (hx : f x ∉ xs.map f) : ((xs ++ [x]).map f).Nodup := by
  rw [List.map_append, List.map_singleton]
  refine List.nodup_append.2 ⟨hxs, List.pairwise_singleton _ _, fun value hvalue other hother => ?_⟩
  rw [List.mem_singleton.1 hother]
  exact fun hsame => hx (hsame ▸ hvalue)

theorem any_append_singleton {A : Type} (xs : List A) (x : A) (p : A → Bool) :
    (xs ++ [x]).any p = true ↔ xs.any p = true ∨ p x = true := by
  simp

end taken

section frame

variable {s t : EnrollmentWorld} {rows : IdentityRows} {i j : InviteCallId} {call : InviteCall}
  {request : EnrollmentRequest}

theorem sameRows_refl (s : EnrollmentWorld) : s.SameRows s := ⟨rfl, rfl, rfl, rfl⟩

theorem SingleUse.of_same (h : s.SingleUse rows) (hsame : s.SameRows t)
    (henrollments : t.enrollments = s.enrollments) : t.SingleUse rows := by
  obtain ⟨hinvites, husers, hworkspaces, hmemberships⟩ := hsame
  constructor
  · exact henrollments ▸ h.once
  · exact hinvites ▸ h.exclusive
  · exact hinvites ▸ h.inTime
  · exact henrollments ▸ hinvites ▸ h.consumed
  · exact henrollments ▸ hinvites ▸ h.enrolled
  · exact henrollments ▸ husers ▸ h.users
  · exact henrollments ▸ hworkspaces ▸ h.workspaces
  · exact henrollments ▸ hmemberships ▸ h.memberships
  · exact husers ▸ h.userIds
  · exact husers ▸ h.emails
  · exact hworkspaces ▸ h.workspaceIds
  · exact hworkspaces ▸ h.slugs
  · exact hmemberships ▸ h.pairs

/-- What a call holds stays its own as long as the others leave that alone. -/
theorem InviteCall.Relies.transfer (h : call.Relies s i)
    (hlocks : ∀ key, s.locks key = some i → t.locks key = some i)
    (hinvites : ∀ row ∈ s.invites, s.locks (.invite row.id) = some i → row ∈ t.invites)
    (htaken : ∀ key, s.locks (.index key) = some i → s.taken key = false → t.taken key = false) :
    call.Relies t i := by
  have hclaim (claim : InviteClaim) (hold : claim.Holds s i) : claim.Holds t i :=
    ⟨hlocks _ hold.held, hinvites _ hold.stored hold.held⟩
  cases call with
  | consume request pc =>
    obtain ⟨hclaims, hkeys, hcreated⟩ := h
    refine ⟨fun claim hmem => ?_, fun key hkey => ?_, hcreated⟩
    · exact ⟨hclaim claim (hclaims claim hmem).1, (hclaims claim hmem).2⟩
    · obtain ⟨hheld, hunused⟩ := hkeys key hkey
      exact ⟨hlocks _ hheld, htaken key hheld hunused⟩
  | revoke id locked =>
    exact fun claim hmem => ⟨hclaim claim (h claim hmem).1, (h claim hmem).2⟩

theorem taken_of_same (hsame : s.SameRows t) (key : IndexKey) : t.taken key = s.taken key := by
  obtain ⟨-, husers, hworkspaces, hmemberships⟩ := hsame
  cases key <;> simp only [EnrollmentWorld.taken, husers, hworkspaces, hmemberships]

theorem InviteCall.Relies.of_same (h : call.Relies s i) (hsame : s.SameRows t)
    (hlocks : ∀ key, s.locks key = some i → t.locks key = some i) : call.Relies t i :=
  h.transfer hlocks (fun _ hrow _ => hsame.1.symm ▸ hrow)
    fun key _ hunused => (taken_of_same hsame key).trans hunused

/-- A step of one call that leaves the rows: the locks of the others stay theirs. -/
theorem EnrollmentWorld.Sound.local_step (i : InviteCallId) (hs : s.Sound rows)
    (hsame : s.SameRows t) (henrollments : t.enrollments = s.enrollments)
    (hothers : ∀ j, j ≠ i → t.sessions j = s.sessions j)
    (hlocks : ∀ j key, j ≠ i → s.locks key = some j → t.locks key = some j)
    (hown : ∀ call, t.sessions i = some call → call.Relies t i) : t.Sound rows where
  toSingleUse := SingleUse.of_same hs.toSingleUse hsame henrollments
  inviteIds := hsame.1.symm ▸ hs.inviteIds
  relies j call hsession := by
    by_cases hj : j = i
    · subst hj
      exact hown call hsession
    · rw [hothers j hj] at hsession
      exact (hs.relies j call hsession).of_same hsame fun key => hlocks j key hj

theorem EnrollmentWorld.Sound.close (hs : s.Sound rows) : (s.close i).Sound rows := by
  refine hs.local_step i (sameRows_refl s) rfl ?_ ?_ ?_
  · exact fun j hj => Function.update_of_ne hj ..
  · exact fun j key hj hkey => release_of_holds hj hkey
  · intro call hsession
    simp [EnrollmentWorld.close] at hsession

theorem EnrollmentWorld.Sound.finish (hs : s.Sound rows) {outcome : InviteOutcome}
    (hnone : outcome.enrollment = none) : (s.finish i outcome).Sound rows := by
  refine hs.close.local_step i (sameRows_refl _) ?_ (fun _ _ => rfl) (fun _ _ _ h => h) ?_
  · simp [EnrollmentWorld.enrollments, EnrollmentWorld.finish, EnrollmentWorld.close, hnone]
  · intro call hsession
    simp [EnrollmentWorld.finish, EnrollmentWorld.close] at hsession

/-- A call goes on with locks that it has taken. -/
theorem EnrollmentWorld.Sound.put_locks {locks : Table EnrollmentKey InviteCallId} (hs : s.Sound rows)
    (hlocks : ∀ j key, s.locks key = some j → locks key = some j)
    (h : call.Relies { s with locks := locks } i) :
    EnrollmentWorld.Sound { s.put i call with locks := locks } rows := by
  refine hs.local_step i (sameRows_refl s) rfl ?_ (fun j key _ => hlocks j key) ?_
  · exact fun j hj => Function.update_of_ne hj ..
  · intro call' hsession
    obtain rfl : call = call' := by simpa [EnrollmentWorld.put] using hsession
    exact h.of_same (sameRows_refl _) fun _ h => h

theorem EnrollmentWorld.Sound.put (hs : s.Sound rows) (h : call.Relies s i) : (s.put i call).Sound rows :=
  hs.put_locks (fun _ _ h => h) h

end frame

section inserts

variable {s t : EnrollmentWorld} {rows : IdentityRows} {i : InviteCallId}
  {request : EnrollmentRequest} {keys : List (IndexKey × String)} {pc next : ConsumePc}

/-- An insert either is refused or makes the entries of the row. -/
theorem insertStep_cases (hstep : insertStep s i request keys next = some t) :
    (∃ constraint, t = s.finish i (.refused request (.integrity constraint))) ∨
      t = { s.put i (.consume request next) with
        locks := s.locks.takeAll i (keys.map fun key => .index key.1) } ∧
        (∀ key ∈ keys, s.locks.free i (.index key.1) = true) ∧
          ∀ key ∈ keys, s.taken key.1 = false := by
  unfold insertStep at hstep
  split at hstep
  · rename_i hfree
    split at hstep
    · exact .inl ⟨_, (Option.some.inj hstep).symm⟩
    · rename_i hnone
      refine .inr ⟨(Option.some.inj hstep).symm, List.all_eq_true.1 hfree, fun key hkey => ?_⟩
      have hunused := List.find?_eq_none.1 hnone key hkey
      exact Bool.eq_false_iff.2 hunused
  · cases hstep

theorem sound_insert (hs : s.Sound rows)
    (hstep : insertStep s i request keys next = some t)
    (hrelies : (InviteCall.consume request pc).Relies s i) (hclaim : next.claim = pc.claim)
    (hkeys : next.keys = pc.keys ++ keys.map (·.1))
    (hcreated : ∀ created ∈ next.created, created.2.createdByUserId = created.1.id) :
    t.Sound rows := by
  rcases insertStep_cases hstep with ⟨constraint, rfl⟩ | ⟨rfl, hfree, hunused⟩
  · exact hs.finish rfl
  · have hfree' : ∀ key ∈ keys.map fun key => EnrollmentKey.index key.1,
        s.locks.free i key = true := by
      intro key hkey
      obtain ⟨entry, hentry, rfl⟩ := List.mem_map.1 hkey
      exact hfree entry hentry
    refine hs.put_locks (fun j key hkey => takeAll_of_holds hfree' hkey) ?_
    obtain ⟨hclaims, hreserved, -⟩ := hrelies
    refine ⟨fun claim hmem => ?_, fun key hkey => ?_, hcreated⟩
    · obtain ⟨hholds, husable⟩ := hclaims claim (hclaim ▸ hmem)
      exact ⟨⟨takeAll_of_holds hfree' hholds.held, hholds.stored⟩, husable⟩
    · rw [hkeys] at hkey
      rcases List.mem_append.1 hkey with hkey | hkey
      · exact ⟨takeAll_of_holds hfree' (hreserved key hkey).held, (hreserved key hkey).unused⟩
      · obtain ⟨entry, hentry, rfl⟩ := List.mem_map.1 hkey
        exact ⟨takeAll_self hfree' (List.mem_map_of_mem hentry), hunused entry hentry⟩

end inserts

section locking

variable {s t : EnrollmentWorld} {rows : IdentityRows} {i : InviteCallId} {digest : Str → Str}
  {request : EnrollmentRequest} {id : InviteId} {now : Nat}

theorem sound_lockConsume (hs : s.Sound rows)
    (hstep : lockConsumeStep digest s i request now = some t) : t.Sound rows := by
  unfold lockConsumeStep at hstep
  dsimp only at hstep
  split at hstep
  · cases hstep
    exact hs.finish rfl
  · rename_i invite hfind
    split_ifs at hstep with hfree husable
    · cases hstep
      refine hs.put_locks (fun j key hkey => take_of_holds hfree hkey) ?_
      refine ⟨fun claim hmem => ?_, fun key hkey => absurd hkey List.not_mem_nil,
        fun created hmem => absurd hmem (Option.not_mem_none created)⟩
      obtain rfl : InviteClaim.mk invite now = claim := Option.some.inj hmem
      exact ⟨⟨take_self, List.mem_of_find?_eq_some hfind⟩, husable⟩
    · cases hstep
      exact hs.finish rfl

theorem sound_lockRevoke (hs : s.Sound rows) (hstep : lockRevokeStep s i id now = some t) :
    t.Sound rows := by
  unfold lockRevokeStep at hstep
  dsimp only at hstep
  split at hstep
  · cases hstep
    exact hs.finish rfl
  · rename_i invite hfind
    split_ifs at hstep with hfree hconsumed
    · cases hstep
      exact hs.finish rfl
    · cases hstep
      refine hs.put_locks (fun j key hkey => take_of_holds hfree hkey) fun claim hmem => ?_
      obtain rfl : InviteClaim.mk invite now = claim := Option.some.inj hmem
      exact ⟨⟨take_self, List.mem_of_find?_eq_some hfind⟩, by simpa using hconsumed⟩

end locking

section commits

variable {s : EnrollmentWorld} {rows : IdentityRows} {i j : InviteCallId}
  {request : EnrollmentRequest} {claim : InviteClaim} {user : Founder} {workspace : Company}
  {invite row : Invite} {change : Invite → Invite}

theorem eq_of_inviteId (hs : s.Sound rows) (hrow : row ∈ s.invites) (hinvite : invite ∈ s.invites)
    (hid : row.id = invite.id) : row = invite :=
  List.inj_on_of_nodup_map hs.inviteIds hrow hinvite hid

theorem mem_updateInvite (hs : s.Sound rows) (hinvite : invite ∈ s.invites) :
    row ∈ s.updateInvite invite.id change ↔
      row ∈ s.invites ∧ row.id ≠ invite.id ∨ row = change invite := by
  rw [EnrollmentWorld.updateInvite, List.mem_map]
  constructor
  · rintro ⟨old, hold, rfl⟩
    by_cases hid : old.id = invite.id
    · rw [if_pos hid, eq_of_inviteId hs hold hinvite hid]
      exact .inr rfl
    · rw [if_neg hid]
      exact .inl ⟨hold, hid⟩
  · rintro (⟨hrow, hid⟩ | rfl)
    · exact ⟨row, hrow, if_neg hid⟩
    · exact ⟨invite, hinvite, if_pos rfl⟩

theorem updateInvite_ids (s : EnrollmentWorld) (id : InviteId)
    (hchange : ∀ row, (change row).id = row.id) :
    (s.updateInvite id change).map (·.id) = s.invites.map (·.id) := by
  rw [EnrollmentWorld.updateInvite, List.map_map]
  refine List.map_congr_left fun row _ => ?_
  by_cases hid : row.id = id
  · rw [Function.comp, if_pos hid, hchange]
  · rw [Function.comp, if_neg hid]

theorem revoke_id (invite : Invite) (now : Nat) : (invite.revoke now).id = invite.id := by
  unfold Invite.revoke
  split <;> rfl

theorem enrollments_finish_enrolled {enrollment : Enrollment} :
    (s.finish i (.enrolled request enrollment)).enrollments = s.enrollments ++ [enrollment] := by
  simp [EnrollmentWorld.enrollments, EnrollmentWorld.finish, EnrollmentWorld.close,
    InviteOutcome.enrollment]

theorem taken_commit (key : IndexKey) :
    (commitConsumeStep s i request claim user workspace).taken key = true ↔
      s.taken key = true ∨ key ∈ (ConsumePc.attached claim user workspace).keys := by
  cases key with
  | membership workspaceId userId =>
    refine (any_append_singleton ..).trans (or_congr_right ?_)
    simp only [ConsumePc.keys, userKeys, workspaceKeys, membershipKeys, ownerMembership,
      List.map_cons, List.map_nil, List.cons_append, List.nil_append, List.mem_cons,
      List.not_mem_nil, or_false, reduceCtorEq, false_or, IndexKey.membership.injEq,
      @eq_comm _ workspaceId, @eq_comm _ userId]
    exact decide_eq_true_iff
  | user id =>
    refine (any_append_singleton ..).trans (or_congr_right ?_)
    simp [ConsumePc.keys, userKeys, workspaceKeys, membershipKeys, @eq_comm _ id]
  | email email =>
    refine (any_append_singleton ..).trans (or_congr_right ?_)
    simp [ConsumePc.keys, userKeys, workspaceKeys, membershipKeys, @eq_comm _ email]
  | workspace id =>
    refine (any_append_singleton ..).trans (or_congr_right ?_)
    simp [ConsumePc.keys, userKeys, workspaceKeys, membershipKeys, @eq_comm _ id]
  | slug slug =>
    refine (any_append_singleton ..).trans (or_congr_right ?_)
    simp [ConsumePc.keys, userKeys, workspaceKeys, membershipKeys, @eq_comm _ slug]

/-- The others that are under way hold other invites and other entries. -/
theorem relies_commitConsume {call : InviteCall} (hj : j ≠ i) (hs : s.Sound rows)
    (h : (InviteCall.consume request (.attached claim user workspace)).Relies s i)
    (hother : call.Relies s j) :
    call.Relies (commitConsumeStep s i request claim user workspace) j := by
  obtain ⟨hclaims, hreserved, -⟩ := h
  obtain ⟨hholds, -⟩ := hclaims claim rfl
  refine hother.transfer (fun key hkey => release_of_holds hj hkey) (fun row hrow hkey => ?_)
    fun key hkey hunused => ?_
  · refine (mem_updateInvite hs hholds.stored).2 (.inl ⟨hrow, fun hid => ?_⟩)
    exact hj (exclusive hkey (hid ▸ hholds.held))
  · refine Bool.eq_false_iff.2 fun htaken => ?_
    rcases (taken_commit key).1 htaken with hold | hnew
    · exact Bool.eq_false_iff.1 hunused hold
    · exact hj (exclusive hkey (hreserved key hnew).held)

theorem relies_commitRevoke {call : InviteCall} (hj : j ≠ i) (hs : s.Sound rows)
    (hholds : claim.Holds s i) (hother : call.Relies s j) :
    call.Relies (commitRevokeStep s i claim) j := by
  refine hother.transfer (fun key hkey => release_of_holds hj hkey) (fun row hrow hkey => ?_)
    fun key _ hunused => hunused
  refine (mem_updateInvite hs hholds.stored).2 (.inl ⟨hrow, fun hid => ?_⟩)
  exact hj (exclusive hkey (hid ▸ hholds.held))

/-- An invite that has been enrolled with is consumed, so a call that has claimed another one as it is
now has not claimed that. -/
theorem enrolled_ne (hs : s.Sound rows) (hstored : claim.invite ∈ s.invites)
    (hopen : claim.invite.consumedAt = none) {enrollment : Enrollment}
    (h : enrollment ∈ s.enrollments) : enrollment.invite.id ≠ claim.invite.id := by
  intro hid
  obtain ⟨hmem, hconsumed, -⟩ := hs.enrolled enrollment h
  rw [eq_of_inviteId hs hmem hstored hid, hopen] at hconsumed
  cases hconsumed

theorem usable_iff {now : Nat} : invite.usable now = true ↔
    invite.consumedAt = none ∧ invite.revokedAt = none ∧ now < invite.expiresAt := by
  simp [Invite.usable, and_assoc]

/-- The rows that the call commits, as the indexes find them. -/
theorem unused_rows (h : (InviteCall.consume request (.attached claim user workspace)).Relies s i) :
    user.id ∉ s.users.map (·.id) ∧ user.email ∉ s.users.map (·.email) ∧
      workspace.id ∉ s.workspaces.map (·.id) ∧ workspace.slug ∉ s.workspaces.map (·.slug) ∧
      (workspace.id, user.id) ∉ s.memberships.map fun row => (row.workspaceId, row.userId) := by
  have hunused (key : IndexKey) (hkey : key ∈ (ConsumePc.attached claim user workspace).keys) :
      s.taken key = false := (h.2.1 key hkey).unused
  refine ⟨taken_user.1 (hunused _ ?_), taken_email.1 (hunused _ ?_), taken_workspace.1 (hunused _ ?_),
    taken_slug.1 (hunused _ ?_), taken_membership.1 (hunused _ ?_)⟩ <;>
    simp [ConsumePc.keys, userKeys, workspaceKeys, membershipKeys]

theorem singleUse_commitConsume (hs : s.Sound rows)
    (h : (InviteCall.consume request (.attached claim user workspace)).Relies s i) :
    (commitConsumeStep s i request claim user workspace).SingleUse rows := by
  obtain ⟨hholds, husable⟩ := h.1 claim rfl
  obtain ⟨hopen, hvalid, htime⟩ := usable_iff.1 husable
  obtain ⟨huser, hemail, hworkspace, hslug, hpair⟩ := unused_rows h
  have hstored := hholds.stored
  have henrollments : (commitConsumeStep s i request claim user workspace).enrollments =
      s.enrollments ++ [claim.enrollment user workspace] := enrollments_finish_enrolled (i := i)
  have hinvites (row : Invite) :
      row ∈ (commitConsumeStep s i request claim user workspace).invites ↔
        row ∈ s.invites ∧ row.id ≠ claim.invite.id ∨
          row = claim.invite.consume claim.now user.id workspace.id :=
    mem_updateInvite hs hstored
  constructor
  · rw [henrollments]
    refine nodup_map_append hs.once fun hmem => ?_
    obtain ⟨enrollment, henrollment, hid⟩ := List.mem_map.1 hmem
    exact enrolled_ne hs hstored hopen henrollment hid
  · intro row hrow
    rcases (hinvites row).1 hrow with ⟨hold, -⟩ | rfl
    · exact hs.exclusive row hold
    · exact .inr hvalid
  · intro row hrow time hconsumed
    rcases (hinvites row).1 hrow with ⟨hold, -⟩ | rfl
    · exact hs.inTime row hold time hconsumed
    · obtain rfl : claim.now = time := Option.some.inj hconsumed
      exact htime
  · intro row hrow hconsumed
    rw [henrollments]
    rcases (hinvites row).1 hrow with ⟨hold, -⟩ | rfl
    · obtain ⟨enrollment, henrollment, hsame⟩ := hs.consumed row hold hconsumed
      exact ⟨enrollment, List.mem_append_left _ henrollment, hsame⟩
    · exact ⟨_, List.mem_append_right _ (List.mem_singleton_self _), rfl⟩
  · intro enrollment henrollment
    rw [henrollments] at henrollment
    rw [hinvites]
    rcases List.mem_append.1 henrollment with hold | hnew
    · obtain ⟨hinvite, hrest⟩ := hs.enrolled enrollment hold
      exact ⟨.inl ⟨hinvite, enrolled_ne hs hstored hopen hold⟩, hrest⟩
    · rw [List.mem_singleton.1 hnew]
      exact ⟨.inr rfl, rfl, rfl, rfl, h.2.2 (user, workspace) rfl, rfl⟩
  · rw [henrollments, List.map_append, ← List.append_assoc, ← hs.users]
    rfl
  · rw [henrollments, List.map_append, ← List.append_assoc, ← hs.workspaces]
    rfl
  · rw [henrollments, List.map_append, ← List.append_assoc, ← hs.memberships]
    rfl
  · exact nodup_map_append hs.userIds huser
  · exact nodup_map_append hs.emails hemail
  · exact nodup_map_append hs.workspaceIds hworkspace
  · exact nodup_map_append hs.slugs hslug
  · exact nodup_map_append hs.pairs hpair

theorem session_of_update {call : InviteCall}
    (h : Function.update s.sessions i none j = some call) : j ≠ i ∧ s.sessions j = some call := by
  by_cases hj : j = i
  · subst hj
    simp at h
  · exact ⟨hj, by rwa [Function.update_of_ne hj] at h⟩

theorem sound_commitConsume (hs : s.Sound rows)
    (h : (InviteCall.consume request (.attached claim user workspace)).Relies s i) :
    (commitConsumeStep s i request claim user workspace).Sound rows where
  toSingleUse := singleUse_commitConsume hs h
  inviteIds := by
    have hchange (row : Invite) :
        (row.consume claim.now user.id workspace.id).id = row.id := rfl
    exact (updateInvite_ids s claim.invite.id hchange).symm ▸ hs.inviteIds
  relies j call hsession := by
    obtain ⟨hj, hbefore⟩ := session_of_update hsession
    exact relies_commitConsume hj hs h (hs.relies j call hbefore)

theorem revoke_cases (invite : Invite) (now : Nat) :
    invite.revoke now = invite ∨ invite.revoke now = { invite with revokedAt := some now } := by
  unfold Invite.revoke
  split
  · exact .inr rfl
  · exact .inl rfl

theorem singleUse_commitRevoke (hs : s.Sound rows) (hholds : claim.Holds s i)
    (hopen : claim.invite.consumedAt = none) : (commitRevokeStep s i claim).SingleUse rows := by
  have hinvites (row : Invite) : row ∈ (commitRevokeStep s i claim).invites ↔
      row ∈ s.invites ∧ row.id ≠ claim.invite.id ∨ row = claim.invite.revoke claim.now :=
    mem_updateInvite hs hholds.stored
  have henrollments : (commitRevokeStep s i claim).enrollments = s.enrollments := by
    simp [EnrollmentWorld.enrollments, commitRevokeStep, EnrollmentWorld.finish,
      EnrollmentWorld.close, InviteOutcome.enrollment]
  have hstill : (claim.invite.revoke claim.now).consumedAt = none := by
    rcases revoke_cases claim.invite claim.now with hsame | hsame <;> rw [hsame] <;> exact hopen
  constructor
  · exact henrollments ▸ hs.once
  · intro row hrow
    rcases (hinvites row).1 hrow with ⟨hold, -⟩ | rfl
    · exact hs.exclusive row hold
    · exact .inl hstill
  · intro row hrow time hconsumed
    rcases (hinvites row).1 hrow with ⟨hold, -⟩ | rfl
    · exact hs.inTime row hold time hconsumed
    · rw [hstill] at hconsumed
      cases hconsumed
  · intro row hrow hconsumed
    rw [henrollments]
    rcases (hinvites row).1 hrow with ⟨hold, -⟩ | rfl
    · exact hs.consumed row hold hconsumed
    · rw [hstill] at hconsumed
      cases hconsumed
  · intro enrollment henrollment
    rw [henrollments] at henrollment
    obtain ⟨hinvite, hrest⟩ := hs.enrolled enrollment henrollment
    exact ⟨(hinvites _).2 (.inl ⟨hinvite, enrolled_ne hs hholds.stored hopen henrollment⟩), hrest⟩
  · exact henrollments ▸ hs.users
  · exact henrollments ▸ hs.workspaces
  · exact henrollments ▸ hs.memberships
  · exact hs.userIds
  · exact hs.emails
  · exact hs.workspaceIds
  · exact hs.slugs
  · exact hs.pairs

theorem sound_commitRevoke (hs : s.Sound rows) (hholds : claim.Holds s i)
    (hopen : claim.invite.consumedAt = none) : (commitRevokeStep s i claim).Sound rows where
  toSingleUse := singleUse_commitRevoke hs hholds hopen
  inviteIds := by
    have hchange (row : Invite) : (row.revoke claim.now).id = row.id := revoke_id row claim.now
    exact (updateInvite_ids s claim.invite.id hchange).symm ▸ hs.inviteIds
  relies j call hsession := by
    obtain ⟨hj, hbefore⟩ := session_of_update hsession
    exact relies_commitRevoke hj hs hholds (hs.relies j call hbefore)

/-- A new invite is not of any call. -/
theorem sound_create {id : InviteId} {tokenHash : Str} {expiresAt : Nat} (hs : s.Sound rows)
    (hnew : id ∉ s.invites.map (·.id)) :
    EnrollmentWorld.Sound
      { s with invites := s.invites ++ [⟨id, tokenHash, expiresAt, none, none, none, none⟩] }
      rows where
  toSingleUse :=
    { hs.toSingleUse with
      exclusive := by
        intro row hrow
        rcases List.mem_append.1 hrow with hold | hrow
        · exact hs.exclusive row hold
        · rw [List.mem_singleton.1 hrow]
          exact .inl rfl
      inTime := by
        intro row hrow time hconsumed
        rcases List.mem_append.1 hrow with hold | hrow
        · exact hs.inTime row hold time hconsumed
        · rw [List.mem_singleton.1 hrow] at hconsumed
          cases hconsumed
      consumed := by
        intro row hrow hconsumed
        rcases List.mem_append.1 hrow with hold | hrow
        · exact hs.consumed row hold hconsumed
        · rw [List.mem_singleton.1 hrow] at hconsumed
          cases hconsumed
      enrolled := by
        intro enrollment henrollment
        obtain ⟨hinvite, hrest⟩ := hs.enrolled enrollment henrollment
        exact ⟨List.mem_append_left _ hinvite, hrest⟩ }
  inviteIds := nodup_map_append hs.inviteIds hnew
  relies j call hsession := (hs.relies j call hsession).transfer (fun _ h => h)
    (fun _ hrow _ => List.mem_append_left _ hrow) fun _ _ hunused => hunused

end commits

section step

variable {rules : EmailRules} {digest : Str → Str} {s t : EnrollmentWorld} {rows : IdentityRows}
  {i : InviteCallId} {request : EnrollmentRequest}

theorem InviteCall.Relies.next {pc next : ConsumePc}
    (h : (InviteCall.consume request pc).Relies s i) (hclaim : next.claim = pc.claim)
    (hkeys : next.keys = pc.keys) (hcreated : next.created = pc.created) :
    (InviteCall.consume request next).Relies s i := by
  obtain ⟨hclaims, hreserved, howned⟩ := h
  exact ⟨hclaim ▸ hclaims, hkeys ▸ hreserved, hcreated ▸ howned⟩

theorem sound_consume (hs : s.Sound rows) : (consumeStep s i request).Sound rows := by
  unfold consumeStep
  split
  · exact hs.finish rfl
  · refine hs.put ⟨?_, fun _ hkey => absurd hkey List.not_mem_nil, ?_⟩ <;> exact fun _ hmem => nomatch hmem

theorem sound_invite_step (hs : s.Sound rows) {a : InviteAction}
    (hstep : inviteStep rules digest s a = some t) : t.Sound rows := by
  cases a with
  | create id tokenHash expiresAt =>
    simp only [inviteStep] at hstep
    split at hstep
    · cases hstep
    · rename_i hnone
      cases hstep
      refine sound_create hs fun hmem => hnone ?_
      obtain ⟨row, hrow, hid⟩ := List.mem_map.1 hmem
      exact List.any_eq_true.2 ⟨row, hrow, decide_eq_true (.inl hid)⟩
  | consume i request =>
    simp only [inviteStep] at hstep
    split at hstep
    · cases hstep
      exact sound_consume hs
    · cases hstep
  | revoke i id =>
    simp only [inviteStep] at hstep
    split at hstep
    · cases hstep
      exact hs.put fun _ hmem => nomatch hmem
    · cases hstep
  | lockInvite i now =>
    simp only [inviteStep] at hstep
    split at hstep
    · exact sound_lockConsume hs hstep
    · exact sound_lockRevoke hs hstep
    · cases hstep
  | getUserByEmail i =>
    simp only [inviteStep] at hstep
    split at hstep
    · rename_i request claim hsession
      split at hstep
      · cases hstep
        exact hs.finish rfl
      · cases hstep
        exact hs.put ((hs.relies i _ hsession).next rfl rfl rfl)
    · cases hstep
  | getWorkspaceBySlug i =>
    simp only [inviteStep] at hstep
    split at hstep
    · rename_i request claim hsession
      split at hstep
      · cases hstep
        exact hs.finish rfl
      · cases hstep
        exact hs.put ((hs.relies i _ hsession).next rfl rfl rfl)
    · cases hstep
  | createUser i id passwordHash =>
    simp only [inviteStep] at hstep
    split at hstep
    · rename_i request claim hsession
      exact sound_insert hs hstep (hs.relies i _ hsession) rfl rfl fun _ hmem => nomatch hmem
    · cases hstep
  | createWorkspace i id =>
    simp only [inviteStep] at hstep
    split at hstep
    · rename_i request claim user hsession
      refine sound_insert hs hstep (hs.relies i _ hsession) rfl rfl fun created hmem => ?_
      rw [← Option.some.inj hmem]
      rfl
    · cases hstep
  | findMembership i =>
    simp only [inviteStep] at hstep
    split at hstep
    · rename_i request claim user workspace hsession
      split at hstep
      · cases hstep
        exact hs.finish rfl
      · cases hstep
        exact hs.put ((hs.relies i _ hsession).next rfl rfl rfl)
    · cases hstep
  | insertMembership i =>
    simp only [inviteStep] at hstep
    split at hstep
    · rename_i request claim user workspace hsession
      have hrelies := hs.relies i _ hsession
      exact sound_insert hs hstep hrelies rfl rfl hrelies.2.2
    · cases hstep
  | commit i =>
    simp only [inviteStep] at hstep
    split at hstep
    · rename_i request claim user workspace hsession
      cases hstep
      exact sound_commitConsume hs (hs.relies i _ hsession)
    · rename_i id claim hsession
      cases hstep
      obtain ⟨hholds, hopen⟩ := hs.relies i _ hsession claim rfl
      exact sound_commitRevoke hs hholds hopen
    · cases hstep
  | fail i =>
    simp only [inviteStep] at hstep
    split at hstep
    · cases hstep
    · cases hstep
      exact hs.close

theorem sameRows_insert {keys : List (IndexKey × String)} {next : ConsumePc}
    (hstep : insertStep s i request keys next = some t) : s.SameRows t := by
  rcases insertStep_cases hstep with ⟨constraint, rfl⟩ | ⟨rfl, -⟩
  · exact sameRows_refl s
  · exact sameRows_refl s

theorem sameRows_lockConsume {now : Nat} (hstep : lockConsumeStep digest s i request now = some t) :
    s.SameRows t := by
  unfold lockConsumeStep at hstep
  dsimp only at hstep
  split at hstep
  · cases hstep
    exact sameRows_refl s
  · split_ifs at hstep <;> cases hstep <;> exact sameRows_refl s

theorem sameRows_lockRevoke {id : InviteId} {now : Nat}
    (hstep : lockRevokeStep s i id now = some t) : s.SameRows t := by
  unfold lockRevokeStep at hstep
  dsimp only at hstep
  split at hstep
  · cases hstep
    exact sameRows_refl s
  · split_ifs at hstep <;> cases hstep <;> exact sameRows_refl s

theorem progress_step {a : InviteAction} (hstep : inviteStep rules digest s a = some t) :
    s.Progress a t := by
  have hsame := sameRows_refl s
  cases a with
  | create id tokenHash expiresAt =>
    simp only [inviteStep] at hstep
    split at hstep
    · cases hstep
    · cases hstep
      exact .inr (.inl ⟨⟨id, tokenHash, expiresAt, none, none, none, none⟩, rfl, hsame, rfl⟩)
  | consume i request =>
    simp only [inviteStep, consumeStep] at hstep
    split_ifs at hstep <;> cases hstep <;> exact .inl hsame
  | revoke i id =>
    simp only [inviteStep] at hstep
    split_ifs at hstep
    cases hstep
    exact .inl hsame
  | lockInvite i now =>
    simp only [inviteStep] at hstep
    split at hstep
    · exact .inl (sameRows_lockConsume hstep)
    · exact .inl (sameRows_lockRevoke hstep)
    · cases hstep
  | getUserByEmail i =>
    simp only [inviteStep] at hstep
    split at hstep
    · split_ifs at hstep <;> cases hstep <;> exact .inl hsame
    · cases hstep
  | getWorkspaceBySlug i =>
    simp only [inviteStep] at hstep
    split at hstep
    · split_ifs at hstep <;> cases hstep <;> exact .inl hsame
    · cases hstep
  | createUser i id passwordHash =>
    simp only [inviteStep] at hstep
    split at hstep
    · exact .inl (sameRows_insert hstep)
    · cases hstep
  | createWorkspace i id =>
    simp only [inviteStep] at hstep
    split at hstep
    · exact .inl (sameRows_insert hstep)
    · cases hstep
  | findMembership i =>
    simp only [inviteStep] at hstep
    split at hstep
    · split_ifs at hstep <;> cases hstep <;> exact .inl hsame
    · cases hstep
  | insertMembership i =>
    simp only [inviteStep] at hstep
    split at hstep
    · exact .inl (sameRows_insert hstep)
    · cases hstep
  | commit i =>
    simp only [inviteStep] at hstep
    split at hstep
    · rename_i request claim user workspace hsession
      cases hstep
      exact .inr (.inr (.inl ⟨i, request, claim.enrollment user workspace, rfl, rfl⟩))
    · rename_i id claim hsession
      cases hstep
      exact .inr (.inr (.inr ⟨i, claim.invite.revoke claim.now, rfl, rfl, hsame⟩))
    · cases hstep
  | fail i =>
    simp only [inviteStep] at hstep
    split_ifs at hstep
    cases hstep
    exact .inl hsame

/-- In every state reached an invite has been used once at most, in time, and by one enrollment with its
own rows; and only a call that succeeds changes a row. -/
theorem invites_single_use (rows : IdentityRows)
    (h : Reaches (inviteStep rules digest) anyStep rows.world s) :
    s.SingleUse rows ∧
      ∀ a t, inviteStep rules digest s a = some t → s.Progress a t := by
  have hstart : rows.world.Sound rows := by
    refine ⟨⟨List.nodup_nil, ?_, ?_, ?_, ?_, ?_, ?_, ?_, rows.userIds, rows.emails,
      rows.workspaceIds, rows.slugs, rows.pairs⟩, List.nodup_nil, fun _ _ hsession => nomatch hsession⟩
    · exact fun _ hrow => absurd hrow List.not_mem_nil
    · exact fun _ hrow => absurd hrow List.not_mem_nil
    · exact fun _ hrow => absurd hrow List.not_mem_nil
    · exact fun _ henrollment => absurd henrollment List.not_mem_nil
    · exact (List.append_nil _).symm
    · exact (List.append_nil _).symm
    · exact (List.append_nil _).symm
  have hs : s.Sound rows :=
    h.invariant (P := fun s => s.Sound rows) (fun _ _ _ hs _ hstep => sound_invite_step hs hstep)
      hstart
  exact ⟨hs.toSingleUse, fun _ _ hstep => progress_step hstep⟩

end step

/-- The digests of the two tokens of the run below. -/
def twoDigests (token : Str) : Str :=
  if token = Str.of "first-token" then
    Str.of "55b4b48f529c3d2daa027cbffa6cfb6a03690424550f22109e39917406c8243b"
  else Str.of "7a35833597e6687c599a0988b7a53b9b6a7ec18b88ca2a8e60f3265c8be6d527"

def noIdentities : IdentityRows :=
  ⟨[], [], [], List.nodup_nil, List.nodup_nil, List.nodup_nil, List.nodup_nil, List.nodup_nil⟩

/-- Two founders with one address have seen no user of it; the second one fails at the index, its invite
is revoked, and it is refused. -/
def twoFounders : List InviteAction :=
  let first := Str.of "first-token"
  let second := Str.of "second-token"
  let request (token : Str) : EnrollmentRequest :=
    ⟨token, Str.of "Ann@acme.com", none, Str.of "Acme", Str.of "acme"⟩
  [.create 1 (twoDigests first) 100, .create 2 (twoDigests second) 100,
    .consume 0 (request first), .consume 1 (request second), .lockInvite 0 5, .lockInvite 1 6,
    .getUserByEmail 0, .getUserByEmail 1, .getWorkspaceBySlug 0, .getWorkspaceBySlug 1,
    .createUser 0 7 (Str.of "hash"), .createWorkspace 0 3, .findMembership 0, .insertMembership 0,
    .commit 0, .createUser 1 8 (Str.of "hash"), .revoke 2 2, .lockInvite 2 9, .commit 2,
    .consume 3 (request second), .lockInvite 3 10]

theorem invites_single_use_two_founders :
    ∃ s, Reaches (inviteStep asciiEmail twoDigests) anyStep noIdentities.world s ∧
      s.outcomes.length = 4 ∧ s.SingleUse noIdentities ∧
        ∀ a t, inviteStep asciiEmail twoDigests s a = some t → s.Progress a t := by
  have hrun : (exec (inviteStep asciiEmail twoDigests) noIdentities.world twoFounders).map
      (fun s => s.outcomes.length == 4) = some true := by
    decide +kernel
  obtain ⟨s, hs, houtcomes⟩ := reaches_of_exec_check hrun
  exact ⟨s, hs, by simpa using houtcomes, invites_single_use noIdentities hs⟩

end FounderOs.Auth
