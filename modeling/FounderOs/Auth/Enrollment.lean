import FounderOs.Auth.Provisioning

namespace FounderOs.Auth

open Locks Transition

abbrev InviteId := Nat
abbrev InviteCallId := Nat

variable (rules : EmailRules) (digest : Str → Str)

def normalizeSlug (slug : Str) : Str := rules.lower (Str.strip slug)

/-- A row of `founder_enrollment_invites`; the times are instants. -/
structure Invite where
  id : InviteId
  tokenHash : Str
  expiresAt : Nat
  consumedAt : Option Nat
  revokedAt : Option Nat
  consumedByUserId : Option AccountId
  consumedWorkspaceId : Option WorkspaceId
  deriving DecidableEq

/-- A row of `users`, with the columns that `create_user` sets. -/
structure Founder where
  id : AccountId
  email : Str
  name : Option Str
  passwordHash : Option Str
  disabled : Bool
  deriving DecidableEq

/-- A row of `workspaces`. -/
structure Company where
  id : WorkspaceId
  name : Str
  slug : Str
  createdByUserId : AccountId
  deriving DecidableEq

structure EnrollmentRequest where
  token : Str
  email : Str
  name : Option Str
  workspaceName : Str
  workspaceSlug : Str
  deriving DecidableEq

inductive EnrollmentError where
  | invalid (detail : String)
  | conflict (detail : String)
  | integrity (constraint : String)
  deriving DecidableEq

/-- What `consume_founder_invite` returns. -/
structure Enrollment where
  invite : Invite
  user : Founder
  workspace : Company
  membership : Membership
  deriving DecidableEq

/-- The invite as it was locked, and the time that was read then. -/
structure InviteClaim where
  invite : Invite
  now : Nat
  deriving DecidableEq

inductive ConsumePc where
  | started
  | claimed (claim : InviteClaim)
  | emailUnused (claim : InviteClaim)
  | slugUnused (claim : InviteClaim)
  | userCreated (claim : InviteClaim) (user : Founder)
  | workspaceCreated (claim : InviteClaim) (user : Founder) (workspace : Company)
  | unattached (claim : InviteClaim) (user : Founder) (workspace : Company)
  | attached (claim : InviteClaim) (user : Founder) (workspace : Company)
  deriving DecidableEq

inductive InviteCall where
  | consume (request : EnrollmentRequest) (pc : ConsumePc)
  | revoke (id : InviteId) (locked : Option InviteClaim)
  deriving DecidableEq

/-- An entry of a unique index of the identity tables. -/
inductive IndexKey where
  | user (id : AccountId)
  | email (email : Str)
  | workspace (id : WorkspaceId)
  | slug (slug : Str)
  | membership (workspaceId : WorkspaceId) (userId : AccountId)
  deriving DecidableEq

/-- What a call can hold: the row of an invite, and entries that are not committed yet. -/
inductive EnrollmentKey where
  | invite (id : InviteId)
  | index (key : IndexKey)
  deriving DecidableEq

inductive InviteOutcome where
  | enrolled (request : EnrollmentRequest) (enrollment : Enrollment)
  | refused (request : EnrollmentRequest) (error : EnrollmentError)
  | revoked (invite : Invite)
  | notRevoked (id : InviteId) (detail : String)
  deriving DecidableEq

/-- The committed rows, with the open transactions. `outcomes` is history, the first one first: a
success stands there once it is committed. -/
structure EnrollmentWorld where
  invites : List Invite
  users : List Founder
  workspaces : List Company
  memberships : List Membership
  locks : Table EnrollmentKey InviteCallId
  sessions : InviteCallId → Option InviteCall
  outcomes : List InviteOutcome

/-- The keys, the hash of the password and the time are drawn by the steps that use them. `fail` is any
other end: a lost connection, a deadlock, a text that is too long, a failure of what the endpoint does
before it commits. -/
inductive InviteAction where
  | create (id : InviteId) (tokenHash : Str) (expiresAt : Nat)
  | consume (call : InviteCallId) (request : EnrollmentRequest)
  | revoke (call : InviteCallId) (id : InviteId)
  | lockInvite (call : InviteCallId) (now : Nat)
  | getUserByEmail (call : InviteCallId)
  | getWorkspaceBySlug (call : InviteCallId)
  | createUser (call : InviteCallId) (id : AccountId) (passwordHash : Str)
  | createWorkspace (call : InviteCallId) (id : WorkspaceId)
  | findMembership (call : InviteCallId)
  | insertMembership (call : InviteCallId)
  | commit (call : InviteCallId)
  | fail (call : InviteCallId)
  deriving DecidableEq

def Invite.consume (invite : Invite) (now : Nat) (userId : AccountId) (workspaceId : WorkspaceId) :
    Invite :=
  { invite with
    consumedAt := some now
    consumedByUserId := some userId
    consumedWorkspaceId := some workspaceId }

def Invite.revoke (invite : Invite) (now : Nat) : Invite :=
  if invite.revokedAt = none then { invite with revokedAt := some now } else invite

def Invite.usable (invite : Invite) (now : Nat) : Bool :=
  invite.consumedAt.isNone && invite.revokedAt.isNone && !decide (invite.expiresAt ≤ now)

def ownerMembership (user : Founder) (workspace : Company) : Membership :=
  ⟨workspace.id, user.id, "owner"⟩

def InviteClaim.enrollment (claim : InviteClaim) (user : Founder) (workspace : Company) :
    Enrollment where
  invite := claim.invite.consume claim.now user.id workspace.id
  user := user
  workspace := workspace
  membership := ownerMembership user workspace

namespace EnrollmentWorld

variable (s : EnrollmentWorld) (i : InviteCallId)

def put (call : InviteCall) : EnrollmentWorld :=
  { s with sessions := Function.update s.sessions i (some call) }

/-- The end of a transaction gives its locks back. -/
def close : EnrollmentWorld :=
  { s with locks := s.locks.release i, sessions := Function.update s.sessions i none }

def finish (outcome : InviteOutcome) : EnrollmentWorld :=
  { s.close i with outcomes := s.outcomes ++ [outcome] }

/-- There is a committed row with the key. -/
def taken : IndexKey → Bool
  | .user id => s.users.any (·.id = id)
  | .email email => s.users.any (·.email = email)
  | .workspace id => s.workspaces.any (·.id = id)
  | .slug slug => s.workspaces.any (·.slug = slug)
  | .membership workspaceId userId =>
    s.memberships.any fun row => row.workspaceId = workspaceId ∧ row.userId = userId

def updateInvite (id : InviteId) (change : Invite → Invite) : List Invite :=
  s.invites.map fun row => if row.id = id then change row else row

end EnrollmentWorld

section steps

variable (s : EnrollmentWorld) (i : InviteCallId) (request : EnrollmentRequest)

def consumeStep : EnrollmentWorld :=
  if request.token = [] then
    s.finish i (.refused request (.invalid "founder invite is invalid or expired"))
  else s.put i (.consume request .started)

/-- The row of the invite is locked, after a wait for another call that holds it. -/
def lockConsumeStep (now : Nat) : Option EnrollmentWorld :=
  let refused := InviteOutcome.refused request (.invalid "founder invite is invalid or expired")
  match s.invites.find? (·.tokenHash = digest request.token) with
  | none => some (s.finish i refused)
  | some invite =>
    if s.locks.free i (.invite invite.id) then
      if invite.usable now then
        some { s.put i (.consume request (.claimed ⟨invite, now⟩)) with
          locks := s.locks.take i (.invite invite.id) }
      else some (s.finish i refused)
    else none

def lockRevokeStep (id : InviteId) (now : Nat) : Option EnrollmentWorld :=
  let refused := InviteOutcome.notRevoked id "founder invite not found or already consumed"
  match s.invites.find? (·.id = id) with
  | none => some (s.finish i refused)
  | some invite =>
    if s.locks.free i (.invite invite.id) then
      if invite.consumedAt.isSome then some (s.finish i refused)
      else some { s.put i (.revoke id (some ⟨invite, now⟩)) with
        locks := s.locks.take i (.invite invite.id) }
    else none

/-- An insert waits for the entries of its keys that are not committed yet, and fails at one that is. -/
def insertStep (keys : List (IndexKey × String)) (pc : ConsumePc) : Option EnrollmentWorld :=
  if keys.all fun key => s.locks.free i (.index key.1) then
    match keys.find? fun key => s.taken key.1 with
    | some key => some (s.finish i (.refused request (.integrity key.2)))
    | none => some { s.put i (.consume request pc) with
        locks := s.locks.takeAll i (keys.map fun key => .index key.1) }
  else none

def userKeys (user : Founder) : List (IndexKey × String) :=
  [(.user user.id, "users_pkey"), (.email user.email, "uq_users_email")]

def workspaceKeys (workspace : Company) : List (IndexKey × String) :=
  [(.workspace workspace.id, "workspaces_pkey"), (.slug workspace.slug, "uq_workspaces_slug")]

def membershipKeys (user : Founder) (workspace : Company) : List (IndexKey × String) :=
  [(.membership workspace.id user.id, "uq_memberships_workspace_user")]

def newUser (id : AccountId) (passwordHash : Str) : Founder where
  id := id
  email := normalizeEmail rules (normalizeEmail rules request.email)
  name := request.name.bind fun name => if Str.strip name = [] then none else some (Str.strip name)
  passwordHash := some passwordHash
  disabled := false

def newWorkspace (user : Founder) (id : WorkspaceId) : Company where
  id := id
  name := Str.strip request.workspaceName
  slug := normalizeSlug rules (normalizeSlug rules request.workspaceSlug)
  createdByUserId := user.id

def commitConsumeStep (claim : InviteClaim) (user : Founder) (workspace : Company) :
    EnrollmentWorld :=
  { s.finish i (.enrolled request (claim.enrollment user workspace)) with
    invites := s.updateInvite claim.invite.id fun row => row.consume claim.now user.id workspace.id
    users := s.users ++ [user]
    workspaces := s.workspaces ++ [workspace]
    memberships := s.memberships ++ [ownerMembership user workspace] }

def commitRevokeStep (claim : InviteClaim) : EnrollmentWorld :=
  { s.finish i (.revoked (claim.invite.revoke claim.now)) with
    invites := s.updateInvite claim.invite.id fun row => row.revoke claim.now }

def conflict : EnrollmentWorld :=
  s.finish i (.refused request (.conflict "email or workspace slug already exists"))

def inviteStep (s : EnrollmentWorld) : InviteAction → Option EnrollmentWorld
  | .create id tokenHash expiresAt =>
    if s.invites.any (fun row => row.id = id ∨ row.tokenHash = tokenHash) then none
    else some { s with invites := s.invites ++ [⟨id, tokenHash, expiresAt, none, none, none, none⟩] }
  | .consume i request => if s.sessions i = none then some (consumeStep s i request) else none
  | .revoke i id => if s.sessions i = none then some (s.put i (.revoke id none)) else none
  | .lockInvite i now =>
    match s.sessions i with
    | some (.consume request .started) => lockConsumeStep digest s i request now
    | some (.revoke id none) => lockRevokeStep s i id now
    | _ => none
  | .getUserByEmail i =>
    match s.sessions i with
    | some (.consume request (.claimed claim)) =>
      if s.taken (.email (normalizeEmail rules (normalizeEmail rules request.email))) then
        some (conflict s i request)
      else some (s.put i (.consume request (.emailUnused claim)))
    | _ => none
  | .getWorkspaceBySlug i =>
    match s.sessions i with
    | some (.consume request (.emailUnused claim)) =>
      if s.taken (.slug (normalizeSlug rules (normalizeSlug rules request.workspaceSlug))) then
        some (conflict s i request)
      else some (s.put i (.consume request (.slugUnused claim)))
    | _ => none
  | .createUser i id passwordHash =>
    match s.sessions i with
    | some (.consume request (.slugUnused claim)) =>
      let user := newUser rules request id passwordHash
      insertStep s i request (userKeys user) (.userCreated claim user)
    | _ => none
  | .createWorkspace i id =>
    match s.sessions i with
    | some (.consume request (.userCreated claim user)) =>
      let workspace := newWorkspace rules request user id
      insertStep s i request (workspaceKeys workspace) (.workspaceCreated claim user workspace)
    | _ => none
  | .findMembership i =>
    match s.sessions i with
    | some (.consume request (.workspaceCreated claim user workspace)) =>
      if s.taken (.membership workspace.id user.id) then some (conflict s i request)
      else some (s.put i (.consume request (.unattached claim user workspace)))
    | _ => none
  | .insertMembership i =>
    match s.sessions i with
    | some (.consume request (.unattached claim user workspace)) =>
      insertStep s i request (membershipKeys user workspace) (.attached claim user workspace)
    | _ => none
  | .commit i =>
    match s.sessions i with
    | some (.consume request (.attached claim user workspace)) =>
      some (commitConsumeStep s i request claim user workspace)
    | some (.revoke _ (some claim)) => some (commitRevokeStep s i claim)
    | _ => none
  | .fail i => if s.sessions i = none then none else some (s.close i)

end steps

/-- Any identity rows that may be there before the first invite; they meet the keys of their tables. -/
structure IdentityRows where
  users : List Founder
  workspaces : List Company
  memberships : List Membership
  userIds : (users.map (·.id)).Nodup
  emails : (users.map (·.email)).Nodup
  workspaceIds : (workspaces.map (·.id)).Nodup
  slugs : (workspaces.map (·.slug)).Nodup
  pairs : (memberships.map fun row => (row.workspaceId, row.userId)).Nodup

def IdentityRows.world (rows : IdentityRows) : EnrollmentWorld :=
  ⟨[], rows.users, rows.workspaces, rows.memberships, fun _ => none, fun _ => none, []⟩

def InviteOutcome.enrollment : InviteOutcome → Option Enrollment
  | .enrolled _ enrollment => some enrollment
  | _ => none

namespace EnrollmentWorld

/-- The enrollments that have been returned and committed, the first one first. -/
def enrollments (s : EnrollmentWorld) : List Enrollment := s.outcomes.filterMap (·.enrollment)

structure SingleUse (s : EnrollmentWorld) (rows : IdentityRows) : Prop where
  once : (s.enrollments.map (·.invite.id)).Nodup
  exclusive : ∀ invite ∈ s.invites, invite.consumedAt = none ∨ invite.revokedAt = none
  inTime : ∀ invite ∈ s.invites, ∀ time ∈ invite.consumedAt, time < invite.expiresAt
  consumed : ∀ invite ∈ s.invites, invite.consumedAt.isSome = true →
    ∃ enrollment ∈ s.enrollments, enrollment.invite = invite
  enrolled : ∀ enrollment ∈ s.enrollments, enrollment.invite ∈ s.invites ∧
    enrollment.invite.consumedAt.isSome = true ∧
    enrollment.invite.consumedByUserId = some enrollment.user.id ∧
    enrollment.invite.consumedWorkspaceId = some enrollment.workspace.id ∧
    enrollment.workspace.createdByUserId = enrollment.user.id ∧
    enrollment.membership = ownerMembership enrollment.user enrollment.workspace
  users : s.users = rows.users ++ s.enrollments.map (·.user)
  workspaces : s.workspaces = rows.workspaces ++ s.enrollments.map (·.workspace)
  memberships : s.memberships = rows.memberships ++ s.enrollments.map (·.membership)
  userIds : (s.users.map (·.id)).Nodup
  emails : (s.users.map (·.email)).Nodup
  workspaceIds : (s.workspaces.map (·.id)).Nodup
  slugs : (s.workspaces.map (·.slug)).Nodup
  pairs : (s.memberships.map fun row => (row.workspaceId, row.userId)).Nodup

def SameRows (s t : EnrollmentWorld) : Prop :=
  t.invites = s.invites ∧ t.users = s.users ∧ t.workspaces = s.workspaces ∧
    t.memberships = s.memberships

/-- What a step does to the rows: nothing, unless an invite is issued or a call ends in success. -/
def Progress (s : EnrollmentWorld) (a : InviteAction) (t : EnrollmentWorld) : Prop :=
  s.SameRows t ∨
  (∃ invite, a = .create invite.id invite.tokenHash invite.expiresAt ∧
    s.SameRows { t with invites := s.invites } ∧ t.invites = s.invites ++ [invite]) ∨
  (∃ i request enrollment, a = .commit i ∧
    t.outcomes = s.outcomes ++ [.enrolled request enrollment]) ∨
  ∃ i invite, a = .commit i ∧ t.outcomes = s.outcomes ++ [.revoked invite] ∧
    s.SameRows { t with invites := s.invites }

end EnrollmentWorld

/-- A row that a call holds locked, as it read it. -/
structure InviteClaim.Holds (claim : InviteClaim) (s : EnrollmentWorld) (i : InviteCallId) : Prop
    where
  held : s.locks (.invite claim.invite.id) = some i
  stored : claim.invite ∈ s.invites

/-- An entry that a call has made in an index, and no other has. -/
structure Reserved (s : EnrollmentWorld) (i : InviteCallId) (key : IndexKey) : Prop where
  held : s.locks (.index key) = some i
  unused : s.taken key = false

/-- The keys of the rows that a call has inserted. -/
def ConsumePc.keys : ConsumePc → List IndexKey
  | .started | .claimed _ | .emailUnused _ | .slugUnused _ => []
  | .userCreated _ user => (userKeys user).map (·.1)
  | .workspaceCreated _ user workspace | .unattached _ user workspace =>
    (userKeys user ++ workspaceKeys workspace).map (·.1)
  | .attached _ user workspace =>
    (userKeys user ++ workspaceKeys workspace ++ membershipKeys user workspace).map (·.1)

def ConsumePc.claim : ConsumePc → Option InviteClaim
  | .started => none
  | .claimed claim | .emailUnused claim | .slugUnused claim | .userCreated claim _
  | .workspaceCreated claim _ _ | .unattached claim _ _ | .attached claim _ _ => some claim

def ConsumePc.created : ConsumePc → Option (Founder × Company)
  | .workspaceCreated _ user workspace | .unattached _ user workspace
  | .attached _ user workspace => some (user, workspace)
  | _ => none

/-- What an open call relies on until it commits. -/
def InviteCall.Relies (s : EnrollmentWorld) (i : InviteCallId) : InviteCall → Prop
  | .consume _ pc =>
    (∀ claim ∈ pc.claim, claim.Holds s i ∧ claim.invite.usable claim.now = true) ∧
    (∀ key ∈ pc.keys, Reserved s i key) ∧
    ∀ created ∈ pc.created, created.2.createdByUserId = created.1.id
  | .revoke _ locked => ∀ claim ∈ locked, claim.Holds s i ∧ claim.invite.consumedAt = none

structure EnrollmentWorld.Sound (s : EnrollmentWorld) (rows : IdentityRows) : Prop
    extends s.SingleUse rows where
  inviteIds : (s.invites.map (·.id)).Nodup
  relies : ∀ i call, s.sessions i = some call → call.Relies s i

end FounderOs.Auth
