import FounderOs.Foundation.Locks
import FounderOs.Foundation.Str
import FounderOs.Foundation.Transition
import Mathlib.Tactic.IntervalCases
import Mathlib.Tactic.SplitIfs

namespace FounderOs.Auth

open Locks Transition

abbrev AccountId := Nat
abbrev WorkspaceId := Nat
abbrev ProvisionId := Nat

/-- `str.lower`, as far as `normalize_email` relies on it: what it leaves it leaves again, and
beside the blanks it makes none. -/
structure EmailRules where
  lower : Str → Str
  lower_lower : ∀ text, lower (lower text) = lower text
  strip_lower : ∀ text, Str.strip (lower (Str.strip text)) = lower (Str.strip text)

variable (rules : EmailRules)

def normalizeEmail (email : Str) : Str := rules.lower (Str.strip email)

theorem normalizeEmail_idem (email : Str) :
    normalizeEmail rules (normalizeEmail rules email) = normalizeEmail rules email := by
  rw [normalizeEmail, normalizeEmail, rules.strip_lower, rules.lower_lower]

/-- A row of `users`. -/
structure Account where
  id : AccountId
  email : Str
  disabled : Bool
  deriving DecidableEq

structure Membership where
  workspaceId : WorkspaceId
  userId : AccountId
  role : String
  deriving DecidableEq

structure ProvisionRequest where
  workspaceId : WorkspaceId
  email : Str
  role : String
  deriving DecidableEq

inductive ProvisionError where
  | access (detail : String)
  | conflict (detail : String)
  | integrity (constraint : String)
  deriving DecidableEq

def roleOrder : String → Option Nat
  | "viewer" => some 10
  | "member" => some 20
  | "admin" => some 30
  | "owner" => some 40
  | _ => none

/-- Where a call stands; `created` is `user_created`. A user that was found is kept as it was first
read. -/
inductive ProvisionPc where
  | started
  | absent
  | found (user : Account)
  | locked (user : Account)
  | admitted (user : Account) (created : Bool)
  | unattached (user : Account) (created : Bool)
  | attached (user : Account) (created : Bool)
  deriving DecidableEq

/-- The row of a user, and the entries of the unique indexes: one that is inserted and not yet
committed makes the next of its key wait. -/
inductive IdentityKey where
  | user (id : AccountId)
  | email (email : Str)
  | membership (workspaceId : WorkspaceId) (userId : AccountId)
  deriving DecidableEq

/-- The committed rows, with the open transactions. `outcomes` is history: what the calls have
returned, a success once it is committed. -/
structure IdentityWorld where
  workspaces : List WorkspaceId
  users : List Account
  memberships : List Membership
  locks : Table IdentityKey ProvisionId
  sessions : ProvisionId → Option (ProvisionRequest × ProvisionPc)
  outcomes : List (ProvisionRequest × Except ProvisionError AccountId)

/-- `id` of `createUser` is the drawn key. `fail` is any other end: a lost connection, a deadlock, a
text that is too long, a failure of what the endpoint does before it commits. -/
inductive ProvisionAction where
  | start (session : ProvisionId) (request : ProvisionRequest)
  | getUserByEmail (session : ProvisionId)
  | createUser (session : ProvisionId) (id : AccountId)
  | lockUser (session : ProvisionId)
  | outsideMembership (session : ProvisionId)
  | findMembership (session : ProvisionId)
  | insertMembership (session : ProvisionId)
  | commit (session : ProvisionId)
  | fail (session : ProvisionId)
  deriving DecidableEq

namespace IdentityWorld

variable (s : IdentityWorld) (i : ProvisionId)

def put (request : ProvisionRequest) (pc : ProvisionPc) : IdentityWorld :=
  { s with sessions := Function.update s.sessions i (some (request, pc)) }

/-- The end of a transaction gives its locks back. -/
def close : IdentityWorld :=
  { s with locks := s.locks.release i, sessions := Function.update s.sessions i none }

def refuse (request : ProvisionRequest) (error : ProvisionError) : IdentityWorld :=
  { s.close i with outcomes := (request, .error error) :: s.outcomes }

def hasEmail (email : Str) : Bool := s.users.any (·.email = email)

def hasUser (id : AccountId) : Bool := s.users.any (·.id = id)

def hasMembership (workspaceId : WorkspaceId) (userId : AccountId) : Bool :=
  s.memberships.any fun row => row.workspaceId = workspaceId ∧ row.userId = userId

def hasOutside (workspaceId : WorkspaceId) (userId : AccountId) : Bool :=
  s.memberships.any fun row => row.userId = userId ∧ row.workspaceId ≠ workspaceId

end IdentityWorld

section steps

variable (s : IdentityWorld) (i : ProvisionId) (request : ProvisionRequest)

def startStep : IdentityWorld :=
  if request.role = "owner" then s.refuse i request (.access "owner role is bootstrap-only")
  else if roleOrder request.role = none then
    s.refuse i request (.access "unsupported membership role")
  else if request.workspaceId ∉ s.workspaces then
    s.refuse i request (.access "workspace not found")
  else s.put i request .started

/-- An insert waits for those of its keys that are not committed yet. -/
def createUserStep (id : AccountId) : Option IdentityWorld :=
  let email := normalizeEmail rules request.email
  if s.locks.free i (.email email) ∧ s.locks.free i (.user id) then
    if s.hasEmail email then some (s.refuse i request (.integrity "uq_users_email"))
    else if s.hasUser id then some (s.refuse i request (.integrity "users_pkey"))
    else some { s.put i request (.admitted ⟨id, email, false⟩ true) with
      locks := (s.locks.take i (.email email)).take i (.user id) }
  else none

def lockUserStep (user : Account) : Option IdentityWorld :=
  if s.locks.free i (.user user.id) then
    if !s.hasUser user.id then
      some (s.refuse i request (.conflict "existing account is unavailable"))
    else if user.disabled then some (s.refuse i request (.access "user disabled"))
    else some { s.put i request (.locked user) with locks := s.locks.take i (.user user.id) }
  else none

def insertMembershipStep (user : Account) (created : Bool) : Option IdentityWorld :=
  let key := IdentityKey.membership request.workspaceId user.id
  if s.locks.free i key then
    if s.hasMembership request.workspaceId user.id then
      some (s.refuse i request (.integrity "uq_memberships_workspace_user"))
    else some { s.put i request (.attached user created) with locks := s.locks.take i key }
  else none

def commitStep (user : Account) (created : Bool) : IdentityWorld :=
  { s.close i with
    users := if created then s.users ++ [user] else s.users
    memberships := s.memberships ++ [⟨request.workspaceId, user.id, request.role⟩]
    outcomes := (request, .ok user.id) :: s.outcomes }

def provisionStep (s : IdentityWorld) : ProvisionAction → Option IdentityWorld
  | .start i request => if s.sessions i = none then some (startStep s i request) else none
  | .getUserByEmail i =>
    match s.sessions i with
    | some (request, .started) =>
      match s.users.find? (·.email = normalizeEmail rules request.email) with
      | some user => some (s.put i request (.found user))
      | none => some (s.put i request .absent)
    | _ => none
  | .createUser i id =>
    match s.sessions i with
    | some (request, .absent) => createUserStep rules s i request id
    | _ => none
  | .lockUser i =>
    match s.sessions i with
    | some (request, .found user) => lockUserStep s i request user
    | _ => none
  | .outsideMembership i =>
    match s.sessions i with
    | some (request, .locked user) =>
      if s.hasOutside request.workspaceId user.id then
        some (s.refuse i request (.conflict "existing account must accept a workspace invitation"))
      else some (s.put i request (.admitted user false))
    | _ => none
  | .findMembership i =>
    match s.sessions i with
    | some (request, .admitted user created) =>
      if s.hasMembership request.workspaceId user.id then
        some (s.refuse i request (.conflict "workspace membership already exists"))
      else some (s.put i request (.unattached user created))
    | _ => none
  | .insertMembership i =>
    match s.sessions i with
    | some (request, .unattached user created) => insertMembershipStep s i request user created
    | _ => none
  | .commit i =>
    match s.sessions i with
    | some (request, .attached user created) => some (commitStep s i request user created)
    | _ => none
  | .fail i => if s.sessions i = none then none else some (s.close i)

end steps

/-- Any rows that may be there before: the addresses are stored as `create_user` leaves them, and the
rows meet the keys of their tables. -/
structure ExistingRows where
  workspaces : List WorkspaceId
  users : List Account
  memberships : List Membership
  normal : ∀ user ∈ users, normalizeEmail rules user.email = user.email
  emails : (users.map (·.email)).Nodup
  ids : (users.map (·.id)).Nodup
  owned : ∀ row ∈ memberships, row.userId ∈ users.map (·.id)

def ExistingRows.world (rows : ExistingRows rules) : IdentityWorld :=
  ⟨rows.workspaces, rows.users, rows.memberships, fun _ => none, fun _ => none, []⟩

/-- All memberships of the account are in the one workspace. -/
def IdentityWorld.Within (s : IdentityWorld) (workspaceId : WorkspaceId) (id : AccountId) : Prop :=
  ∀ row ∈ s.memberships, row.userId = id → row.workspaceId = workspaceId

/-- What an open call relies on until it commits. -/
structure Attachable (s : IdentityWorld) (i : ProvisionId) (request : ProvisionRequest)
    (user : Account) (created : Bool) : Prop where
  held : s.locks (.user user.id) = some i
  within : s.Within request.workspaceId user.id
  stored : created = false → user.id ∈ s.users.map (·.id)
  unseen : created = true → user.id ∉ s.users.map (·.id)
  unused : created = true → user.email ∉ s.users.map (·.email)
  entry : created = true → s.locks (.email user.email) = some i
  normal : created = true → normalizeEmail rules user.email = user.email

def Relies (s : IdentityWorld) (i : ProvisionId) (request : ProvisionRequest) : ProvisionPc → Prop
  | .started | .absent | .found _ => True
  | .locked user => s.locks (.user user.id) = some i ∧ user.id ∈ s.users.map (·.id)
  | .admitted user created | .unattached user created | .attached user created =>
    Attachable rules s i request user created

structure IdentityWorld.Sound (s : IdentityWorld) : Prop where
  normal : ∀ user ∈ s.users, normalizeEmail rules user.email = user.email
  emails : (s.users.map (·.email)).Nodup
  ids : (s.users.map (·.id)).Nodup
  owned : ∀ row ∈ s.memberships, row.userId ∈ s.users.map (·.id)
  relies : ∀ i request pc, s.sessions i = some (request, pc) → Relies rules s i request pc
  single : ∀ request id, (request, .ok id) ∈ s.outcomes → ∃ workspaceId, s.Within workspaceId id

section frame

variable {rules} {s t : IdentityWorld} {i j : ProvisionId} {request : ProvisionRequest}
variable {pc : ProvisionPc}

theorem Relies.of_rows (husers : t.users = s.users) (hmemberships : t.memberships = s.memberships)
    (hlocks : ∀ key, s.locks key = some i → t.locks key = some i)
    (h : Relies rules s i request pc) : Relies rules t i request pc := by
  have hattach : ∀ user created, Attachable rules s i request user created →
      Attachable rules t i request user created := by
    intro user created h
    refine ⟨hlocks _ h.held, ?_, ?_, ?_, ?_, fun hc => hlocks _ (h.entry hc), h.normal⟩
    · unfold IdentityWorld.Within
      rw [hmemberships]
      exact h.within
    · rw [husers]
      exact h.stored
    · rw [husers]
      exact h.unseen
    · rw [husers]
      exact h.unused
  cases pc with
  | started => trivial
  | absent => trivial
  | found user => trivial
  | locked user => exact ⟨hlocks _ h.1, husers ▸ h.2⟩
  | admitted user created => exact hattach user created h
  | unattached user created => exact hattach user created h
  | attached user created => exact hattach user created h

/-- A step of one call that commits nothing: the locks of the others stay theirs. -/
theorem IdentityWorld.Sound.local_step (i : ProvisionId) (hs : s.Sound rules) (husers : t.users = s.users)
    (hmemberships : t.memberships = s.memberships)
    (houtcomes : ∀ request id, (request, .ok id) ∈ t.outcomes → (request, .ok id) ∈ s.outcomes)
    (hothers : ∀ j, j ≠ i → t.sessions j = s.sessions j)
    (hlocks : ∀ j key, j ≠ i → s.locks key = some j → t.locks key = some j)
    (hown : ∀ request pc, t.sessions i = some (request, pc) → Relies rules t i request pc) :
    t.Sound rules where
  normal := husers ▸ hs.normal
  emails := husers ▸ hs.emails
  ids := husers ▸ hs.ids
  owned := husers ▸ hmemberships ▸ hs.owned
  relies j request pc hsession := by
    by_cases hj : j = i
    · subst hj
      exact hown request pc hsession
    · rw [hothers j hj] at hsession
      exact (hs.relies j request pc hsession).of_rows husers hmemberships fun key => hlocks j key hj
  single request id hdone := by
    unfold IdentityWorld.Within
    rw [hmemberships]
    exact hs.single request id (houtcomes request id hdone)

theorem sound_close (hs : s.Sound rules) : (s.close i).Sound rules := by
  refine hs.local_step i rfl rfl (fun _ _ h => h) ?_ ?_ ?_
  · intro j hj
    exact Function.update_of_ne hj ..
  · intro j key hj hkey
    exact release_of_holds hj hkey
  · intro request pc hsession
    simp [IdentityWorld.close] at hsession

theorem sound_refuse (hs : s.Sound rules) (error : ProvisionError) :
    (s.refuse i request error).Sound rules := by
  refine (sound_close hs).local_step i rfl rfl ?_ (fun _ _ => rfl) (fun _ _ _ h => h) ?_
  · intro request' id hdone
    rcases List.mem_cons.1 hdone with hnew | hold
    · cases hnew
    · exact hold
  · intro request' pc hsession
    simp [IdentityWorld.refuse, IdentityWorld.close] at hsession

/-- A call goes on with locks that it has taken. -/
theorem sound_put_locks {locks : Table IdentityKey ProvisionId} (hs : s.Sound rules)
    (hlocks : ∀ j key, s.locks key = some j → locks key = some j)
    (h : Relies rules { s with locks := locks } i request pc) :
    IdentityWorld.Sound rules { s.put i request pc with locks := locks } := by
  refine hs.local_step i rfl rfl (fun _ _ h => h) ?_ (fun j key _ => hlocks j key) ?_
  · intro j hj
    exact Function.update_of_ne hj ..
  · intro request' pc' hsession
    obtain ⟨rfl, rfl⟩ : request = request' ∧ pc = pc' := by
      simpa [IdentityWorld.put] using hsession
    exact Relies.of_rows (s := { s with locks := locks }) rfl rfl (fun _ h => h) h

theorem sound_put (hs : s.Sound rules) (h : Relies rules s i request pc) :
    (s.put i request pc).Sound rules :=
  sound_put_locks hs (fun _ _ h => h) h

end frame

section step

variable {rules} {s t : IdentityWorld} {i : ProvisionId} {request : ProvisionRequest}
variable {user : Account} {created : Bool}

theorem not_hasEmail {email : Str} (h : ¬s.hasEmail email = true) :
    email ∉ s.users.map (·.email) := by
  intro hmem
  obtain ⟨user, huser, rfl⟩ := List.mem_map.1 hmem
  exact h (List.any_eq_true.2 ⟨user, huser, decide_eq_true rfl⟩)

theorem mem_of_hasUser {id : AccountId} : s.hasUser id = true ↔ id ∈ s.users.map (·.id) := by
  simp [IdentityWorld.hasUser]

theorem within_of_not_hasOutside {workspaceId : WorkspaceId} {id : AccountId}
    (h : ¬s.hasOutside workspaceId id = true) : s.Within workspaceId id := by
  intro row hrow hid
  refine Decidable.byContradiction fun hne => h ?_
  exact List.any_eq_true.2 ⟨row, hrow, decide_eq_true ⟨hid, hne⟩⟩

theorem sound_start (hs : s.Sound rules) : (startStep s i request).Sound rules := by
  unfold startStep
  split
  · exact sound_refuse hs _
  · split
    · exact sound_refuse hs _
    · split
      · exact sound_refuse hs _
      · exact sound_put hs trivial

theorem sound_createUser {id : AccountId} (hs : s.Sound rules)
    (hstep : createUserStep rules s i request id = some t) : t.Sound rules := by
  unfold createUserStep at hstep
  dsimp only at hstep
  split_ifs at hstep with hfree hemail huser
  · cases hstep
    exact sound_refuse hs _
  · cases hstep
    exact sound_refuse hs _
  · cases hstep
    have hnew := fun hmem => huser (mem_of_hasUser.2 hmem)
    have hother : IdentityKey.user id ≠ .email (normalizeEmail rules request.email) := by
      rintro ⟨⟩
    have hstill : (s.locks.take i (.email (normalizeEmail rules request.email))).free i
        (.user id) = true := by
      rw [Table.free, take_of_ne hother]
      exact hfree.2
    refine sound_put_locks hs ?_ ?_
    · intro j key hkey
      exact take_of_holds hstill (take_of_holds hfree.1 hkey)
    · have hentry : ((s.locks.take i (.email (normalizeEmail rules request.email))).take i
          (.user id)) (.email (normalizeEmail rules request.email)) = some i :=
        take_of_holds hstill take_self
      refine ⟨take_self, ?_, (fun hc => Bool.noConfusion hc), fun _ => hnew, fun _ => not_hasEmail hemail,
        fun _ => hentry, fun _ => normalizeEmail_idem rules _⟩
      intro row hrow hid
      have howned := hs.owned row hrow
      rw [show row.userId = id from hid] at howned
      exact absurd howned hnew

theorem sound_lockUser (hs : s.Sound rules) (hstep : lockUserStep s i request user = some t) :
    t.Sound rules := by
  unfold lockUserStep at hstep
  split_ifs at hstep with hfree huser hdisabled
  · cases hstep
    exact sound_refuse hs _
  · cases hstep
    exact sound_refuse hs _
  · cases hstep
    have hstored : s.hasUser user.id = true := by simpa using huser
    exact sound_put_locks hs (fun j key hkey => take_of_holds hfree hkey)
      ⟨take_self, mem_of_hasUser.1 hstored⟩

theorem sound_insertMembership (hs : s.Sound rules)
    (h : Attachable rules s i request user created)
    (hstep : insertMembershipStep s i request user created = some t) : t.Sound rules := by
  unfold insertMembershipStep at hstep
  dsimp only at hstep
  split_ifs at hstep with hfree hmembership
  · cases hstep
    exact sound_refuse hs _
  · cases hstep
    refine sound_put_locks hs (fun j key hkey => take_of_holds hfree hkey) ?_
    have hnext : Relies rules s i request (.attached user created) := h
    exact Relies.of_rows (s := s) rfl rfl (fun key hkey => take_of_holds hfree hkey) hnext

theorem mem_commit_membership {row : Membership} :
    row ∈ (commitStep s i request user created).memberships ↔
      row ∈ s.memberships ∨ row = ⟨request.workspaceId, user.id, request.role⟩ := by
  simp [commitStep]

theorem mem_commit_user {other : Account} :
    other ∈ (commitStep s i request user created).users ↔
      other ∈ s.users ∨ created = true ∧ other = user := by
  cases created <;> simp [commitStep, IdentityWorld.close]

theorem mem_commit_column {R : Type} {column : Account → R} {value : R} :
    value ∈ (commitStep s i request user created).users.map column ↔
      value ∈ s.users.map column ∨ created = true ∧ value = column user := by
  simp only [List.mem_map, mem_commit_user]
  constructor
  · rintro ⟨other, hold | ⟨hcreated, rfl⟩, rfl⟩
    · exact .inl ⟨other, hold, rfl⟩
    · exact .inr ⟨hcreated, rfl⟩
  · rintro (⟨other, hold, rfl⟩ | ⟨hcreated, rfl⟩)
    · exact ⟨other, .inl hold, rfl⟩
    · exact ⟨user, .inr ⟨hcreated, rfl⟩, rfl⟩

theorem nodup_commit_column {R : Type} {column : Account → R} (hs : (s.users.map column).Nodup)
    (hnew : created = true → column user ∉ s.users.map column) :
    ((commitStep s i request user created).users.map column).Nodup := by
  cases created with
  | false => exact hs
  | true =>
    have hadd : (s.users.map column ++ [column user]).Nodup := by
      refine List.nodup_append.2 ⟨hs, by simp, ?_⟩
      rintro value hvalue _ hsame rfl
      exact hnew rfl (List.mem_singleton.1 hsame ▸ hvalue)
    simpa [commitStep] using hadd

theorem within_commit {workspaceId : WorkspaceId} {id : AccountId} (h : s.Within workspaceId id)
    (hnew : user.id = id → request.workspaceId = workspaceId) :
    (commitStep s i request user created).Within workspaceId id := by
  intro row hrow hid
  rcases mem_commit_membership.1 hrow with hold | rfl
  · exact h row hold hid
  · exact hnew hid

/-- The others that are under way hold other rows and other addresses. -/
theorem relies_commit {j : ProvisionId} {other : ProvisionRequest} {pc : ProvisionPc}
    (hj : j ≠ i) (h : Attachable rules s i request user created)
    (hother : Relies rules s j other pc) :
    Relies rules (commitStep s i request user created) j other pc := by
  have hattach : ∀ user' created', Attachable rules s j other user' created' →
      Attachable rules (commitStep s i request user created) j other user' created' := by
    intro user' created' h'
    have hid : user.id ≠ user'.id := by
      intro hid
      exact hj (exclusive h'.held (hid ▸ h.held))
    refine ⟨release_of_holds hj h'.held, within_commit h'.within fun hsame => absurd hsame hid, ?_,
      ?_, ?_, fun hc => release_of_holds hj (h'.entry hc), h'.normal⟩
    · intro hc
      exact mem_commit_column.2 (.inl (h'.stored hc))
    · intro hc hmem
      rcases mem_commit_column.1 hmem with hold | ⟨-, hsame⟩
      · exact h'.unseen hc hold
      · exact hid hsame.symm
    · intro hc hmem
      rcases mem_commit_column.1 hmem with hold | ⟨hcreated, hsame⟩
      · exact h'.unused hc hold
      · exact hj (exclusive (h'.entry hc) (hsame ▸ h.entry hcreated))
  cases pc with
  | started => trivial
  | absent => trivial
  | found user' => trivial
  | locked user' => exact ⟨release_of_holds hj hother.1, mem_commit_column.2 (.inl hother.2)⟩
  | admitted user' created' => exact hattach user' created' hother
  | unattached user' created' => exact hattach user' created' hother
  | attached user' created' => exact hattach user' created' hother

/-- The commit adds a membership of an account whose row the call has held since it looked at its
memberships. -/
theorem sound_commit (hs : s.Sound rules) (h : Attachable rules s i request user created) :
    (commitStep s i request user created).Sound rules where
  normal other hother := by
    rcases mem_commit_user.1 hother with hold | ⟨hcreated, rfl⟩
    · exact hs.normal other hold
    · exact h.normal hcreated
  emails := nodup_commit_column hs.emails h.unused
  ids := nodup_commit_column hs.ids h.unseen
  owned row hrow := by
    rcases mem_commit_membership.1 hrow with hold | rfl
    · exact mem_commit_column.2 (.inl (hs.owned row hold))
    · cases created with
      | false => exact mem_commit_column.2 (.inl (h.stored rfl))
      | true => exact mem_commit_column.2 (.inr ⟨rfl, rfl⟩)
  relies j other pc hsession := by
    by_cases hj : j = i
    · subst hj
      simp [commitStep, IdentityWorld.close] at hsession
    · have hbefore : s.sessions j = some (other, pc) := by
        rw [← hsession]
        exact (Function.update_of_ne hj ..).symm
      exact relies_commit hj h (hs.relies j other pc hbefore)
  single other id hdone := by
    by_cases hid : user.id = id
    · exact ⟨request.workspaceId, within_commit (hid ▸ h.within) fun _ => rfl⟩
    · rcases List.mem_cons.1 hdone with hnew | hold
      · cases hnew
        exact absurd rfl hid
      · obtain ⟨workspaceId, hwithin⟩ := hs.single other id hold
        exact ⟨workspaceId, within_commit hwithin fun hsame => absurd hsame hid⟩

theorem sound_step (hs : s.Sound rules) {a : ProvisionAction}
    (hstep : provisionStep rules s a = some t) : t.Sound rules := by
  cases a with
  | start i request =>
    simp only [provisionStep] at hstep
    split at hstep
    · cases hstep
      exact sound_start hs
    · cases hstep
  | getUserByEmail i =>
    simp only [provisionStep] at hstep
    split at hstep
    · split at hstep
      · cases hstep
        exact sound_put hs trivial
      · cases hstep
        exact sound_put hs trivial
    · cases hstep
  | createUser i id =>
    simp only [provisionStep] at hstep
    split at hstep
    · exact sound_createUser hs hstep
    · cases hstep
  | lockUser i =>
    simp only [provisionStep] at hstep
    split at hstep
    · exact sound_lockUser hs hstep
    · cases hstep
  | outsideMembership i =>
    simp only [provisionStep] at hstep
    split at hstep
    · rename_i request user hsession
      obtain ⟨hheld, hstored⟩ := hs.relies i _ _ hsession
      split at hstep
      · cases hstep
        exact sound_refuse hs _
      · rename_i hinside
        cases hstep
        exact sound_put hs ⟨hheld, within_of_not_hasOutside hinside, fun _ => hstored,
          (fun hc => Bool.noConfusion hc), (fun hc => Bool.noConfusion hc), (fun hc => Bool.noConfusion hc),
          (fun hc => Bool.noConfusion hc)⟩
    · cases hstep
  | findMembership i =>
    simp only [provisionStep] at hstep
    split at hstep
    · rename_i request user created hsession
      split at hstep
      · cases hstep
        exact sound_refuse hs _
      · have hattach : Attachable rules s i request user created := hs.relies i _ _ hsession
        cases hstep
        exact sound_put hs hattach
    · cases hstep
  | insertMembership i =>
    simp only [provisionStep] at hstep
    split at hstep
    · rename_i request user created hsession
      exact sound_insertMembership hs (hs.relies i _ _ hsession) hstep
    · cases hstep
  | commit i =>
    simp only [provisionStep] at hstep
    split at hstep
    · rename_i request user created hsession
      cases hstep
      exact sound_commit hs (hs.relies i _ _ hsession)
    · cases hstep
  | fail i =>
    simp only [provisionStep] at hstep
    split at hstep
    · cases hstep
    · cases hstep
      exact sound_close hs

/-- In every state reached, an account that went through provisioning is in one workspace, and no
two accounts have addresses that normalise alike. -/
theorem one_account_one_workspace (rows : ExistingRows rules)
    (h : Reaches (provisionStep rules) anyStep rows.world s) :
    (∀ request id, (request, .ok id) ∈ s.outcomes →
      ∀ row ∈ s.memberships, ∀ row' ∈ s.memberships, row.userId = id → row'.userId = id →
        row.workspaceId = row'.workspaceId) ∧
    s.users.Pairwise fun user user' =>
      normalizeEmail rules user.email ≠ normalizeEmail rules user'.email := by
  have hs : s.Sound rules := by
    refine h.invariant (fun _ _ _ hs _ hstep => sound_step hs hstep) ?_
    exact ⟨rows.normal, rows.emails, rows.ids, rows.owned, (fun _ _ _ hsession => nomatch hsession),
      fun _ _ hdone => nomatch hdone⟩
  constructor
  · intro request id hdone row hrow row' hrow' hid hid'
    obtain ⟨workspaceId, hwithin⟩ := hs.single request id hdone
    rw [hwithin row hrow hid, hwithin row' hrow' hid']
  · refine (List.pairwise_map.1 hs.emails).imp_of_mem ?_
    intro user user' huser huser' hne hsame
    rw [hs.normal user huser, hs.normal user' huser'] at hsame
    exact hne hsame

end step

def asciiLower (c : Nat) : Nat := if 65 ≤ c ∧ c ≤ 90 then c + 32 else c

theorem asciiLower_asciiLower (c : Nat) : asciiLower (asciiLower c) = asciiLower c := by
  unfold asciiLower
  split_ifs <;> omega

theorem isSpace_asciiLower (c : Nat) : Str.isSpace (asciiLower c) = Str.isSpace c := by
  by_cases hupper : 65 ≤ c ∧ c ≤ 90
  · obtain ⟨hlow, hhigh⟩ := hupper
    interval_cases c <;> decide
  · rw [asciiLower, if_neg hupper]

def asciiEmail : EmailRules where
  lower text := text.map asciiLower
  lower_lower text := by
    rw [List.map_map]
    exact List.map_congr_left fun c _ => asciiLower_asciiLower c
  strip_lower text := by rw [Str.strip_map isSpace_asciiLower, Str.strip_strip]

def twoWorkspaces : ExistingRows asciiEmail :=
  ⟨[1, 2], [], [], by simp, List.nodup_nil, List.nodup_nil, by simp⟩

/-- Two administrators see no user; the second, who waits for the first, is refused, and refused
again when it has seen the user. -/
def twoAdmins : List ProvisionAction :=
  let later : ProvisionRequest := ⟨2, Str.of " ann@Acme.com", "admin"⟩
  [.start 0 ⟨1, Str.of "Ann@acme.com", "member"⟩, .start 1 later, .getUserByEmail 0,
    .getUserByEmail 1, .createUser 0 7, .findMembership 0, .insertMembership 0, .commit 0,
    .createUser 1 8, .start 2 later, .getUserByEmail 2, .lockUser 2, .outsideMembership 2]

theorem one_account_one_workspace_two_admins :
    ∃ s, Reaches (provisionStep asciiEmail) anyStep twoWorkspaces.world s ∧
      s.outcomes.length = 3 ∧
      (∀ request id, (request, .ok id) ∈ s.outcomes →
        ∀ row ∈ s.memberships, ∀ row' ∈ s.memberships, row.userId = id → row'.userId = id →
          row.workspaceId = row'.workspaceId) ∧
      s.users.Pairwise fun user user' =>
        normalizeEmail asciiEmail user.email ≠ normalizeEmail asciiEmail user'.email := by
  have hrun : (exec (provisionStep asciiEmail) twoWorkspaces.world twoAdmins).map
      (fun s => s.outcomes.length == 3) = some true := by
    decide +kernel
  obtain ⟨s, hs, houtcomes⟩ := reaches_of_exec_check hrun
  exact ⟨s, hs, by simpa using houtcomes, one_account_one_workspace twoWorkspaces hs⟩

end FounderOs.Auth
