import FounderOs.Foundation.Transition
import Mathlib.Logic.Function.Basic
import Mathlib.Tactic.SplitIfs

namespace FounderOs.Auth

open Transition

abbrev Token := Nat
abbrev Password := String
abbrev LoginId := Nat
abbrev ChangeId := Nat

/-- A row of `sessions`, named by its token. `checkedAfter` is history: how many password changes
had been committed when its login read the hash that it verified. -/
structure UserSession where
  token : Token
  expiresAt : Nat
  revokedAt : Option Nat
  lastSeenAt : Option Nat
  checkedAfter : Nat
  deriving DecidableEq, Repr

def UserSession.live (row : UserSession) : Bool := row.revokedAt.isNone

/-- The columns of the user row that these requests read; a hash is known by what it verifies. -/
structure AuthUser where
  passwordHash : Option Password
  active : Bool
  deriving DecidableEq, Repr

def verifyPassword (plaintext : Password) (storedHash : Option Password) : Bool :=
  plaintext ≠ "" ∧ storedHash = some plaintext

inductive LoginPc where
  | idle
  | verified (checkedAfter : Nat)
  | inserted (row : UserSession)
  | ended
  deriving DecidableEq, Repr

/-- What the `UPDATE` of `revoke_other_sessions` found, and how many rows there were. -/
structure Revocation where
  tokens : List Token
  revokedAt : Nat
  seen : Nat
  deriving DecidableEq, Repr

inductive ChangePc where
  | idle
  | admitted (rawToken : Token)
  | verified (rawToken : Token)
  | flushed (rawToken : Token) (passwordHash : Password)
  | revoked (rawToken : Token) (passwordHash : Password) (revocation : Revocation)
  | ended
  deriving DecidableEq, Repr

def LoginPc.checkedAfter (n : Nat) : LoginPc → Bool
  | .inserted row => row.checkedAfter = n
  | _ => true

def ChangePc.sawAll (n : Nat) : ChangePc → Bool
  | .revoked _ _ revocation => revocation.seen = n
  | _ => true

/-- One user with the committed rows; `userLock` is the request that has flushed its new hash, and
`kept` the tokens that the committed password changes kept, in their order. -/
structure AuthWorld where
  user : AuthUser
  sessions : List UserSession
  userLock : Option ChangeId
  kept : List Token
  logins : LoginId → LoginPc
  changes : ChangeId → ChangePc

def signedIn (user : AuthUser) (sessions : List UserSession) : AuthWorld :=
  ⟨user, sessions, none, [], fun _ => .idle, fun _ => .idle⟩

inductive AuthAction where
  | checkPassword (login : LoginId) (password : Password)
  | createSession (login : LoginId) (token : Token) (expiresAt : Nat)
  | commitLogin (login : LoginId)
  | failLogin (login : LoginId)
  | admitChange (change : ChangeId) (rawToken : Token) (now : Nat)
  | checkCurrent (change : ChangeId) (currentPassword : Password)
  | flushHash (change : ChangeId) (newPassword : Password)
  | revokeOthers (change : ChangeId) (now : Nat)
  | commitChange (change : ChangeId)
  | failChange (change : ChangeId)
  | validate (rawToken : Token) (now : Nat)
  deriving DecidableEq, Repr

/-- `session_last_seen_interval_seconds`, in the unit of the instants. -/
structure SessionSettings where
  lastSeenInterval : Nat

variable (settings : SessionSettings)

def UserSession.seenAt (row : UserSession) (now : Nat) : UserSession :=
  if row.lastSeenAt.all (· + settings.lastSeenInterval ≤ now) then { row with lastSeenAt := some now }
  else row

/-- `validate_session`: whether the token is accepted, and the row as it is left. -/
def validateRow (user : AuthUser) (row : UserSession) (now : Nat) : Bool × UserSession :=
  if row.revokedAt.isSome then (false, row)
  else if row.expiresAt ≤ now then (false, row)
  else if user.active then (true, row.seenAt settings now)
  else (false, { row with revokedAt := some now })

def validateSession (user : AuthUser) (sessions : List UserSession) (rawToken : Token) (now : Nat) :
    Bool :=
  (sessions.find? (·.token = rawToken)).any fun row => (validateRow settings user row now).1

def sessionsAfterValidation (user : AuthUser) (sessions : List UserSession) (rawToken : Token)
    (now : Nat) : List UserSession :=
  sessions.map fun row =>
    if row.token = rawToken then (validateRow settings user row now).2 else row

def UserSession.revokedBy (revocation : Revocation) (row : UserSession) : UserSession :=
  if row.token ∈ revocation.tokens then { row with revokedAt := some revocation.revokedAt } else row

namespace AuthWorld

variable (s : AuthWorld)

def login (login : LoginId) (pc : LoginPc) : AuthWorld :=
  { s with logins := Function.update s.logins login pc }

def change (change : ChangeId) (pc : ChangePc) : AuthWorld :=
  { s with changes := Function.update s.changes change pc }

/-- The `UPDATE` sees the rows that are committed when it runs. -/
def revocation (rawToken : Token) (now : Nat) : Revocation where
  tokens := (s.sessions.filter (fun row => row.live ∧ row.token ≠ rawToken)).map UserSession.token
  revokedAt := now
  seen := s.sessions.length

end AuthWorld

section Steps

variable (s : AuthWorld)

def loginStep (id : LoginId) (a : AuthAction) : Option AuthWorld :=
  match a, s.logins id with
  | .checkPassword _ password, .idle =>
    if s.user.active ∧ verifyPassword password s.user.passwordHash then
      some (s.login id (.verified s.kept.length))
    else some (s.login id .ended)
  | .createSession _ token expiresAt, .verified checkedAfter =>
    some (s.login id (.inserted ⟨token, expiresAt, none, none, checkedAfter⟩))
  | .commitLogin _, .inserted row =>
    if s.sessions.any (·.token = row.token) then none
    else some { s.login id .ended with sessions := s.sessions ++ [row] }
  | .failLogin _, .verified _ | .failLogin _, .inserted _ => some (s.login id .ended)
  | _, _ => none

def changeStep (id : ChangeId) (a : AuthAction) : Option AuthWorld :=
  match a, s.changes id with
  | .admitChange _ rawToken now, .idle =>
    some { s.change id
        (if validateSession settings s.user s.sessions rawToken now then .admitted rawToken
          else .ended) with
      sessions := sessionsAfterValidation settings s.user s.sessions rawToken now }
  | .checkCurrent _ currentPassword, .admitted rawToken =>
    if verifyPassword currentPassword s.user.passwordHash then
      some (s.change id (.verified rawToken))
    else some (s.change id .ended)
  | .flushHash _ newPassword, .verified rawToken =>
    if s.userLock.isSome then none
    else some { s.change id (.flushed rawToken newPassword) with userLock := some id }
  | .revokeOthers _ now, .flushed rawToken passwordHash =>
    some (s.change id (.revoked rawToken passwordHash (s.revocation rawToken now)))
  | .commitChange _, .revoked rawToken passwordHash revocation =>
    some { s.change id .ended with
      user := { s.user with passwordHash := some passwordHash }
      sessions := s.sessions.map (UserSession.revokedBy revocation)
      userLock := none
      kept := s.kept ++ [rawToken] }
  | .failChange _, .admitted _ | .failChange _, .verified _ => some (s.change id .ended)
  | .failChange _, .flushed _ _ | .failChange _, .revoked _ _ _ =>
    some { s.change id .ended with userLock := none }
  | _, _ => none

def authStep (a : AuthAction) : Option AuthWorld :=
  match a with
  | .checkPassword id _ | .createSession id _ _ | .commitLogin id | .failLogin id =>
    loginStep s id a
  | .admitChange id _ _ | .checkCurrent id _ | .flushHash id _ | .revokeOthers id _
  | .commitChange id | .failChange id => changeStep settings s id a
  | .validate rawToken now =>
    some { s with sessions := sessionsAfterValidation settings s.user s.sessions rawToken now }

/-- No password change was committed since the login read the hash, and no login committed a
session since the password change looked for the sessions to revoke. -/
def Undisturbed (a : AuthAction) : Prop :=
  match a with
  | .commitLogin id => (s.logins id).checkedAfter s.kept.length = true
  | .commitChange id => (s.changes id).sawAll s.sessions.length = true
  | _ => True

instance (a : AuthAction) : Decidable (Undisturbed s a) :=
  match a with
  | .commitLogin _ | .commitChange _ => inferInstanceAs (Decidable (_ = true))
  | .checkPassword _ _ | .createSession _ _ _ | .failLogin _ | .admitChange _ _ _
  | .checkCurrent _ _ | .flushHash _ _ | .revokeOthers _ _ | .failChange _ | .validate _ _ =>
    .isTrue trivial

/-- Every session that validates was kept by, or its login checked a hash set by or after, each
committed password change. -/
def OldSessionsEvicted : Prop :=
  ∀ rawToken now, validateSession settings s.user s.sessions rawToken now = true →
    ∀ i keptToken, s.kept[i]? = some keptToken →
      rawToken = keptToken ∨ ∃ row ∈ s.sessions, row.token = rawToken ∧ i < row.checkedAfter

end Steps

structure Evicting (s : AuthWorld) : Prop where
  evicted : ∀ row ∈ s.sessions, row.revokedAt = none →
    ∀ i keptToken, s.kept[i]? = some keptToken → row.token = keptToken ∨ i < row.checkedAfter
  revocations : ∀ id rawToken passwordHash revocation,
    s.changes id = .revoked rawToken passwordHash revocation →
      revocation.seen ≤ s.sessions.length ∧
        ∀ row ∈ s.sessions.take revocation.seen, row.revokedAt = none →
          row.token = rawToken ∨ row.token ∈ revocation.tokens

/-- A write to session rows that revokes some of them and gives none back. -/
structure OnlyRevokes (f : UserSession → UserSession) : Prop where
  token : ∀ row, (f row).token = row.token
  checkedAfter : ∀ row, (f row).checkedAfter = row.checkedAfter
  live : ∀ row, (f row).revokedAt = none → row.revokedAt = none

variable {settings} {s t : AuthWorld} {a : AuthAction} {id : LoginId} {row : UserSession}
  {sessions : List UserSession} {user : AuthUser} {rawToken : Token} {now : Nat}

theorem onlyRevokes_validation : OnlyRevokes (fun row =>
    if row.token = rawToken then (validateRow settings user row now).2 else row) := by
  constructor
  · intro row
    simp only [validateRow, UserSession.seenAt]
    split_ifs <;> rfl
  · intro row
    simp only [validateRow, UserSession.seenAt]
    split_ifs <;> rfl
  · intro row
    simp only [validateRow, UserSession.seenAt]
    split_ifs <;> simp

theorem onlyRevokes_revokedBy (revocation : Revocation) :
    OnlyRevokes (UserSession.revokedBy revocation) := by
  constructor
  all_goals
    intro row
    simp only [UserSession.revokedBy]
    split_ifs <;> simp

theorem Evicting.frame (h : Evicting s) {changes : ChangeId → ChangePc} {logins : LoginId → LoginPc}
    {user : AuthUser} {userLock : Option ChangeId} (hchanges : ∀ id rawToken passwordHash revocation,
      changes id = .revoked rawToken passwordHash revocation →
        s.changes id = .revoked rawToken passwordHash revocation) :
    Evicting ⟨user, s.sessions, userLock, s.kept, logins, changes⟩ where
  evicted := h.evicted
  revocations id rawToken passwordHash revocation hid :=
    h.revocations id rawToken passwordHash revocation (hchanges id rawToken passwordHash revocation hid)

theorem Evicting.map (h : Evicting s) {f : UserSession → UserSession} (hf : OnlyRevokes f) :
    Evicting { s with sessions := s.sessions.map f } where
  evicted row' hrow' hlive i keptToken hkept := by
    obtain ⟨row, hrow, rfl⟩ := List.mem_map.1 hrow'
    rw [hf.token, hf.checkedAfter]
    exact h.evicted row hrow (hf.live row hlive) i keptToken hkept
  revocations id rawToken passwordHash revocation hid := by
    obtain ⟨hseen, hfound⟩ := h.revocations id rawToken passwordHash revocation hid
    refine ⟨by simpa using hseen, fun row' hrow' hlive => ?_⟩
    simp only [← List.map_take] at hrow'
    obtain ⟨row, hrow, rfl⟩ := List.mem_map.1 hrow'
    rw [hf.token]
    exact hfound row hrow (hf.live row hlive)

/-- The kept token and the revoked ones are all there was when the `UPDATE` ran. -/
theorem mem_revocation (hrow : row ∈ s.sessions) (hlive : row.revokedAt = none) :
    row.token = rawToken ∨ row.token ∈ (s.revocation rawToken now).tokens := by
  by_cases htoken : row.token = rawToken
  · exact .inl htoken
  · refine .inr (List.mem_map_of_mem (List.mem_filter.2 ⟨hrow, ?_⟩))
    simp [UserSession.live, hlive, htoken]

theorem evicting_commitLogin (h : Evicting s) (hfresh : row.checkedAfter = s.kept.length)
    {logins : LoginId → LoginPc} :
    Evicting { s with logins := logins, sessions := s.sessions ++ [row] } where
  evicted row' hrow' hlive i keptToken hkept := by
    rcases List.mem_append.1 hrow' with hrow' | hrow'
    · exact h.evicted row' hrow' hlive i keptToken hkept
    · obtain rfl := List.mem_singleton.1 hrow'
      right
      rw [hfresh]
      exact (List.getElem?_eq_some_iff.1 hkept).1
  revocations id rawToken passwordHash revocation hid := by
    obtain ⟨hseen, hfound⟩ := h.revocations id rawToken passwordHash revocation hid
    refine ⟨by simp; omega, ?_⟩
    rwa [List.take_append_of_le_length hseen]

theorem evicting_loginStep (h : Evicting s) (hundisturbed : Undisturbed s a)
    (ha : ∀ i, a = .commitLogin i → i = id) (hstep : loginStep s id a = some t) : Evicting t := by
  unfold loginStep at hstep
  split at hstep
  · split at hstep
    all_goals
      obtain rfl := Option.some.inj hstep
      exact h.frame (fun _ _ _ _ hid => hid)
  · obtain rfl := Option.some.inj hstep
    exact h.frame (fun _ _ _ _ hid => hid)
  · rename_i i row hinserted
    split at hstep
    · cases hstep
    · obtain rfl := Option.some.inj hstep
      obtain rfl := ha i rfl
      have hchecked : row.checkedAfter = s.kept.length := by
        simpa [Undisturbed, hinserted, LoginPc.checkedAfter] using hundisturbed
      exact evicting_commitLogin h hchecked
  iterate 2
    obtain rfl := Option.some.inj hstep
    exact h.frame (fun _ _ _ _ hid => hid)
  · cases hstep

theorem evicting_revokeOthers (h : Evicting s) {id : ChangeId} {passwordHash : Password} :
    Evicting (s.change id (.revoked rawToken passwordHash (s.revocation rawToken now))) where
  evicted := h.evicted
  revocations i rawToken' passwordHash' revocation hi := by
    by_cases hid : i = id
    · subst hid
      simp only [AuthWorld.change, Function.update_self, ChangePc.revoked.injEq] at hi
      obtain ⟨rfl, -, rfl⟩ := hi
      refine ⟨Nat.le_refl _, fun row hrow hlive => ?_⟩
      exact mem_revocation (List.mem_of_mem_take hrow) hlive
    · simp only [AuthWorld.change, Function.update_of_ne hid] at hi
      exact h.revocations i rawToken' passwordHash' revocation hi

theorem Evicting.change (h : Evicting s) (id : ChangeId) (pc : ChangePc)
    (userLock : Option ChangeId)
    (hpc : ∀ rawToken passwordHash revocation, pc ≠ .revoked rawToken passwordHash revocation) :
    Evicting { s.change id pc with userLock := userLock } := by
  refine h.frame (fun i rawToken passwordHash revocation hi => ?_)
  by_cases hid : i = id
  · subst hid
    simp only [AuthWorld.change, Function.update_self] at hi
    exact absurd hi (hpc rawToken passwordHash revocation)
  · simpa only [AuthWorld.change, Function.update_of_ne hid] using hi

theorem evicting_commitChange (h : Evicting s) {id : ChangeId} {passwordHash : Password}
    {revocation : Revocation} (hid : s.changes id = .revoked rawToken passwordHash revocation)
    (hseen : revocation.seen = s.sessions.length) {user : AuthUser} :
    Evicting { s.change id .ended with
      user := user
      sessions := s.sessions.map (UserSession.revokedBy revocation)
      userLock := none
      kept := s.kept ++ [rawToken] } := by
  have hfound := (h.revocations id rawToken passwordHash revocation hid).2
  rw [hseen, List.take_length] at hfound
  have hmapped := (h.map (onlyRevokes_revokedBy revocation)).change id .ended none (by simp)
  refine ⟨fun row' hrow' hlive i keptToken hkept => ?_, hmapped.revocations⟩
  rw [List.getElem?_append] at hkept
  split at hkept
  · exact hmapped.evicted row' hrow' hlive i keptToken hkept
  · -- the change that commits: what it found is revoked now
    obtain rfl : keptToken = rawToken := (List.mem_singleton.1 (List.mem_of_getElem? hkept))
    obtain ⟨row, hrow, rfl⟩ := List.mem_map.1 hrow'
    have hbefore := (onlyRevokes_revokedBy revocation).live row hlive
    left
    rw [(onlyRevokes_revokedBy revocation).token]
    refine (hfound row hrow hbefore).resolve_right fun hrevoked => ?_
    simp [UserSession.revokedBy, hrevoked] at hlive

theorem evicting_changeStep (h : Evicting s) (hundisturbed : Undisturbed s a) {id : ChangeId}
    (ha : ∀ i, a = .commitChange i → i = id) (hstep : changeStep settings s id a = some t) :
    Evicting t := by
  unfold changeStep at hstep
  split at hstep
  · obtain rfl := Option.some.inj hstep
    refine (h.map onlyRevokes_validation).change id _ s.userLock ?_
    split <;> simp
  · split at hstep
    all_goals
      obtain rfl := Option.some.inj hstep
      exact h.change id _ s.userLock (by simp)
  · split at hstep
    · cases hstep
    · obtain rfl := Option.some.inj hstep
      exact h.change id _ _ (by simp)
  · obtain rfl := Option.some.inj hstep
    exact evicting_revokeOthers h
  · rename_i i rawToken passwordHash revocation hid
    obtain rfl := Option.some.inj hstep
    obtain rfl := ha i rfl
    have hseen : revocation.seen = s.sessions.length := by
      simpa [Undisturbed, hid, ChangePc.sawAll] using hundisturbed
    exact evicting_commitChange h hid hseen
  iterate 2
    obtain rfl := Option.some.inj hstep
    exact h.change id _ s.userLock (by simp)
  iterate 2
    obtain rfl := Option.some.inj hstep
    exact h.change id _ none (by simp)
  · cases hstep

theorem evicting_step (h : Evicting s) (hundisturbed : Undisturbed s a)
    (hstep : authStep settings s a = some t) : Evicting t := by
  cases a with
  | checkPassword | createSession | commitLogin | failLogin =>
    exact evicting_loginStep h hundisturbed (by simp) hstep
  | admitChange | checkCurrent | flushHash | revokeOthers | commitChange | failChange =>
    exact evicting_changeStep h hundisturbed (by simp) hstep
  | validate rawToken now =>
    obtain rfl := Option.some.inj hstep
    exact h.map onlyRevokes_validation

theorem oldSessionsEvicted_of_evicting (h : Evicting s) : OldSessionsEvicted settings s := by
  intro rawToken now hvalid i keptToken hkept
  obtain ⟨row, hfind, haccepted⟩ := (Option.any_eq_true _ _).1 hvalid
  have hrow := List.mem_of_find?_eq_some hfind
  have htoken : row.token = rawToken := by simpa using List.find?_some hfind
  have hlive : row.revokedAt = none := by
    by_contra hrevoked
    simp [validateRow, Option.isSome_iff_ne_none.2 hrevoked] at haccepted
  rcases h.evicted row hrow hlive i keptToken hkept with hsame | hafter
  · exact .inl (htoken.symm.trans hsame)
  · exact .inr ⟨row, hrow, htoken, hafter⟩

theorem password_change_evicts (user : AuthUser) (sessions : List UserSession) {s : AuthWorld}
    (h : Reaches (authStep settings) Undisturbed (signedIn user sessions) s) :
    OldSessionsEvicted settings s := by
  refine oldSessionsEvicted_of_evicting (h.invariant (P := Evicting)
    (fun _ _ _ hs hundisturbed hstep => evicting_step hs hundisturbed hstep) ?_)
  constructor
  · rintro row hrow hlive i keptToken hkept
    cases hkept
  · rintro id rawToken passwordHash revocation hid
    cases hid

/-- A user signed in on one device. -/
def onDevice : AuthWorld := signedIn ⟨some "old", true⟩ [⟨1, 100, none, none, 0⟩]

def changePassword : List AuthAction :=
  [.admitChange 0 1 1, .checkCurrent 0 "old", .flushHash 0 "new", .revokeOthers 0 2,
    .commitChange 0]

def signIn (password : Password) : List AuthAction :=
  [.checkPassword 0 password, .createSession 0 2 100, .commitLogin 0]

theorem password_change_evicts_new_login :
    ∃ s, exec (restrict (authStep ⟨0⟩) Undisturbed) onDevice (changePassword ++ signIn "new") =
      some s ∧ s.kept = [1] ∧ validateSession ⟨0⟩ s.user s.sessions 2 3 = true ∧
        ∃ row ∈ s.sessions, row.token = 2 ∧ 0 < row.checkedAfter := by
  have hrun : (exec (restrict (authStep ⟨0⟩) Undisturbed) onDevice
      (changePassword ++ signIn "new")).any (fun s =>
        s.kept = [1] ∧ validateSession ⟨0⟩ s.user s.sessions 2 3 = true) = true := by
    decide +kernel
  obtain ⟨s, hs, hend⟩ := (Option.any_eq_true _ _).1 hrun
  obtain ⟨hkept, hvalid⟩ := of_decide_eq_true hend
  have hevicted := password_change_evicts _ _ (reaches_of_exec_restrict hs) 2 3 hvalid 0 1
    (by simp [hkept])
  exact ⟨s, hs, hkept, hvalid, hevicted.resolve_left (by decide)⟩

/-- The login reads the old hash before the change and commits its session after it. -/
def overtakenLogin : List AuthAction :=
  [.checkPassword 0 "old"] ++ changePassword ++ [.createSession 0 2 100, .commitLogin 0]

theorem overtaken_login_survives :
    ¬∀ s, Reaches (authStep ⟨0⟩) anyStep onDevice s → OldSessionsEvicted ⟨0⟩ s := by
  intro hall
  have hrun : (exec (authStep ⟨0⟩) onDevice overtakenLogin).any (fun s =>
      s.kept = [1] ∧ validateSession ⟨0⟩ s.user s.sessions 2 3 = true ∧
        ∀ row ∈ s.sessions, row.checkedAfter = 0) = true := by
    decide +kernel
  obtain ⟨s, hs, hend⟩ := (Option.any_eq_true _ _).1 hrun
  obtain ⟨hkept, hvalid, hold⟩ := of_decide_eq_true hend
  rcases hall s (reaches_of_exec hs) 2 3 hvalid 0 1 (by simp [hkept]) with hsame | ⟨row, hrow, -, hafter⟩
  · cases hsame
  · rw [hold row hrow] at hafter
    cases hafter

end FounderOs.Auth
