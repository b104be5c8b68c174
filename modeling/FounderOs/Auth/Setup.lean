import FounderOs.Foundation.Locks
import FounderOs.Foundation.Transition
import Mathlib.Data.List.Nodup
import Mathlib.Tactic.SplitIfs

namespace FounderOs.Auth

open Locks Transition

abbrev SetupCallId := Nat

/-- A row of `account_setup_tokens`, named by its raw token, whose hash is stored. -/
structure SetupToken where
  rawToken : String
  userId : Nat
  expiresAt : Nat
  consumedAt : Option Nat
  deriving DecidableEq

structure SetupUser where
  active : Bool
  passwordHash : Option String
  deriving DecidableEq

/-- `user is not None and user.status == active and user.password_hash is None`. -/
def SetupUser.awaitsPassword (user : SetupUser) : Bool := user.active && user.passwordHash.isNone

/-- A completion that has its token. `startedAt` is when it was requested, `now` when it read the
clock. -/
structure Completion where
  token : SetupToken
  password : String
  startedAt : Nat
  now : Nat
  deriving DecidableEq

/-- A creation that has begun its `UPDATE`: the tokens of the user that were committed then, those it
has not come to, and those it has set `consumed_at` of. -/
structure Creation where
  userId : Nat
  lifetime : Nat
  now : Nat
  seen : List String
  todo : List String
  taken : List String
  deriving DecidableEq

inductive SetupPc where
  | requested (rawToken password : String) (startedAt : Nat)
  | tokenLocked (completion : Completion)
  | userLocked (completion : Completion)
  | flushed (completion : Completion)
  | signedIn (completion : Completion)
  | checked (userId lifetime : Nat)
  | superseding (creation : Creation)
  | issued (creation : Creation) (token : SetupToken)
  deriving DecidableEq

/-- The rows that are locked, and the entries of the unique index of the tokens. -/
inductive SetupKey where
  | token (rawToken : String)
  | user (userId : Nat)
  deriving DecidableEq

/-- The committed rows (of a session that a completion signs in, its user) with the open
transactions. `succeeded` and `superseded` are history: the completions in the order of their
commits, and the tokens that a committed creation found when it began its `UPDATE`. -/
structure SetupWorld where
  clock : Nat
  users : Nat → Option SetupUser
  tokens : List SetupToken
  signedIn : List Nat
  locks : Table SetupKey SetupCallId
  calls : SetupCallId → Option SetupPc
  succeeded : List Completion
  superseded : List String

/-- `fail` is any end that is not named: a lost connection, a deadlock, a password that cannot be
hashed, a caller that rolls back. That an insert waits for the key of its user is left out: it only
delays. -/
inductive SetupAction where
  | complete (call : SetupCallId) (rawToken password : String)
  | lockToken (call : SetupCallId)
  | lockUser (call : SetupCallId)
  | flush (call : SetupCallId)
  | createSession (call : SetupCallId)
  | create (call : SetupCallId) (userId lifetime : Nat)
  | supersede (call : SetupCallId)
  | supersedeNext (call : SetupCallId)
  | insertToken (call : SetupCallId) (rawToken : String)
  | commit (call : SetupCallId)
  | fail (call : SetupCallId)
  | tick (elapsed : Nat)
  deriving DecidableEq

/-- `consumed_at` of the tokens is set. -/
def consume (rawTokens : List String) (now : Nat) (tokens : List SetupToken) : List SetupToken :=
  tokens.map fun row =>
    if rawTokens.contains row.rawToken then { row with consumedAt := some now } else row

namespace SetupWorld

variable (s : SetupWorld) (i : SetupCallId)

def put (pc : SetupPc) : SetupWorld := { s with calls := Function.update s.calls i (some pc) }

/-- The end of a transaction gives its locks back. -/
def close : SetupWorld :=
  { s with locks := s.locks.release i, calls := Function.update s.calls i none }

def find (rawToken : String) : Option SetupToken := s.tokens.find? (·.rawToken = rawToken)

end SetupWorld

section steps

variable (s : SetupWorld) (i : SetupCallId)

def lockTokenStep (rawToken password : String) (startedAt : Nat) : Option SetupWorld :=
  if s.locks.free i (.token rawToken) then
    match s.find rawToken with
    | none => some (s.close i)
    | some row =>
      if row.consumedAt.isSome ∨ row.expiresAt ≤ s.clock then some (s.close i)
      else some { s.put i (.tokenLocked ⟨row, password, startedAt, s.clock⟩) with
        locks := s.locks.take i (.token rawToken) }
  else none

def lockOwnerStep (completion : Completion) : Option SetupWorld :=
  let userId := completion.token.userId
  if s.locks.free i (.user userId) then
    if (s.users userId).any (·.awaitsPassword) then
      some { s.put i (.userLocked completion) with locks := s.locks.take i (.user userId) }
    else some (s.close i)
  else none

def supersedeStep (userId lifetime : Nat) : SetupWorld :=
  let rows := s.tokens.filter (·.userId = userId)
  s.put i (.superseding
    { userId := userId
      lifetime := lifetime
      now := s.clock
      seen := rows.map (·.rawToken)
      todo := (rows.filter (·.consumedAt.isNone)).map (·.rawToken)
      taken := [] })

/-- A row that another has locked is waited for, and looked at again. -/
def supersedeNextStep (creation : Creation) : Option SetupWorld :=
  match creation.todo with
  | [] => none
  | rawToken :: todo =>
    if s.locks.free i (.token rawToken) then
      if (s.find rawToken).any (·.consumedAt.isNone) then
        some { s.put i (.superseding
            { creation with todo := todo, taken := rawToken :: creation.taken }) with
          locks := s.locks.take i (.token rawToken) }
      else some (s.put i (.superseding { creation with todo := todo }))
    else none

def insertTokenStep (creation : Creation) (rawToken : String) : Option SetupWorld :=
  if creation.todo.isEmpty ∧ s.locks.free i (.token rawToken) then
    if (s.find rawToken).isSome then some (s.close i)
    else some { s.put i (.issued creation
          ⟨rawToken, creation.userId, creation.now + creation.lifetime, none⟩) with
        locks := s.locks.take i (.token rawToken) }
  else none

def commitCompletion (completion : Completion) : SetupWorld :=
  let userId := completion.token.userId
  { s.close i with
    users := Function.update s.users userId
      ((s.users userId).map fun user => { user with passwordHash := some completion.password })
    tokens := consume [completion.token.rawToken] completion.now s.tokens
    signedIn := s.signedIn ++ [userId]
    succeeded := s.succeeded ++ [completion] }

def commitCreation (creation : Creation) (token : SetupToken) : SetupWorld :=
  { s.close i with
    tokens := consume creation.taken creation.now s.tokens ++ [token]
    superseded := s.superseded ++ creation.seen }

def setupStep (s : SetupWorld) : SetupAction → Option SetupWorld
  | .complete i rawToken password =>
    if s.calls i = none then
      if rawToken = "" then some s else some (s.put i (.requested rawToken password s.clock))
    else none
  | .lockToken i =>
    match s.calls i with
    | some (.requested rawToken password startedAt) => lockTokenStep s i rawToken password startedAt
    | _ => none
  | .lockUser i =>
    match s.calls i with
    | some (.tokenLocked completion) => lockOwnerStep s i completion
    | _ => none
  | .flush i =>
    match s.calls i with
    | some (.userLocked completion) => some (s.put i (.flushed completion))
    | _ => none
  | .createSession i =>
    match s.calls i with
    | some (.flushed completion) => some (s.put i (.signedIn completion))
    | _ => none
  | .create i userId lifetime =>
    if s.calls i = none then
      if (s.users userId).any (·.awaitsPassword) then some (s.put i (.checked userId lifetime))
      else some s
    else none
  | .supersede i =>
    match s.calls i with
    | some (.checked userId lifetime) => some (supersedeStep s i userId lifetime)
    | _ => none
  | .supersedeNext i =>
    match s.calls i with
    | some (.superseding creation) => supersedeNextStep s i creation
    | _ => none
  | .insertToken i rawToken =>
    match s.calls i with
    | some (.superseding creation) => insertTokenStep s i creation rawToken
    | _ => none
  | .commit i =>
    match s.calls i with
    | some (.signedIn completion) => some (commitCompletion s i completion)
    | some (.issued creation token) => some (commitCreation s i creation token)
    | _ => none
  | .fail i => if s.calls i = none then none else some (s.close i)
  | .tick elapsed => some { s with clock := s.clock + elapsed }

end steps

/-- Any users, to whom no token has been issued yet. -/
def beforeSetup (users : Nat → Option SetupUser) : SetupWorld :=
  ⟨0, users, [], [], fun _ => none, fun _ => none, [], []⟩

def SetupWorld.names (s : SetupWorld) : List String := s.tokens.map (·.rawToken)

def Spent (tokens : List SetupToken) (rawToken : String) : Prop :=
  ∃ row ∈ tokens, row.rawToken = rawToken ∧ row.consumedAt.isSome = true

section consume

variable {tokens : List SetupToken} {rawTokens : List String} {now : Nat}

theorem names_consume : (consume rawTokens now tokens).map (·.rawToken) =
    tokens.map (·.rawToken) := by
  rw [consume, List.map_map]
  refine List.map_congr_left fun row _ => ?_
  dsimp only [Function.comp]
  split <;> rfl

theorem mem_consume_of_not_mem {row : SetupToken} (hrow : row ∈ tokens)
    (hnot : row.rawToken ∉ rawTokens) : row ∈ consume rawTokens now tokens :=
  List.mem_map.2 ⟨row, hrow, if_neg (by simpa using hnot)⟩

theorem Spent.consume {rawToken : String} (h : Spent tokens rawToken) :
    Spent (consume rawTokens now tokens) rawToken := by
  obtain ⟨row, hrow, hname, hused⟩ := h
  by_cases hmem : rawTokens.contains row.rawToken = true
  · exact ⟨_, List.mem_map.2 ⟨row, hrow, if_pos hmem⟩, hname, rfl⟩
  · exact ⟨row, List.mem_map.2 ⟨row, hrow, if_neg hmem⟩, hname, hused⟩

theorem spent_consume {rawToken : String} (hmem : rawToken ∈ rawTokens)
    (hname : rawToken ∈ tokens.map (·.rawToken)) : Spent (consume rawTokens now tokens) rawToken := by
  obtain ⟨row, hrow, rfl⟩ := List.mem_map.1 hname
  exact ⟨_, List.mem_map.2 ⟨row, hrow, if_pos (by simpa using hmem)⟩, rfl, rfl⟩

theorem Spent.append {rawToken : String} (h : Spent tokens rawToken) (more : List SetupToken) :
    Spent (tokens ++ more) rawToken := by
  obtain ⟨row, hrow, hname, hused⟩ := h
  exact ⟨row, List.mem_append_left _ hrow, hname, hused⟩

theorem Spent.not_live {row : SetupToken} (h : Spent tokens row.rawToken)
    (hnames : (tokens.map (·.rawToken)).Nodup) (hrow : row ∈ tokens) :
    row.consumedAt ≠ none := by
  obtain ⟨other, hother, hname, hused⟩ := h
  obtain rfl := List.inj_on_of_nodup_map hnames hother hrow hname
  intro hnone
  rw [hnone] at hused
  cases hused

end consume

/-- What an open completion relies on from when it has its token. -/
structure Completion.Holds (c : Completion) (s : SetupWorld) (i : SetupCallId) : Prop where
  held : s.locks (.token c.token.rawToken) = some i
  stored : c.token ∈ s.tokens
  unused : c.token.consumedAt = none
  unexpired : c.startedAt < c.token.expiresAt

structure Completion.Admitted (c : Completion) (s : SetupWorld) (i : SetupCallId) : Prop
    extends c.Holds s i where
  owner : s.locks (.user c.token.userId) = some i
  awaits : ∃ user, s.users c.token.userId = some user ∧ user.awaitsPassword = true

structure Creation.Holds (creation : Creation) (s : SetupWorld) (i : SetupCallId) : Prop where
  held : ∀ rawToken ∈ creation.taken, s.locks (.token rawToken) = some i
  stored : ∀ rawToken, rawToken ∈ creation.todo ∨ rawToken ∈ creation.taken →
    rawToken ∈ s.names
  covered : ∀ rawToken ∈ creation.seen,
    Spent s.tokens rawToken ∨ rawToken ∈ creation.todo ∨ rawToken ∈ creation.taken

structure Creation.Issues (creation : Creation) (token : SetupToken) (s : SetupWorld)
    (i : SetupCallId) : Prop extends creation.Holds s i where
  done : creation.todo = []
  entry : s.locks (.token token.rawToken) = some i
  new : token.rawToken ∉ s.names

def SetupPc.Relies (s : SetupWorld) (i : SetupCallId) : SetupPc → Prop
  | .requested _ _ startedAt => startedAt ≤ s.clock
  | .tokenLocked c => c.Holds s i
  | .userLocked c | .flushed c | .signedIn c => c.Admitted s i
  | .checked _ _ => True
  | .superseding creation => creation.Holds s i
  | .issued creation token => creation.Issues token s i

structure SetupWorld.Sound (s : SetupWorld) : Prop where
  names : s.names.Nodup
  relies : ∀ i pc, s.calls i = some pc → pc.Relies s i
  spent : ∀ c ∈ s.succeeded, Spent s.tokens c.token.rawToken
  settled : ∀ c ∈ s.succeeded,
    ∃ user, s.users c.token.userId = some user ∧ user.passwordHash.isSome = true
  once : (s.succeeded.map (·.token.rawToken)).Nodup
  first : (s.succeeded.map (·.token.userId)).Nodup
  superseded : ∀ rawToken ∈ s.superseded, Spent s.tokens rawToken

/-- What a step leaves to a call that does not make it. -/
structure Kept (s t : SetupWorld) (j : SetupCallId) : Prop where
  clock : s.clock ≤ t.clock
  locks : ∀ key, s.locks key = some j → t.locks key = some j
  spent : ∀ rawToken, Spent s.tokens rawToken → Spent t.tokens rawToken
  tokens : ∀ row ∈ s.tokens, s.locks (.token row.rawToken) = some j → row ∈ t.tokens
  users : ∀ userId, s.locks (.user userId) = some j → t.users userId = s.users userId
  names : ∀ rawToken, rawToken ∈ s.names → rawToken ∈ t.names
  unnamed : ∀ rawToken, s.locks (.token rawToken) = some j → rawToken ∈ t.names →
    rawToken ∈ s.names

section frame

variable {s t : SetupWorld} {i j : SetupCallId} {pc : SetupPc}

theorem Kept.completion {c : Completion} (hk : Kept s t j) (h : c.Holds s j) : c.Holds t j :=
  ⟨hk.locks _ h.held, hk.tokens _ h.stored h.held, h.unused, h.unexpired⟩

theorem Kept.admitted {c : Completion} (hk : Kept s t j) (h : c.Admitted s j) : c.Admitted t j := by
  refine ⟨hk.completion h.toHolds, hk.locks _ h.owner, ?_⟩
  rw [hk.users _ h.owner]
  exact h.awaits

theorem Kept.creation {creation : Creation} (hk : Kept s t j) (h : creation.Holds s j) :
    creation.Holds t j where
  held rawToken htaken := hk.locks _ (h.held rawToken htaken)
  stored rawToken hmem := hk.names _ (h.stored rawToken hmem)
  covered rawToken hseen := (h.covered rawToken hseen).imp_left (hk.spent rawToken)

theorem Kept.relies (hk : Kept s t j) (h : pc.Relies s j) : pc.Relies t j := by
  cases pc with
  | requested rawToken password startedAt => exact Nat.le_trans h hk.clock
  | tokenLocked c => exact hk.completion h
  | userLocked c => exact hk.admitted h
  | flushed c => exact hk.admitted h
  | signedIn c => exact hk.admitted h
  | checked userId lifetime => trivial
  | superseding creation => exact hk.creation h
  | issued creation token =>
    exact ⟨hk.creation h.toHolds, h.done, hk.locks _ h.entry,
      fun hmem => h.new (hk.unnamed _ h.entry hmem)⟩

theorem Kept.of_rows (hclock : s.clock ≤ t.clock) (husers : t.users = s.users)
    (htokens : t.tokens = s.tokens) (hlocks : ∀ key, s.locks key = some j → t.locks key = some j) :
    Kept s t j where
  clock := hclock
  locks := hlocks
  spent _ h := htokens ▸ h
  tokens _ h _ := htokens ▸ h
  users _ _ := by rw [husers]
  names _ h := by rwa [SetupWorld.names, htokens]
  unnamed _ _ h := by rwa [SetupWorld.names, htokens] at h

/-- A step of one call that commits nothing. -/
theorem SetupWorld.Sound.local_step (i : SetupCallId) (hs : s.Sound) (hclock : s.clock ≤ t.clock)
    (husers : t.users = s.users) (htokens : t.tokens = s.tokens)
    (hsucceeded : t.succeeded = s.succeeded) (hsuperseded : t.superseded = s.superseded)
    (hothers : ∀ j, j ≠ i → t.calls j = s.calls j)
    (hlocks : ∀ j key, j ≠ i → s.locks key = some j → t.locks key = some j)
    (hown : ∀ pc, t.calls i = some pc → pc.Relies t i) : t.Sound where
  names := by
    rw [SetupWorld.names, htokens]
    exact hs.names
  relies j pc hcall := by
    by_cases hj : j = i
    · subst hj
      exact hown pc hcall
    · rw [hothers j hj] at hcall
      exact (Kept.of_rows hclock husers htokens fun key => hlocks j key hj).relies
        (hs.relies j pc hcall)
  spent := htokens ▸ hsucceeded ▸ hs.spent
  settled := husers ▸ hsucceeded ▸ hs.settled
  once := hsucceeded ▸ hs.once
  first := hsucceeded ▸ hs.first
  superseded := htokens ▸ hsuperseded ▸ hs.superseded

theorem SetupWorld.Sound.close (hs : s.Sound) : (s.close i).Sound := by
  refine hs.local_step i (Nat.le_refl _) rfl rfl rfl rfl ?_ ?_ ?_
  · intro j hj
    exact Function.update_of_ne hj ..
  · intro j key hj hkey
    exact release_of_holds hj hkey
  · intro pc hcall
    simp [SetupWorld.close] at hcall

theorem SetupWorld.Sound.put_locks {locks : Table SetupKey SetupCallId} (hs : s.Sound)
    (hlocks : ∀ j key, s.locks key = some j → locks key = some j)
    (h : pc.Relies { s with locks := locks } i) :
    SetupWorld.Sound { s.put i pc with locks := locks } := by
  refine hs.local_step i (Nat.le_refl _) rfl rfl rfl rfl ?_ (fun j key _ => hlocks j key) ?_
  · intro j hj
    exact Function.update_of_ne hj ..
  · intro pc' hcall
    obtain rfl : pc = pc' := by simpa [SetupWorld.put] using hcall
    have hk : Kept { s with locks := locks } { s.put i pc with locks := locks } i :=
      Kept.of_rows (Nat.le_refl _) rfl rfl fun _ h => h
    exact hk.relies h

theorem SetupWorld.Sound.put (hs : s.Sound) (h : pc.Relies s i) : (s.put i pc).Sound :=
  hs.put_locks (fun _ _ h => h) h

end frame

section step

variable {s t : SetupWorld} {i : SetupCallId}

theorem find_eq_some {rawToken : String} {row : SetupToken} (h : s.find rawToken = some row) :
    row ∈ s.tokens ∧ row.rawToken = rawToken := by
  unfold SetupWorld.find at h
  exact ⟨List.mem_of_find?_eq_some h, by simpa using List.find?_some h⟩

theorem not_mem_names_of_find {rawToken : String} (h : s.find rawToken = none) :
    rawToken ∉ s.names := by
  intro hmem
  obtain ⟨row, hrow, rfl⟩ := List.mem_map.1 hmem
  exact List.find?_eq_none.1 h row hrow (decide_eq_true rfl)

theorem sound_lockToken {rawToken password : String} {startedAt : Nat} (hs : s.Sound)
    (hstarted : startedAt ≤ s.clock)
    (hstep : lockTokenStep s i rawToken password startedAt = some t) : t.Sound := by
  unfold lockTokenStep at hstep
  split at hstep
  case isFalse => cases hstep
  rename_i hfree
  split at hstep
  · cases hstep
    exact hs.close
  · rename_i row hfind
    obtain ⟨hrow, rfl⟩ := find_eq_some hfind
    split at hstep
    · cases hstep
      exact hs.close
    · rename_i hvalid
      obtain ⟨hunused, hexpiry⟩ := not_or.1 hvalid
      cases hstep
      refine hs.put_locks (fun j key hkey => take_of_holds hfree hkey) ?_
      exact ⟨take_self, hrow, Option.not_isSome_iff_eq_none.1 hunused,
        Nat.lt_of_le_of_lt hstarted (Nat.lt_of_not_le hexpiry)⟩

theorem sound_lockOwner {c : Completion} (hs : s.Sound) (h : c.Holds s i)
    (hstep : lockOwnerStep s i c = some t) : t.Sound := by
  unfold lockOwnerStep at hstep
  dsimp only at hstep
  split_ifs at hstep with hfree hawaits
  · cases hstep
    refine hs.put_locks (fun j key hkey => take_of_holds hfree hkey) ?_
    refine ⟨⟨take_of_holds hfree h.held, h.stored, h.unused, h.unexpired⟩, take_self, ?_⟩
    exact (Option.any_eq_true _ _).1 hawaits
  · cases hstep
    exact hs.close

theorem sound_supersede {userId lifetime : Nat} (hs : s.Sound) :
    (supersedeStep s i userId lifetime).Sound := by
  refine hs.put ⟨(fun _ h => nomatch h), ?_, ?_⟩
  · intro rawToken hmem
    rcases hmem with htodo | htaken
    · obtain ⟨row, hrow, rfl⟩ := List.mem_map.1 htodo
      exact List.mem_map.2 ⟨row, (List.mem_filter.1 (List.mem_filter.1 hrow).1).1, rfl⟩
    · cases htaken
  · intro rawToken hseen
    obtain ⟨row, hrow, rfl⟩ := List.mem_map.1 hseen
    cases hused : row.consumedAt with
    | none =>
      exact .inr (.inl (List.mem_map.2 ⟨row, List.mem_filter.2 ⟨hrow, by simp [hused]⟩, rfl⟩))
    | some consumedAt => exact .inl ⟨row, (List.mem_filter.1 hrow).1, rfl, by simp [hused]⟩

theorem spent_of_find {rawToken : String} (hname : rawToken ∈ s.names)
    (hused : ¬(s.find rawToken).any (·.consumedAt.isNone) = true) : Spent s.tokens rawToken := by
  cases hfind : s.find rawToken with
  | none => exact absurd hname (not_mem_names_of_find hfind)
  | some row =>
    obtain ⟨hrow, rfl⟩ := find_eq_some hfind
    refine ⟨row, hrow, rfl, ?_⟩
    rw [hfind] at hused
    cases hconsumed : row.consumedAt with
    | none => simp [hconsumed] at hused
    | some consumedAt => rfl

/-- A token that is passed over has been consumed meanwhile. -/
theorem sound_supersedeNext {creation : Creation} (hs : s.Sound) (h : creation.Holds s i)
    (hstep : supersedeNextStep s i creation = some t) : t.Sound := by
  unfold supersedeNextStep at hstep
  split at hstep
  · cases hstep
  · rename_i rawToken todo htodo
    have hlater : ∀ other, other ∈ todo → other ∈ creation.todo := fun other hmem => by
      rw [htodo]
      exact List.mem_cons_of_mem _ hmem
    have hfirst : rawToken ∈ s.names := h.stored rawToken (.inl (by rw [htodo]; exact .head _))
    split_ifs at hstep with hfree hunused
    · cases hstep
      refine hs.put_locks (fun j key hkey => take_of_holds hfree hkey) ⟨?_, ?_, ?_⟩
      · intro other htaken
        rcases List.mem_cons.1 htaken with rfl | hold
        · exact take_self
        · exact take_of_holds hfree (h.held other hold)
      · rintro other (hmem | hmem)
        · exact h.stored other (.inl (hlater other hmem))
        · rcases List.mem_cons.1 hmem with rfl | hold
          · exact hfirst
          · exact h.stored other (.inr hold)
      · intro other hseen
        rcases h.covered other hseen with hspent | hmem | hmem
        · exact .inl hspent
        · rw [htodo] at hmem
          rcases List.mem_cons.1 hmem with rfl | hmem
          · exact .inr (.inr List.mem_cons_self)
          · exact .inr (.inl hmem)
        · exact .inr (.inr (List.mem_cons_of_mem _ hmem))
    · cases hstep
      refine hs.put ⟨h.held, ?_, ?_⟩
      · rintro other (hmem | hmem)
        · exact h.stored other (.inl (hlater other hmem))
        · exact h.stored other (.inr hmem)
      · intro other hseen
        rcases h.covered other hseen with hspent | hmem | hmem
        · exact .inl hspent
        · rw [htodo] at hmem
          rcases List.mem_cons.1 hmem with rfl | hmem
          · exact .inl (spent_of_find hfirst hunused)
          · exact .inr (.inl hmem)
        · exact .inr (.inr hmem)

theorem sound_insertToken {creation : Creation} {rawToken : String} (hs : s.Sound)
    (h : creation.Holds s i) (hstep : insertTokenStep s i creation rawToken = some t) :
    t.Sound := by
  unfold insertTokenStep at hstep
  split_ifs at hstep with hready hfound
  · cases hstep
    exact hs.close
  · obtain ⟨hdone, hfree⟩ := hready
    cases hstep
    have hnew := not_mem_names_of_find (Option.not_isSome_iff_eq_none.1 hfound)
    refine hs.put_locks (fun j key hkey => take_of_holds hfree hkey) ⟨⟨?_, h.stored, h.covered⟩,
      List.isEmpty_iff.1 hdone, take_self, hnew⟩
    intro other htaken
    exact take_of_holds hfree (h.held other htaken)

/-- A commit sets `consumed_at` of tokens that it holds, and leaves the names of the others. -/
theorem kept_consume {j : SetupCallId} {rawTokens : List String} {now : Nat}
    {added : List SetupToken} (hj : j ≠ i) (hclock : t.clock = s.clock)
    (hlocks : t.locks = s.locks.release i)
    (htokens : t.tokens = consume rawTokens now s.tokens ++ added)
    (hheld : ∀ rawToken ∈ rawTokens, s.locks (.token rawToken) = some i)
    (hadded : ∀ row ∈ added, s.locks (.token row.rawToken) = some i)
    (husers : ∀ userId, t.users userId = s.users userId ∨ s.locks (.user userId) = some i) :
    Kept s t j where
  clock := Nat.le_of_eq hclock.symm
  locks key hkey := by
    rw [hlocks]
    exact release_of_holds hj hkey
  spent rawToken hspent := by
    rw [htokens]
    exact hspent.consume.append added
  tokens row hrow hkey := by
    rw [htokens]
    refine List.mem_append_left _ (mem_consume_of_not_mem hrow fun hmem => ?_)
    exact hj (exclusive hkey (hheld _ hmem))
  users userId hkey := by
    rcases husers userId with hsame | howner
    · exact hsame
    · exact absurd (exclusive hkey howner) hj
  names rawToken hname := by
    rw [SetupWorld.names, htokens, List.map_append, names_consume]
    exact List.mem_append_left _ hname
  unnamed rawToken hkey hname := by
    rw [SetupWorld.names, htokens, List.map_append, names_consume] at hname
    rcases List.mem_append.1 hname with hold | hnew
    · exact hold
    · obtain ⟨row, hrow, rfl⟩ := List.mem_map.1 hnew
      exact absurd (exclusive hkey (hadded row hrow)) hj

/-- A token that can still succeed has not succeeded, and has not been superseded. -/
theorem SetupWorld.Sound.not_spent (hs : s.Sound) {c : Completion} (h : c.Holds s i) :
    ¬Spent s.tokens c.token.rawToken :=
  fun hspent => hspent.not_live hs.names h.stored h.unused

theorem SetupWorld.Sound.not_settled (hs : s.Sound) {c : Completion} (h : c.Admitted s i) :
    c.token.userId ∉ s.succeeded.map (·.token.userId) := by
  intro hmem
  obtain ⟨before, hbefore, hsame⟩ := List.mem_map.1 hmem
  obtain ⟨user, huser, hpassword⟩ := hs.settled before hbefore
  obtain ⟨user', huser', hawaits⟩ := h.awaits
  rw [show before.token.userId = c.token.userId from hsame, huser'] at huser
  cases huser
  rw [SetupUser.awaitsPassword, Bool.and_eq_true, Option.isNone_iff_eq_none] at hawaits
  rw [hawaits.2] at hpassword
  cases hpassword

theorem sound_commitCompletion {c : Completion} (hs : s.Sound) (h : c.Admitted s i) :
    (commitCompletion s i c).Sound := by
  have hheld : ∀ rawToken ∈ [c.token.rawToken], s.locks (.token rawToken) = some i := by
    intro rawToken hmem
    rw [List.mem_singleton.1 hmem]
    exact h.held
  have husers : ∀ userId, (commitCompletion s i c).users userId = s.users userId ∨
      s.locks (.user userId) = some i := by
    intro userId
    by_cases hsame : userId = c.token.userId
    · exact .inr (hsame ▸ h.owner)
    · exact .inl (Function.update_of_ne hsame ..)
  have htokens : (commitCompletion s i c).tokens =
      consume [c.token.rawToken] c.now s.tokens ++ [] := (List.append_nil _).symm
  have hname : c.token.rawToken ∈ s.names := List.mem_map.2 ⟨c.token, h.stored, rfl⟩
  obtain ⟨user, huser, -⟩ := h.awaits
  refine ⟨?_, ?_, ?_, ?_, ?_, ?_, ?_⟩
  · show ((consume _ _ s.tokens).map (·.rawToken)).Nodup
    rw [names_consume]
    exact hs.names
  · intro j pc hcall
    by_cases hj : j = i
    · subst hj
      simp [commitCompletion, SetupWorld.close] at hcall
    · have hbefore : s.calls j = some pc := by
        rw [← hcall]
        exact (Function.update_of_ne hj ..).symm
      have hk : Kept s (commitCompletion s i c) j :=
        kept_consume hj rfl rfl htokens hheld (by simp) husers
      exact hk.relies (hs.relies j pc hbefore)
  · intro other hother
    rcases List.mem_append.1 hother with hold | hnew
    · exact (hs.spent other hold).consume
    · obtain rfl := List.mem_singleton.1 hnew
      exact spent_consume (List.mem_singleton_self _) hname
  · intro other hother
    have hsettled : (commitCompletion s i c).users c.token.userId =
        some { user with passwordHash := some c.password } := by
      simp [commitCompletion, huser]
    by_cases hsame : other.token.userId = c.token.userId
    · rw [hsame]
      exact ⟨_, hsettled, rfl⟩
    · rcases List.mem_append.1 hother with hold | hnew
      · obtain ⟨before, hbefore, hpassword⟩ := hs.settled other hold
        refine ⟨before, ?_, hpassword⟩
        rw [← hbefore]
        exact Function.update_of_ne hsame ..
      · exact absurd (congrArg (·.token.userId) (List.mem_singleton.1 hnew)) hsame
  · show ((s.succeeded ++ [c]).map _).Nodup
    rw [List.map_append]
    refine List.nodup_append.2 ⟨hs.once, by simp, ?_⟩
    rintro rawToken hold _ hnew rfl
    obtain ⟨before, hbefore, rfl⟩ := List.mem_map.1 hold
    have hsame : before.token.rawToken = c.token.rawToken := by simpa using hnew
    exact hs.not_spent h.toHolds (hsame ▸ hs.spent before hbefore)
  · show ((s.succeeded ++ [c]).map _).Nodup
    rw [List.map_append]
    refine List.nodup_append.2 ⟨hs.first, by simp, ?_⟩
    rintro userId hold _ hnew rfl
    obtain rfl : userId = c.token.userId := by simpa using hnew
    exact hs.not_settled h hold
  · intro rawToken hmem
    exact (hs.superseded rawToken hmem).consume

theorem sound_commitCreation {creation : Creation} {token : SetupToken} (hs : s.Sound)
    (h : creation.Issues token s i) : (commitCreation s i creation token).Sound := by
  have hadded : ∀ row ∈ [token], s.locks (.token row.rawToken) = some i := by
    intro row hrow
    rw [List.mem_singleton.1 hrow]
    exact h.entry
  refine ⟨?_, ?_, ?_, hs.settled, hs.once, hs.first, ?_⟩
  · show ((consume _ _ s.tokens ++ [token]).map (·.rawToken)).Nodup
    rw [List.map_append, names_consume]
    refine List.nodup_append.2 ⟨hs.names, by simp, ?_⟩
    rintro rawToken hold _ hnew rfl
    obtain rfl : rawToken = token.rawToken := by simpa using hnew
    exact h.new hold
  · intro j pc hcall
    by_cases hj : j = i
    · subst hj
      simp [commitCreation, SetupWorld.close] at hcall
    · have hbefore : s.calls j = some pc := by
        rw [← hcall]
        exact (Function.update_of_ne hj ..).symm
      have hk : Kept s (commitCreation s i creation token) j :=
        kept_consume hj rfl rfl rfl h.held hadded fun _ => .inl rfl
      exact hk.relies (hs.relies j pc hbefore)
  · intro c hc
    exact ((hs.spent c hc).consume).append [token]
  · intro rawToken hmem
    rcases List.mem_append.1 hmem with hold | hseen
    · exact ((hs.superseded rawToken hold).consume).append [token]
    · rcases h.covered rawToken hseen with hspent | htodo | htaken
      · exact hspent.consume.append [token]
      · rw [h.done] at htodo
        cases htodo
      · exact (spent_consume htaken (h.stored rawToken (.inr htaken))).append [token]

theorem SetupWorld.Sound.step (hs : s.Sound) {a : SetupAction} (hstep : setupStep s a = some t) : t.Sound := by
  cases a with
  | complete i rawToken password =>
    simp only [setupStep] at hstep
    split_ifs at hstep
    · cases hstep
      exact hs
    · cases hstep
      exact hs.put (Nat.le_refl _)
  | lockToken i =>
    simp only [setupStep] at hstep
    split at hstep
    · rename_i rawToken password startedAt hcall
      exact sound_lockToken hs (hs.relies i _ hcall) hstep
    · cases hstep
  | lockUser i =>
    simp only [setupStep] at hstep
    split at hstep
    · rename_i c hcall
      exact sound_lockOwner hs (hs.relies i _ hcall) hstep
    · cases hstep
  | flush i =>
    simp only [setupStep] at hstep
    split at hstep
    · rename_i c hcall
      have hadmitted : c.Admitted s i := hs.relies i _ hcall
      cases hstep
      exact hs.put hadmitted
    · cases hstep
  | createSession i =>
    simp only [setupStep] at hstep
    split at hstep
    · rename_i c hcall
      have hadmitted : c.Admitted s i := hs.relies i _ hcall
      cases hstep
      exact hs.put hadmitted
    · cases hstep
  | create i userId lifetime =>
    simp only [setupStep] at hstep
    split_ifs at hstep
    · cases hstep
      exact hs.put trivial
    · cases hstep
      exact hs
  | supersede i =>
    simp only [setupStep] at hstep
    split at hstep
    · cases hstep
      exact sound_supersede hs
    · cases hstep
  | supersedeNext i =>
    simp only [setupStep] at hstep
    split at hstep
    · rename_i creation hcall
      exact sound_supersedeNext hs (hs.relies i _ hcall) hstep
    · cases hstep
  | insertToken i rawToken =>
    simp only [setupStep] at hstep
    split at hstep
    · rename_i creation hcall
      exact sound_insertToken hs (hs.relies i _ hcall) hstep
    · cases hstep
  | commit i =>
    simp only [setupStep] at hstep
    split at hstep
    · rename_i c hcall
      cases hstep
      exact sound_commitCompletion hs (hs.relies i _ hcall)
    · rename_i creation token hcall
      cases hstep
      exact sound_commitCreation hs (hs.relies i _ hcall)
    · cases hstep
  | fail i =>
    simp only [setupStep] at hstep
    split_ifs at hstep
    cases hstep
    exact hs.close
  | tick elapsed =>
    simp only [setupStep, Option.some.injEq] at hstep
    subst hstep
    refine ⟨hs.names, ?_, hs.spent, hs.settled, hs.once, hs.first, hs.superseded⟩
    intro j pc hcall
    have hk : Kept s { s with clock := s.clock + elapsed } j :=
      Kept.of_rows (Nat.le_add_right _ _) rfl rfl fun _ h => h
    exact hk.relies (hs.relies j pc hcall)

theorem sound_of_reaches {users : Nat → Option SetupUser}
    (h : Reaches setupStep anyStep (beforeSetup users) s) : s.Sound := by
  refine h.invariant (fun _ _ _ hs _ hstep => hs.step hstep) ?_
  exact ⟨List.nodup_nil, (fun _ _ h => nomatch h), (fun _ h => nomatch h), (fun _ h => nomatch h),
    List.nodup_nil, List.nodup_nil, fun _ h => nomatch h⟩

/-- A step that is not a commit changes no row. -/
theorem rows_of_not_commit {a : SetupAction} (hstep : setupStep s a = some t)
    (hnot : ∀ i, a ≠ .commit i) :
    t.users = s.users ∧ t.tokens = s.tokens ∧ t.signedIn = s.signedIn ∧
      t.succeeded = s.succeeded := by
  cases a with
  | complete i rawToken password =>
    simp only [setupStep] at hstep
    split_ifs at hstep <;> cases hstep <;> exact ⟨rfl, rfl, rfl, rfl⟩
  | lockToken i =>
    simp only [setupStep, lockTokenStep] at hstep
    repeat' split at hstep
    all_goals first | cases hstep; exact ⟨rfl, rfl, rfl, rfl⟩ | cases hstep
  | lockUser i =>
    simp only [setupStep, lockOwnerStep] at hstep
    repeat' split at hstep
    all_goals first | cases hstep; exact ⟨rfl, rfl, rfl, rfl⟩ | cases hstep
  | flush i =>
    simp only [setupStep] at hstep
    split at hstep <;> cases hstep
    exact ⟨rfl, rfl, rfl, rfl⟩
  | createSession i =>
    simp only [setupStep] at hstep
    split at hstep <;> cases hstep
    exact ⟨rfl, rfl, rfl, rfl⟩
  | create i userId lifetime =>
    simp only [setupStep] at hstep
    split_ifs at hstep <;> cases hstep <;> exact ⟨rfl, rfl, rfl, rfl⟩
  | supersede i =>
    simp only [setupStep] at hstep
    split at hstep <;> cases hstep
    exact ⟨rfl, rfl, rfl, rfl⟩
  | supersedeNext i =>
    simp only [setupStep, supersedeNextStep] at hstep
    repeat' split at hstep
    all_goals first | cases hstep; exact ⟨rfl, rfl, rfl, rfl⟩ | cases hstep
  | insertToken i rawToken =>
    simp only [setupStep, insertTokenStep] at hstep
    repeat' split at hstep
    all_goals first | cases hstep; exact ⟨rfl, rfl, rfl, rfl⟩ | cases hstep
  | commit i => exact absurd rfl (hnot i)
  | fail i =>
    simp only [setupStep] at hstep
    split_ifs at hstep
    cases hstep
    exact ⟨rfl, rfl, rfl, rfl⟩
  | tick elapsed =>
    simp only [setupStep, Option.some.injEq] at hstep
    subst hstep
    exact ⟨rfl, rfl, rfl, rfl⟩

/-- What a commit may do with a completion: its token has not been used or superseded and had not
expired when it was asked for, and its account had no password. -/
structure Succeeds (s : SetupWorld) (c : Completion) : Prop where
  unused : c.token.rawToken ∉ s.succeeded.map (·.token.rawToken)
  current : c.token.rawToken ∉ s.superseded
  unexpired : c.startedAt < c.token.expiresAt
  first : c.token.userId ∉ s.succeeded.map (·.token.userId)

theorem succeeds_of_commit (hs : s.Sound) (hstep : setupStep s (.commit i) = some t) :
    t.succeeded = s.succeeded ∧ t.users = s.users ∧ t.signedIn = s.signedIn ∨
      ∃ c, t.succeeded = s.succeeded ++ [c] ∧ Succeeds s c := by
  simp only [setupStep] at hstep
  split at hstep
  · rename_i c hcall
    have h : c.Admitted s i := hs.relies i _ hcall
    cases hstep
    refine .inr ⟨c, rfl, ?_, ?_, h.unexpired, hs.not_settled h⟩
    · intro hmem
      obtain ⟨before, hbefore, hsame⟩ := List.mem_map.1 hmem
      have hspent := hs.spent before hbefore
      rw [show before.token.rawToken = c.token.rawToken from hsame] at hspent
      exact hs.not_spent h.toHolds hspent
    · intro hmem
      exact hs.not_spent h.toHolds (hs.superseded _ hmem)
  · cases hstep
    exact .inl ⟨rfl, rfl, rfl⟩
  · cases hstep

/-- Account-setup tokens are single use, in every run. -/
theorem setup_tokens_single_use {users : Nat → Option SetupUser}
    (h : Reaches setupStep anyStep (beforeSetup users) s) :
    (s.succeeded.map (·.token.rawToken)).Nodup ∧ (s.succeeded.map (·.token.userId)).Nodup ∧
      (∀ a t, setupStep s a = some t → (∀ i, a ≠ .commit i) →
        t.users = s.users ∧ t.tokens = s.tokens ∧ t.signedIn = s.signedIn ∧
          t.succeeded = s.succeeded) ∧
      ∀ i t, setupStep s (.commit i) = some t →
        t.succeeded = s.succeeded ∧ t.users = s.users ∧ t.signedIn = s.signedIn ∨
          ∃ c, t.succeeded = s.succeeded ++ [c] ∧ Succeeds s c := by
  have hs := sound_of_reaches h
  exact ⟨hs.once, hs.first, fun a t => rows_of_not_commit, fun i t => succeeds_of_commit hs⟩

end step

def issueToken (call : SetupCallId) (rawToken : String) (waits : Nat) : List SetupAction :=
  [.create call 7 100, .supersede call] ++ List.replicate waits (.supersedeNext call) ++
    [.insertToken call rawToken, .commit call]

/-- The second link takes the place of the first, and sets the password. -/
def secondLink : List SetupAction :=
  issueToken 0 "first" 0 ++ issueToken 1 "second" 1 ++
    [.complete 2 "first" "pw", .lockToken 2, .complete 3 "second" "pw", .lockToken 3, .lockUser 3,
      .flush 3, .createSession 3, .commit 3]

theorem setup_tokens_single_use_second_link :
    ∃ s, Reaches setupStep anyStep (beforeSetup fun _ => some ⟨true, none⟩) s ∧
      s.succeeded.length = 1 ∧ s.superseded.length = 1 ∧
      (s.succeeded.map (·.token.rawToken)).Nodup ∧ (s.succeeded.map (·.token.userId)).Nodup ∧
      (∀ a t, setupStep s a = some t → (∀ i, a ≠ .commit i) →
        t.users = s.users ∧ t.tokens = s.tokens ∧ t.signedIn = s.signedIn ∧
          t.succeeded = s.succeeded) ∧
      ∀ i t, setupStep s (.commit i) = some t →
        t.succeeded = s.succeeded ∧ t.users = s.users ∧ t.signedIn = s.signedIn ∨
          ∃ c, t.succeeded = s.succeeded ++ [c] ∧ Succeeds s c := by
  have hrun : (exec setupStep (beforeSetup fun _ => some ⟨true, none⟩) secondLink).map
      (fun s => s.succeeded.length == 1 && s.superseded.length == 1) = some true := by
    decide +kernel
  obtain ⟨s, hs, hcounts⟩ := reaches_of_exec_check hrun
  obtain ⟨hsucceeded, hsuperseded⟩ := Bool.and_eq_true_iff.1 hcounts
  exact ⟨s, hs, by simpa using hsucceeded, by simpa using hsuperseded,
    setup_tokens_single_use hs⟩

end FounderOs.Auth
