import FounderOs.Foundation.Transition
import FounderOs.GitHubSetup.Session
import Mathlib.Logic.Function.Basic

namespace FounderOs.GitHubSetup

abbrev WorkspaceId := Nat
abbrev CallId := Nat

/-- The step of the handshake that a state token stands for. -/
inductive Leg where
  | manifest | installation | oauth
  deriving DecidableEq, Repr

/-- The phase in which the callback of the step is expected. -/
def Leg.phase : Leg → SetupPhase
  | .manifest => .manifestPending
  | .installation => .installationPending
  | .oauth => .oauthPending

/-- A state token that a committed request has given out. -/
structure Issue where
  workspaceId : WorkspaceId
  actor : UserId
  leg : Leg
  state : Str
  expiresAt : Nat
  deriving DecidableEq

/-- A callback whose request has passed the checks of its token and has committed; `phase` is that of
the row when it passed them. -/
structure Callback where
  workspaceId : WorkspaceId
  actor : UserId
  leg : Leg
  state : Str
  phase : SetupPhase
  receivedAt : Nat
  deriving DecidableEq

inductive SetupEvent where
  | issued (issue : Issue)
  | accepted (callback : Callback)
  deriving DecidableEq

def SetupEvent.workspaceId : SetupEvent → WorkspaceId
  | .issued issue => issue.workspaceId
  | .accepted callback => callback.workspaceId

/-- What a request brings, with the token that it draws and what its reads of other tables return:
these are not locked, so they may return anything. -/
inductive SetupRequest where
  | start (reads : StartReads) (rawState : Str)
  | completeManifest (state : Str)
  | launch (credentialFound : Bool) (rawState : Str)
  | begin (state : Str)
  | completeOauth (state : Str)
  | cancel (state : Str)
  | refresh (reads : RefreshReads)
  | finalize (reads : FinalizeReads) (selectedRepositories : List Str)
  | restart (reads : RestartReads)

/-- How the calls of the provider end. -/
inductive ProviderAnswer where
  | manifest (stored : Except (Option Str) CredentialId)
  | installation (outcome : InstallationOutcome)
  | oauth (outcome : OauthOutcome)

inductive SetupPc where
  | requested (request : SetupRequest)
  | inserting (row : GitHubAppSetupSession) (issue : Issue)
  | exchanging (setup : GitHubAppSetupSession) (callback : Callback)
  | writing (row : GitHubAppSetupSession) (events : List SetupEvent)

structure SetupCall where
  workspaceId : WorkspaceId
  actor : UserId
  pc : SetupPc

/-- `locks` is who holds the row of a workspace, or the entry of an uncommitted one in the unique
index. `events` is history, in the order of the commits. -/
structure SetupWorld where
  clock : Nat
  rows : WorkspaceId → Option GitHubAppSetupSession
  locks : WorkspaceId → Option CallId
  calls : CallId → Option SetupCall
  events : List SetupEvent

/-- `fail` is any end that is not named: a rollback, a lost connection, an error of the unique index
on the hashes. -/
inductive SetupAction where
  | request (call : CallId) (workspaceId : WorkspaceId) (actor : UserId) (request : SetupRequest)
  | lock (call : CallId)
  | insert (call : CallId)
  | answer (call : CallId) (answer : ProviderAnswer)
  | commit (call : CallId)
  | fail (call : CallId)
  | tick (elapsed : Nat)

namespace SetupWorld

variable (s : SetupWorld) (i : CallId)

def put (call : SetupCall) : SetupWorld :=
  { s with calls := Function.update s.calls i (some call) }

def hold (call : SetupCall) : SetupWorld :=
  { s.put i call with locks := Function.update s.locks call.workspaceId (some i) }

def close (workspaceId : WorkspaceId) : SetupWorld :=
  { s with
    locks := if s.locks workspaceId = some i then Function.update s.locks workspaceId none
      else s.locks
    calls := Function.update s.calls i none }

end SetupWorld

/-- The rows that the SELECT of a request locks. -/
def SetupRequest.locks (server : Server) (actor : UserId) :
    SetupRequest → GitHubAppSetupSession → Bool
  | .completeManifest state => claimable server actor state .manifestPending
  | .completeOauth state | .cancel state => claimable server actor state .oauthPending
  | .launch _ _ | .begin _ | .finalize _ _ => owned actor
  | .start _ _ | .refresh _ | .restart _ => fun _ => true

section steps

variable (server : Server) (s : SetupWorld) (i : CallId)

/-- What a request does once its SELECT has come back with `row`, up to its commit or to its call of
the provider; `none` where it raises. -/
def perform (now : Nat) (workspaceId : WorkspaceId) (actor : UserId) (request : SetupRequest)
    (row : Option GitHubAppSetupSession) : Option SetupPc :=
  let callback (leg : Leg) (state : Str) : Option Callback :=
    row.map fun setup => ⟨workspaceId, actor, leg, state, setup.phase, now⟩
  let issue (leg : Leg) (state : Str) (setup : GitHubAppSetupSession) : Issue :=
    ⟨workspaceId, actor, leg, state, setup.expiresAt⟩
  match request with
  | .start reads rawState =>
    (startGithubAppManifestSetup server now actor reads rawState).toOption.map fun setup =>
      if row.isNone then .inserting setup (issue .manifest rawState setup)
      else .writing setup [.issued (issue .manifest rawState setup)]
  | .completeManifest state =>
    (claimSetupState server now state .manifestExchanging row).toOption.bind fun setup =>
      (callback .manifest state).map fun callback => .exchanging setup callback
  | .launch credentialFound rawState =>
    (launchGithubAppInstallation server now credentialFound rawState row).toOption.map fun setup =>
      .writing setup [.issued (issue .installation rawState setup)]
  | .begin state =>
    (beginGithubAppOauth server now state row).toOption.bind fun setup =>
      (callback .installation state).map fun callback => .exchanging setup callback
  | .completeOauth state =>
    (claimSetupState server now state .oauthExchanging row).toOption.bind fun setup =>
      (callback .oauth state).map fun callback => .exchanging setup callback
  | .cancel state =>
    (claimSetupState server now state .cancelled row).toOption.bind fun setup =>
      (callback .oauth state).map fun callback =>
        .writing (cancelGithubAppOauth now setup) [.accepted callback]
  | .refresh reads =>
    row.map fun setup => .writing (refreshGithubAppRepositoryInventory server now actor reads setup) []
  | .finalize reads selected =>
    (finalizeGithubAppRepositories server now reads selected row).toOption.map (.writing · [])
  | .restart reads => row.map fun setup => .writing (restartGithubAppSetup now actor reads setup) []

/-- `SELECT ... FOR UPDATE` locks nothing where no row is found, and waits where the row is locked. -/
def lockStep (workspaceId : WorkspaceId) (actor : UserId) (request : SetupRequest) :
    Option SetupWorld :=
  let row := (s.rows workspaceId).filter (request.locks server actor)
  match perform server s.clock workspaceId actor request row with
  | none => if row.isNone ∨ s.locks workspaceId = none then some (s.close i workspaceId) else none
  | some pc =>
    if row.isNone then some (s.put i ⟨workspaceId, actor, pc⟩)
    else if s.locks workspaceId = none then some (s.hold i ⟨workspaceId, actor, pc⟩) else none

/-- A second row for the workspace breaks the unique constraint. -/
def insertStep (call : SetupCall) (row : GitHubAppSetupSession) (issue : Issue) :
    Option SetupWorld :=
  if (s.rows call.workspaceId).isSome then some (s.close i call.workspaceId)
  else if s.locks call.workspaceId = none then
    some (s.hold i { call with pc := .writing row [.issued issue] })
  else none

/-- The token that the rest of an installation callback gives out. -/
def oauthIssue (callback : Callback) (row : GitHubAppSetupSession) :
    InstallationOutcome → List SetupEvent
  | .verified _ (some _) oauthState =>
    [.issued ⟨callback.workspaceId, callback.actor, .oauth, oauthState, row.expiresAt⟩]
  | _ => []

/-- The rest of a callback, after the provider's answer. -/
def finish (now : Nat) (setup : GitHubAppSetupSession) (callback : Callback)
    (answer : ProviderAnswer) : Option SetupPc :=
  match callback.leg, answer with
  | .manifest, .manifest stored =>
    some (.writing (finishManifest now stored setup) [.accepted callback])
  | .installation, .installation outcome =>
    (finishBegin server now outcome setup).toOption.map fun row =>
      .writing row (.accepted callback :: oauthIssue callback row outcome)
  | .oauth, .oauth outcome => some (.writing (finishOauth now outcome setup) [.accepted callback])
  | _, _ => none

def answerStep (call : SetupCall) (setup : GitHubAppSetupSession) (callback : Callback)
    (answer : ProviderAnswer) : SetupWorld :=
  match finish server s.clock setup callback answer with
  | some pc => s.put i { call with pc := pc }
  | none => s.close i call.workspaceId

def commitStep (call : SetupCall) (row : GitHubAppSetupSession) (events : List SetupEvent) :
    SetupWorld :=
  { s.close i call.workspaceId with
    rows := Function.update s.rows call.workspaceId (some row)
    events := s.events ++ events }

def setupStep (s : SetupWorld) : SetupAction → Option SetupWorld
  | .request i workspaceId actor request =>
    if s.calls i = none then some (s.put i ⟨workspaceId, actor, .requested request⟩) else none
  | .lock i =>
    match s.calls i with
    | some ⟨workspaceId, actor, .requested request⟩ =>
      lockStep server s i workspaceId actor request
    | _ => none
  | .insert i =>
    match s.calls i with
    | some ⟨workspaceId, actor, .inserting row issue⟩ =>
      insertStep s i ⟨workspaceId, actor, .inserting row issue⟩ row issue
    | _ => none
  | .answer i answer =>
    match s.calls i with
    | some ⟨workspaceId, actor, .exchanging setup callback⟩ =>
      some (answerStep server s i ⟨workspaceId, actor, .exchanging setup callback⟩ setup callback answer)
    | _ => none
  | .commit i =>
    match s.calls i with
    | some ⟨workspaceId, actor, .writing row events⟩ =>
      some (commitStep s i ⟨workspaceId, actor, .writing row events⟩ row events)
    | _ => none
  | .fail i =>
    (s.calls i).map fun call => s.close i call.workspaceId
  | .tick elapsed => some { s with clock := s.clock + elapsed }

end steps

def unstarted : SetupWorld := ⟨0, fun _ => none, fun _ => none, fun _ => none, []⟩

end FounderOs.GitHubSetup
