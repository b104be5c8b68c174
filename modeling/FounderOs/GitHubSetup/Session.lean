import FounderOs.Foundation.Outcome
import FounderOs.GitHubSetup.Repositories

namespace FounderOs.GitHubSetup

open Proposals Connectors

abbrev UserId := Nat
abbrev CredentialId := Nat
abbrev ConnectionId := Nat

/-- In minutes. -/
def githubAppSetupTtl : Nat := 60
def githubAppOauthTtl : Nat := 15
def githubAppRepositorySelectionTtl : Nat := 24 * 60

inductive SetupPhase where
  | manifestPending | manifestExchanging | installationPending | oauthPending | oauthExchanging
  | repositorySelection | completed | failed | cancelled
  deriving DecidableEq, Repr

/-- A row of `github_app_setup_sessions`. -/
structure GitHubAppSetupSession where
  createdByUserId : UserId
  credentialId : Option CredentialId
  connectionId : Option ConnectionId
  phase : SetupPhase
  stateHash : Option Str
  encryptedPkceVerifier : Option Str
  appOrigin : Str
  installationId : Option Str
  installationAccountLogin : Option Str
  installationAccountId : Option Str
  repositorySelection : Option Str
  repositoryInventory : List SetupRepository
  errorCode : Option Str
  expiresAt : Nat
  completedAt : Option Nat
  cancelledAt : Option Nat
  deriving DecidableEq

inductive ConnectionStatus where
  | connected | disabled | other
  deriving DecidableEq

structure Connection where
  id : ConnectionId
  ofWorkspace : Bool
  ofGitHub : Bool
  status : ConnectionStatus
  installationVerified : Bool
  deriving DecidableEq

/-- An active installation of the workspace. -/
structure Installation where
  credentialId : CredentialId
  connectionId : ConnectionId
  installationId : Str
  accountLogin : Str
  accountId : Option Str
  repositorySelection : Str
  deriving DecidableEq

/-- The keyed digest of `secret_encryption`, `none` where it raises. -/
structure Server extends Platform where
  keyedSecretDigest : Str → Option Str

/-- The code of a `GitHubAppSetupError`. -/
abbrev SetupError := String

def stateInvalid : SetupError := "github_app_setup_state_invalid"
def storageUnavailable : SetupError := "github_app_secret_storage_unavailable"
def credentialsUnavailable : SetupError := "github_app_credentials_unavailable"

def errorCodeChar (c : Nat) : Bool := RepositoryAudit.isLower c || RepositoryAudit.isDigit c || c == 95

def safeErrorCode (value : Option Str) (fallback : String) : Str :=
  ((safeText 120 (Connectors.optional value)).filter (·.all errorCodeChar)).getD (Str.of fallback)

namespace GitHubAppSetupSession

variable (setup : GitHubAppSetupSession)

def expired (now : Nat) : Bool := setup.expiresAt ≤ now

def fail (errorCode : Option Str) : GitHubAppSetupSession :=
  { setup with
    phase := .failed
    stateHash := none
    errorCode := some (safeErrorCode errorCode "github_app_setup_failed") }

end GitHubAppSetupSession

def hashState (server : Server) (value : Str) : Except SetupError Str :=
  if value = [] ∨ 1024 < value.length then .error stateInvalid
  else (server.keyedSecretDigest value).elim (.error storageUnavailable) .ok

/-- What a start reads beside the row of the setup; a text that is not let through has its code. -/
structure StartReads where
  secretStorageReady : Bool
  appOrigin : Except SetupError Str
  owner : Except SetupError Unit
  workspaceFound : Bool
  installationFound : Bool
  credentialFound : Bool

def StartReads.check (reads : StartReads) : Except SetupError Str :=
  if !reads.secretStorageReady then .error storageUnavailable
  else do
    let safeOrigin ← reads.appOrigin
    reads.owner
    if !reads.workspaceFound then .error "workspace_not_found"
    else if reads.installationFound then .error "github_app_already_connected"
    else if reads.credentialFound then .error "github_app_already_created"
    else .ok safeOrigin

section requests

variable (server : Server) (now : Nat) (actor : UserId)

/-- Of the row that it finds, a start keeps nothing but the key. -/
def startGithubAppManifestSetup (reads : StartReads) (rawState : Str) :
    Except SetupError GitHubAppSetupSession := do
  let safeOrigin ← reads.check
  let stateHash ← hashState server rawState
  .ok {
    createdByUserId := actor
    credentialId := none
    connectionId := none
    phase := .manifestPending
    stateHash := some stateHash
    encryptedPkceVerifier := none
    appOrigin := safeOrigin
    installationId := none
    installationAccountLogin := none
    installationAccountId := none
    repositorySelection := none
    repositoryInventory := []
    errorCode := none
    expiresAt := now + githubAppSetupTtl
    completedAt := none
    cancelledAt := none }

/-- The WHERE clause of `_claim_setup_state`, beside the workspace. -/
def claimable (rawState : Str) (expectedPhase : SetupPhase) (setup : GitHubAppSetupSession) : Bool :=
  match hashState server rawState with
  | .ok stateHash =>
    setup.createdByUserId == actor && setup.stateHash == some stateHash &&
      setup.phase == expectedPhase
  | .error _ => false

def claimSetupState (rawState : Str) (claimedPhase : SetupPhase)
    (row : Option GitHubAppSetupSession) : Except SetupError GitHubAppSetupSession := do
  let _ ← hashState server rawState
  match row with
  | none => .error stateInvalid
  | some setup =>
    if setup.expired now then .error stateInvalid
    else .ok { setup with phase := claimedPhase, stateHash := none }

/-- `stored` is the credential of the conversion, or the code of what stopped it. -/
def finishManifest (stored : Except (Option Str) CredentialId) (setup : GitHubAppSetupSession) :
    GitHubAppSetupSession :=
  match stored with
  | .error code => setup.fail (some (safeErrorCode code "manifest_setup_failed"))
  | .ok credential =>
    { setup with
      credentialId := some credential
      phase := .installationPending
      errorCode := none
      expiresAt := now + githubAppSetupTtl }

/-- The WHERE clause of `_owned_setup_for_update`, beside the workspace. -/
def owned (setup : GitHubAppSetupSession) : Bool := setup.createdByUserId == actor

def launchGithubAppInstallation (credentialFound : Bool) (rawState : Str)
    (row : Option GitHubAppSetupSession) : Except SetupError GitHubAppSetupSession :=
  match row with
  | none => .error "github_app_setup_not_ready"
  | some setup =>
    if !credentialFound then .error "github_app_setup_not_ready"
    else if setup.phase ≠ .installationPending ∧ setup.phase ≠ .failed then
      .error "github_app_installation_not_available"
    else do
      let stateHash ← hashState server rawState
      .ok { setup with
        phase := .installationPending
        stateHash := some stateHash
        errorCode := none
        expiresAt := now + githubAppSetupTtl }

/-- `begin_github_app_oauth_from_installation`, to where it calls the provider. -/
def beginGithubAppOauth (state : Str) (row : Option GitHubAppSetupSession) :
    Except SetupError GitHubAppSetupSession :=
  match row with
  | none => .error stateInvalid
  | some setup =>
    if setup.phase ≠ .installationPending ∨ setup.expired now then .error stateInvalid
    else do
      let stateHash ← hashState server state
      if setup.stateHash ≠ some stateHash then .error stateInvalid
      else .ok { setup with stateHash := none }

/-- How the reading of the credentials and of the installation ends; `verifier` is the encrypted one,
`none` where the encryption fails. -/
inductive InstallationOutcome where
  | storageUnavailable
  | credentialsUnavailable
  | rejected (code : Str)
  | verified (installation : Installation) (verifier : Option Str) (oauthState : Str)
  deriving DecidableEq

def finishBegin (outcome : InstallationOutcome) (setup : GitHubAppSetupSession) :
    Except SetupError GitHubAppSetupSession :=
  match outcome with
  | .storageUnavailable =>
    .ok { setup.fail (some (Str.of storageUnavailable)) with encryptedPkceVerifier := none }
  | .credentialsUnavailable => .ok (setup.fail (some (Str.of credentialsUnavailable)))
  | .rejected code => .ok (setup.fail (some code))
  | .verified installation verifier oauthState =>
    let bound := { setup with
      installationId := some installation.installationId
      installationAccountLogin := some installation.accountLogin
      installationAccountId := installation.accountId
      repositorySelection := some installation.repositorySelection }
    match verifier with
    | none => .ok (bound.fail (some (Str.of storageUnavailable)))
    | some verifier => do
      let stateHash ← hashState server oauthState
      .ok { bound with
        encryptedPkceVerifier := some verifier
        stateHash := some stateHash
        phase := .oauthPending
        errorCode := none
        expiresAt := now + githubAppOauthTtl }

/-- What the exchange of the code and the verification of the installation come to; `credential` is
the active one with the OAuth secret of it. -/
inductive OauthOutcome where
  | storageUnavailable
  | exchanged (credential : Option CredentialId)
      (verified : Except (Option Str) (ConnectionId × Installation))

def finishOauth (outcome : OauthOutcome) (setup : GitHubAppSetupSession) :
    GitHubAppSetupSession :=
  match outcome with
  | .storageUnavailable =>
    { setup.fail (some (Str.of storageUnavailable)) with encryptedPkceVerifier := none }
  | .exchanged none _ => setup.fail (some (Str.of credentialsUnavailable))
  | .exchanged (some credential) verified =>
    if setup.installationId = none ∨ setup.encryptedPkceVerifier = none then
      setup.fail (some (Str.of credentialsUnavailable))
    else match verified with
    | .error code =>
      { setup.fail (some (safeErrorCode code "oauth_verification_failed")) with
        encryptedPkceVerifier := none }
    | .ok (connection, installation) =>
      { setup with
        credentialId := some credential
        connectionId := some connection
        installationId := some installation.installationId
        installationAccountLogin := some installation.accountLogin
        installationAccountId := installation.accountId
        repositorySelection := some installation.repositorySelection
        repositoryInventory := []
        encryptedPkceVerifier := none
        phase := .repositorySelection
        errorCode := some (Str.of "repository_inventory_pending")
        expiresAt := now + githubAppRepositorySelectionTtl }

def cancelGithubAppOauth (setup : GitHubAppSetupSession) : GitHubAppSetupSession :=
  { setup with
    encryptedPkceVerifier := none
    errorCode := some (Str.of "oauth_denied")
    cancelledAt := some now
    expiresAt := now + githubAppSetupTtl }

/-- `_repository_setup_for_update`, once the row is locked: only a connected setup goes over to
another actor. -/
def repositorySetupForUpdate (connection : Option Connection) (setup : GitHubAppSetupSession) :
    Option GitHubAppSetupSession :=
  if setup.createdByUserId = actor then some setup
  else if setup.phase ≠ .completed ∧ setup.phase ≠ .repositorySelection then none
  else
    match connection.filter (fun found =>
        setup.connectionId == some found.id && found.ofWorkspace && found.ofGitHub) with
    | none => none
    | some found =>
      if found.status = .connected then some { setup with createdByUserId := actor } else none

/-- What a refresh reads beside its row and what the provider lists, `none` where it fails. -/
structure RefreshReads where
  connection : Option Connection
  installation : Option Installation
  credential : Option CredentialId
  repositories : Option (List Object)

/-- A refresh commits its row also where it raises. -/
def refreshGithubAppRepositoryInventory (reads : RefreshReads) (row : GitHubAppSetupSession) :
    GitHubAppSetupSession :=
  match repositorySetupForUpdate actor reads.connection row, reads.installation with
  | none, _ => row
  | some setup, none => setup
  | some setup, some installation =>
    if reads.credential ≠ some installation.credentialId ∨
        setup.phase ≠ .repositorySelection ∧ setup.phase ≠ .completed then setup
    else match reads.repositories with
    | none => { setup with errorCode := some (Str.of "repository_inventory_unavailable") }
    | some raw =>
      let repositories := normalizeProviderRepositories server.toPlatform raw
      let listed := { setup with
        phase := .repositorySelection
        completedAt := if setup.phase = .completed then none else setup.completedAt
        repositoryInventory := repositories
        errorCode := if repositories = [] then some (Str.of "repository_inventory_empty") else none
        expiresAt := now + githubAppRepositorySelectionTtl }
      if setup.phase = .completed then
        match reads.connection.filter
            (fun found => found.id == installation.connectionId && found.ofWorkspace) with
        | none => setup
        | some found =>
          if found.status = .connected ∧ setup.connectionId = some found.id then listed else setup
      else listed

structure FinalizeReads where
  connection : Option Connection
  installation : Option Installation
  credential : Option CredentialId

def FinalizeReads.verified (reads : FinalizeReads) (setup : GitHubAppSetupSession) : Bool :=
  match reads.connection, reads.installation, reads.credential with
  | some connection, some installation, some credential =>
    setup.connectionId == some connection.id && connection.ofWorkspace && connection.ofGitHub &&
      (connection.status == .disabled || connection.status == .connected) &&
      connection.installationVerified && setup.connectionId == some installation.connectionId &&
      setup.installationId == some installation.installationId &&
      setup.credentialId == some credential && installation.credentialId == credential
  | _, _, _ => false

def finalizeGithubAppRepositories (reads : FinalizeReads) (selectedRepositories : List Str)
    (row : Option GitHubAppSetupSession) : Except SetupError GitHubAppSetupSession :=
  match row with
  | none => .error "repository_selection_not_available"
  | some setup =>
    let platform := server.toPlatform
    let byFullName := (safeRepositoryInventory platform setup.repositoryInventory).map
      fun repository => (folded platform repository.fullName, repository)
    let selected := normalizeSelectedRepositoryNames platform selectedRepositories
    if setup.expired now then .error "setup_expired"
    else if setup.phase ≠ .repositorySelection then .error "repository_selection_not_available"
    else if selected = [] then .error "repository_selection_required"
    else if githubAppMaxSelectedRepositories < selected.length then
      .error "repository_selection_too_large"
    else if selected.any fun name => (Dict.get byFullName (folded platform name)).isNone then
      .error "repository_selection_invalid"
    else if !reads.verified setup then .error "github_app_installation_not_verified"
    else .ok { setup with
      repositoryInventory :=
        selected.filterMap fun name => Dict.get byFullName (folded platform name)
      phase := .completed
      completedAt := some now
      errorCode := none
      expiresAt := now + githubAppRepositorySelectionTtl }

structure RestartReads where
  credential : Option CredentialId
  installation : Option Installation
  connection : Option Connection

/-- The connection of the active installation of the active credential. -/
def RestartReads.connected (reads : RestartReads) : Option Connection :=
  match reads.credential, reads.installation with
  | some credential, some installation =>
    if installation.credentialId = credential then
      reads.connection.filter fun found =>
        found.id == installation.connectionId && found.ofWorkspace
    else none
  | _, _ => none

def restartGithubAppSetup (reads : RestartReads) (setup : GitHubAppSetupSession) :
    GitHubAppSetupSession :=
  let reset := { setup with
    createdByUserId := actor
    stateHash := none
    encryptedPkceVerifier := none
    errorCode := none
    cancelledAt := none
    expiresAt := now + githubAppSetupTtl }
  let fresh :=
    match reads.credential with
    | some credential =>
      { reset with
        phase := .installationPending
        credentialId := some credential
        installationId := none
        repositoryInventory := [] }
    | none => { reset with phase := .cancelled, cancelledAt := some now }
  match reads.connected with
  | none => fresh
  | some found =>
    match found.status with
    | .connected => { reset with phase := .completed, connectionId := some found.id }
    | .disabled => { reset with phase := .repositorySelection, connectionId := some found.id }
    | .other => fresh

end requests

end FounderOs.GitHubSetup
