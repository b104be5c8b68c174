import FounderOs.Foundation.Str
import FounderOs.Foundation.Transition
import Mathlib.Data.List.Nodup
import Mathlib.Logic.Function.Basic
import Mathlib.Tactic.SplitIfs

namespace FounderOs.ConnectorControl

abbrev ConnectionId := Nat
abbrev CallId := Nat

inductive Provider where
  | github
  | jira
  | gmail
  | drive
  deriving DecidableEq

def Provider.name : Provider → Str
  | .github => Str.of "GitHub"
  | .jira => Str.of "Jira"
  | .gmail => Str.of "Gmail"
  | .drive => Str.of "Google Drive"

inductive ConnectionStatus where
  | connected
  | error
  | revoked
  | disabled
  deriving DecidableEq

/-- What `encrypt_secret` makes of a text, with the nonce that is drawn for it. -/
structure Encrypted where
  text : Str
  nonce : Nat
  deriving DecidableEq

structure ProbeError where
  code : Str
  message : Str
  providerCallPerformed : Bool
  deriving DecidableEq

structure ProbeResult where
  accountLabel : Option Str
  scopes : List Str
  recordsVisible : Option Nat
  deriving DecidableEq

/-- The receipt of a read check. -/
inductive ReadCheck where
  | failed (error : ProbeError) (checkedAt : Nat)
  | passed (result : ProbeResult) (checkedAt : Nat)
  deriving DecidableEq

/-- The entry `control_center` of a connection's metadata, without the receipt of the write check. -/
structure Control where
  authMethod : Option Str
  configuredAt : Option Nat
  credentialRemovedAt : Option Nat
  baseUrl : Option Str
  accountEmail : Option Str
  readCheck : Option ReadCheck
  deriving DecidableEq

structure Metadata where
  connectionMethod : Option Str
  createdVia : Option Str
  tokenValidated : Option Bool
  controlCenter : Option Control
  deriving DecidableEq

/-- A row of `integration_connections`. -/
structure Connection where
  id : ConnectionId
  createdAt : Nat
  status : ConnectionStatus
  displayName : Option Str
  externalAccountId : Option Str
  scopes : List Str
  encryptedAccessToken : Option Encrypted
  providerMetadata : Metadata
  lastError : Option Str
  deriving DecidableEq

/-- A configuration whose fields have passed their checks, as they are stored. -/
structure Configuration where
  authMethod : Str
  accessToken : Str
  displayName : Option Str
  accountEmail : Option Str
  scopes : List Str
  baseUrl : Option Str
  deriving DecidableEq

def controlSource : Str := Str.of "settings_integrations"

def Metadata.control (metadata : Metadata) : Control :=
  metadata.controlCenter.getD ⟨none, none, none, none, none, none⟩

def Metadata.passed (metadata : Metadata) : Bool :=
  match metadata.control.readCheck with
  | some (.passed _ _) => true
  | _ => false

namespace Connection

variable (connection : Connection)

def viaControl : Bool := connection.providerMetadata.createdVia = some controlSource

def baseUrl : Option Str := connection.providerMetadata.control.baseUrl

def accountEmail : Option Str := connection.providerMetadata.control.accountEmail

end Connection

section requests

variable (provider : Provider)

def Metadata.configured (config : Configuration) (now : Nat) : Metadata where
  connectionMethod := some config.authMethod
  createdVia := some controlSource
  tokenValidated := some false
  controlCenter := some
    { authMethod := some config.authMethod
      configuredAt := some now
      credentialRemovedAt := none
      baseUrl := config.baseUrl
      accountEmail := if provider = .jira then config.accountEmail else none
      readCheck := none }

def Metadata.disconnected (metadata : Metadata) (now : Nat) : Metadata :=
  { metadata with
    tokenValidated := some false
    controlCenter := some
      { metadata.control with
        credentialRemovedAt := some now
        baseUrl := none
        accountEmail := none
        readCheck := none } }

def Metadata.setReadCheck (metadata : Metadata) (receipt : ReadCheck) : Metadata :=
  { metadata with controlCenter := some { metadata.control with readCheck := some receipt } }

def Connection.apply (connection : Connection) (config : Configuration) (now nonce : Nat) :
    Connection :=
  { connection with
    status := .disabled
    displayName := some (config.displayName.getD provider.name)
    externalAccountId := config.accountEmail
    scopes := config.scopes
    encryptedAccessToken := some ⟨config.accessToken, nonce⟩
    providerMetadata := Metadata.configured provider config now
    lastError := none }

def Connection.disconnect (connection : Connection) (now : Nat) : Connection :=
  { connection with
    status := .disabled
    externalAccountId := none
    scopes := []
    encryptedAccessToken := none
    providerMetadata := connection.providerMetadata.disconnected now
    lastError := none }

def Connection.check (connection : Connection) (checkedAt : Nat) :
    Except ProbeError ProbeResult → Connection
  | .error error =>
    { connection with
      status := .error
      lastError := some error.code
      providerMetadata := connection.providerMetadata.setReadCheck (.failed error checkedAt) }
  | .ok result =>
    { connection with
      status := .connected
      lastError := none
      externalAccountId := match result.accountLabel with
        | none | some [] => connection.externalAccountId
        | some label => some (label.take 255)
      scopes := if result.scopes = [] then connection.scopes else result.scopes
      providerMetadata := { connection.providerMetadata with
        tokenValidated := some true }.setReadCheck (.passed result checkedAt) }

end requests

/-- A column that has been given the value it was loaded with is not in the update. -/
def column {A : Type} [DecidableEq A] (loaded new stored : A) : A :=
  if new = loaded then stored else new

/-- The row after the update of an object that was loaded and changed. -/
def Connection.update (loaded new stored : Connection) : Connection where
  id := stored.id
  createdAt := stored.createdAt
  status := column loaded.status new.status stored.status
  displayName := column loaded.displayName new.displayName stored.displayName
  externalAccountId :=
    column loaded.externalAccountId new.externalAccountId stored.externalAccountId
  scopes := column loaded.scopes new.scopes stored.scopes
  encryptedAccessToken :=
    column loaded.encryptedAccessToken new.encryptedAccessToken stored.encryptedAccessToken
  providerMetadata := column loaded.providerMetadata new.providerMetadata stored.providerMetadata
  lastError := column loaded.lastError new.lastError stored.lastError

/-- A request that has loaded its connection; a check also counts what had been committed then. -/
inductive ControlCall where
  | apply (config : Configuration) (loaded : Option Connection)
  | disconnect (loaded : Connection)
  | check (loaded : Connection) (checkedAt generation : Nat)
  | checked (loaded : Connection) (checkedAt generation : Nat)
      (outcome : Except ProbeError ProbeResult)

/-- A probe that the provider has answered, and what it was made with. -/
structure Probe where
  connection : ConnectionId
  token : Encrypted
  baseUrl : Option Str
  accountEmail : Option Str
  generation : Nat
  deriving DecidableEq

/-- The committed rows of a provider in a workspace, with the open requests. `generation` and `probes`
are history: how many configurations and removals have been committed, and the probes that succeeded. -/
structure ControlWorld where
  rows : List Connection
  calls : CallId → Option ControlCall
  generation : Nat
  probes : List Probe

/-- A row is named where the select leaves a choice. `fail` is any other end of a request: a
configuration that is refused, a lost connection, an exception of the probe. -/
inductive ControlAction where
  | apply (call : CallId) (config : Configuration) (id : Option ConnectionId)
  | commitApply (call : CallId) (id : ConnectionId) (createdAt now nonce : Nat)
  | disconnect (call : CallId) (id : ConnectionId)
  | commitDisconnect (call : CallId) (now : Nat)
  | readCheck (call : CallId) (id : ConnectionId) (checkedAt : Nat)
  | probe (call : CallId) (answer : Except ProbeError ProbeResult)
  | commitCheck (call : CallId)
  | fail (call : CallId)

namespace ControlWorld

variable (s : ControlWorld) (i : CallId)

def put (call : ControlCall) : ControlWorld :=
  { s with calls := Function.update s.calls i (some call) }

def close : ControlWorld := { s with calls := Function.update s.calls i none }

def settingsRows : List Connection := s.rows.filter (·.viaControl)

/-- `_settings_connection`: the newest row of the control center, any one of them on a tie. -/
def settingsConnection (id : ConnectionId) : Option Connection :=
  (s.settingsRows.find? (·.id = id)).filter fun row =>
    s.settingsRows.all fun other => other.createdAt ≤ row.createdAt

/-- `_select_connection`: the managed row, or else some row of the control center, or else some row. -/
def selectConnection (managed : Option ConnectionId) (id : ConnectionId) : Option Connection :=
  if s.rows.any fun row => managed = some row.id then
    s.rows.find? fun row => row.id = id ∧ managed = some row.id
  else if s.settingsRows ≠ [] then s.settingsRows.find? (·.id = id)
  else s.rows.find? (·.id = id)

def updateRow (loaded new : Connection) : List Connection :=
  s.rows.map fun row => if row.id = loaded.id then loaded.update new row else row

end ControlWorld

section steps

variable (provider : Provider) (managed : Option ConnectionId)

/-- `_probe_connection`, with what the provider answers when it is asked. -/
def probeConnection (loaded : Connection) (answer : Except ProbeError ProbeResult) :
    Except ProbeError ProbeResult :=
  if managed = some loaded.id then answer
  else if loaded.encryptedAccessToken = none then
    .error ⟨Str.of "credential_missing", Str.of "A provider credential has not been saved.", false⟩
  else if provider = .jira ∧ loaded.accountEmail = none then
    .error ⟨Str.of "configuration_incomplete", Str.of "Jira account email is missing.", false⟩
  else answer

/-- The record of a probe that has succeeded with the credential of the connection. -/
def probeOf (loaded : Connection) (generation : Nat) : Except ProbeError ProbeResult → List Probe
  | .error _ => []
  | .ok _ =>
    if managed = some loaded.id then []
    else loaded.encryptedAccessToken.toList.map fun token =>
      ⟨loaded.id, token, loaded.baseUrl, loaded.accountEmail, generation⟩

def blank (id : ConnectionId) (createdAt : Nat) : Connection :=
  ⟨id, createdAt, .connected, none, none, [], none, ⟨none, none, none, none⟩, none⟩

def controlStep (s : ControlWorld) : ControlAction → Option ControlWorld
  | .apply i config none =>
    if s.calls i = none ∧ s.settingsRows = [] then some (s.put i (.apply config none)) else none
  | .apply i config (some id) =>
    if s.calls i = none then
      (s.settingsConnection id).map fun row => s.put i (.apply config (some row))
    else none
  | .commitApply i id createdAt now nonce =>
    match s.calls i with
    | some (.apply config none) =>
      if s.rows.any (·.id = id) then none
      else some { s.close i with
        rows := s.rows ++ [(blank id createdAt).apply provider config now nonce]
        generation := s.generation + 1 }
    | some (.apply config (some loaded)) =>
      some { s.close i with
        rows := s.updateRow loaded (loaded.apply provider config now nonce)
        generation := s.generation + 1 }
    | _ => none
  | .disconnect i id =>
    if s.calls i = none then
      ((s.settingsConnection id).filter (·.encryptedAccessToken.isSome)).map fun row =>
        s.put i (.disconnect row)
    else none
  | .commitDisconnect i now =>
    match s.calls i with
    | some (.disconnect loaded) =>
      some { s.close i with
        rows := s.updateRow loaded (loaded.disconnect now)
        generation := s.generation + 1 }
    | _ => none
  | .readCheck i id checkedAt =>
    if s.calls i = none then
      (s.selectConnection managed id).map fun row => s.put i (.check row checkedAt s.generation)
    else none
  | .probe i answer =>
    match s.calls i with
    | some (.check loaded checkedAt generation) =>
      let outcome := probeConnection provider managed loaded answer
      some { s.put i (.checked loaded checkedAt generation outcome) with
        probes := probeOf managed loaded generation outcome ++ s.probes }
    | _ => none
  | .commitCheck i =>
    match s.calls i with
    | some (.checked loaded checkedAt _ outcome) =>
      some { s.close i with rows := s.updateRow loaded (loaded.check checkedAt outcome) }
    | _ => none
  | .fail i => if (s.calls i).isNone then none else some (s.close i)

end steps

end FounderOs.ConnectorControl
