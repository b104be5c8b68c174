import FounderOs.Foundation.Outcome
import FounderOs.Foundation.Str

namespace FounderOs.AiSettings

def aiDataPolicyVersion : Str := Str.of "openai-api-data-controls-2026-07-29"

def aiSupportedModels : List Str :=
  ["gpt-5.6", "gpt-5.6-sol", "gpt-5.6-terra", "gpt-5.6-luna"].map Str.of

def aiReasoningEfforts : List Str := ["low", "medium", "high"].map Str.of

abbrev UserId := Nat

inductive AiError where
  | settings (message : String)
  | encryption
  deriving DecidableEq

/-- `app.core.config.settings`, Fernet under its key with the nonce it draws (`none` where it
raises), and the table of `str.casefold`: nothing is assumed of them. -/
structure Server where
  enableLlm : Bool
  assistantLlmTimeoutSeconds : Rat
  encryptSecret : Str → Str → Option Str
  decryptSecret : Str → Option Str
  foldTable : Nat → Str

structure AiSettingsInput where
  enabled : Bool
  dataPolicyAcknowledged : Bool
  model : Str
  reasoningEffort : Str
  maxOutputTokens : Int
  apiKey : Option Str
  deriving DecidableEq

inductive CheckStatus where
  | passed
  | failed
  deriving DecidableEq

/-- A row of `workspace_ai_configurations`. -/
structure WorkspaceAiConfiguration where
  enabled : Bool
  model : Str
  reasoningEffort : Str
  maxOutputTokens : Int
  configurationVersion : Nat
  encryptedApiKey : Option Str
  dataPolicyVersion : Option Str
  dataPolicyAcknowledgedAt : Option Nat
  dataPolicyAcknowledgedByUserId : Option UserId
  lastCheckedAt : Option Nat
  lastCheckStatus : Option CheckStatus
  lastCheckCode : Option String
  lastCheckModel : Option Str
  deriving DecidableEq

structure AssistantRuntimeConfiguration where
  apiKey : Str
  model : Str
  reasoningEffort : Str
  maxOutputTokens : Int
  timeoutSeconds : Rat
  deriving DecidableEq

structure AssistantRuntimeResolution where
  configuration : Option AssistantRuntimeConfiguration
  warning : Option String
  deriving DecidableEq

def modelOf (value : Str) : Except AiError Str :=
  let normalized := Str.strip value
  if aiSupportedModels.contains normalized then .ok normalized
  else .error (.settings "Unsupported AI model")

def reasoningEffortOf (table : Nat → Str) (value : Str) : Except AiError Str :=
  let normalized := Str.casefold table (Str.strip value)
  if aiReasoningEfforts.contains normalized then .ok normalized
  else .error (.settings "Unsupported reasoning effort")

def outputBudgetOf (value : Int) : Except AiError Int :=
  if 400 ≤ value ∧ value ≤ 4000 then .ok value
  else .error (.settings "AI output budget must be between 400 and 4000")

namespace WorkspaceAiConfiguration

variable (configuration : WorkspaceAiConfiguration)

def verificationFingerprint : Option Str × Str × Str × Int × Option Str :=
  (configuration.encryptedApiKey, configuration.model, configuration.reasoningEffort,
    configuration.maxOutputTokens, configuration.dataPolicyVersion)

def clearCheck : WorkspaceAiConfiguration :=
  { configuration with
    lastCheckedAt := none
    lastCheckStatus := none
    lastCheckCode := none
    lastCheckModel := none }

/-- `not configuration.encrypted_api_key`, negated. -/
def keyPresent : Bool := configuration.encryptedApiKey.any (· ≠ [])

def policyAcknowledged : Bool :=
  configuration.dataPolicyVersion = some aiDataPolicyVersion ∧
    configuration.dataPolicyAcknowledgedAt.isSome

/-- The row before its first flush, without its defaults. -/
def new (model effort : Str) (outputBudget : Int) : WorkspaceAiConfiguration where
  enabled := false
  model := model
  reasoningEffort := effort
  maxOutputTokens := outputBudget
  configurationVersion := 0
  encryptedApiKey := none
  dataPolicyVersion := none
  dataPolicyAcknowledgedAt := none
  dataPolicyAcknowledgedByUserId := none
  lastCheckedAt := none
  lastCheckStatus := none
  lastCheckCode := none
  lastCheckModel := none

def enter (payload : AiSettingsInput) (encrypted : Option Str) (model effort : Str)
    (outputBudget : Int) (version : Nat) : WorkspaceAiConfiguration :=
  { configuration with
    encryptedApiKey := encrypted
    enabled := payload.enabled
    model := model
    reasoningEffort := effort
    maxOutputTokens := outputBudget
    configurationVersion := version }

def acknowledge (now : Nat) (userId : UserId) : WorkspaceAiConfiguration :=
  if configuration.policyAcknowledged then configuration
  else { configuration with
    dataPolicyVersion := some aiDataPolicyVersion
    dataPolicyAcknowledgedAt := some now
    dataPolicyAcknowledgedByUserId := some userId }

def withdraw : WorkspaceAiConfiguration :=
  { configuration with
    enabled := false
    dataPolicyVersion := none
    dataPolicyAcknowledgedAt := none
    dataPolicyAcknowledgedByUserId := none }

def acknowledgeOrWithdraw (acknowledged : Bool) (now : Nat) (userId : UserId) :
    WorkspaceAiConfiguration :=
  if acknowledged then configuration.acknowledge now userId else configuration.withdraw

/-- The check of the prior row stands only for what it was made with. -/
def keepCheck (prior : WorkspaceAiConfiguration) : WorkspaceAiConfiguration :=
  if prior.verificationFingerprint ≠ configuration.verificationFingerprint then
    configuration.clearCheck
  else configuration

end WorkspaceAiConfiguration

open WorkspaceAiConfiguration

section requests

variable (server : Server)

def encryptedKey (nonce : Str) (apiKey stored : Option Str) : Except AiError (Option Str) :=
  match (apiKey.map Str.strip).filter (· ≠ []) with
  | none => .ok stored
  | some key => match server.encryptSecret nonce key with
    | none => .error .encryption
    | some encrypted => .ok (some encrypted)

/-- The row that `save_workspace_ai_settings` flushes, of the one it has read. -/
def saveWorkspaceAiSettings (nonce : Str) (now : Nat) (userId : UserId) (payload : AiSettingsInput)
    (row : Option WorkspaceAiConfiguration) : Except AiError WorkspaceAiConfiguration := do
  let model ← modelOf payload.model
  let effort ← reasoningEffortOf server.foldTable payload.reasoningEffort
  let outputBudget ← outputBudgetOf payload.maxOutputTokens
  let prior := row.getD (new model effort outputBudget)
  let encrypted ← encryptedKey server nonce payload.apiKey prior.encryptedApiKey
  if payload.enabled && !encrypted.any (· ≠ []) then
    throw (.settings "API key is required before AI can be enabled")
  if payload.enabled && !payload.dataPolicyAcknowledged then
    throw (.settings "Provider data policy acknowledgement is required before AI can be enabled")
  let version := if row.isSome then prior.configurationVersion + 1 else 1
  let entered := prior.enter payload encrypted model effort outputBudget version
  let saved := entered.acknowledgeOrWithdraw payload.dataPolicyAcknowledged now userId
  return saved.keepCheck prior

def removeWorkspaceAiCredential (configuration : WorkspaceAiConfiguration) :
    WorkspaceAiConfiguration :=
  { configuration.withdraw.clearCheck with
    encryptedApiKey := none
    configurationVersion := configuration.configurationVersion + 1 }

/-- What the check keeps of the row when it gives its session back. -/
structure CheckRead where
  apiKey : Str
  version : Nat
  model : Str
  effort : Str
  outputBudget : Int
  deriving DecidableEq

def readForCheck (row : Option WorkspaceAiConfiguration) : Except AiError CheckRead :=
  match row.filter (·.keyPresent) with
  | none => .error (.settings "Save an API key before checking the connection")
  | some configuration =>
    if !configuration.policyAcknowledged then
      .error (.settings "Acknowledge the current provider data policy before checking")
    else match configuration.encryptedApiKey.bind server.decryptSecret with
      | none => .error (.settings "Saved AI credential is unavailable")
      | some apiKey => do
        let model ← modelOf configuration.model
        let effort ← reasoningEffortOf server.foldTable configuration.reasoningEffort
        let outputBudget ← outputBudgetOf configuration.maxOutputTokens
        return ⟨apiKey, configuration.configurationVersion, model, effort, outputBudget⟩

/-- The arguments of `generate_assistant_reasoning` in a check. -/
structure ProbeRequest where
  apiKey : Str
  model : Str
  reasoningEffort : Str
  maxOutputTokens : Int
  timeoutSeconds : Rat
  deriving DecidableEq

def CheckRead.request (read : CheckRead) : ProbeRequest :=
  ⟨read.apiKey, read.model, read.effort, max 400 (min read.outputBudget 600),
    server.assistantLlmTimeoutSeconds⟩

inductive ProbeOutcome where
  | verified
  | rejected
  | unavailable
  deriving DecidableEq

def ProbeOutcome.status : ProbeOutcome → CheckStatus
  | .verified => .passed
  | .rejected | .unavailable => .failed

def ProbeOutcome.code : ProbeOutcome → String
  | .verified => "connection_verified"
  | .rejected => "response_rejected"
  | .unavailable => "provider_unavailable"

def recordCheck (now : Nat) (model : Str) (outcome : ProbeOutcome)
    (configuration : WorkspaceAiConfiguration) : WorkspaceAiConfiguration :=
  { configuration with
    lastCheckedAt := some now
    lastCheckStatus := some outcome.status
    lastCheckCode := some outcome.code
    lastCheckModel := some model }

def resolveAssistantRuntimeConfiguration (row : Option WorkspaceAiConfiguration) :
    Except AiError AssistantRuntimeResolution :=
  if !server.enableLlm then .ok ⟨none, none⟩
  else match row with
    | none => .ok ⟨none, some "ai_not_configured"⟩
    | some configuration =>
      if !configuration.enabled then .ok ⟨none, some "ai_disabled_in_settings"⟩
      else if !configuration.policyAcknowledged then
        .ok ⟨none, some "ai_data_policy_not_acknowledged"⟩
      else if !configuration.keyPresent then .ok ⟨none, some "ai_not_configured"⟩
      else if configuration.lastCheckStatus ≠ some .passed then .ok ⟨none, some "ai_not_verified"⟩
      else match configuration.encryptedApiKey.bind server.decryptSecret with
        | none => .ok ⟨none, some "ai_credential_unavailable"⟩
        | some apiKey => do
          let model ← modelOf configuration.model
          let effort ← reasoningEffortOf server.foldTable configuration.reasoningEffort
          let outputBudget ← outputBudgetOf configuration.maxOutputTokens
          return ⟨some ⟨apiKey, model, effort, outputBudget, server.assistantLlmTimeoutSeconds⟩,
            none⟩

end requests

end FounderOs.AiSettings
