import FounderOs.Execution.Model
import FounderOs.Foundation.Json
import FounderOs.Foundation.Outcome
import FounderOs.Foundation.Text
import FounderOs.Foundation.Transition
import FounderOs.SyncWorker.Model
import Mathlib.Logic.Function.Basic

namespace FounderOs.SyncWorker

open Execution (ConnectionId)
open Transition

/-- The rules on text that come with Python: `UUID`, `str.isalnum` of a character, `str.casefold`. -/
structure TextRules where
  uuid : String → Option ConnectionId
  uuidText : ConnectionId → String
  isAlphanumeric : Char → Bool
  casefold : String → String

structure LiveSyncInput where
  connectionId : ConnectionId
  repositories : List String
  includeIssues : Bool
  includePullRequests : Bool
  issueStates : List String
  pullRequestStates : List String
  deriving DecidableEq, Repr

inductive LiveSyncError where
  | invalid (detail : String)
  | notFound (detail : String)
  | conflict (detail : String)
  | connectorsDisabled
  deriving DecidableEq, Repr

variable (rules : TextRules)

/-- `_request_mapping`; SQL and JSON null are both `None` here. -/
def requestMapping (cursorBefore : Option Json) : Except LiveSyncError (List (String × Json)) :=
  match (cursorBefore.bind Json.asObject).bind (Json.get · "github_app_live_sync") with
  | some (.obj request) => .ok request
  | _ => .error (.invalid "invalid queued github sync request")

def parseJobRequest (cursorBefore : Option Json) : Except LiveSyncError (LiveSyncInput × String) := do
  let request ← requestMapping cursorBefore
  let connectionId := (Json.get request "connection_id").bind Json.asString
  let repositories := (Json.get request "repositories").bind Json.asArray
  match connectionId.bind rules.uuid, repositories with
  | some connectionId, some repositories =>
    let states := fun (key : String) (default : List String) =>
      ((Json.get request key).bind Json.asArray).elim default Json.strings
    return ({
      connectionId := connectionId
      repositories := Json.strings repositories
      includeIssues := !(Json.get request "include_issues").any Json.isFalse
      includePullRequests := !(Json.get request "include_pull_requests").any Json.isFalse
      issueStates := states "issue_states" ["open", "closed"]
      pullRequestStates := states "pull_request_states" ["open", "closed", "merged"] },
      ((Json.get request "requested_by").bind Json.asString).getD "operator_api_key")
  | _, _ => throw (.invalid "invalid queued github sync request")

def safeRepoPart (value : List Char) : Option (List Char) :=
  let part := Text.stripChars value
  if part = [] ∨ part.head? = some '.' ∨ part.getLast? = some '.' ∨ ['.', '.'] <:+: part ∨
      part.any Text.isSpace then none
  else if !part.all (fun c => rules.isAlphanumeric c || c = '.' || c = '_' || c = '-') then none
  else some (part.take 100)

def normalizeRepositoryFullName (value : String) : Option String :=
  let text := Text.stripChars value.toList
  match text.dropWhile (· ≠ '/') with
  | [] => none
  | _ :: rawName => do
    let owner ← safeRepoPart rules (text.takeWhile (· ≠ '/'))
    let name ← safeRepoPart rules rawName
    return String.ofList (owner ++ '/' :: name)

/-- The loop of `_normalize_issue_states` and `_normalize_pull_request_states`. -/
def normalizeStatesFrom (allowed : List String) (normalized : List String) :
    List String → Option (List String)
  | [] => some normalized
  | raw :: rest =>
    let state := rules.casefold (Text.strip raw)
    if state = "all" then some ["all"]
    else if state ∉ allowed then none
    else normalizeStatesFrom allowed (if state ∈ normalized then normalized else normalized ++ [state])
      rest

def normalizeStates (allowed : List String) (states : List String) : Option (List String) :=
  normalizeStatesFrom rules allowed [] (if states = [] then allowed else states)

def normalizeIssueStates (states : List String) : Except LiveSyncError (List String) :=
  match normalizeStates rules ["open", "closed"] states with
  | none => .error (.invalid "invalid github issue state")
  | some normalized => .ok normalized

def normalizePullRequestStates (states : List String) : Except LiveSyncError (List String) :=
  match normalizeStates rules ["open", "closed", "merged"] states with
  | none => .error (.invalid "invalid github pull request state")
  | some normalized => .ok normalized

structure ConnectionMetadata where
  connectionMethod : String
  installationVerified : Bool
  providerReadsEnabled : Bool
  installationId : String
  selectedRepositories : List String
  deriving DecidableEq, Repr

structure AppConnection where
  connected : Bool
  metadata : ConnectionMetadata
  deriving DecidableEq, Repr

structure AppCredential where
  id : Nat
  active : Bool
  deriving DecidableEq, Repr

structure AppInstallation where
  credentialId : Nat
  installationId : String
  deriving DecidableEq, Repr

/-- What one preparation finds in the workspace: the setting, the connections, the managed
credential, the active installations, and whether the signing credential can be read. -/
structure ReadEnvironment where
  connectorsEnabled : Bool
  connections : ConnectionId → Option AppConnection
  credential : Option AppCredential
  installations : ConnectionId → Option AppInstallation
  signingCredential : Bool

def requireRealConnectorsEnabled (env : ReadEnvironment) : Except LiveSyncError Unit :=
  if env.connectorsEnabled then .ok () else .error .connectorsDisabled

def appInstallationConnection (env : ReadEnvironment) (id : ConnectionId) :
    Except LiveSyncError AppConnection :=
  match env.connections id with
  | none => .error (.notFound "github connection not found")
  | some connection =>
    if !connection.connected then .error (.conflict "github connection is not connected")
    else if connection.metadata.connectionMethod ≠ "github_app_installation" then
      .error (.conflict "github app installation connection required")
    else .ok connection

structure LiveReadAuthorization where
  installationId : String
  managedExplicitRead : Bool
  selectedRepositories : List String
  deriving DecidableEq, Repr

def resolveLiveReadAuthorization (env : ReadEnvironment) (id : ConnectionId)
    (metadata : ConnectionMetadata) : Except LiveSyncError LiveReadAuthorization :=
  let notVerified := LiveSyncError.conflict "github app installation is not provider-verified"
  match env.credential, env.installations id with
  | some credential, some installation =>
    if !credential.active ∨ installation.credentialId ≠ credential.id ∨
        !metadata.installationVerified ∨ !metadata.providerReadsEnabled ∨
        Text.strip metadata.installationId ≠ installation.installationId then .error notVerified
    else if !env.signingCredential then
      .error (.conflict "github app installation token unavailable")
    else
      match metadata.selectedRepositories.filterMap (normalizeRepositoryFullName rules) with
      | [] => .error notVerified
      | selected =>
        .ok ⟨installation.installationId, true, selected.map rules.casefold⟩
  | _, _ => .error notVerified

structure LiveSyncPrepared where
  connectionId : ConnectionId
  installationId : String
  repositories : List String
  includeIssues : Bool
  includePullRequests : Bool
  issueStates : List String
  pullRequestStates : List String
  deriving DecidableEq, Repr

def requireConnectorsUnlessManaged (env : ReadEnvironment) (authorization : LiveReadAuthorization)
    (requestedBy : String) : Except LiveSyncError Unit :=
  if authorization.managedExplicitRead ∧ requestedBy = "session" then .ok ()
  else requireRealConnectorsEnabled env

/-- `prepare_github_app_live_sync`. -/
def prepare (env : ReadEnvironment) (input : LiveSyncInput) (requestedBy : String) :
    Except LiveSyncError LiveSyncPrepared := do
  let repositories ← (normalizeRepositories rules.casefold (normalizeRepositoryFullName rules)
    input.repositories).elim (.error (.invalid "invalid github repository full name")) .ok
  let issueStates ← normalizeIssueStates rules input.issueStates
  let pullRequestStates ← normalizePullRequestStates rules input.pullRequestStates
  let connection ← tryCatch (appInstallationConnection env input.connectionId) fun error => do
    match error with
    | .notFound _ => requireRealConnectorsEnabled env
    | _ => pure ()
    throw error
  let authorization ← resolveLiveReadAuthorization rules env input.connectionId connection.metadata
  requireConnectorsUnlessManaged env authorization requestedBy
  if repositories.any (fun repository =>
      rules.casefold repository ∉ authorization.selectedRepositories) then
    throw (.conflict "github repository is not part of the app installation")
  return ⟨input.connectionId, authorization.installationId, repositories, input.includeIssues,
    input.includePullRequests, issueStates, pullRequestStates⟩

/-- `auth_mode` of the actor behind an API request. -/
inductive AuthMode where
  | session | operatorApiKey
  deriving DecidableEq, Repr

def AuthMode.text : AuthMode → String
  | .session => "session"
  | .operatorApiKey => "operator_api_key"

/-- The two API requests that queue a GitHub sync job; a manual one brings its own `cursor_before`. -/
inductive JobCreation where
  | manual (connection : Option AppConnection) (cursorBefore : Option Json)
  | liveSync (mode : AuthMode) (input : LiveSyncInput) (env : ReadEnvironment)

inductive JobOrigin where
  | manual
  | liveSync (mode : AuthMode)
  deriving DecidableEq, Repr

def liveSyncCursor (prepared : LiveSyncPrepared) (requestedBy : String) : Json :=
  .obj [("github_app_live_sync", .obj [
    ("connection_id", .str (rules.uuidText prepared.connectionId)),
    ("installation_id", .str prepared.installationId),
    ("repositories", .arr (prepared.repositories.map .str)),
    ("include_issues", .bool prepared.includeIssues),
    ("include_pull_requests", .bool prepared.includePullRequests),
    ("issue_states", .arr (prepared.issueStates.map .str)),
    ("pull_request_states", .arr (prepared.pullRequestStates.map .str)),
    ("requested_by", .str requestedBy),
    ("external_writes", .bool false),
    ("installation_access_token_persisted", .bool false)])]

inductive ReadPc where
  | claimed
  | prepared (connectorsEnabled : Bool)
  | reading
  deriving DecidableEq, Repr

structure ReadWorker where
  input : LiveSyncInput
  requestedBy : String
  pc : ReadPc
  deriving DecidableEq, Repr

/-- One job and the workers that have claimed it. `origin`, `claims` (who each claim found to have
requested it) and `reads` (whether connectors were enabled for each provider read) are history. -/
structure ReadWorld where
  origin : JobOrigin
  status : SyncJobStatus
  cursorBefore : Option Json
  workers : LeaseToken → Option ReadWorker
  claims : List String
  reads : List Bool

def queuedJob (origin : JobOrigin) (cursorBefore : Option Json) : ReadWorld :=
  ⟨origin, .queued, cursorBefore, fun _ => none, [], []⟩

def createJob : JobCreation → Except LiveSyncError ReadWorld
  | .manual connection cursorBefore =>
    match connection with
    | none => .error (.notFound "github connection not found")
    | some connection =>
      if !connection.connected then .error (.conflict "github connection must be connected")
      else .ok (queuedJob .manual cursorBefore)
  | .liveSync mode input env => do
    let prepared ← prepare rules env input mode.text
    return queuedJob (.liveSync mode) (some (liveSyncCursor rules prepared mode.text))

inductive ReadAction where
  | claim (token : LeaseToken)
  | prepare (token : LeaseToken) (env : ReadEnvironment)
  | readProvider (token : LeaseToken)
  | persistBatch (token : LeaseToken) (status : SyncJobStatus)
  | settle (token : LeaseToken) (status : SyncJobStatus)

namespace ReadWorld

variable (s : ReadWorld)

def put (token : LeaseToken) (w : Option ReadWorker) : ReadWorld :=
  { s with workers := Function.update s.workers token w }

/-- Whether the job is due, and its attempts, are left open: a queued or running one may be taken. -/
def claimable (token : LeaseToken) : Bool :=
  (s.status = .queued ∨ s.status = .running) ∧ (s.workers token).isNone ∧
    ((s.cursorBefore.bind Json.asObject).bind (Json.get · "github_app_live_sync")).isSome

end ReadWorld

section Steps

variable (s : ReadWorld)

def claimStep (token : LeaseToken) : Option ReadWorld :=
  if !s.claimable token then none
  else
    match parseJobRequest rules s.cursorBefore with
    | .error _ => some { s with status := .failed }
    | .ok (input, requestedBy) =>
      some { s.put token (some ⟨input, requestedBy, .claimed⟩) with
        status := .running
        claims := s.claims ++ [requestedBy] }

def prepareStep (token : LeaseToken) (w : ReadWorker) (env : ReadEnvironment) : ReadWorld :=
  match prepare rules env w.input w.requestedBy with
  | .error _ => { s.put token none with status := .failed }
  | .ok _ => s.put token (some { w with pc := .prepared env.connectorsEnabled })

/-- The batch leaves `cursor_before` with the request mapping that it finds there. -/
def persistStepCursor (status : SyncJobStatus) : ReadWorld :=
  match requestMapping s.cursorBefore with
  | .error _ => { s with status := .failed }
  | .ok request =>
    { s with
      status := status
      cursorBefore := some (.obj [("github_app_live_sync", .obj request)]) }

def readStep (a : ReadAction) : Option ReadWorld :=
  match a with
  | .claim token => claimStep rules s token
  | .prepare token env =>
    match s.workers token with
    | some ⟨input, requestedBy, .claimed⟩ =>
      some (prepareStep rules s token ⟨input, requestedBy, .claimed⟩ env)
    | _ => none
  | .readProvider token =>
    match s.workers token with
    | some ⟨input, requestedBy, .prepared connectorsEnabled⟩ =>
      some { s.put token (some ⟨input, requestedBy, .reading⟩) with
        reads := s.reads ++ [connectorsEnabled] }
    | _ => none
  | .persistBatch token status =>
    match s.workers token with
    | some ⟨_, _, .reading⟩ => some (persistStepCursor s status)
    | _ => none
  | .settle token status =>
    if (s.workers token).isSome then some { s.put token none with status := status } else none

end Steps

structure OnlyAuthorised (s : ReadWorld) : Prop where
  reads : ∀ connectorsEnabled ∈ s.reads,
    connectorsEnabled = true ∨ s.origin = .liveSync .session
  claims : ∀ requestedBy ∈ s.claims, requestedBy = "session" → s.origin = .liveSync .session

variable {rules} {s t : ReadWorld} {a : ReadAction} {token : LeaseToken} {w : ReadWorker}
  {env : ReadEnvironment} {input : LiveSyncInput} {requestedBy : String}

theorem prepare_authorised {prepared : LiveSyncPrepared}
    (h : prepare rules env input requestedBy = .ok prepared) :
    env.connectorsEnabled = true ∨ requestedBy = "session" := by
  unfold prepare at h
  obtain ⟨repositories, -, h⟩ := ok_of_bind_ok h
  obtain ⟨issueStates, -, h⟩ := ok_of_bind_ok h
  obtain ⟨pullRequestStates, -, h⟩ := ok_of_bind_ok h
  obtain ⟨connection, -, h⟩ := ok_of_bind_ok h
  obtain ⟨authorization, -, h⟩ := ok_of_bind_ok h
  obtain ⟨_, hguard, -⟩ := ok_of_bind_ok h
  unfold requireConnectorsUnlessManaged at hguard
  split at hguard
  · rename_i hsession
    exact .inr hsession.2
  · unfold requireRealConnectorsEnabled at hguard
    split at hguard
    · exact .inl ‹_›
    · cases hguard

theorem requestMapping_kept {request : List (String × Json)} :
    requestMapping (some (.obj [("github_app_live_sync", .obj request)])) = .ok request := by
  simp [requestMapping, Json.get]

theorem parseJobRequest_kept {cursorBefore : Option Json} {request : List (String × Json)}
    (h : requestMapping cursorBefore = .ok request) :
    parseJobRequest rules (some (.obj [("github_app_live_sync", .obj request)])) =
      parseJobRequest rules cursorBefore := by
  simp only [parseJobRequest, requestMapping_kept, h]

theorem requestedBy_of_parse {cursorBefore : Option Json}
    (h : parseJobRequest rules cursorBefore = .ok (input, requestedBy)) :
    ∃ request, requestMapping cursorBefore = .ok request ∧
      requestedBy = ((Json.get request "requested_by").bind Json.asString).getD "operator_api_key" := by
  obtain ⟨request, hrequest, h⟩ := ok_of_bind_ok h
  refine ⟨request, hrequest, ?_⟩
  dsimp only at h
  split at h
  · exact (congrArg Prod.snd (Except.ok.inj h)).symm
  · cases h

theorem requestedBy_liveSyncCursor {prepared : LiveSyncPrepared} {by' : String}
    (h : parseJobRequest rules (some (liveSyncCursor rules prepared requestedBy)) =
      .ok (input, by')) : by' = requestedBy := by
  obtain ⟨request, hrequest, rfl⟩ := requestedBy_of_parse h
  rw [liveSyncCursor, requestMapping_kept] at hrequest
  obtain rfl := Except.ok.inj hrequest
  rfl

structure Authentic (rules : TextRules) (s : ReadWorld) : Prop where
  cursor : ∀ input, parseJobRequest rules s.cursorBefore = .ok (input, "session") →
    s.origin = .liveSync .session
  workers : ∀ token w, s.workers token = some w → w.requestedBy = "session" →
    s.origin = .liveSync .session
  prepared : ∀ token w connectorsEnabled, s.workers token = some w →
    w.pc = .prepared connectorsEnabled → connectorsEnabled = true ∨ w.requestedBy = "session"
  authorised : OnlyAuthorised s

theorem Authentic.put (h : Authentic rules s) {w : Option ReadWorker} (status : SyncJobStatus)
    (hby : ∀ w', w = some w' → w'.requestedBy = "session" → s.origin = .liveSync .session)
    (hpc : ∀ w' connectorsEnabled, w = some w' → w'.pc = .prepared connectorsEnabled →
      connectorsEnabled = true ∨ w'.requestedBy = "session") :
    Authentic rules { s.put token w with status := status } where
  cursor := h.cursor
  workers token' w' hw := by
    by_cases htoken : token' = token
    · subst htoken
      simp only [ReadWorld.put, Function.update_self] at hw
      exact hby w' hw
    · simp only [ReadWorld.put, Function.update_of_ne htoken] at hw
      exact h.workers token' w' hw
  prepared token' w' connectorsEnabled hw := by
    by_cases htoken : token' = token
    · subst htoken
      simp only [ReadWorld.put, Function.update_self] at hw
      exact hpc w' connectorsEnabled hw
    · simp only [ReadWorld.put, Function.update_of_ne htoken] at hw
      exact h.prepared token' w' connectorsEnabled hw
  authorised := ⟨h.authorised.reads, h.authorised.claims⟩

theorem Authentic.drop (h : Authentic rules s) {status : SyncJobStatus} :
    Authentic rules { s.put token none with status := status } :=
  h.put status (by simp) (by simp)

theorem Authentic.claim (h : Authentic rules s) (hstep : claimStep rules s token = some t) :
    Authentic rules t := by
  unfold claimStep at hstep
  split at hstep
  · cases hstep
  split at hstep
  · obtain rfl := Option.some.inj hstep
    exact ⟨h.cursor, h.workers, h.prepared, h.authorised.reads, h.authorised.claims⟩
  · rename_i input requestedBy hparse
    obtain rfl := Option.some.inj hstep
    have hclaim : requestedBy = "session" → s.origin = .liveSync .session := by
      rintro rfl
      exact h.cursor input hparse
    have hput : Authentic rules { s.put token (some ⟨input, requestedBy, .claimed⟩) with
        status := .running } :=
      h.put .running (by rintro _ ⟨⟩; exact hclaim) (by rintro _ _ ⟨⟩ hpc; cases hpc)
    refine ⟨hput.cursor, hput.workers, hput.prepared, hput.authorised.reads, ?_⟩
    intro by' hby
    rcases List.mem_append.1 hby with hby | hby
    · exact h.authorised.claims by' hby
    · obtain rfl := List.mem_singleton.1 hby
      exact hclaim

theorem Authentic.prepare (h : Authentic rules s) (hw : s.workers token = some w) :
    Authentic rules (prepareStep rules s token w env) := by
  unfold prepareStep
  split
  · exact h.drop
  · rename_i prepared hprepared
    refine h.put s.status ?_ ?_
    · rintro _ ⟨⟩
      exact h.workers token w hw
    · rintro _ connectorsEnabled ⟨⟩ hpc
      obtain rfl := ReadPc.prepared.inj hpc
      exact prepare_authorised hprepared

theorem Authentic.readProvider (h : Authentic rules s) {connectorsEnabled : Bool}
    (hw : s.workers token = some ⟨input, requestedBy, .prepared connectorsEnabled⟩) :
    Authentic rules { s.put token (some ⟨input, requestedBy, .reading⟩) with
      reads := s.reads ++ [connectorsEnabled] } := by
  have hsession := h.workers token _ hw
  have hput : Authentic rules { s.put token (some ⟨input, requestedBy, .reading⟩) with
      status := s.status } :=
    h.put s.status (by rintro _ ⟨⟩; exact hsession) (by rintro _ _ ⟨⟩ hpc; cases hpc)
  refine ⟨hput.cursor, hput.workers, hput.prepared, ?_, hput.authorised.claims⟩
  intro enabled henabled
  rcases List.mem_append.1 henabled with henabled | henabled
  · exact h.authorised.reads enabled henabled
  · obtain rfl := List.mem_singleton.1 henabled
    exact (h.prepared token _ enabled hw rfl).imp_right hsession

theorem Authentic.persist (h : Authentic rules s) {status : SyncJobStatus} :
    Authentic rules (persistStepCursor s status) := by
  unfold persistStepCursor
  split
  · exact ⟨h.cursor, h.workers, h.prepared, h.authorised.reads, h.authorised.claims⟩
  · rename_i request hrequest
    refine ⟨?_, h.workers, h.prepared, h.authorised.reads, h.authorised.claims⟩
    intro input hparse
    rw [parseJobRequest_kept hrequest] at hparse
    exact h.cursor input hparse

theorem Authentic.step (h : Authentic rules s) (hstep : readStep rules s a = some t) :
    Authentic rules t := by
  cases a with
  | claim token => exact h.claim hstep
  | prepare token env =>
    simp only [readStep] at hstep
    split at hstep
    · rename_i hw
      obtain rfl := Option.some.inj hstep
      exact h.prepare hw
    · cases hstep
  | readProvider token =>
    simp only [readStep] at hstep
    split at hstep
    · rename_i hw
      obtain rfl := Option.some.inj hstep
      exact h.readProvider hw
    · cases hstep
  | persistBatch token status =>
    simp only [readStep] at hstep
    split at hstep
    · obtain rfl := Option.some.inj hstep
      exact h.persist
    · cases hstep
  | settle token status =>
    simp only [readStep] at hstep
    split at hstep
    · obtain rfl := Option.some.inj hstep
      exact h.drop
    · cases hstep

/-- The parse of a manual job's JSON names the session as the one who asked. -/
def ForgesSession (rules : TextRules) : JobCreation → Prop
  | .manual _ cursorBefore => ∃ input, parseJobRequest rules cursorBefore = .ok (input, "session")
  | .liveSync _ _ _ => False

theorem authentic_createJob {creation : JobCreation} (h : createJob rules creation = .ok s)
    (hforges : ¬ForgesSession rules creation) : Authentic rules s := by
  have hqueued : ∀ origin cursorBefore,
      (∀ input, parseJobRequest rules cursorBefore = .ok (input, "session") →
        origin = .liveSync .session) → Authentic rules (queuedJob origin cursorBefore) := by
    intro origin cursorBefore hcursor
    exact ⟨hcursor, by simp [queuedJob], by simp [queuedJob], by simp [queuedJob],
      by simp [queuedJob]⟩
  cases creation with
  | manual connection cursorBefore =>
    simp only [createJob] at h
    split at h
    · cases h
    split at h
    · cases h
    · obtain rfl := Except.ok.inj h
      exact hqueued _ _ fun input hparse => absurd ⟨input, hparse⟩ hforges
  | liveSync mode input env =>
    obtain ⟨prepared, -, h⟩ := ok_of_bind_ok h
    obtain rfl := Except.ok.inj h
    refine hqueued _ _ fun input hparse => ?_
    have hmode := requestedBy_liveSyncCursor hparse
    cases mode with
    | session => rfl
    | operatorApiKey => exact absurd hmode (by decide)

/-- A forged job is claimed as one of the session. -/
theorem claims_of_forges {creation : JobCreation} (h : createJob rules creation = .ok s)
    (hforges : ForgesSession rules creation) :
    ∃ t, Reaches (readStep rules) anyStep s t ∧ ¬OnlyAuthorised t := by
  cases creation with
  | manual connection cursorBefore =>
    obtain ⟨input, hparse⟩ := hforges
    simp only [createJob] at h
    split at h
    · cases h
    split at h
    · cases h
    obtain rfl := Except.ok.inj h
    have hclaimable : (queuedJob .manual cursorBefore).claimable 0 = true := by
      obtain ⟨request, hrequest, -⟩ := requestedBy_of_parse hparse
      unfold requestMapping at hrequest
      split at hrequest
      · rename_i hfield
        simp [ReadWorld.claimable, queuedJob, hfield]
      · cases hrequest
    have hstep : readStep rules (queuedJob .manual cursorBefore) (.claim 0) =
        some { (queuedJob .manual cursorBefore).put 0 (some ⟨input, "session", .claimed⟩) with
          status := .running
          claims := ["session"] } := by
      simp only [readStep, claimStep, hclaimable]
      simp [queuedJob, hparse]
    refine ⟨_, (Reaches.refl _).tail trivial hstep, fun hauthorised => ?_⟩
    have hsession := hauthorised.claims "session" (by simp) rfl
    cases hsession
  | liveSync => exact absurd hforges id

theorem provider_reads_authorised_iff (creation : JobCreation)
    (h : createJob rules creation = .ok s) :
    (∀ t, Reaches (readStep rules) anyStep s t → OnlyAuthorised t) ↔
      ¬ForgesSession rules creation := by
  constructor
  · intro hall hforges
    obtain ⟨t, ht, hbad⟩ := claims_of_forges h hforges
    exact hbad (hall t ht)
  · intro hforges t ht
    exact (ht.invariant (P := Authentic rules) (fun _ _ _ hs _ hstep => hs.step hstep)
      (authentic_createJob h hforges)).authorised

def connectionSeven : String := "00000000-0000-0000-0000-000000000007"

def plainRules : TextRules where
  uuid text := if text = connectionSeven then some 7 else none
  uuidText _ := connectionSeven
  isAlphanumeric := Char.isAlphanum
  casefold := Text.lower

def installedApp : AppConnection :=
  ⟨true, ⟨"github_app_installation", true, true, "42", ["acme/app"]⟩⟩

theorem provider_reads_authorised_without_cursor :
    (∀ t, Reaches (readStep plainRules) anyStep (queuedJob .manual none) t → OnlyAuthorised t) ↔
      ¬ForgesSession plainRules (.manual (some installedApp) none) :=
  provider_reads_authorised_iff (.manual (some installedApp) none) rfl

def connectorsOff : ReadEnvironment where
  connectorsEnabled := false
  connections id := if id = 7 then some installedApp else none
  credential := some ⟨1, true⟩
  installations id := if id = 7 then some ⟨1, "42"⟩ else none
  signingCredential := true

/-- What a client of the manual endpoint sends as `cursor_before`. -/
def forgedCursor : Json :=
  .obj [("github_app_live_sync", .obj [("connection_id", .str connectionSeven),
    ("repositories", .arr [.str "acme/app"]), ("requested_by", .str "session")])]

theorem forged_cursor_reads_provider :
    ¬∀ creation s, createJob plainRules creation = .ok s →
      ∀ t, Reaches (readStep plainRules) anyStep s t → OnlyAuthorised t := by
  intro hall
  have hrun : (exec (readStep plainRules) (queuedJob .manual (some forgedCursor))
      [.claim 0, .prepare 0 connectorsOff, .readProvider 0]).any
        (fun t => t.reads = [false] ∧ t.origin = .manual) = true := by
    decide +kernel
  obtain ⟨t, ht, hend⟩ := (Option.any_eq_true _ _).1 hrun
  obtain ⟨hreads, horigin⟩ := of_decide_eq_true hend
  have hauthorised := hall (.manual (some installedApp) (some forgedCursor)) _ rfl t
    (reaches_of_exec ht)
  rcases hauthorised.reads false (by simp [hreads]) with henabled | hsession
  · cases henabled
  · rw [horigin] at hsession
    cases hsession

end FounderOs.SyncWorker
