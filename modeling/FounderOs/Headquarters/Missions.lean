import FounderOs.Headquarters.Questions
import FounderOs.Headquarters.Verification
import FounderOs.SyncWorker.Model

namespace FounderOs.Headquarters

open Execution (Instant UserId)
open SyncWorker (SyncJobStatus)

/-- The columns of a proposal that headquarters reads beside those that it verifies. -/
structure ProposalColumns where
  proposed : Bool
  title : Str
  description : Option Str
  updatedAt : Instant
  payloadOctets : Nat
  evidenceRefsOctets : Nat
  /-- Every text in the two JSON columns has a UTF-8 form. -/
  jsonEncodable : Bool

/-- The confidence is the text of what `_bounded_confidence` makes of the column. -/
structure BriefingItemColumns where
  severity : Str
  confidence : Option String

structure SyncJobRow where
  id : Uuid
  workspaceId : Uuid
  connectionId : Uuid
  provider : Str
  status : SyncJobStatus
  startedAt : Option Instant
  finishedAt : Option Instant
  createdAt : Instant
  deriving DecidableEq

/-- Everything that headquarters reads beside the memory of events. -/
structure HeadquartersRows where
  world : WorldRows
  evidence : Database
  sourceRecords_eq : evidence.sourceRecords = world.records.map (·.toSourceRecord)
  proposals_nodup : evidence.proposals.Nodup
  proposalColumns : Uuid → ProposalColumns
  itemColumns : Uuid → BriefingItemColumns
  lastSyncAt : Uuid → Option Instant
  jobs : List SyncJobRow

inductive SourceState where
  | failed | partially | stale | noData | healthy | setup
  deriving DecidableEq, Repr

structure HealthBasis where
  provider : Str
  state : SourceState
  activeConnections : Nat
  hasConnectionError : Bool
  latestJobId : Option Uuid
  latestJobStatus : Option SyncJobStatus
  recordCount : Nat
  lastDataObservedAt : Option Instant
  freshUntil : Option Instant
  deriving DecidableEq

structure SourceItem where
  key : Str
  name : Str
  managePath : Str
  configured : Bool
  primaryState : SourceState
  dataReady : Bool
  lastSuccessAt : Option Instant
  lastAttemptAt : Option Instant
  lastDataObservedAt : Option Instant
  evidence : List Evidence
  deriving DecidableEq

def SourceItem.observedAt (source : SourceItem) : Option Instant :=
  latestDatetime (latestDatetime source.lastDataObservedAt source.lastAttemptAt)
    source.lastSuccessAt

structure Projections where
  verifiedProposals : List VerifiedProposal
  sources : List SourceItem
  companyWorld : CompanyMap
  windowCut : Bool

/-- The digests of headquarters. In the mission of a candidate stand one of its key and one of its
version, `{selector}:{version}`, which tell two keys apart. -/
structure HeadquartersRules (Digest S : Type) where
  evidence : EvidenceRules Digest
  mail : MailRules
  worldReference : Uuid → CandidateType → CandidateKey → CandidateVersion → Str
  worldReference_key : ∀ {workspaceId candidateType key key' version version'},
    worldReference workspaceId candidateType key version =
      worldReference workspaceId candidateType key' version' → key = key'
  profileTarget : CandidateType → CandidateVersion → Str
  healthDigest : HealthBasis → Str
  itemId : ChangeItem → Str
  snapshotId : HeadquartersRows × Projections → UserId → Instant → Changes S →
    WatermarkMaterial S → S

def headquartersProposalScanLimit : Nat := 100
def actionProposalPayloadMaxBytes : Nat := 64 * 1024
def actionProposalEvidenceRefsMaxBytes : Nat := 64 * 1024

/-- 72 hours. -/
def sourceFreshnessThreshold : Nat := 72 * 60 * 60 * 1000000

structure ConnectorDescriptor where
  provider : Str
  name : Str
  managePath : Str

def connectorDescriptors : List ConnectorDescriptor :=
  [("github", "GitHub"), ("jira", "Jira"), ("gmail", "Gmail"), ("drive", "Google Drive")].map
    fun entry => ⟨Str.of entry.1, Str.of entry.2,
      Str.of "/settings/integrations?provider=" ++ Str.of entry.1⟩

def latestOf (times : List (Option Instant)) : Option Instant := times.foldl latestDatetime none

section sources

variable (rows : HeadquartersRows) (workspaceId : Uuid) (provider : Str)

def activeConnections : List IntegrationConnection :=
  rows.evidence.connections.filter fun c =>
    c.workspaceId = workspaceId && decide (c.status ∈ activeConnectionStatuses) &&
      c.provider = provider

def activeJobs : List SyncJobRow :=
  rows.jobs.filter fun job =>
    job.workspaceId = workspaceId && job.provider = provider &&
      (activeConnections rows workspaceId provider).any fun c => c.id = job.connectionId

/-- `DISTINCT ON (provider)` by `created_at DESC, id DESC`. -/
def latestJob : Option SyncJobRow :=
  ((activeJobs rows workspaceId provider).mergeSort fun a b =>
    if a.createdAt ≠ b.createdAt then b.createdAt < a.createdAt else b.id.text ≤ a.id.text).head?

def providerRecords : List MessageRecord :=
  rows.world.records.filter fun r =>
    r.workspaceId = workspaceId && r.provider = provider && !r.isDeleted

end sources

def SourceState.blocker : SourceState → Option Str
  | .failed => some (Str.of "Последняя попытка чтения не завершилась успешно.")
  | .partially => some (Str.of "Источник вернул только часть ожидаемых данных.")
  | .stale => some (Str.of "Данные старше допустимого окна свежести.")
  | .noData => some (Str.of "Источник настроен, но канонические записи ещё не получены.")
  | .healthy => none
  | .setup => none

def SourceState.word : SourceState → Str
  | .failed => Str.of "failed"
  | .partially => Str.of "partial"
  | .stale => Str.of "stale"
  | .noData => Str.of "no_data"
  | .healthy => Str.of "healthy"
  | .setup => Str.of "setup"

def SourceState.needsAttention : SourceState → Bool
  | .failed | .partially | .stale | .noData => true
  | .healthy | .setup => false

def SourceState.score : SourceState → Nat
  | .failed => 460
  | .partially => 450
  | .stale => 440
  | .noData => 430
  | .healthy => 0
  | .setup => 0

/-- `_aggregate_evidence`. -/
def aggregateEvidence (identity label target sourceKey : Str) : Evidence :=
  { evidence identity (Str.of "headquarters_aggregate") sourceKey label (some target)
      "headquarters_aggregate" with trust := Str.of "aggregate" }

variable {Digest S : Type} (rules : HeadquartersRules Digest S)

/-- An item of `_read_sources`, with its evidence. -/
def readSource (rows : HeadquartersRows) (workspaceId : Uuid) (asOf : Instant)
    (descriptor : ConnectorDescriptor) : SourceItem :=
  let connections := activeConnections rows workspaceId descriptor.provider
  let jobs := activeJobs rows workspaceId descriptor.provider
  let job := latestJob rows workspaceId descriptor.provider
  let status := job.map (·.status)
  let records := providerRecords rows workspaceId descriptor.provider
  let configured := !connections.isEmpty
  let hasError := connections.any (·.status = .error)
  let readFailed :=
    match status with
    | some .failed => true
    | some .queued | some .running | some .succeeded | some .partially => false
    | some .cancelled | none => hasError
  let incomplete := status = some .partially
  let observedAt := latestOf (records.map fun r => some r.observedAt)
  let freshUntil := observedAt.map (· + sourceFreshnessThreshold)
  let state : SourceState :=
    if readFailed then .failed
    else if incomplete then .partially
    else if freshUntil.any (· < asOf) then .stale
    else if records.isEmpty then if configured then .noData else .setup
    else .healthy
  let succeeded := jobs.filter fun j => j.status = .succeeded || j.status = .partially
  let basis : HealthBasis :=
    { provider := descriptor.provider
      state := state
      activeConnections := connections.length
      hasConnectionError := hasError
      latestJobId := job.map (·.id)
      latestJobStatus := status
      recordCount := records.length
      lastDataObservedAt := observedAt
      freshUntil := freshUntil }
  { key := descriptor.provider
    name := descriptor.name
    managePath := descriptor.managePath
    configured := configured
    primaryState := state
    dataReady := incomplete || !records.isEmpty
    lastSuccessAt := latestDatetime (latestOf (connections.map fun c => rows.lastSyncAt c.id))
      (latestOf (succeeded.map (·.finishedAt)))
    lastAttemptAt := job.bind fun j => j.startedAt.or (some j.createdAt)
    lastDataObservedAt := observedAt
    evidence :=
      if configured && state.needsAttention then
        [aggregateEvidence
          (Str.of "source_inventory:" ++ workspaceId.text ++ Str.of ":" ++ descriptor.provider ++
            Str.of ":" ++ rules.healthDigest basis)
          (descriptor.name ++ Str.of ": вычисленное состояние " ++ state.word)
          descriptor.managePath descriptor.provider]
      else [] }

def readSources (rows : HeadquartersRows) (workspaceId : Uuid) (asOf : Instant) : List SourceItem :=
  connectorDescriptors.map (readSource rules rows workspaceId asOf)

structure DecisionRows where
  proposals : List Proposal
  oversizedProposalCount : Nat
  proposalsTruncated : Bool

def withinSize (columns : ProposalColumns) : Bool :=
  columns.payloadOctets ≤ actionProposalPayloadMaxBytes &&
    columns.evidenceRefsOctets ≤ actionProposalEvidenceRefsMaxBytes

def proposedRows (rows : HeadquartersRows) (workspaceId : Uuid) : List Proposal :=
  rows.evidence.proposals.filter fun p =>
    p.workspaceId = workspaceId && (rows.proposalColumns p.id).proposed

def readDecisionRows (rows : HeadquartersRows) (workspaceId : Uuid) : DecisionRows :=
  let proposed := proposedRows rows workspaceId
  let eligible := proposed.filter fun p => withinSize (rows.proposalColumns p.id)
  let scanned := (eligible.mergeSort fun a b =>
    let left := (rows.proposalColumns a.id).updatedAt
    let right := (rows.proposalColumns b.id).updatedAt
    if left ≠ right then right < left else a.id.text ≤ b.id.text).take headquartersProposalScanLimit
  { proposals := scanned
    oversizedProposalCount := proposed.length - eligible.length
    proposalsTruncated := scanned.length < eligible.length }

def severityRank : List (Str × Nat) :=
  [("critical", 5), ("high", 4), ("medium", 3), ("low", 2), ("info", 1)].map fun entry =>
    (Str.of entry.1, entry.2)

/-- `500 + SEVERITY_RANK.get(_trusted_severity(..), 0)`; an unknown severity has no rank. -/
def proposalScore (severity : Option Str) : Nat :=
  500 + ((severity.bind clean).bind fun text =>
    Dict.get severityRank (text.map fun c => if 65 ≤ c ∧ c ≤ 90 then c + 32 else c)).getD 0

def evidenceSourceKeys (refs : List Evidence) : List Str :=
  ((refs.map (·.sourceKey)).dedup).mergeSort fun a b => a ≤ b

def proposalMission (rows : HeadquartersRows) (verified : VerifiedProposal) :
    Nat × MissionCandidate :=
  let columns := rows.proposalColumns verified.proposal.id
  let item := verified.trustedBriefingItem.map fun item => rows.itemColumns item.id
  (proposalScore (item.map (·.severity)),
    { mission :=
        { id := Str.of "proposal:" ++ verified.proposal.id.text
          title := (clean columns.title).getD (Str.of "Решение без названия")
          summary := (columns.description.bind clean).getD
            (Str.of "Предложение ожидает решения основателя.")
          confidence := item.bind (·.confidence)
          sourceKeys := evidenceSourceKeys verified.evidenceRefs
          evidenceRefs := verified.evidenceRefs
          target := some (Str.of "/actions?proposal=" ++ verified.proposal.id.text ++
            Str.of "&status=proposed") }
      eventTime := some columns.updatedAt
      observedAt := some columns.updatedAt
      changeKind := some .proposal })

def sourceCandidate (source : SourceItem) : MissionCandidate where
  mission :=
    { id := Str.of "source:" ++ source.key ++ Str.of ":" ++ source.primaryState.word
      title := source.name ++ Str.of " требует внимания"
      summary := source.primaryState.blocker.getD (Str.of "Проверьте состояние источника.")
      confidence := some "1.0"
      sourceKeys := [source.key]
      evidenceRefs := source.evidence
      target := some source.managePath }
  eventTime := source.lastAttemptAt.or source.lastSuccessAt
  observedAt := source.observedAt
  changeKind := if source.evidence = [] then none else some .source

def sourceMission (source : SourceItem) : Option (Nat × MissionCandidate) :=
  if source.configured && source.primaryState.needsAttention then
    some (source.primaryState.score, sourceCandidate source)
  else none

/-- `person` or `organization`, as headquarters calls them. -/
def CandidateType.word : CandidateType → Str
  | .externalPerson => Str.of "person"
  | .organization => Str.of "organization"

def companyWorldEvidence (candidateType : CandidateType) (refs : List SourceRef) : List Evidence :=
  dedupeEvidence (refs.map fun ref =>
    let key := (sourceKey rules.evidence (.str ref.source)).getD (Str.of "internal")
    evidence (Str.of "company_world:" ++ candidateType.word ++ Str.of ":" ++ ref.recordId.text)
      ((clean ref.kind).getD (Str.of "company_world_candidate")) key
      (((clean ref.label).getD (key ++ Str.of " evidence for " ++ candidateType.word)).take 255)
      (safeUrl rules.evidence ref.url) "company_world_projection")

/-- `_read_company_world_observed_at` of one row. -/
def worldObservedAt (rows : HeadquartersRows) (workspaceId : Uuid) (refs : List SourceRef) :
    Option Instant :=
  latestOf ((rows.world.records.filter fun r =>
    r.workspaceId = workspaceId && !r.isDeleted &&
      decide (r.id ∈ candidateSourceRecordIds refs)).map fun r => some r.observedAt)

def worldTitle (candidate : Candidate) : CandidateType → Str
  | .externalPerson => Str.of "Уточните связь с " ++
      (((candidate.displayName.bind clean).or (candidate.email.bind clean)).getD
        (Str.of "внешним контактом"))
  | .organization => Str.of "Уточните компанию " ++
      ((candidate.version.domain.bind clean).getD (Str.of "из нового контакта"))

def worldSummary : CandidateType → Str
  | .externalPerson => Str.of
      "Контакт найден в подтверждённом соприкосновении, но его роль ещё не определена."
  | .organization => Str.of ("Организация обнаружена по соприкосновениям, но её отношение " ++
      "к компании не подтверждено.")

def worldCandidate (rows : HeadquartersRows) (workspaceId : Uuid) (candidateType : CandidateType)
    (candidate : Candidate) : MissionCandidate :=
  let evidenceRefs := companyWorldEvidence rules candidateType candidate.sourceRefs
  { mission :=
      { id := Str.of "world:" ++ candidateType.word ++ Str.of ":" ++
          rules.worldReference workspaceId candidateType candidate.key candidate.version
        title := worldTitle candidate candidateType
        summary := worldSummary candidateType
        confidence := none
        sourceKeys := evidenceSourceKeys evidenceRefs
        evidenceRefs := evidenceRefs
        target := some (rules.profileTarget candidateType candidate.version) }
    eventTime := candidate.version.lastInteractionAt
    observedAt := worldObservedAt rows workspaceId candidate.sourceRefs
    changeKind := some .relationship }

def worldMission (rows : HeadquartersRows) (workspaceId : Uuid) (candidateType : CandidateType)
    (candidate : Candidate) : Option (Nat × MissionCandidate) :=
  if companyWorldEvidence rules candidateType candidate.sourceRefs = [] then none
  else some (350, worldCandidate rules rows workspaceId candidateType candidate)

def setupMission (id title summary label target : Str) (sourceKeys : List Str) (identity : Str)
    (score : Nat) : Nat × MissionCandidate :=
  (score,
    { mission :=
        { id := id
          title := title
          summary := summary
          confidence := some "1.0"
          sourceKeys := sourceKeys
          evidenceRefs := [aggregateEvidence identity label target (Str.of "internal")]
          target := some target }
      eventTime := none
      observedAt := none
      changeKind := none })

/-- The two missions of the set-up; the second is offered where there is no briefing. -/
def setupMissions (rows : HeadquartersRows) (workspaceId : Uuid) (sources : List SourceItem) :
    List (Nat × MissionCandidate) :=
  let inventory := Str.of "source_inventory:" ++ workspaceId.text
  if sources.all fun s => !s.dataReady && !s.configured then
    [setupMission (Str.of "setup:connect-source") (Str.of "Подключите первый источник")
      (Str.of "FounderOS нужен хотя бы один источник данных для полезной картины компании.")
      (Str.of "В текущем снимке нет готовых канонических данных источников")
      (Str.of "/settings/integrations") [] (inventory ++ Str.of ":empty") 250]
  else if sources.any (·.dataReady) &&
      (rows.evidence.briefings.filter (·.workspaceId = workspaceId)).isEmpty then
    [setupMission (Str.of "setup:create-briefing") (Str.of "Соберите первый брифинг")
      (Str.of "Данные уже готовы; теперь их можно превратить в краткий обзор.")
      (Str.of "В текущем снимке есть готовые канонические данные") (Str.of "/briefings")
      (((sources.filter (·.dataReady)).map (·.key)).mergeSort fun a b => a ≤ b)
      (inventory ++ Str.of ":ready") 200]
  else []

def worldMissions (rows : HeadquartersRows) (workspaceId : Uuid) (companyWorld : CompanyMap) :
    List (Nat × MissionCandidate) :=
  ((companyWorld.candidates .externalPerson).filterMap
      (worldMission rules rows workspaceId .externalPerson)) ++
    (companyWorld.candidates .organization).filterMap
      (worldMission rules rows workspaceId .organization)

/-- `_build_mission_candidates`, each with its score. -/
def buildMissionCandidates (rows : HeadquartersRows) (workspaceId : Uuid) (read : Projections) :
    List (Nat × MissionCandidate) :=
  read.verifiedProposals.map (proposalMission rows) ++ read.sources.filterMap sourceMission ++
    worldMissions rules rows workspaceId read.companyWorld ++
      setupMissions rows workspaceId read.sources

/-- The order of `_mission_sort_key`. -/
def missionOrder (a b : Nat × MissionCandidate) : Bool :=
  if a.1 ≠ b.1 then b.1 < a.1
  else if stamp a.2.eventTime ≠ stamp b.2.eventTime then stamp b.2.eventTime < stamp a.2.eventTime
  else a.2.mission.id ≤ b.2.mission.id

def rankedMissions (rows : HeadquartersRows) (workspaceId : Uuid) (read : Projections) :
    List MissionCandidate :=
  ((buildMissionCandidates rules rows workspaceId read).mergeSort missionOrder).map (·.2)

def headquartersReader (workspaceId : Uuid) : Reader (HeadquartersRows × Projections) S where
  ranked canonical _ _ := rankedMissions rules canonical.1 workspaceId canonical.2
  windowCut canonical _ _ := canonical.2.windowCut
  itemId := rules.itemId
  snapshotId := rules.snapshotId

def Evidence.encodable (e : Evidence) : Bool :=
  Str.encodable e.id && Str.encodable e.kind && Str.encodable e.sourceKey &&
    Str.encodable e.label && e.target.all Str.encodable

def Mission.encodable (m : Mission) : Bool :=
  Str.encodable m.id && Str.encodable m.title && Str.encodable m.summary &&
    m.sourceKeys.all Str.encodable && m.evidenceRefs.all (·.encodable) &&
      m.target.all Str.encodable

def ChangeItem.encodable : ChangeItem → Bool
  | .candidate c _ => c.mission.encodable
  | .memoryEvent _ => true

/-- The priority, the queue and the changes, which are digested with the rest of the payload. -/
def shownEncodable (ranked : List MissionCandidate) (items : List ChangeItem) : Bool :=
  (ranked.take 3).all (·.mission.encodable) && items.all (·.encodable)

/-- What the transaction reads of the memory of events. -/
structure MemoryRows (S : Type) where
  events : List Memory.Event
  currentSequence : Nat
  checkpoint : Option (Checkpoint S)
  asOf : Instant

def unicodeEncodeError : String := "UnicodeEncodeError"

variable [DecidableEq Digest]

/-- The projections of one snapshot. A statement that runs out of its time is left out. -/
def readProjections (plan : Plan) (rows : HeadquartersRows) (workspaceId : Uuid) (asOf : Instant) :
    Except String Projections :=
  let decisionRows := readDecisionRows rows workspaceId
  match verifyProposals rules.evidence plan rows.evidence workspaceId decisionRows.proposals with
  | .error _ => .error unicodeEncodeError
  | .ok verified =>
    match headquartersMap rules.mail rows.world workspaceId with
    | none => .error unicodeEncodeError
    | some companyWorld =>
      -- `action_proposal_version` digests the whole row
      if verified.all fun v => (rows.proposalColumns v.proposal.id).jsonEncodable then
        .ok
          { verifiedProposals := verified
            sources := readSources rules rows workspaceId asOf
            companyWorld := companyWorld
            windowCut := decisionRows.proposalsTruncated ||
              decisionRows.oversizedProposalCount ≠ 0 ||
              decide ((window rows.world workspaceId).length <
                (rows.world.records.filter (isGmailMessage workspaceId)).length) }
      else .error unicodeEncodeError

/-- `_build_headquarters_snapshot`. -/
def renderHeadquarters (plan : Plan) (rows : HeadquartersRows) (memory : MemoryRows S)
    (workspaceId : Uuid) (userId : UserId) : Except String (Snapshot S) :=
  if !rows.world.members.any fun m =>
      m.userId = userId && m.workspaceId = workspaceId && m.active then
    .error "workspace access changed"
  else
    match readProjections rules plan rows workspaceId memory.asOf with
    | .error e => .error e
    | .ok read =>
      match buildHeadquartersSnapshot (headquartersReader rules workspaceId) userId
          ⟨(rows, read), memory.events, memory.currentSequence, memory.checkpoint, memory.asOf⟩ with
      | .error e => .error e
      | .ok snapshot =>
        if shownEncodable (rankedMissions rules rows workspaceId read) snapshot.changes.items then
          .ok snapshot
        else .error unicodeEncodeError

end FounderOs.Headquarters
