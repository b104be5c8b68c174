import FounderOs.Decision.Model
import FounderOs.Foundation.Dict
import FounderOs.Foundation.Str

namespace FounderOs.Headquarters

open Execution Decision

/-- A value under a key of an evidence reference or of a payload. -/
inductive Field where
  | null
  | str (text : Str)
  | other
  deriving DecidableEq, Repr

abbrev Fields := List (Str × Field)

inductive Item where
  | mapping (fields : Fields)
  | other
  deriving DecidableEq, Repr

inductive Column where
  | list (items : List Item)
  | other
  deriving DecidableEq, Repr

def Field.asStr : Field → Option Str
  | .str text => some text
  | _ => none

def Item.asMapping : Item → Option Fields
  | .mapping fields => some fields
  | .other => none

/-- `ref.get(key)`, where a missing key reads as `None`. -/
def field (fields : Fields) (key : String) : Field := (Dict.get fields (Str.of key)).getD .null

def Fields.encodable (fields : Fields) : Bool :=
  fields.all fun f => Str.encodable f.1 && (f.2.asStr).all Str.encodable

def cleanText (value : Field) : Option Str :=
  value.asStr.bind fun text => if Str.joined text = [] then none else some (Str.joined text)

def strictText (value : Field) : Option Str :=
  value.asStr.bind fun text =>
    if text = [] ∨ text ≠ Str.strip text then none
    else if text.any (fun c => Str.isSpace c && c != 32) then none
    else if text.any (fun c => c < 32 || c == 127) then none
    else some text

def isUuidText (text : Str) : Bool :=
  let digits := text.filter (· != 45)
  digits.length == 32 && digits.all (fun c => (48 ≤ c && c ≤ 57) || (97 ≤ c && c ≤ 102)) &&
    (text.splitOn 45).map List.length == [8, 4, 4, 4, 12]

/-- An id, as `str` writes it. -/
structure Uuid where
  text : Str
  canonical : isUuidText text = true
  deriving DecidableEq

theorem uuid_graphic (id : Uuid) : ∀ c ∈ id.text, 32 < c ∧ c < 127 := by
  have hcanonical := id.canonical
  simp only [isUuidText, Bool.and_eq_true, List.all_eq_true, beq_iff_eq] at hcanonical
  intro c hc
  by_cases hdash : c = 45
  · subst hdash
    decide
  · have hdigit := hcanonical.1.2 c (List.mem_filter.2 ⟨hc, by simpa using hdash⟩)
    simp only [Bool.or_eq_true, Bool.and_eq_true, decide_eq_true_eq] at hdigit
    omega

theorem uuid_length (id : Uuid) : id.text.length = 36 := by
  have hcanonical := id.canonical
  simp only [isUuidText, Bool.and_eq_true, beq_iff_eq] at hcanonical
  have hjoined : [45].intercalate (id.text.splitOn 45) = id.text := List.intercalate_splitOn 45
  simp only [List.map_eq_cons_iff, List.map_eq_nil_iff] at hcanonical
  obtain ⟨a, _, hparts, ha, b, _, rfl, hb, c, _, rfl, hc, d, _, rfl, hd, e, _, rfl, he, rfl⟩ :=
    hcanonical.2
  rw [hparts] at hjoined
  rw [← hjoined]
  simp only [List.intercalate_cons_cons, List.intercalate_singleton, List.length_append,
    List.length_singleton, ha, hb, hc, hd, he]

/-- Ids for samples. -/
def sampleUuid (digit : Fin 10) : Uuid :=
  ⟨Str.of "00000000-0000-4000-8000-00000000000" ++ [48 + digit.val], by decide +kernel +revert⟩

def sampleWorkspace : Uuid := sampleUuid ⟨0, Nat.zero_lt_succ 9⟩

structure EvidenceRules (Digest : Type) where
  casefold : Str → Str
  /-- `UUID(text)`; `none` where it raises. -/
  uuid : Str → Option Uuid
  uuid_text : ∀ id : Uuid, uuid id.text = some id
  /-- `urlsplit` takes the text, and finds the scheme http or https and a host. -/
  httpUrl : Str → Bool
  /-- `sanitize_headquarters_evidence_url` lets the text through. -/
  safeUrl : Str → Bool
  digest : List Fields → Digest

def sourceKeyAliases : List (Str × Str) :=
  [("canonical_github_company_brain", "github"), ("drive", "drive"), ("github", "github"),
    ("github_app_live_sync", "github"), ("github_app_setup", "github"),
    ("github_issue_read_api", "github"), ("github_normalization_work_item", "github"),
    ("github_repository_read_api", "github"), ("gmail", "gmail"), ("internal", "internal"),
    ("jira", "jira"), ("repository_inventory", "github"),
    ("selected_repository_issue_sync", "github"), ("selected_repository_pr_sync", "github")].map
    fun entry => (Str.of entry.1, Str.of entry.2)

def genericSourceAliases : List Str :=
  ["briefing_item", "canonical_source_record", "company_brain", "documents", "founderos",
    "local_db"].map Str.of

def knownSourceKeys : List Str := sourceKeyAliases.map (·.2)

def actionEvidenceAllowedKeys : List Str :=
  ["evidence_ref_id", "id", "kind", "record_id", "ref", "source", "source_record_id", "url"].map
    Str.of

def actionProposalEvidenceRefsMaxItems : Nat := 50
def actionEvidenceKindMaxLength : Nat := 80
def actionEvidenceSelectorMaxLength : Nat := 500
def actionEvidenceSourceMaxLength : Nat := 80
def actionEvidenceUrlMaxLength : Nat := 1000

variable {Digest : Type} (rules : EvidenceRules Digest)

def sourceKey (value : Field) : Option Str :=
  (cleanText value).bind fun text => Dict.get sourceKeyAliases (rules.casefold text)

def sourceAliasIsSupported (value : Field) : Bool :=
  (cleanText value).all fun text =>
    (Dict.get sourceKeyAliases (rules.casefold text)).isSome ||
      decide (rules.casefold text ∈ genericSourceAliases)

def actionEvidenceUrlIsSafe (value : Field) : Bool :=
  (strictText value).any fun text =>
    text.length ≤ actionEvidenceUrlMaxLength && !text.contains 92 && !text.any Str.isSpace &&
      rules.httpUrl text

def selectorKeys : List String := ["evidence_ref_id", "source_record_id", "record_id", "ref", "id"]

def uuidSelectorKeys : List String := ["evidence_ref_id", "source_record_id", "record_id"]

def actionEvidenceRefMatchesSchema (ref : Fields) : Bool :=
  let selectors := (selectorKeys.filter fun key => field ref key ≠ .null).map
    fun key => strictText (field ref key)
  ref.all (fun f => decide (f.1 ∈ actionEvidenceAllowedKeys)) &&
    (strictText (field ref "kind")).any (fun kind => kind.length ≤ actionEvidenceKindMaxLength) &&
    (strictText (field ref "source")).any
      (fun source => source.length ≤ actionEvidenceSourceMaxLength) &&
    !selectors.isEmpty &&
    selectors.all (fun value =>
      value.any fun text => text.length ≤ actionEvidenceSelectorMaxLength) &&
    uuidSelectorKeys.all (fun key =>
      field ref key = .null || (strictText (field ref key)).any fun text =>
        (rules.uuid text).isSome) &&
    (field ref "url" = .null || actionEvidenceUrlIsSafe rules (field ref "url"))

def evidenceRefMatchesSchema (ref : Fields) : Bool :=
  actionEvidenceRefMatchesSchema rules ref && sourceAliasIsSupported rules (field ref "source")

def strictEvidenceRefs : Column → Option (List Fields)
  | .list items =>
    let refs := items.filterMap Item.asMapping
    if items = [] ∨ actionProposalEvidenceRefsMaxItems < items.length ∨
        refs.length ≠ items.length then none
    else if refs.all (evidenceRefMatchesSchema rules) then some refs
    else none
  | .other => none

inductive SelectorKind where
  | evidenceRef | sourceRecord | external
  deriving DecidableEq, Repr

structure EvidenceSelector where
  kind : SelectorKind
  token : Str
  sourceRecordTokens : List Str := []
  deriving DecidableEq, Repr

def sourceRecordTokens (ref : Fields) : List Str :=
  match cleanText (field ref "source_record_id"), cleanText (field ref "record_id") with
  | some a, some b => if a = b then [a] else [a, b]
  | some a, none => [a]
  | none, some b => [b]
  | none, none => []

def evidenceSelector (ref : Fields) : Option EvidenceSelector :=
  match cleanText (field ref "evidence_ref_id") with
  | some token => some ⟨.evidenceRef, token, sourceRecordTokens ref⟩
  | none =>
    match sourceRecordTokens ref with
    | [token] => some ⟨.sourceRecord, token, []⟩
    | _ :: _ => none
    | [] =>
      match cleanText (field ref "ref") with
      | some token => some ⟨.external, token, []⟩
      | none => (cleanText (field ref "id")).map fun token => ⟨.external, token, []⟩

def evidenceTokens (ref : Fields) : List Str :=
  match evidenceSelector ref with
  | some selector => (selector.token :: selector.sourceRecordTokens).eraseDups
  | none => []

structure SourceRow where
  id : Uuid
  provider : Str
  externalId : Str
  recordType : Str
  sourceUrl : Option Str
  payloadHash : Str
  observedAt : Instant
  deriving DecidableEq

structure SourceRecord extends SourceRow where
  workspaceId : Uuid
  isDeleted : Bool
  deriving DecidableEq

/-- A number is kept as its text. -/
structure EvidenceColumns where
  fieldPath : Option Str
  confidence : String
  evidenceSourceUrl : Option Str
  createdAt : Instant
  quoteHash : Str
  deriving DecidableEq

structure EvidenceRef extends EvidenceColumns where
  id : Uuid
  workspaceId : Uuid
  sourceRecordId : Uuid
  deriving DecidableEq

/-- A row of `evidence_refs` joined with its source record. -/
structure EvidenceRow extends EvidenceColumns where
  id : Uuid
  source : SourceRow
  deriving DecidableEq

structure RepositoryRow where
  id : Uuid
  provider : Str
  fullName : Str
  sourceUrl : Option Str
  archived : Bool
  updatedAt : Instant
  deriving DecidableEq

structure Repository extends RepositoryRow where
  workspaceId : Uuid
  deriving DecidableEq

inductive ConnectionStatus where
  | connected | error | revoked | disabled
  deriving DecidableEq, Repr

def activeConnectionStatuses : List ConnectionStatus := [.connected, .error]

structure ConnectionRow where
  id : Uuid
  provider : Str
  displayName : Option Str
  status : ConnectionStatus
  scopes : List Str
  updatedAt : Instant
  deriving DecidableEq

structure IntegrationConnection extends ConnectionRow where
  workspaceId : Uuid
  deriving DecidableEq

structure Briefing where
  id : Uuid
  workspaceId : Uuid
  deriving DecidableEq

structure BriefingItem where
  id : Uuid
  briefingId : Uuid
  evidenceRefs : Column
  deriving DecidableEq

/-- The columns of a proposal that the two verifications read. -/
structure Proposal where
  id : Uuid
  workspaceId : Uuid
  briefingItemId : Option Uuid
  targetProvider : TargetProvider
  payload : Item
  evidenceRefs : Column
  createdBy : CreatedBy
  createdByUserId : Option Uuid
  deriving DecidableEq

structure Database where
  sourceRecords : List SourceRecord
  evidenceRefs : List EvidenceRef
  repositories : List Repository
  connections : List IntegrationConnection
  briefings : List Briefing
  briefingItems : List BriefingItem
  proposals : List Proposal
  sourceRecord_id : Dict.Unique (·.id) sourceRecords
  sourceRecord_name : Dict.Unique (fun r => (r.workspaceId, r.provider, r.externalId)) sourceRecords
  evidenceRef_id : Dict.Unique (·.id) evidenceRefs
  repository_id : Dict.Unique (·.id) repositories
  repository_name : Dict.Unique (fun r => (r.workspaceId, r.provider, r.fullName)) repositories
  repository_provider : ∀ r ∈ repositories, r.provider = Str.of "github"
  connection_id : Dict.Unique (·.id) connections
  briefing_id : Dict.Unique (·.id) briefings
  briefingItem_id : Dict.Unique (·.id) briefingItems
  proposal_id : Dict.Unique (·.id) proposals

/-- The order in which the server returns the rows of a query without ORDER BY. -/
structure Plan where
  order : {R : Type} → List R → List R
  perm : ∀ {R : Type} (rows : List R), (order rows).Perm rows

inductive MatchKind where
  | sourceRecord | repositorySourceRecord | repository | integrationConnection
  deriving DecidableEq, Repr

structure Evidence where
  id : Str
  kind : Str
  sourceKey : Str
  label : Str
  target : Option Str
  provenance : Str
  trust : Str
  referenceType : Str
  referenceId : Str
  workspaceScoped : Bool
  deriving DecidableEq

/-- What a version dict holds beside its kind. -/
inductive EvidenceVersion where
  | sourceRecord (row : SourceRow)
  | evidenceRef (row : EvidenceRow)
  | repository (row : RepositoryRow)
  | integrationConnection (row : ConnectionRow)
  deriving DecidableEq

structure ResolvedEvidence where
  evidence : Evidence
  version : EvidenceVersion
  matchKind : MatchKind
  matchKey : Option Str
  deriving DecidableEq

def referenceTypeByPrefix : List (Str × Str) :=
  [("briefing_item", "briefing_item"), ("evidence_ref", "evidence_ref"),
    ("source_record", "source_record"), ("repository", "repository"),
    ("integration_connection", "integration_connection"), ("sync_job", "sync_job"),
    ("company_world", "company_world_candidate"),
    ("company_memory_event", "company_memory_event"),
    ("source_inventory", "headquarters_snapshot")].map
    fun entry => (Str.of entry.1, Str.of entry.2)

/-- `_evidence`, its trust left at the default. -/
def evidence (identity kind sourceKey label : Str) (target : Option Str) (provenance : String) :
    Evidence :=
  let identityPrefix := identity.takeWhile (· != 58)
  let referenceId := (identity.dropWhile (· != 58)).drop 1
  { id := identity
    kind := kind
    sourceKey := sourceKey
    label := label
    target := target
    provenance := Str.of provenance
    trust := Str.of "verified"
    referenceType :=
      (Dict.get referenceTypeByPrefix identityPrefix).getD (Str.of "headquarters_snapshot")
    referenceId := if referenceId = [] then identity else referenceId
    workspaceScoped := true }

def clean (text : Str) : Option Str := cleanText (.str text)

def safeUrl (url : Option Str) : Option Str := url.filter rules.safeUrl

def sourceRecordEvidence (row : SourceRow) : Evidence :=
  evidence (Str.of "source_record:" ++ row.id.text)
    ((clean row.recordType).getD (Str.of "source_record"))
    ((sourceKey rules (.str row.provider)).getD (Str.of "internal"))
    (((clean row.externalId).getD (Str.of "Canonical source record")).take 255)
    (safeUrl rules row.sourceUrl) "canonical_source_record"

def evidenceRefEvidence (row : EvidenceRow) : Evidence :=
  evidence (Str.of "evidence_ref:" ++ row.id.text)
    ((clean row.source.recordType).getD (Str.of "source_record"))
    ((sourceKey rules (.str row.source.provider)).getD (Str.of "internal"))
    (((clean row.source.externalId).getD (Str.of "Canonical evidence")).take 255)
    ((safeUrl rules row.evidenceSourceUrl).or (safeUrl rules row.source.sourceUrl))
    "canonical_evidence_ref"

def repositoryEvidence (row : RepositoryRow) : Evidence :=
  evidence (Str.of "repository:" ++ row.id.text) (Str.of "repository") (Str.of "github")
    (row.fullName.take 255) (safeUrl rules row.sourceUrl) "canonical_repository"

def connectionEvidence (row : ConnectionRow) : Evidence :=
  let key := (sourceKey rules (.str row.provider)).getD (Str.of "internal")
  evidence (Str.of "integration_connection:" ++ row.id.text) (Str.of "integration_connection") key
    (((row.displayName.bind clean).getD (key ++ Str.of " connection")).take 255)
    (some (if key ∈ knownSourceKeys then Str.of "/settings/integrations?provider=" ++ key
      else Str.of "/settings/integrations"))
    "integration_connection"

def isRepositoryRecord (row : SourceRow) : Bool :=
  sourceKey rules (.str row.provider) = some (Str.of "github") &&
    rules.casefold ((clean row.recordType).getD []) = Str.of "repository"

def sourceRecordMatch (row : SourceRow) : MatchKind × Option Str :=
  if isRepositoryRecord rules row then (.repositorySourceRecord, some row.externalId)
  else (.sourceRecord, some row.id.text)

def resolvedSourceRecordEvidence (row : SourceRow) : ResolvedEvidence :=
  ⟨sourceRecordEvidence rules row, .sourceRecord row, (sourceRecordMatch rules row).1,
    (sourceRecordMatch rules row).2⟩

/-- `_resolved_source_record_evidence` with `evidence_ref=True`. -/
def resolvedEvidenceRefEvidence (row : EvidenceRow) : ResolvedEvidence :=
  ⟨evidenceRefEvidence rules row, .evidenceRef row, (sourceRecordMatch rules row.source).1,
    (sourceRecordMatch rules row.source).2⟩

def resolvedRepositoryEvidence (row : RepositoryRow) : ResolvedEvidence :=
  ⟨repositoryEvidence rules row, .repository row, .repository, some row.fullName⟩

def resolvedConnectionEvidence (row : ConnectionRow) : ResolvedEvidence :=
  ⟨connectionEvidence rules row, .integrationConnection row, .integrationConnection,
    some row.id.text⟩

structure Resolver where
  sourceById : List (Str × SourceRow)
  sourceByExternal : List ((Str × Str) × SourceRow)
  repositoryById : List (Str × RepositoryRow)
  repositoryByName : List (Str × RepositoryRow)
  connectionById : List (Str × ConnectionRow)
  evidenceById : List (Str × EvidenceRow)

inductive EvidenceError where
  | validation (detail : String)
  /-- `UnicodeEncodeError`: a lone surrogate has no UTF-8 form. -/
  | unencodable
  deriving DecidableEq, Repr

structure Query where
  tokens : List Str
  uuidTokens : List Uuid

def Query.ofRefs (refs : List Fields) : Query :=
  let tokens := ((refs.flatMap evidenceTokens).filter (· ≠ [])).eraseDups
  ⟨tokens, tokens.filterMap rules.uuid⟩

def Database.sourceRows (db : Database) (workspaceId : Uuid) : List SourceRow :=
  (db.sourceRecords.filter fun r => r.workspaceId = workspaceId ∧ r.isDeleted = false).map
    (·.toSourceRow)

def Database.repositoryRows (db : Database) (workspaceId : Uuid) : List RepositoryRow :=
  (db.repositories.filter fun r => r.workspaceId = workspaceId ∧ r.archived = false).map
    (·.toRepositoryRow)

def Database.connectionRows (db : Database) (workspaceId : Uuid) : List ConnectionRow :=
  (db.connections.filter fun c =>
    c.workspaceId = workspaceId ∧ c.status ∈ activeConnectionStatuses).map (·.toConnectionRow)

def Database.evidenceRows (db : Database) (workspaceId : Uuid) : List EvidenceRow :=
  (db.evidenceRefs.filter (·.workspaceId = workspaceId)).flatMap fun e =>
    ((db.sourceRows workspaceId).filter (·.id = e.sourceRecordId)).map fun row =>
      ⟨e.toEvidenceColumns, e.id, row⟩

def indexRows (sources : List SourceRow) (repositories : List RepositoryRow)
    (connections : List ConnectionRow) (evidenceRows : List EvidenceRow) : Resolver where
  sourceById := Dict.index (·.id.text) sources
  sourceByExternal := Dict.index (fun row => (row.provider, row.externalId)) sources
  repositoryById := Dict.index (·.id.text) repositories
  repositoryByName := Dict.index (·.fullName) repositories
  connectionById := Dict.index (·.id.text) connections
  evidenceById := Dict.index (·.id.text) evidenceRows

def buildDirectEvidenceResolver (plan : Plan) (db : Database) (workspaceId : Uuid)
    (refs : List Fields) : Except EvidenceError Resolver :=
  let query := Query.ofRefs rules refs
  -- the texts of the query are bound as UTF-8
  if query.tokens.all Str.encodable then
    .ok (indexRows
      (plan.order ((db.sourceRows workspaceId).filter fun row =>
        row.id ∈ query.uuidTokens ∨ row.externalId ∈ query.tokens))
      (plan.order ((db.repositoryRows workspaceId).filter fun row =>
        row.id ∈ query.uuidTokens ∨ row.fullName ∈ query.tokens))
      (plan.order ((db.connectionRows workspaceId).filter (·.id ∈ query.uuidTokens)))
      (plan.order ((db.evidenceRows workspaceId).filter (·.id ∈ query.uuidTokens))))
  else .error .unencodable

def providerMatchesSourceHint (provider : Str) (sourceHint : Option Str) : Bool :=
  sourceHint = none || sourceKey rules (.str provider) = sourceHint

def resolveExternal (r : Resolver) (hint : Option Str) (token : Str) : Option ResolvedEvidence :=
  match Dict.get r.evidenceById token with
  | some row =>
    if providerMatchesSourceHint rules row.source.provider hint then
      some (resolvedEvidenceRefEvidence rules row)
    else none
  | none =>
  match Dict.get r.sourceById token with
  | some row =>
    if providerMatchesSourceHint rules row.provider hint then
      some (resolvedSourceRecordEvidence rules row)
    else none
  | none =>
  match hint.bind fun key => Dict.get r.sourceByExternal (key, token) with
  | some row => some (resolvedSourceRecordEvidence rules row)
  | none =>
  match Dict.get r.repositoryById token with
  | some row =>
    if providerMatchesSourceHint rules row.provider hint then
      some (resolvedRepositoryEvidence rules row)
    else none
  | none =>
  match Dict.get r.repositoryByName token with
  | some row =>
    if providerMatchesSourceHint rules row.provider hint then
      some (resolvedRepositoryEvidence rules row)
    else none
  | none =>
  match Dict.get r.connectionById token with
  | some row =>
    if providerMatchesSourceHint rules row.provider hint then
      some (resolvedConnectionEvidence rules row)
    else none
  | none => none

def resolveDirectEvidence (r : Resolver) (ref : Fields) : Option ResolvedEvidence :=
  if !sourceAliasIsSupported rules (field ref "source") then none
  else (evidenceSelector ref).bind fun selector =>
    let hint := sourceKey rules (field ref "source")
    match selector.kind with
    | .evidenceRef =>
      (Dict.get r.evidenceById selector.token).bind fun row =>
        if !providerMatchesSourceHint rules row.source.provider hint then none
        else if selector.sourceRecordTokens.any (· != row.source.id.text) then none
        else some (resolvedEvidenceRefEvidence rules row)
    | .sourceRecord =>
      (Dict.get r.sourceById selector.token).bind fun row =>
        if !providerMatchesSourceHint rules row.provider hint then none
        else some (resolvedSourceRecordEvidence rules row)
    | .external => resolveExternal rules r hint selector.token

def proposalEvidenceIsRelevant (proposal : Proposal) (resolvedRefs : List ResolvedEvidence) : Bool :=
  match proposal.targetProvider with
  | .internal => true
  | .github =>
    (cleanText (field (proposal.payload.asMapping.getD []) "repository_full_name")).any fun name =>
      resolvedRefs.any fun resolved =>
        (resolved.matchKind = .repository || resolved.matchKind = .repositorySourceRecord) &&
          resolved.matchKey.any fun key => rules.casefold key = rules.casefold name

def validateActionProposalEvidence (plan : Plan) (db : Database) (workspaceId : Uuid)
    (proposal : Proposal) : Except EvidenceError (List ResolvedEvidence) :=
  if proposal.workspaceId ≠ workspaceId then
    .error (.validation "proposal evidence belongs to another workspace")
  else match strictEvidenceRefs rules proposal.evidenceRefs with
  | none =>
    .error (.validation "proposal evidence_refs do not match the strict evidence schema")
  | some refs =>
    (buildDirectEvidenceResolver rules plan db workspaceId refs).bind fun resolver =>
      let resolvedRefs := refs.filterMap (resolveDirectEvidence rules resolver)
      if resolvedRefs.length ≠ refs.length then
        .error (.validation
          "proposal evidence is missing, inactive, unsupported, or outside the workspace")
      else if !proposalEvidenceIsRelevant rules proposal resolvedRefs then
        .error (.validation "proposal evidence is unrelated to the requested action")
      else .ok resolvedRefs

structure VerifiedProposal where
  proposal : Proposal
  evidenceRefs : List Evidence
  trustedBriefingItem : Option BriefingItem
  deriving DecidableEq

def dedupeEvidence (refs : List Evidence) : List Evidence :=
  (refs.foldl (fun unique ref => Dict.setDefault unique ref.id ref) []).map (·.2)

def evidenceMaterial (refs : List Fields) : Except EvidenceError Digest :=
  if refs.all Fields.encodable then .ok (rules.digest refs) else .error .unencodable

def linkedBriefingItems (plan : Plan) (db : Database) (workspaceId : Uuid)
    (proposals : List Proposal) : List (Uuid × BriefingItem) :=
  let briefingItemIds := proposals.filterMap (·.briefingItemId)
  let rows := db.briefingItems.filter fun item =>
    db.briefings.any (fun b => b.id = item.briefingId && b.workspaceId = workspaceId) &&
      decide (item.id ∈ briefingItemIds)
  Dict.index (·.id) (plan.order rows)

def strictProposalRefs (proposals : List Proposal) : List (Uuid × List Fields) :=
  Dict.ofPairs (proposals.filterMap fun proposal =>
    (strictEvidenceRefs rules proposal.evidenceRefs).map (proposal.id, ·))

def trustedItem [DecidableEq Digest] (proposal : Proposal) (rawRefs : List Fields)
    (linkedItem : Option BriefingItem) : Except EvidenceError (Option BriefingItem) :=
  match linkedItem.bind fun item => (strictEvidenceRefs rules item.evidenceRefs).map (item, ·) with
  | none => .ok none
  | some (item, itemRefs) =>
    if proposal.createdBy ≠ .system ∨ proposal.createdByUserId ≠ none then .ok none
    else (evidenceMaterial rules rawRefs).bind fun material =>
      (evidenceMaterial rules itemRefs).map fun itemMaterial =>
        if material = itemMaterial then some item else none

def verifyProposal [DecidableEq Digest] (resolver : Resolver)
    (briefingItems : List (Uuid × BriefingItem)) (proposalRefs : List (Uuid × List Fields))
    (proposal : Proposal) : Except EvidenceError (Option VerifiedProposal) :=
  match Dict.get proposalRefs proposal.id with
  | none => .ok none
  | some rawRefs =>
    let linkedItem := proposal.briefingItemId.bind (Dict.get briefingItems)
    let resolvedRefs := rawRefs.filterMap (resolveDirectEvidence rules resolver)
    if rawRefs = [] ∨ resolvedRefs.length ≠ rawRefs.length then .ok none
    else if !proposalEvidenceIsRelevant rules proposal resolvedRefs then .ok none
    else (trustedItem rules proposal rawRefs linkedItem).map fun trusted =>
      let evidenceRefs := dedupeEvidence (resolvedRefs.map (·.evidence))
      if evidenceRefs = [] then none else some ⟨proposal, evidenceRefs, trusted⟩

def verifyProposals [DecidableEq Digest] (plan : Plan) (db : Database) (workspaceId : Uuid)
    (proposals : List Proposal) : Except EvidenceError (List VerifiedProposal) :=
  let briefingItems := linkedBriefingItems plan db workspaceId proposals
  let proposalRefs := strictProposalRefs rules proposals
  (buildDirectEvidenceResolver rules plan db workspaceId (proposalRefs.flatMap (·.2))).bind
    fun resolver =>
      (proposals.mapM (verifyProposal rules resolver briefingItems proposalRefs)).map
        (·.filterMap id)

end FounderOs.Headquarters
