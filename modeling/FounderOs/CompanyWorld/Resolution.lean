import FounderOs.Headquarters.Questions

namespace FounderOs.CompanyWorld

open Execution (Instant UserId)
open Headquarters

inductive ProfileOrigin where
  | membership | founderConfirmation
  deriving DecidableEq, Repr

inductive ProfileStatus where
  | active | archived
  deriving DecidableEq, Repr

inductive RelationshipKind where
  | unknown | prospect | customer | partner | vendor | other
  deriving DecidableEq, Repr

inductive RelationshipType where
  | contact | employee | decisionMaker | accountOwner | advisor | other
  deriving DecidableEq, Repr

inductive ResolutionDecision where
  | confirmed | dismissed
  deriving DecidableEq, Repr

inductive Direction where
  | inbound | outbound | mixed | unknown
  deriving DecidableEq, Repr

structure Person where
  id : Uuid
  userId : Option UserId
  normalizedEmail : Str
  displayName : Option Str
  origin : ProfileOrigin
  status : ProfileStatus
  confirmedByUserId : Option UserId
  confirmedAt : Option Instant
  deriving DecidableEq

structure Organization where
  id : Uuid
  canonicalKey : CandidateKey
  normalizedDomain : Option Str
  displayName : Str
  relationshipKind : RelationshipKind
  status : ProfileStatus
  confirmedByUserId : UserId
  confirmedAt : Instant
  deriving DecidableEq

structure Affiliation where
  id : Uuid
  personId : Uuid
  organizationId : Uuid
  relationshipType : RelationshipType
  roleTitle : Option Str
  sourceRecordId : Uuid
  confirmedByUserId : UserId
  confirmedAt : Instant
  status : ProfileStatus
  deriving DecidableEq

/-- An interaction, its id, subject and URL left out. -/
structure Interaction where
  personId : Uuid
  organizationId : Option Uuid
  sourceRecordId : Uuid
  direction : Direction
  occurredAt : Instant
  deriving DecidableEq

/-- What `_command_hash` digests. -/
structure ResolveRequest where
  candidateType : CandidateType
  candidateKey : CandidateKey
  candidateVersion : CandidateVersion
  decision : ResolutionDecision
  displayName : Option Str
  organizationName : Option Str
  relationshipType : Option RelationshipType
  organizationRelationshipKind : Option RelationshipKind
  roleTitle : Option Str
  deriving DecidableEq

structure ResolveCommand extends ResolveRequest where
  idempotencyKey : Str
  deriving DecidableEq

/-- `request_hash` is represented by the request. -/
structure Resolution where
  id : Uuid
  candidateType : CandidateType
  candidateKey : CandidateKey
  candidateVersion : CandidateVersion
  decision : ResolutionDecision
  idempotencyKey : Str
  requestHash : ResolveRequest
  actorUserId : UserId
  sourceRecordId : Uuid
  resultPersonId : Option Uuid
  resultOrganizationId : Option Uuid
  resultAffiliationId : Option Uuid
  createdAt : Instant
  deriving DecidableEq

/-- The event of a resolution in the memory of the company: what it digests of the row. -/
structure ResolutionEvent where
  decision : ResolutionDecision
  candidateType : CandidateType
  subjectKey : CandidateVersion
  resolutionId : Uuid
  actorUserId : UserId
  sourceRecordId : Uuid
  occurredAt : Instant
  deriving DecidableEq

structure Receipt where
  resolution : Resolution
  personId : Option Uuid
  organizationId : Option Uuid
  affiliationId : Option Uuid
  interactionCount : Nat
  replayed : Bool
  deriving DecidableEq

/-- The Company World rows of one workspace. -/
structure WorldTables where
  people : List Person
  organizations : List Organization
  affiliations : List Affiliation
  interactions : List Interaction
  resolutions : List Resolution
  memoryEvents : List ResolutionEvent
  deriving DecidableEq

/-- The other rows that Company World reads. -/
structure SourceRows where
  records : List MessageRecord
  members : List Member
  record_id : Dict.Unique (·.id) records

inductive ResolveError where
  | rejected (error : ResolutionError)
  /-- `IntegrityError` of a unique constraint. -/
  | integrity
  /-- `CompanyMemoryEventConflictError`. -/
  | memoryConflict
  deriving DecidableEq, Repr

def conflict (detail : String) : ResolveError := .rejected (.conflict detail)

/-- The ids and times that a transaction draws. -/
structure Drawn where
  personId : Uuid
  organizationId : Uuid
  affiliationId : Uuid
  resolutionId : Uuid
  membershipPersonId : UserId → Uuid
  now : Instant

def worldRows (workspaceId : Uuid) (db : WorldTables) (rows : SourceRows) : WorldRows where
  records := rows.records
  members := rows.members
  resolutions := db.resolutions.map fun r => ⟨workspaceId, r.candidateType, r.candidateKey⟩
  organizations := db.organizations.map fun o => ⟨workspaceId, o.canonicalKey, o.status = .active⟩
  record_id := rows.record_id

/-- The key as a client sends it has a UTF-8 form; a digest always has one. -/
def keyEncodable : CandidateKey → Bool
  | .externalPerson _ => true
  | .organization domain => Str.encodable domain
  | .other text => Str.encodable text

/-- The request can be digested, and the key bound in a lock. -/
def ResolveCommand.encodable (command : ResolveCommand) : Bool :=
  keyEncodable command.candidateKey && Str.encodable command.idempotencyKey &&
    command.displayName.all Str.encodable && command.organizationName.all Str.encodable &&
      command.roleTitle.all Str.encodable

namespace WorldTables

variable (db : WorldTables)

def insertPerson (person : Person) : Except ResolveError WorldTables :=
  if db.people.any fun p => p.id = person.id || p.normalizedEmail = person.normalizedEmail ||
      (person.userId.isSome && p.userId = person.userId) then .error .integrity
  else .ok { db with people := db.people ++ [person] }

def insertOrganization (organization : Organization) : Except ResolveError WorldTables :=
  if db.organizations.any fun o => o.id = organization.id ||
      o.canonicalKey = organization.canonicalKey ||
        (organization.normalizedDomain.isSome &&
          o.normalizedDomain = organization.normalizedDomain) then .error .integrity
  else .ok { db with organizations := db.organizations ++ [organization] }

def insertAffiliation (affiliation : Affiliation) : Except ResolveError WorldTables :=
  if db.affiliations.any fun a => a.id = affiliation.id ||
      (a.personId = affiliation.personId && a.organizationId = affiliation.organizationId) then
    .error .integrity
  else .ok { db with affiliations := db.affiliations ++ [affiliation] }

def insertResolution (resolution : Resolution) : Except ResolveError WorldTables :=
  if db.resolutions.any fun r => r.id = resolution.id ||
      r.idempotencyKey = resolution.idempotencyKey ||
        (r.candidateType = resolution.candidateType &&
          r.candidateKey = resolution.candidateKey) then .error .integrity
  else .ok { db with resolutions := db.resolutions ++ [resolution] }

/-- The rows that are added hold no pair of a record and a person twice, and none of `db`. -/
def addInteractions (interactions : List Interaction) : WorldTables :=
  { db with interactions := db.interactions ++ interactions }

def byIdempotencyKey (idempotencyKey : Str) : Option Resolution :=
  db.resolutions.find? (·.idempotencyKey = idempotencyKey)

def byCandidate (candidateType : CandidateType) (candidateKey : CandidateKey) :
    Option Resolution :=
  db.resolutions.find? fun r => r.candidateType = candidateType && r.candidateKey = candidateKey

def interactionsOf (personId : Uuid) : List Interaction :=
  db.interactions.filter (·.personId = personId)

end WorldTables

def resolutionEvent (resolution : Resolution) : ResolutionEvent where
  decision := resolution.decision
  candidateType := resolution.candidateType
  subjectKey := resolution.candidateVersion
  resolutionId := resolution.id
  actorUserId := resolution.actorUserId
  sourceRecordId := resolution.sourceRecordId
  occurredAt := resolution.createdAt

/-- `append_company_world_resolution_memory_event`: its key is of the decision and the id. -/
def appendResolutionEvent (db : WorldTables) (resolution : Resolution) :
    Except ResolveError WorldTables :=
  let event := resolutionEvent resolution
  match db.memoryEvents.find? fun e =>
      e.decision = event.decision && e.resolutionId = event.resolutionId with
  | some existing => if existing ≠ event then .error .memoryConflict else .ok db
  | none => .ok { db with memoryEvents := db.memoryEvents ++ [event] }

def receiptForResolution (db : WorldTables) (resolution : Resolution) (replayed : Bool) :
    Receipt where
  resolution := resolution
  personId := resolution.resultPersonId
  organizationId := resolution.resultOrganizationId
  affiliationId := resolution.resultAffiliationId
  interactionCount := resolution.resultPersonId.elim 0 fun id => (db.interactionsOf id).length
  replayed := replayed

def direction (senderEmail : Option Str) (recipientEmails internalEmails : List Str) : Direction :=
  let senderInternal := senderEmail.any internalEmails.contains
  let recipientsInternal := recipientEmails.any internalEmails.contains
  let recipientsExternal := recipientEmails.any fun email => !internalEmails.contains email
  if senderInternal && recipientsInternal && recipientsExternal then .mixed
  else if senderInternal && recipientsExternal then .outbound
  else if senderEmail.isSome && !senderInternal && recipientsInternal then .inbound
  else .unknown

/-- The rows as they are at each reading of a transaction. -/
abbrev Readings := Nat → WorldRows

section materialize

variable (rules : MailRules) (workspaceId : Uuid)

def senderEmail (record : MessageRecord) : Option Str :=
  (record.payload.fromAddress.asStr.bind (parseMailbox rules)).map (·.email)

def recipientEmails (record : MessageRecord) : List Str :=
  (record.payload.toAddresses.getD []).filterMap fun value =>
    (value.asStr.bind (parseMailbox rules)).map (·.email)

def recordEmails (record : MessageRecord) : List Str :=
  (senderEmail rules record).toList ++ recipientEmails rules record

/-- The interactions that `materialize_person_interactions` adds, or counts. -/
def materializePersonInteractions (members : List Member) (records : List MessageRecord)
    (db : WorldTables) (person : Person) (organization : Option Organization)
    (sourceRecordIds : Option (List Uuid)) : List Interaction :=
  let email := normalizeEmail rules person.normalizedEmail
  let internalEmails := (members.filter (·.workspaceId = workspaceId)).map fun member =>
    normalizeEmail rules member.email
  let records := ((records.filter (isGmailMessage workspaceId)).filter fun record =>
    sourceRecordIds.all fun ids => ids.contains record.id).mergeSort fun a b =>
      if a.observedAt ≠ b.observedAt then a.observedAt < b.observedAt else a.id.text ≤ b.id.text
  let existing := (db.interactionsOf person.id).map (·.sourceRecordId)
  if email = [] then []
  else
    (records.filter fun record =>
      (recordEmails rules record).contains email && !existing.contains record.id).map fun record =>
        { personId := person.id
          organizationId := organization.map (·.id)
          sourceRecordId := record.id
          direction := direction (senderEmail rules record) (recipientEmails rules record)
            internalEmails
          occurredAt := record.sourceUpdatedAt.getD record.observedAt }

end materialize

def affiliationNeedsOrganization : ResolveError :=
  conflict "affiliation fields require a confirmed organization candidate"

def resolvedOrganizationForPersonCandidate (db : WorldTables) (candidate : Candidate)
    (hasAffiliationIntent : Bool) : Except ResolveError (Option Organization) :=
  match candidate.organizationKey with
  | none => if hasAffiliationIntent then .error affiliationNeedsOrganization else .ok none
  | some organizationKey =>
    match db.byCandidate .organization organizationKey with
    | none =>
      .error (conflict "organization candidate must be resolved before confirming this person")
    | some resolution =>
      match resolution.decision with
      | .dismissed => if hasAffiliationIntent then .error affiliationNeedsOrganization else .ok none
      | .confirmed =>
        match resolution.resultOrganizationId with
        | none => .error (.rejected
            (.evidence "confirmed organization resolution has no durable organization"))
        | some id =>
          match db.organizations.find? (·.id = id) with
          | none => .error (.rejected (.evidence "confirmed organization is unavailable"))
          | some organization => .ok (some organization)

section create

variable (rules : MailRules) (db : WorldTables) (actorUserId : UserId) (drawn : Drawn)

def getOrCreateExternalPerson (candidate : Candidate) (displayName : Option Str) :
    Except ResolveError (Person × WorldTables) :=
  let normalizedEmail := normalizeEmail rules (candidate.email.getD [])
  match db.people.find? (·.normalizedEmail = normalizedEmail) with
  | some existing => .ok (existing, db)
  | none =>
    let person : Person :=
      { id := drawn.personId
        userId := none
        normalizedEmail := normalizedEmail
        displayName := some (((safeText (textColumn displayName)).or
          (safeText (textColumn candidate.displayName))).getD normalizedEmail)
        origin := .founderConfirmation
        status := .active
        confirmedByUserId := some actorUserId
        confirmedAt := some drawn.now }
    (db.insertPerson person).map fun db => (person, db)

/-- The text of the key is its domain behind `organization:`, which is taken off again. -/
def getOrCreateOrganization (candidateKey : CandidateKey) (displayName : Option Str)
    (relationshipKind : RelationshipKind) : Except ResolveError (Organization × WorldTables) :=
  match db.organizations.find? (·.canonicalKey = candidateKey) with
  | some existing => .ok (existing, db)
  | none =>
    let notFound : ResolveError :=
      .rejected (.candidateNotFound "organization candidate not found")
    match candidateKey with
    | .organization text =>
      let domain := normalizeEmail rules text
      if domain = [] ∨ domain = Str.of "organization:" ++ text then .error notFound
      else
        let organization : Organization :=
          { id := drawn.organizationId
            canonicalKey := candidateKey
            normalizedDomain := some domain
            displayName := (safeText (textColumn displayName)).getD domain
            relationshipKind := relationshipKind
            status := .active
            confirmedByUserId := actorUserId
            confirmedAt := drawn.now }
        (db.insertOrganization organization).map fun db => (organization, db)
    | _ => .error notFound

def getOrCreateAffiliation (person : Person) (organization : Organization) (sourceRecordId : Uuid)
    (relationshipType : RelationshipType) (roleTitle : Option Str) :
    Except ResolveError (Affiliation × WorldTables) :=
  match db.affiliations.find? fun a =>
      a.personId = person.id && a.organizationId = organization.id with
  | some existing => .ok (existing, db)
  | none =>
    let affiliation : Affiliation :=
      { id := drawn.affiliationId
        personId := person.id
        organizationId := organization.id
        relationshipType := relationshipType
        roleTitle := safeText (textColumn roleTitle)
        sourceRecordId := sourceRecordId
        confirmedByUserId := actorUserId
        confirmedAt := drawn.now
        status := .active }
    (db.insertAffiliation affiliation).map fun db => (affiliation, db)

end create

/-- The rows that a decision leads to, beside the resolution. -/
structure Confirmed where
  personId : Option Uuid
  organizationId : Option Uuid
  affiliationId : Option Uuid
  interactionCount : Nat
  tables : WorldTables

section resolve

variable (rules : MailRules) (workspaceId : Uuid) (actorUserId : UserId)
variable (command : ResolveCommand) (drawn : Drawn)

def confirmExternalPerson (rows : Readings) (db : WorldTables) (candidate : Candidate)
    (sourceRecordId : Uuid) : Except ResolveError Confirmed :=
  match resolvedOrganizationForPersonCandidate db candidate
      (command.relationshipType.isSome || command.roleTitle.isSome) with
  | .error e => .error e
  | .ok organization =>
    match getOrCreateExternalPerson rules db actorUserId drawn candidate command.displayName with
    | .error e => .error e
    | .ok (person, db) =>
      let affiliated : Except ResolveError (Option Affiliation × WorldTables) :=
        match organization, command.relationshipType with
        | some organization, some relationshipType =>
          (getOrCreateAffiliation db actorUserId drawn person organization sourceRecordId
            relationshipType command.roleTitle).map fun created => (some created.1, created.2)
        | _, _ => .ok (none, db)
      affiliated.map fun (affiliation, db) =>
        let interactions := materializePersonInteractions rules workspaceId (rows 3).members
          (rows 4).records db person organization
            (some (candidateSourceRecordIds candidate.sourceRefs))
        { personId := some person.id
          organizationId := organization.map (·.id)
          affiliationId := affiliation.map (·.id)
          interactionCount := interactions.length
          tables := db.addInteractions interactions }

def confirmOrganization (db : WorldTables) (candidate : Candidate) :
    Except ResolveError Confirmed :=
  (getOrCreateOrganization rules db actorUserId drawn candidate.key
      (command.organizationName.or command.displayName)
      (command.organizationRelationshipKind.getD .unknown)).map fun (organization, db) =>
    { personId := none
      organizationId := some organization.id
      affiliationId := none
      interactionCount := 0
      tables := db }

def writeDecision (rows : Readings) (db : WorldTables) (candidate : Candidate)
    (sourceRecordId : Uuid) : Except ResolveError Confirmed :=
  match command.decision, command.candidateType with
  | .dismissed, _ => .ok ⟨none, none, none, 0, db⟩
  | .confirmed, .externalPerson =>
    confirmExternalPerson rules workspaceId actorUserId command drawn rows db candidate
      sourceRecordId
  | .confirmed, .organization => confirmOrganization rules actorUserId command drawn db candidate

/-- `_primary_source_record`. -/
def primarySourceRecord (candidate : Candidate) (locked : List MessageRecord) :
    Except ResolveError Uuid :=
  match (candidateSourceRecordIds candidate.sourceRefs).find? fun id =>
      locked.any fun record => record.id = id with
  | none => .error (.rejected (.evidence "candidate evidence is unavailable"))
  | some id => .ok id

def replayResolution (db : WorldTables) (found : Resolution) (detail : String) :
    Except ResolveError (Receipt × WorldTables) :=
  if found.requestHash ≠ command.toResolveRequest then .error (conflict detail)
  else (appendResolutionEvent db found).map fun db => (receiptForResolution db found true, db)

def newResolution (sourceRecordId : Uuid) (confirmed : Confirmed) : Resolution where
  id := drawn.resolutionId
  candidateType := command.candidateType
  candidateKey := command.candidateKey
  candidateVersion := command.candidateVersion
  decision := command.decision
  idempotencyKey := command.idempotencyKey
  requestHash := command.toResolveRequest
  actorUserId := actorUserId
  sourceRecordId := sourceRecordId
  resultPersonId := confirmed.personId
  resultOrganizationId := confirmed.organizationId
  resultAffiliationId := confirmed.affiliationId
  createdAt := drawn.now

def resolveNew (rows : Readings) (db : WorldTables) : Except ResolveError (Receipt × WorldTables) :=
  match admitCandidate rules (rows 0) (rows 1) (rows 2) workspaceId command.candidateType
      command.candidateKey command.candidateVersion with
  | .error e => .error (.rejected e)
  | .ok (candidate, locked) =>
    match primarySourceRecord candidate locked with
    | .error e => .error e
    | .ok sourceRecordId =>
      match writeDecision rules workspaceId actorUserId command drawn rows db candidate
          sourceRecordId with
      | .error e => .error e
      | .ok confirmed =>
        let resolution := newResolution actorUserId command drawn sourceRecordId confirmed
        ((confirmed.tables.insertResolution resolution).bind fun db =>
            appendResolutionEvent db resolution).map fun db =>
          ({ resolution := resolution
             personId := confirmed.personId
             organizationId := confirmed.organizationId
             affiliationId := confirmed.affiliationId
             interactionCount := confirmed.interactionCount
             replayed := false }, db)

/-- `resolve_company_world_candidate`, on the rows it finds once it has its locks. -/
def resolveCompanyWorldCandidate (rows : Readings) (db : WorldTables) :
    Except ResolveError (Receipt × WorldTables) :=
  if !command.encodable then .error (.rejected .unencodable)
  else
    match db.byIdempotencyKey command.idempotencyKey with
    | some found =>
      replayResolution command db found
        "idempotency key was already used with a different request"
    | none =>
      match db.byCandidate command.candidateType command.candidateKey with
      | some existing =>
        replayResolution command db existing
          "candidate already has a different terminal resolution"
      | none => resolveNew rules workspaceId actorUserId command drawn rows db

end resolve

end FounderOs.CompanyWorld
