import Mathlib.Data.List.Dedup
import FounderOs.Headquarters.Changes

namespace FounderOs.Headquarters

open Execution (Instant UserId)

/-- A key is the text of its kind and a digest or domain; a digest is represented by what it
digests. `other` is any other text, which a client can send. -/
inductive CandidateKey where
  | externalPerson (email : Str)
  | organization (domain : Str)
  | other (text : Str)
  deriving DecidableEq

inductive CandidateType where
  | externalPerson | organization
  deriving DecidableEq, Repr

/-- `payload["normalized_message"]` and `payload["evidence_refs"]`, as far as they are read; what is
not a list is `none`. -/
structure MessagePayload where
  fromAddress : Field
  toAddresses : Option (List Field)
  evidenceRefs : Option (List Item)
  deriving DecidableEq

structure MessageRecord extends SourceRecord where
  sourceUpdatedAt : Option Instant
  createdAt : Instant
  payload : MessagePayload
  deriving DecidableEq

/-- A user and the membership of the workspace. -/
structure Member where
  userId : UserId
  workspaceId : Uuid
  email : Str
  active : Bool
  deriving DecidableEq

/-- The columns of a resolution and of an organization that suppress a candidate. -/
structure ResolvedCandidate where
  workspaceId : Uuid
  candidateType : CandidateType
  candidateKey : CandidateKey
  deriving DecidableEq

structure OrganizationKey where
  workspaceId : Uuid
  canonicalKey : CandidateKey
  active : Bool
  deriving DecidableEq

structure WorldRows where
  records : List MessageRecord
  members : List Member
  resolutions : List ResolvedCandidate
  organizations : List OrganizationKey
  record_id : Dict.Unique (·.id) records

structure MailRules where
  casefold : Str → Str
  /-- `email.utils.parseaddr`. -/
  parseaddr : Str → Str × Str

structure SourceRef where
  id : Str
  kind : Str
  source : Str
  label : Str
  url : Option Str
  recordType : Str
  recordId : Uuid
  deriving DecidableEq

structure Message where
  sourceRecordId : Uuid
  fromAddress : Option Str
  toAddresses : List Str
  receivedAt : Option Instant
  sourceRefs : List SourceRef
  deriving DecidableEq

structure Mailbox where
  name : Option Str
  email : Str
  deriving DecidableEq

def safeText (value : Field) : Option Str :=
  value.asStr.bind fun text => if Str.strip text = [] then none else some (Str.strip text)

def safeStringList (value : Option (List Field)) : List Str :=
  (((value.getD []).take 40).filterMap safeText).eraseDups

/-- `_safe_url` of the company brain. -/
def brainUrl (value : Field) : Option Str :=
  (safeText value).bind fun text =>
    if ((Str.of "http://").isPrefixOf text || (Str.of "https://").isPrefixOf text) &&
        !text.contains 64 then
      some (text.take 1000)
    else none

def textColumn (text : Option Str) : Field := text.elim .null .str

def normalizeSourceRef (record : MessageRecord) (index : Nat) (raw : Item) : Option SourceRef :=
  raw.asMapping.bind fun fields =>
    ((safeText (field fields "ref")).or (safeText (field fields "label"))).map fun label =>
      { id := record.id.text ++ Str.of ":" ++ Str.of (toString index)
        kind := (safeText (field fields "kind")).getD record.recordType
        source := (safeText (field fields "source")).getD record.provider
        label := label
        url := (brainUrl (field fields "url")).or (brainUrl (textColumn record.sourceUrl))
        recordType := record.recordType
        recordId := record.id }

def recordSourceRefs (record : MessageRecord) : List SourceRef :=
  let refs := (((record.payload.evidenceRefs.getD []).take 20).zipIdx).filterMap fun entry =>
    normalizeSourceRef record entry.2 entry.1
  if refs ≠ [] then refs
  else
    [{ id := record.id.text ++ Str.of ":source-record"
       kind := Str.of "source_record"
       source := record.provider
       label := record.externalId
       url := brainUrl (textColumn record.sourceUrl)
       recordType := record.recordType
       recordId := record.id }]

/-- `_gmail_message_payload`, with the source that `_source_refs` of the map writes over. -/
def gmailMessagePayload (record : MessageRecord) : Message where
  sourceRecordId := record.id
  fromAddress := safeText record.payload.fromAddress
  toAddresses := safeStringList record.payload.toAddresses
  receivedAt := record.sourceUpdatedAt
  sourceRefs := (recordSourceRefs record).map fun ref => { ref with source := Str.of "gmail" }

def resolutionOnlyMessageLimit : Nat := 100

def isGmailMessage (workspaceId : Uuid) (record : MessageRecord) : Bool :=
  record.workspaceId = workspaceId && record.provider = Str.of "gmail" &&
    record.recordType = Str.of "message" && !record.isDeleted

/-- `source_updated_at DESC NULLS LAST, created_at DESC, id DESC`. -/
def newestMessageFirst (a b : MessageRecord) : Bool :=
  if stamp a.sourceUpdatedAt ≠ stamp b.sourceUpdatedAt then
    stamp b.sourceUpdatedAt < stamp a.sourceUpdatedAt
  else if a.createdAt ≠ b.createdAt then b.createdAt < a.createdAt
  else b.id.text ≤ a.id.text

/-- The window of either reader: `_bounded_gmail_message_rows` and the messages of the brain. -/
def gmailMessageRows (db : WorldRows) (workspaceId : Uuid) (limit : Nat) : List Message :=
  (((db.records.filter (isGmailMessage workspaceId)).mergeSort newestMessageFirst).take limit).map
    gmailMessagePayload

variable (rules : MailRules)

def normalizeEmail (value : Str) : Str := rules.casefold (Str.strip value)

def parseMailbox (value : Str) : Option Mailbox :=
  (safeText (.str value)).bind fun text =>
    let parsed := rules.parseaddr text
    let email := normalizeEmail rules (if parsed.2 = [] then text else parsed.2)
    if email.contains 64 then
      some ⟨if Str.strip parsed.1 = [] then none else some (Str.strip parsed.1), email⟩
    else none

def participants (message : Message) : List Mailbox :=
  (message.fromAddress.bind (parseMailbox rules)).toList ++
    message.toAddresses.filterMap (parseMailbox rules)

def participantByEmail (message : Message) : List (Str × Mailbox) :=
  Dict.ofPairs ((participants rules message).map fun mailbox => (mailbox.email, mailbox))

def messageParticipantEmails (messages : List Message) : List Str :=
  messages.flatMap fun message => (participants rules message).map (·.email)

def genericEmailDomains : List Str :=
  ["gmail.com", "googlemail.com", "icloud.com", "me.com", "mac.com", "outlook.com", "hotmail.com",
    "live.com", "yahoo.com", "yandex.com", "yandex.ru", "mail.ru", "proton.me",
    "protonmail.com"].map Str.of

def organizationDomain (email : Str) : Option Str :=
  let domain := rules.casefold (email.rtakeWhile (· != 64))
  if domain = [] || genericEmailDomains.contains domain || !domain.contains 46 then none else some domain

/-- `_organization_key_for_email`. -/
def organizationKeyForEmail (email : Str) : Option CandidateKey :=
  (organizationDomain rules email).map .organization

def externalMailboxes (internal : List Str) (message : Message) : List Mailbox :=
  ((participantByEmail rules message).filter fun entry => !internal.contains entry.1).map (·.2)

def latestDatetime (left right : Option Instant) : Option Instant :=
  match left, right with
  | none, t => t
  | t, none => t
  | some a, some b => some (max a b)

def mergeSourceRefs (existing incoming : List SourceRef) : List SourceRef :=
  incoming.foldl
    (fun merged ref => if merged.any (·.id = ref.id) then merged else merged ++ [ref]) existing

structure PersonRow where
  key : CandidateKey
  email : Str
  displayName : Option Str
  organizationKey : Option CandidateKey
  lastInteractionAt : Option Instant
  interactionCount : Nat
  sourceRefs : List SourceRef
  deriving DecidableEq

/-- `people` is a set, of which the size is shown. -/
structure OrganizationRow where
  key : CandidateKey
  domain : Str
  people : List Str
  interactionCount : Nat
  lastInteractionAt : Option Instant
  sourceRefs : List SourceRef
  deriving DecidableEq

def newPerson (email : Str) (seen : Option Str × Message) : PersonRow where
  key := .externalPerson email
  email := email
  displayName := seen.1
  organizationKey := organizationKeyForEmail rules email
  lastInteractionAt := seen.2.receivedAt
  interactionCount := 0
  sourceRefs := []

def PersonRow.meet (person : PersonRow) (seen : Option Str × Message) : PersonRow :=
  { person with
    displayName := person.displayName.or seen.1
    interactionCount := person.interactionCount + 1
    lastInteractionAt := latestDatetime person.lastInteractionAt seen.2.receivedAt
    sourceRefs := mergeSourceRefs person.sourceRefs seen.2.sourceRefs }

def newOrganization (domain : Str) (seen : List Str × Message) : OrganizationRow where
  key := .organization domain
  domain := domain
  people := []
  interactionCount := 0
  lastInteractionAt := seen.2.receivedAt
  sourceRefs := []

def OrganizationRow.meet (organization : OrganizationRow) (seen : List Str × Message) :
    OrganizationRow :=
  { organization with
    people := (organization.people ++ seen.1).dedup
    interactionCount := organization.interactionCount + 1
    lastInteractionAt := latestDatetime organization.lastInteractionAt seen.2.receivedAt
    sourceRefs := mergeSourceRefs organization.sourceRefs seen.2.sourceRefs }

/-- The organization keys of a message, by their domains. -/
def organizationDomains (external : List Mailbox) : List Str :=
  ((external.filterMap fun mailbox => organizationDomain rules mailbox.email).dedup).mergeSort
    fun a b => a ≤ b

def personMeetings (internal : List Str) (messages : List Message) :
    List (Str × (Option Str × Message)) :=
  messages.flatMap fun message => (externalMailboxes rules internal message).map fun mailbox =>
    (mailbox.email, (mailbox.name, message))

def organizationMeetings (internal : List Str) (messages : List Message) :
    List (Str × (List Str × Message)) :=
  messages.flatMap fun message =>
    let external := externalMailboxes rules internal message
    (organizationDomains rules external).map fun domain =>
      (domain, ((external.filter fun mailbox =>
        organizationDomain rules mailbox.email = some domain).map (·.email), message))

def externalPeople (internal : List Str) (messages : List Message) : List (Str × PersonRow) :=
  Dict.gather (newPerson rules) PersonRow.meet (personMeetings rules internal messages)

def candidateOrganizations (internal : List Str) (messages : List Message) :
    List (Str × OrganizationRow) :=
  Dict.gather newOrganization OrganizationRow.meet (organizationMeetings rules internal messages)

def candidateSourceRecordIds (refs : List SourceRef) : List Uuid :=
  ((refs.map (·.recordId)).dedup).mergeSort fun a b => a.text ≤ b.text

/-- The digest of `_candidate_version`, represented by what it digests. -/
structure CandidateVersion where
  key : CandidateKey
  email : Option Str
  displayName : Option Str
  organizationKey : Option CandidateKey
  domain : Option Str
  peopleCount : Option Nat
  interactionCount : Nat
  lastInteractionAt : Option Instant
  sourceRecords : List (Uuid × Str)
  deriving DecidableEq

/-- `payload_hashes.get(record_id, "")`. -/
def payloadHash (db : WorldRows) (workspaceId recordId : Uuid) : Str :=
  (((db.records.filter (isGmailMessage workspaceId)).find? (·.id = recordId)).map
    (·.payloadHash)).getD []

def sourceRecordVersions (db : WorldRows) (workspaceId : Uuid) (refs : List SourceRef) :
    List (Uuid × Str) :=
  (candidateSourceRecordIds refs).map fun id => (id, payloadHash db workspaceId id)

def personVersion (db : WorldRows) (workspaceId : Uuid) (row : PersonRow) : CandidateVersion where
  key := row.key
  email := some row.email
  displayName := row.displayName
  organizationKey := row.organizationKey
  domain := none
  peopleCount := none
  interactionCount := row.interactionCount
  lastInteractionAt := row.lastInteractionAt
  sourceRecords := sourceRecordVersions db workspaceId row.sourceRefs

def organizationVersion (db : WorldRows) (workspaceId : Uuid) (row : OrganizationRow) :
    CandidateVersion where
  key := row.key
  email := none
  displayName := none
  organizationKey := none
  domain := some row.domain
  peopleCount := some row.people.length
  interactionCount := row.interactionCount
  lastInteractionAt := row.lastInteractionAt
  sourceRecords := sourceRecordVersions db workspaceId row.sourceRefs

def CandidateKey.encodable : CandidateKey → Bool
  | .externalPerson email => Str.encodable email
  | .organization domain => Str.encodable domain
  | .other text => Str.encodable text

def PersonRow.encodable (row : PersonRow) : Bool :=
  row.key.encodable && Str.encodable row.email && row.displayName.all Str.encodable &&
    row.organizationKey.all (·.encodable)

def OrganizationRow.encodable (row : OrganizationRow) : Bool :=
  row.key.encodable && Str.encodable row.domain

structure CompanyMap where
  people : List (PersonRow × CandidateVersion)
  organizations : List (OrganizationRow × CandidateVersion)
  deriving DecidableEq

/-- The two modes that name candidates to be resolved: what headquarters shows, and what a resolve
command rebuilds (`include_durable=False`). -/
inductive MapMode where
  | resolutionOnly | rebuilt
  deriving DecidableEq, Repr

def mapMembers (db : WorldRows) (workspaceId : Uuid) (mode : MapMode) (emails : List Str) :
    List Member :=
  (db.members.filter (·.workspaceId = workspaceId)).filter fun member =>
    match mode with
    | .resolutionOnly => member.active && emails.contains member.email
    | .rebuilt => true

def mapMessages (db : WorldRows) (workspaceId : Uuid) (mode : MapMode) (limit : Nat) :
    List Message :=
  gmailMessageRows db workspaceId
    (match mode with
      | .resolutionOnly => min limit resolutionOnlyMessageLimit
      | .rebuilt => limit)

def isResolved (db : WorldRows) (workspaceId : Uuid) (candidateType : CandidateType)
    (key : CandidateKey) : Bool :=
  db.resolutions.any fun r =>
    r.workspaceId = workspaceId && r.candidateType = candidateType && r.candidateKey = key

def isConfirmedOrganization (db : WorldRows) (workspaceId : Uuid) (key : CandidateKey) : Bool :=
  db.organizations.any fun o => o.workspaceId = workspaceId && o.active && o.canonicalKey = key

/-- The order that shows the newest interaction first. -/
def newestRowFirst (a b : Option Instant × Str) : Bool :=
  if stamp a.1 ≠ stamp b.1 then stamp b.1 < stamp a.1 else b.2 ≤ a.2

/-- `internal_keys`, without the keys of the users. -/
def internalKeys (db : WorldRows) (workspaceId : Uuid) (mode : MapMode) (messages : List Message) :
    List Str :=
  (mapMembers db workspaceId mode (messageParticipantEmails rules messages)).map fun member =>
    normalizeEmail rules member.email

/-- `build_workspace_company_map`; `none` where it meets a text that has no UTF-8 form, in the
addresses that `resolution_only` binds in its query of members or in what is digested. -/
def buildWorkspaceCompanyMap (db : WorldRows) (workspaceId : Uuid) (mode : MapMode) (limit : Nat) :
    Option CompanyMap :=
  let messages := mapMessages db workspaceId mode limit
  let internal := internalKeys rules db workspaceId mode messages
  let people := ((externalPeople rules internal messages).map (·.2)).mergeSort fun a b =>
    newestRowFirst (a.lastInteractionAt, a.email) (b.lastInteractionAt, b.email)
  let organizations := ((candidateOrganizations rules internal messages).map (·.2)).mergeSort
    fun a b => newestRowFirst (a.lastInteractionAt, a.domain) (b.lastInteractionAt, b.domain)
  if (mode = .rebuilt || (messageParticipantEmails rules messages).all Str.encodable) &&
      people.all (·.encodable) && organizations.all (·.encodable) then
    some
      { people := (people.filter fun row =>
          mode = .rebuilt || !isResolved db workspaceId .externalPerson row.key).map
            fun row => (row, personVersion db workspaceId row)
        organizations := (organizations.filter fun row =>
          mode = .rebuilt || !(isResolved db workspaceId .organization row.key ||
            isConfirmedOrganization db workspaceId row.key)).map
              fun row => (row, organizationVersion db workspaceId row) }
  else none

end FounderOs.Headquarters
