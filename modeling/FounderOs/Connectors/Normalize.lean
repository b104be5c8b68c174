import FounderOs.Proposals.SecretKeys
import Mathlib.Data.List.Infix

namespace FounderOs.Connectors

open Proposals

/-- What Python's library and the driver do with texts and times, of which nothing is assumed: the
Unicode tables for what is not ASCII, `fromisoformat` and `isoformat` of datetimes (`D`) and of
dates (by their day), the instant that `timestamptz` stores, `isdigit`, `int` of a text as JSON
writes it (`none` where it raises), and the SHA-256 of the sorted JSON. -/
structure Platform (D : Type) where
  foldTable : Nat → Str
  upperTable : Nat → Str
  isDecimal : Nat → Bool
  fromIsoformat : Str → Option D
  isoformat : D → Str
  instant : D → Int
  dateFromIsoformat : Str → Option Int
  dateIsoformat : Int → Str
  isDigit : Str → Bool
  intText : Str → Option Str
  payloadHash : Value → Str

/-- `skipped` is the error of the connector, `raised` any other. -/
inductive NormalizeError where
  | skipped (detail : String)
  | raised
  deriving DecidableEq

def truthy : Value → Bool
  | .null => false
  | .bool value => value
  | .num text => text.any fun c => 49 ≤ c && c ≤ 57
  | .nonFinite => true
  | .str text => !text.isEmpty
  | .arr items => !items.isEmpty
  | .obj fields => !fields.isEmpty

/-- `a or b or c`. -/
def firstTruthy : List Value → Value
  | [] => .null
  | [value] => value
  | value :: values => if truthy value then value else firstTruthy values

def pick (record : Object) (keys : List String) : List Value := keys.map (get record)

def mapping (value : Value) : Object := value.asMapping.getD []

def safeText (limit : Nat) : Value → Option Str
  | .str text => if Str.strip text = [] then none else some ((Str.strip text).take limit)
  | _ => none

def safeUrl (value : Value) : Option Str :=
  ((safeText 1000 value).filter fun text =>
    ((Str.of "http://").isPrefixOf text || (Str.of "https://").isPrefixOf text) &&
      !text.contains 64).map (·.take 1000)

def optional (text : Option Str) : Value := (text.map Value.str).getD .null

def replaceChar (old new : Nat) (text : Str) : Str := text.map fun c => if c = old then new else c

def sensitiveKeyMarkers : List Str :=
  ["api_key", "auth_header", "authorization", "credential", "password", "private_key", "secret",
    "token", "webhook"].map Str.of

section platform

variable {D : Type} (platform : Platform D)

def casefold (text : Str) : Str := Str.casefold platform.foldTable text

def upper (text : Str) : Str :=
  text.flatMap fun c =>
    if c < 128 then [if 97 ≤ c ∧ c ≤ 122 then c - 32 else c] else platform.upperTable c

def metadataKeyIsSensitive (key : Str) : Bool :=
  let normalized := replaceChar 45 95 (casefold platform key)
  sensitiveKeyMarkers.any fun marker => marker <:+: normalized

mutual

def sanitizePayload : Value → Value
  | .obj fields => .obj (sanitizeFields fields)
  | .arr items => .arr (sanitizeItems 100 items)
  | .str text => .str (text.take 1000)
  | value => value

def sanitizeItems : Nat → List Value → List Value
  | 0, _ => []
  | _, [] => []
  | limit + 1, item :: items => sanitizePayload item :: sanitizeItems limit items

def sanitizeFields : List (Str × Value) → List (Str × Value)
  | [] => []
  | (key, value) :: fields =>
    if metadataKeyIsSensitive platform key then sanitizeFields fields
    else (key, sanitizePayload value) :: sanitizeFields fields

end

def parseOptionalDatetime (value : Value) : Option D :=
  (safeText 1000 value).bind fun text =>
    platform.fromIsoformat (text.flatMap fun c => if c = 90 then Str.of "+00:00" else [c])

def parseOptionalDate (value : Value) : Option Int :=
  (safeText 20 value).bind fun text => platform.dateFromIsoformat (text.take 10)

def isoText (time : Option D) : Value := optional (time.map platform.isoformat)

end platform

def firstUrl (values : List Value) : Option Str := (values.filterMap safeUrl).head?

/-- `_safe_evidence_refs`, of which the three connectors differ in `kind` and `source`. -/
def safeEvidenceRefs (kind source : String) (value : Value) (ref : Str) (sourceUrl : Option Str) :
    Value :=
  let items := match value with
    | .arr items => items.take 20
    | _ => []
  let refs := items.filterMap fun item => item.asMapping.bind fun fields =>
    (safeText 255 (firstTruthy (pick fields ["ref", "label"]))).map fun text => Value.obj
      [(Str.of "kind", .str ((safeText 120 (get fields "kind")).getD (Str.of kind))),
        (Str.of "source", .str ((safeText 40 (get fields "source")).getD (Str.of source))),
        (Str.of "ref", .str text),
        (Str.of "url", optional ((safeUrl (get fields "url")).or sourceUrl))]
  .arr (if refs.isEmpty then
    [.obj [(Str.of "kind", .str (Str.of kind)), (Str.of "source", .str (Str.of source)),
      (Str.of "ref", .str ref), (Str.of "url", optional sourceUrl)]]
  else refs)

def boundary : Value :=
  .obj (["provider_calls", "sync_started", "external_writes", "llm", "reads_secrets"].map fun key =>
    (Str.of key, .bool false))

/-- The same four entries in the metadata of every connector. -/
def importMetadata : Object :=
  [(Str.of "import_source", .str (Str.of "local_json_import")),
    (Str.of "provider_sync_started", .bool false),
    (Str.of "external_write_performed", .bool false), (Str.of "llm_used", .bool false)]

section jira

variable {D : Type} (platform : Platform D)

def isJiraKey (text : Str) : Bool :=
  let isUpper (c : Nat) : Bool := 65 ≤ c && c ≤ 90
  let isDigit (c : Nat) : Bool := (48 ≤ c && c ≤ 57) || (128 ≤ c && platform.isDecimal c)
  match text.splitOn 45 with
  | [project, number] =>
    project.head?.any isUpper && 2 ≤ project.length &&
      project.all (fun c => isUpper c || (48 ≤ c && c ≤ 57) || c == 95) &&
      !number.isEmpty && number.all isDigit
  | _ => false

def jiraKey (value : Value) : Option Str :=
  ((safeText 80 value).map (upper platform)).filter (isJiraKey platform)

/-- `_status_name`, `_priority_name` and `_issue_type_name`. -/
def nameOf (other : String) (limit : Nat) (value : Value) : Option Str :=
  match value.asMapping with
  | some fields => safeText limit (firstTruthy (pick fields ["name", other]))
  | none => safeText limit value

def normalizeStatusCategory (value : Str) : Str :=
  let normalized := replaceChar 95 32 (casefold platform (Str.strip value))
  if (["closed", "done", "resolved"].map Str.of).contains normalized then Str.of "done"
  else if (["backlog", "new", "open", "selected for development", "to do", "todo", "in progress",
      "indeterminate"].map Str.of).contains normalized then Str.of "not_done"
  else Str.of "unknown"

def statusCategory (value : Value) (status : Option Str) : Str :=
  let category := value.asMapping.bind fun fields =>
    (firstTruthy (pick fields ["statusCategory", "category"])).asMapping.bind fun raw =>
      safeText 1000 (firstTruthy (pick raw ["key", "name"]))
  match category.or status with
  | some text => normalizeStatusCategory platform text
  | none => Str.of "unknown"

def buildNormalizedJiraIssue (record : Object) : Except NormalizeError Object :=
  let fields := mapping (get record "fields")
  let rawMetadata := mapping (get record "metadata")
  match jiraKey platform
      (firstTruthy (pick record ["key", "issue_key", "external_id"] ++ [get fields "key"])) with
  | none => .error (.skipped "jira issue key is required, e.g. FOS-123")
  | some key =>
    let summary := safeText 500
      (firstTruthy (pick record ["summary", "title"] ++ [get fields "summary"]))
    let rawStatus := firstTruthy [get record "status", get fields "status"]
    let status := nameOf "status" 120 rawStatus
    let priority := nameOf "priority" 40
      (firstTruthy [get record "priority", get fields "priority"])
    let sourceUrl := firstUrl
      (pick record ["source_url", "browse_url", "html_url", "web_url", "url", "self"] ++
        [get fields "source_url"])
    let sourceUpdatedAt := parseOptionalDatetime platform
      (firstTruthy (pick record ["updated_at", "updated", "updatedAt"] ++ [get fields "updated"]))
    let dueDate := parseOptionalDate platform
      (firstTruthy (pick record ["due_date", "dueDate", "duedate"] ++ [get fields "duedate"]))
    let projectKey := key.takeWhile (· ≠ 45)
    let category := statusCategory platform rawStatus status
    let issueType := nameOf "type" 120
      (firstTruthy [get record "issue_type", get fields "issuetype"])
    let evidenceRefs := safeEvidenceRefs "jira_issue" "jira" (get record "evidence_refs") key
      sourceUrl
    let claims := "repository_intelligence_claims"
    let metadata : Object :=
      [(Str.of "jira_object_type", .str (Str.of "issue")), (Str.of "key", .str key),
        (Str.of "project_key", .str projectKey), (Str.of "issue_type", optional issueType),
        (Str.of "status_category", .str category)] ++ importMetadata ++
        [(Str.of "evidence_refs", evidenceRefs)] ++
        (if (Dict.get rawMetadata (Str.of claims)).isSome then
          [(Str.of claims, get rawMetadata claims)] else [])
    .ok (sanitizeFields platform
      [(Str.of "entity_type", .str (Str.of "task")),
        (Str.of "provider", .str (Str.of "jira")),
        (Str.of "external_id", .str key),
        (Str.of "key", .str key),
        (Str.of "title", .str (summary.getD (Str.of "Jira issue " ++ key))),
        (Str.of "status", optional status),
        (Str.of "status_category", .str category),
        (Str.of "priority", optional priority),
        (Str.of "due_date", optional (dueDate.map platform.dateIsoformat)),
        (Str.of "source_url", optional sourceUrl),
        (Str.of "source_updated_at", isoText platform sourceUpdatedAt),
        (Str.of "project_key", .str projectKey),
        (Str.of "issue_type", optional issueType),
        (Str.of "evidence_refs", evidenceRefs),
        (Str.of "metadata", .obj (sanitizeFields platform metadata))])

end jira

/-- Texts without repetition, in the order in which they come first. -/
def distinctTexts (texts : List Str) : List Str :=
  texts.foldl (fun kept text => if kept.contains text then kept else kept ++ [text]) []

def textArray (texts : List Str) : Value := .arr (texts.map Value.str)

section drive

variable {D : Type} (platform : Platform D)

def stringList (limit : Nat) (value : Value) : List Str :=
  let candidates := match value with
    | .str _ => [value]
    | .arr items => items.take limit
    | _ => []
  distinctTexts (candidates.filterMap fun item =>
    match item.asMapping with
    | some fields => safeText 1000 (firstTruthy (pick fields ["emailAddress", "email", "name"]))
    | none => safeText 1000 item)

def isInt (text : Str) : Bool := text.all fun c => c == 45 || (48 ≤ c && c ≤ 57)

def safeInt (value : Value) : Except NormalizeError Value :=
  match value with
  | .num text => .ok (if isInt text then .num text else .null)
  | .str text =>
    if platform.isDigit (Str.strip text) then
      match platform.intText (Str.strip text) with
      | some number => .ok (.num number)
      | none => .error .raised
    else .ok .null
  | _ => .ok .null

def shared (record : Object) : Bool :=
  match get record "shared" with
  | .bool value => value
  | _ => (safeText 1000 (firstTruthy (pick record ["visibility", "sharing"]))).any fun visibility =>
    (["anyone", "public", "shared"].map Str.of).contains (casefold platform visibility)

def buildNormalizedDriveFile (record : Object) : Except NormalizeError Object :=
  match safeText 255 (firstTruthy (pick record ["id", "file_id", "external_id"])) with
  | none => .error (.skipped "google drive file id is required")
  | some externalId => do
    let sourceUrl := firstUrl
      (pick record ["source_url", "webViewLink", "web_view_link", "alternateLink", "url"])
    let modifiedAt := parseOptionalDatetime platform
      (firstTruthy (pick record ["modified_at", "modifiedTime", "updated_at", "updated"]))
    let evidenceRefs := safeEvidenceRefs "drive_file" "drive" (get record "evidence_refs")
      externalId sourceUrl
    let sizeBytes ← safeInt platform (firstTruthy (pick record ["size_bytes", "size"]))
    let metadata : Object :=
      [(Str.of "drive_object_type", .str (Str.of "file")),
        (Str.of "file_id", .str externalId)] ++ importMetadata
    return sanitizeFields platform
      [(Str.of "entity_type", .str (Str.of "drive_file")),
        (Str.of "provider", .str (Str.of "drive")),
        (Str.of "external_id", .str externalId),
        (Str.of "file_id", .str externalId),
        (Str.of "name", .str ((safeText 500 (firstTruthy (pick record ["name", "title"]))).getD
          (Str.of "Drive file " ++ externalId))),
        (Str.of "mime_type",
          optional (safeText 255 (firstTruthy (pick record ["mime_type", "mimeType"])))),
        (Str.of "owners",
          textArray (stringList 40 (firstTruthy (pick record ["owners", "owner_emails"])))),
        (Str.of "drive_id",
          optional (safeText 255 (firstTruthy (pick record ["drive_id", "driveId"])))),
        (Str.of "folder_path",
          optional (safeText 500 (firstTruthy (pick record ["folder_path", "path"])))),
        (Str.of "shared", .bool (shared platform record)),
        (Str.of "size_bytes", sizeBytes),
        (Str.of "modified_at", isoText platform modifiedAt),
        (Str.of "source_url", optional sourceUrl),
        (Str.of "evidence_refs", evidenceRefs),
        (Str.of "metadata", .obj (sanitizeFields platform metadata))]

end drive

section gmail

variable {D : Type} (platform : Platform D)

def labelsOf : Value → List Str
  | .arr items => distinctTexts ((items.take 40).filterMap (safeText 120))
  | _ => []

def address (value : Value) : Option Str :=
  match value.asMapping with
  | some fields => safeText 320 (firstTruthy (pick fields ["email", "address", "name"]))
  | none => safeText 320 value

def addressList (value : Value) : List Str :=
  let candidates := match value with
    | .str _ => [value]
    | .arr items => items.take 40
    | _ => []
  distinctTexts (candidates.filterMap address)

def buildNormalizedGmailMessage (record : Object) : Except NormalizeError Object :=
  match safeText 255 (firstTruthy (pick record ["id", "message_id", "external_id"])) with
  | none => .error (.skipped "gmail message id is required")
  | some externalId =>
    let labels := labelsOf (firstTruthy (pick record ["labels", "labelIds"]))
    let sourceUrl := firstUrl
      (pick record ["source_url", "permalink", "html_url", "web_url", "url"])
    let receivedAt := parseOptionalDatetime platform
      (firstTruthy (pick record ["received_at", "internal_date", "internalDate", "date"]))
    let evidenceRefs := safeEvidenceRefs "gmail_message" "gmail" (get record "evidence_refs")
      externalId sourceUrl
    let metadata : Object :=
      [(Str.of "gmail_object_type", .str (Str.of "message")),
        (Str.of "message_id", .str externalId)] ++ importMetadata
    .ok (sanitizeFields platform
      [(Str.of "entity_type", .str (Str.of "message")),
        (Str.of "provider", .str (Str.of "gmail")),
        (Str.of "external_id", .str externalId),
        (Str.of "message_id", .str externalId),
        (Str.of "thread_id",
          optional (safeText 255 (firstTruthy (pick record ["thread_id", "threadId"])))),
        (Str.of "subject", .str ((safeText 500
          (firstTruthy (pick record ["subject", "title"]))).getD (Str.of "(no subject)"))),
        (Str.of "snippet", optional (safeText 500 (get record "snippet"))),
        (Str.of "from_address",
          optional (address (firstTruthy (pick record ["from", "from_address"])))),
        (Str.of "to_addresses",
          textArray (addressList (firstTruthy (pick record ["to", "to_addresses"])))),
        (Str.of "labels", textArray labels),
        (Str.of "unread", .bool ((labels.map (casefold platform)).contains (Str.of "unread"))),
        (Str.of "received_at", isoText platform receivedAt),
        (Str.of "source_url", optional sourceUrl),
        (Str.of "evidence_refs", evidenceRefs),
        (Str.of "metadata", .obj (sanitizeFields platform metadata))])

end gmail

end FounderOs.Connectors
