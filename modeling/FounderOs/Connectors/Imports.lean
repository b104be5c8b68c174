import FounderOs.Connectors.Normalize
import FounderOs.Foundation.LastWrite

namespace FounderOs.Connectors

open Headquarters Proposals LastWrite

inductive Provider where
  | jira
  | drive
  | gmail
  deriving DecidableEq

/-- A row of `source_records`. The four columns of a tombstone are cleared with `is_deleted`. -/
structure SourceRecord where
  connectionId : Option Uuid
  recordType : String
  sourceUrl : Option Str
  payload : Value
  payloadHash : Str
  observedAt : Nat
  sourceUpdatedAt : Option Int
  syncJobId : Option Uuid
  isDeleted : Bool

/-- A row of `tasks`, whose `source_record_id` is kept as the external id of that record. -/
structure Task where
  sourceRecord : Str
  title : Str
  description : Option Str
  status : Option Str
  priority : Option Str
  dueDate : Option Int
  sourceUrl : Option Str
  taskMetadata : Value
  sourceUpdatedAt : Option Int

structure ConnectorStore where
  connections : List (Provider × Uuid)
  sourceRecords : Provider × Str → Option SourceRecord
  tasks : Str → Option Task

/-- One request. `commits` is false where the database refuses a row or the transaction. -/
structure ImportRequest where
  provider : Provider
  connectionId : Option Uuid
  observedAt : Nat
  entries : List Object
  commits : Bool

section upserts

variable {D : Type} (platform : Platform D)

def buildNormalized : Provider → Object → Except NormalizeError Object
  | .jira => buildNormalizedJiraIssue platform
  | .drive => buildNormalizedDriveFile platform
  | .gmail => buildNormalizedGmailMessage platform

def Provider.recordType : Provider → String
  | .jira => "issue"
  | .drive => "file"
  | .gmail => "message"

def Provider.normalizedKey : Provider → String
  | .jira => "normalized_issue"
  | .drive => "normalized_file"
  | .gmail => "normalized_message"

def Provider.timeKey : Provider → String
  | .jira => "source_updated_at"
  | .drive => "modified_at"
  | .gmail => "received_at"

/-- `_source_record_payload` of the three connectors. -/
def sourceRecordPayload (provider : Provider) (normalized : Object) : Value :=
  .obj (sanitizeFields platform
    [(Str.of "record_type", .str (Str.of provider.recordType)),
      (Str.of provider.normalizedKey, .obj normalized),
      (Str.of "evidence_refs", firstTruthy [get normalized "evidence_refs", .arr []]),
      (Str.of "boundary", boundary)])

def providerUpdateTime (provider : Provider) (normalized : Object) : Option Int :=
  (parseOptionalDatetime platform (get normalized provider.timeKey)).map platform.instant

/-- `mutable` in the upsert of the three connectors. -/
def sourceRecordOf (provider : Provider) (connectionId : Option Uuid) (observedAt : Nat)
    (normalized : Object) : SourceRecord where
  connectionId := connectionId
  recordType := provider.recordType
  sourceUrl := safeUrl (get normalized "source_url")
  payload := sourceRecordPayload platform provider normalized
  payloadHash := platform.payloadHash (sourceRecordPayload platform provider normalized)
  observedAt := observedAt
  sourceUpdatedAt := providerUpdateTime platform provider normalized
  syncJobId := none
  isDeleted := false

def externalId : Provider → Object → Str
  | .jira, normalized => ((safeText 255 (get normalized "external_id")).or
      (safeText 255 (get normalized "key"))).getD (Str.of "unknown-jira-issue")
  | .drive, normalized =>
    (safeText 255 (get normalized "external_id")).getD (Str.of "unknown-drive-file")
  | .gmail, normalized =>
    (safeText 255 (get normalized "external_id")).getD (Str.of "unknown-gmail-message")

def taskExternalId (normalized : Object) : Str :=
  (safeText 255 (get normalized "external_id")).getD (Str.of "unknown-jira-issue")

/-- `{**metadata, ...}`. -/
def taskMetadata (issue : Object) : Value :=
  let entries : Object :=
    [(Str.of "jira_object_type", .str (Str.of "issue")),
      (Str.of "key", optional (safeText 255 (get issue "key"))),
      (Str.of "project_key", optional (safeText 80 (get issue "project_key"))),
      (Str.of "issue_type", optional (safeText 120 (get issue "issue_type"))),
      (Str.of "status_category", optional (safeText 40 (get issue "status_category"))),
      (Str.of "evidence_refs", firstTruthy [get issue "evidence_refs", .arr []])]
  .obj (sanitizeFields platform
    (entries.foldl (fun merged entry => Dict.set merged entry.1 entry.2)
      (mapping (get issue "metadata"))))

def taskOf (issue : Object) : Task where
  sourceRecord := externalId .jira issue
  title := (safeText 500 (get issue "title")).getD (Str.of "Jira issue " ++ taskExternalId issue)
  description := none
  status := safeText 120 (get issue "status")
  priority := safeText 40 (get issue "priority")
  dueDate := parseOptionalDate platform (get issue "due_date")
  sourceUrl := safeUrl (get issue "source_url")
  taskMetadata := taskMetadata platform issue
  sourceUpdatedAt := providerUpdateTime platform .jira issue

/-- What the loop of an import does with an entry that normalizes. -/
structure Upsert where
  provider : Provider
  connectionId : Option Uuid
  observedAt : Nat
  normalized : Object

/-- Both upserts set every column on a conflict, whatever the row shows. -/
def ConnectorStore.upsert (store : ConnectorStore) (u : Upsert) : ConnectorStore :=
  { store with
    sourceRecords := Function.update store.sourceRecords
      (u.provider, externalId u.provider u.normalized)
      (some (sourceRecordOf platform u.provider u.connectionId u.observedAt u.normalized))
    tasks := if u.provider = .jira then
        Function.update store.tasks (taskExternalId u.normalized)
          (some (taskOf platform u.normalized))
      else store.tasks }

def importEntries (request : ImportRequest) :
    List Object → ConnectorStore → Except NormalizeError ConnectorStore
  | [], store => .ok store
  | entry :: entries, store =>
    match buildNormalized platform request.provider entry with
    | .ok normalized => importEntries request entries (store.upsert platform
        ⟨request.provider, request.connectionId, request.observedAt, normalized⟩)
    | .error (.skipped _) => importEntries request entries store
    | .error .raised => .error .raised

def importLocal (store : ConnectorStore) (request : ImportRequest) : ConnectorStore :=
  if request.commits && request.connectionId.all (fun id =>
      store.connections.contains (request.provider, id)) then
    match importEntries platform request request.entries store with
    | .ok imported => imported
    | .error _ => store
  else store

def importAll (store : ConnectorStore) (requests : List ImportRequest) : ConnectorStore :=
  requests.foldl (importLocal platform) store

end upserts

end FounderOs.Connectors
