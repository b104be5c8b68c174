import FounderOs.Documents.Model
import FounderOs.Headquarters.CompanyMap
import FounderOs.Proposals.Briefing

namespace FounderOs.Proposals

open Headquarters

/-- A row of `work.issues`. -/
structure IssueRow where
  sourceProvider : Str
  externalId : Option Str
  number : Option Int
  title : Str
  projectKey : Option Str
  sourceRefs : List SourceRef

structure MessageRow where
  messageId : Str
  subject : Str
  unread : Bool
  sourceRefs : List SourceRef

structure FileRow where
  fileId : Str
  name : Str
  shared : Bool
  sourceRefs : List SourceRef

structure NoteRow where
  title : Str
  status : Str
  tags : List Str
  sourceRefs : List SourceRef

/-- What the briefing reads of the company brain besides GitHub. -/
structure Brain where
  byProvider : List (Str × Nat)
  issues : List IssueRow
  messages : List MessageRow
  files : List FileRow
  notes : List NoteRow

/-- `_safe_text` of both read services. -/
def textOf (text : Str) : Option Str := safeText (.str text)

def internalDocumentPayload (id : Uuid) (content : Documents.Content) : NoteRow where
  title := (textOf content.title).getD (Str.of "(untitled)")
  status := content.status
  tags := ((content.tags.take 40).filterMap textOf).eraseDups
  sourceRefs :=
    [{ id := id.text ++ Str.of ":document"
       kind := Str.of "internal_document"
       source := Str.of "internal"
       label := (textOf content.title).getD id.text
       url := none
       recordType := Str.of "document"
       recordId := id }]

/-- A reference as a briefing keeps it. -/
structure BriefingRef where
  kind : Str
  source : Str
  label : Str
  url : Option Str
  deriving DecidableEq

/-- `_safe_url` of the briefing. -/
def briefingUrl (url : Option Str) : Option Str :=
  (url.bind textOf).filter fun text => !text.contains 64

def briefingRef (raw : SourceRef) : Option BriefingRef :=
  ((textOf raw.label).or (textOf raw.id)).map fun label =>
    { kind := (textOf raw.kind).getD (Str.of "source_record")
      source := (textOf raw.source).getD (Str.of "company_brain")
      label := label
      url := briefingUrl raw.url }

def companyBrainRowEvidenceRefs (rows : List (List SourceRef)) : List BriefingRef :=
  ((rows.flatten.filterMap briefingRef).eraseDups).take 20

def BriefingRef.value (ref : BriefingRef) : Value :=
  .obj [(Str.of "kind", .str ref.kind), (Str.of "source", .str ref.source),
    (Str.of "ref", .str ref.label), (Str.of "url", (ref.url.map Value.str).getD .null)]

/-- An item as the service generates it, before it is saved. -/
structure NonGithubItem where
  itemId : Str
  category : Str
  title : Str
  summary : Str
  severity : Str
  evidenceRefs : List BriefingRef
  relatedEntities : List Str
  recommendedNextStep : Str

section texts

def uniqueTexts (values : List (Option Str)) : List Str :=
  (values.filterMap fun value => value.bind fun text => clipText text 120).eraseDups

def enumerated (texts : List Str) : Str := [44, 32].intercalate texts

def plural (n : Nat) : Str := if n = 1 then [] else [115]

def counted (n : Nat) : Str := Str.of (toString n)

/-- `" Lead: a, b."`, or nothing where there are no texts. -/
def scopeText (lead : String) (texts : List Str) (limit : Nat) : Str :=
  if texts = [] then [] else Str.of (" " ++ lead ++ ": ") ++ enumerated (texts.take limit) ++ [46]

end texts

section items

variable (casefold : Str → Str) (brain : Brain)

/-- `_connector_provider_totals(brain).get(provider, 0)` -/
def providerTotal (provider : Str) : Nat :=
  let counts := brain.byProvider.filter fun entry =>
    decide (casefold ((textOf entry.1).getD []) = provider)
  counts.foldl (fun total entry => total + entry.2) 0

def workItemLabel (row : IssueRow) : Option Str :=
  let number := row.number.map fun number => 35 :: Str.of (toString number)
  let issueKey := (row.externalId.bind textOf).or number
  match issueKey, textOf row.title with
  | some key, some title => clipText (key ++ [58, 32] ++ title) 120
  | key, title => (title.or key).bind fun text => clipText text 120

def jiraIssues : List IssueRow :=
  brain.issues.filter fun row =>
    decide (casefold ((textOf row.sourceProvider).getD []) = Str.of "jira")

def jiraWorkItem : Option NonGithubItem :=
  let issues := jiraIssues casefold brain
  let projectKeys := uniqueTexts (issues.map fun row => row.projectKey.bind textOf)
  let issueLabels := uniqueTexts (issues.map workItemLabel)
  let total := max (providerTotal casefold brain (Str.of "jira")) issues.length
  if issues.isEmpty then none
  else some {
    itemId := Str.of "jira-work-items"
    category := Str.of "next_step"
    title := Str.of "Jira work is visible in Company Brain"
    summary := Str.of "Company Brain shows " ++ counted issues.length ++
      Str.of " open Jira work item" ++ plural issues.length ++
      (if issues.length < total then
        Str.of " of " ++ counted total ++ Str.of " local Jira record" ++ plural total ++
          Str.of " imported"
      else []) ++ [46] ++ scopeText "Project scope" projectKeys 5 ++
      scopeText "Top issues" issueLabels 3
    severity := Str.of "medium"
    evidenceRefs :=
      companyBrainRowEvidenceRefs (issues.map (·.sourceRefs))
    relatedEntities := if issueLabels.take 5 = [] then projectKeys.take 5 else issueLabels.take 5
    recommendedNextStep := Str.of
      ("Review local Jira issues in /jira or Company Brain and create " ++
        "evidence-backed internal follow-ups where needed.") }

/-- `" of 7 imported; unread=2 in view."` -/
def viewText (visible total : Nat) (what : String) (count : Nat) : Str :=
  (if visible < total then Str.of " of " ++ counted total ++ Str.of " imported" else []) ++
    Str.of ("; " ++ what ++ "=") ++ counted count ++ Str.of " in view."

def gmailMessagesItem : Option NonGithubItem :=
  let visible := brain.messages.length
  let unreadCount := brain.messages.countP (·.unread)
  let subjects := uniqueTexts (brain.messages.map fun row =>
    (textOf row.subject).or (textOf row.messageId))
  let total := max (providerTotal casefold brain (Str.of "gmail")) visible
  if brain.messages.isEmpty then none
  else some {
    itemId := Str.of "gmail-message-signals"
    category := if 0 < unreadCount then Str.of "next_step" else Str.of "update"
    title :=
      if 0 < unreadCount then Str.of "Unread Gmail messages need review"
      else Str.of "Gmail messages are visible in Company Brain"
    summary := Str.of "Company Brain shows " ++ counted visible ++ Str.of " local Gmail message" ++
      plural visible ++ viewText visible total "unread" unreadCount ++
      scopeText "Top subjects" subjects 3
    severity := if 0 < unreadCount then Str.of "medium" else Str.of "low"
    evidenceRefs :=
      companyBrainRowEvidenceRefs (brain.messages.map (·.sourceRefs))
    relatedEntities := subjects.take 5
    recommendedNextStep :=
      if 0 < unreadCount then Str.of
        ("Review unread local Gmail messages in /gmail and create " ++
          "evidence-backed internal follow-ups where needed.")
      else Str.of
        ("Use /gmail as the local evidence surface before turning " ++
          "messages into follow-up actions.") }

def driveFilesItem : Option NonGithubItem :=
  let visible := brain.files.length
  let fileNames := uniqueTexts (brain.files.map fun row => (textOf row.name).or (textOf row.fileId))
  let total := max (providerTotal casefold brain (Str.of "drive")) visible
  if brain.files.isEmpty then none
  else some {
    itemId := Str.of "drive-file-signals"
    category := Str.of "update"
    title := Str.of "Drive files are visible in Company Brain"
    summary := Str.of "Company Brain shows " ++ counted visible ++ Str.of " local Drive file" ++
      plural visible ++ viewText visible total "shared" (brain.files.countP (·.shared)) ++
      scopeText "Top files" fileNames 3
    severity := Str.of "low"
    evidenceRefs :=
      companyBrainRowEvidenceRefs (brain.files.map (·.sourceRefs))
    relatedEntities := fileNames.take 5
    recommendedNextStep := Str.of
      ("Review local Drive file metadata in /drive and attach " ++
        "evidence-backed follow-ups for important documents.") }

def internalDocumentsItem : Option NonGithubItem :=
  let visible := brain.notes.length
  let titles := uniqueTexts (brain.notes.map fun note => textOf note.title)
  let statuses := uniqueTexts (brain.notes.map fun note => textOf note.status)
  let tagNames := uniqueTexts (brain.notes.flatMap fun note =>
    (uniqueTexts ((note.tags.take 20).map some)).map some)
  if brain.notes.isEmpty then none
  else some {
    itemId := Str.of "internal-document-context"
    category := Str.of "update"
    title := Str.of "Internal documents are available as briefing context"
    summary := Str.of "Company Brain shows " ++ counted visible ++ Str.of " internal document" ++
      plural visible ++ Str.of " as briefing context." ++ scopeText "Top documents" titles 3 ++
      scopeText "Statuses in view" statuses 5 ++ scopeText "Tags in view" tagNames 5
    severity := Str.of "low"
    evidenceRefs := companyBrainRowEvidenceRefs (brain.notes.map (·.sourceRefs))
    relatedEntities := titles.take 5
    recommendedNextStep := Str.of
      ("Review internal documents in /documents; use their evidence-backed " ++
        "context when interpreting briefing items.") }

def nonGithubCompanyBrainItems : List NonGithubItem :=
  [jiraWorkItem casefold brain, gmailMessagesItem casefold brain, driveFilesItem casefold brain,
    internalDocumentsItem brain].filterMap id

end items

section persist

/-- The ids of the items that are of GitHub or of the coverage. -/
def githubItemIds : List Str :=
  ["github-connection", "github-repositories", "source-coverage", "connector-source-coverage",
    "github-sync-jobs", "github-normalization"].map Str.of

/-- A saved item that is none of the four. -/
abbrev GithubItem := { item : BriefingItem // item.itemKey ∈ githubItemIds }

def persistItem (itemIds : Str → Uuid) (item : NonGithubItem) : BriefingItem where
  id := itemIds item.itemId
  itemKey := item.itemId
  category := item.category
  title := item.title
  summary := item.summary
  severity := item.severity
  recommendedNextStep := some item.recommendedNextStep
  evidenceRefs := item.evidenceRefs.map BriefingRef.value
  relatedEntities := item.relatedEntities.map Value.str

/-- `persist_briefing` of what `generate_manual_founder_briefing` returns: the items of the brain
stand between those of the inventory and those of the sync jobs, and no two have one id. -/
def persistBriefing (id : Uuid) (itemIds : Str → Uuid) (before after : List GithubItem)
    (items : List NonGithubItem) : Briefing where
  id := id
  items := before.map (·.val) ++ items.map (persistItem itemIds) ++ after.map (·.val)

end persist

end FounderOs.Proposals
