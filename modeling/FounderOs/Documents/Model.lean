import FounderOs.Foundation.Locks
import FounderOs.Foundation.Outcome
import FounderOs.Foundation.Str
import FounderOs.Foundation.Transition
import Mathlib.Tactic.SplitIfs

namespace FounderOs.Documents

open Locks Transition

/-- `markdown_to_text` and `str.casefold`, of which nothing is assumed. -/
structure DocumentRules where
  markdownToText : Str → Str
  casefold : Str → Str

/-- The columns that a version row copies. -/
structure Content where
  title : Str
  bodyMarkdown : Str
  bodyText : Str
  status : Str
  tags : List Str
  deriving DecidableEq

structure DocumentRow where
  content : Content
  updatedAt : Nat
  deriving DecidableEq

structure DocumentVersion where
  versionNumber : Nat
  content : Content
  deriving DecidableEq

inductive DocumentError where
  | invalid (detail : String)
  | notFound
  | conflict
  | staleData
  | integrity
  deriving DecidableEq

structure DocumentCreateInput where
  title : Str
  bodyMarkdown : Str
  tags : List Str
  status : Str
  deriving DecidableEq

/-- A field that is `none` is left as it is. -/
structure DocumentUpdateInput where
  title : Option Str
  bodyMarkdown : Option Str
  tags : Option (List Str)
  status : Option Str
  deriving DecidableEq

/-- What a correction or a forgetting expects to find. -/
structure MemoryExpectation where
  updatedAt : Nat
  versionCount : Nat
  confirmation : Str
  deriving DecidableEq

section normalize

variable (rules : DocumentRules)

def documentTitleMax : Nat := 500
def documentBodyMax : Nat := 100000
def documentTagMax : Nat := 40
def documentTagsMax : Nat := 25

def normalizedTitle (value : Str) : Except DocumentError Str :=
  if Str.strip value = [] then .error (.invalid "title is required")
  else .ok ((Str.strip value).take documentTitleMax)

def normalizedBody (value : Str) : Except DocumentError Str :=
  if documentBodyMax < value.length then
    .error (.invalid "body_markdown exceeds the maximum size")
  else .ok value

def documentStatuses : List Str := [Str.of "draft", Str.of "published", Str.of "archived"]

def normalizedStatus (value : Str) : Except DocumentError Str :=
  let status := rules.casefold (Str.strip (if value = [] then Str.of "draft" else value))
  if documentStatuses.contains status then .ok status
  else .error (.invalid "unknown document status")

/-- The loop over the tags, which stops when there are enough. -/
def gatherTags : List Str → List Str → List Str
  | tags, [] => tags
  | tags, raw :: rest =>
    let tag := (Str.strip raw).take documentTagMax
    let tags := if tag = [] ∨ tags.contains tag then tags else tags ++ [tag]
    if documentTagsMax ≤ tags.length then tags else gatherTags tags rest

def normalizedTags (value : List Str) : List Str := gatherTags [] value

def DocumentCreateInput.content (payload : DocumentCreateInput) : Except DocumentError Content := do
  let title ← normalizedTitle payload.title
  let bodyMarkdown ← normalizedBody payload.bodyMarkdown
  let status ← normalizedStatus rules payload.status
  return ⟨title, bodyMarkdown, rules.markdownToText bodyMarkdown, status,
    normalizedTags payload.tags⟩

/-- A field that is given, normalized, or the one that was loaded. -/
def given {T : Type} (value : Option T) (normalized : T → Except DocumentError T) (loaded : T) :
    Except DocumentError T :=
  match value with
  | none => .ok loaded
  | some value => normalized value

/-- The document in memory after an update has set its attributes. -/
def DocumentUpdateInput.apply (payload : DocumentUpdateInput) (loaded : Content) :
    Except DocumentError Content := do
  let title ← given payload.title normalizedTitle loaded.title
  let bodyMarkdown ← given payload.bodyMarkdown normalizedBody loaded.bodyMarkdown
  let tags ← given payload.tags (fun value => .ok (normalizedTags value)) loaded.tags
  let status ← given payload.status (normalizedStatus rules) loaded.status
  return ⟨title, bodyMarkdown, if bodyMarkdown = loaded.bodyMarkdown then loaded.bodyText
    else rules.markdownToText bodyMarkdown, status, tags⟩

end normalize

/-- The flush writes the columns whose attributes have changed. -/
def Content.flushed (loaded memory row : Content) : Content where
  title := if memory.title = loaded.title then row.title else memory.title
  bodyMarkdown :=
    if memory.bodyMarkdown = loaded.bodyMarkdown then row.bodyMarkdown else memory.bodyMarkdown
  bodyText := if memory.bodyText = loaded.bodyText then row.bodyText else memory.bodyText
  status := if memory.status = loaded.status then row.status else memory.status
  tags := if memory.tags = loaded.tags then row.tags else memory.tags

inductive TextColumn where
  | title | bodyMarkdown | bodyText
  deriving DecidableEq

/-- The title and the body, as it is authored and as it is projected. -/
def Content.texts (content : Content) : List (TextColumn × Str) :=
  [(.title, content.title), (.bodyMarkdown, content.bodyMarkdown), (.bodyText, content.bodyText)]

inductive DocumentRequest where
  | create (payload : DocumentCreateInput)
  | update (payload : DocumentUpdateInput)
  | correct (payload : DocumentCreateInput) (expected : MemoryExpectation)
  | forget (expected : MemoryExpectation)
  deriving DecidableEq

/-- What a session is about to write: `loaded` is the row that it has in memory, or nothing if it
inserts one, and `erased` the numbers of the versions that a correction has deleted. `since` is
history: how many corrections had been committed when the request was received. -/
structure Draft where
  since : Nat
  loaded : Option Content
  memory : Content
  erased : Option (List Nat)
  deriving DecidableEq

abbrev RequestId := Nat

inductive DocumentPc where
  | received (request : DocumentRequest) (since : Nat)
  | locked (request : DocumentRequest) (since : Nat) (row : DocumentRow)
  | expected (request : DocumentRequest) (since : Nat) (row : DocumentRow)
  | edited (draft : Draft)
  | flushed (draft : Draft) (updatedAt : Nat)
  | numbered (draft : Draft) (updatedAt versionNumber : Nat)
  | appended (draft : Draft) (updatedAt versionNumber : Nat)
  | removed
  deriving DecidableEq

/-- One document: its committed rows, the lock of its row and the open transactions. The rest is
history: who creates it, what has been committed since the last correction and the texts of that,
the texts of before, and the texts that may be there after it. -/
structure DocumentWorld where
  document : Option DocumentRow
  versions : List DocumentVersion
  locks : Table Unit RequestId
  sessions : RequestId → Option DocumentPc
  creator : Option RequestId
  corrections : Nat
  edits : List Draft
  live : List (TextColumn × Str)
  past : List (TextColumn × Str)
  allowed : List (TextColumn × Str)

def noDocument : DocumentWorld :=
  ⟨none, [], fun _ => none, fun _ => none, none, 0, [], [], [], []⟩

/-- `load` reads without a lock, `lock` for update. `fail` is any end that is not named. -/
inductive DocumentAction where
  | receive (session : RequestId) (request : DocumentRequest)
  | load (session : RequestId)
  | lock (session : RequestId)
  | expect (session : RequestId)
  | erase (session : RequestId)
  | flush (session : RequestId) (now : Nat)
  | number (session : RequestId)
  | append (session : RequestId)
  | commit (session : RequestId)
  | fail (session : RequestId)
  deriving DecidableEq

namespace DocumentWorld

variable (s : DocumentWorld) (i : RequestId)

def put (pc : DocumentPc) : DocumentWorld :=
  { s with sessions := Function.update s.sessions i (some pc) }

def take (pc : DocumentPc) : DocumentWorld :=
  { s.put i pc with locks := s.locks.take i () }

/-- The end of a transaction gives its lock back. -/
def close : DocumentWorld :=
  { s with locks := s.locks.release i, sessions := Function.update s.sessions i none }

end DocumentWorld

section steps

variable (rules : DocumentRules) (s : DocumentWorld) (i : RequestId)

/-- The texts that an update request supplies. -/
def DocumentUpdateInput.supplied (payload : DocumentUpdateInput) : List (TextColumn × Str) :=
  let titles := payload.title.elim [] fun value =>
    ((normalizedTitle value).toOption.map fun title => (.title, title)).toList
  let bodies := payload.bodyMarkdown.elim [] fun body =>
    [(.bodyMarkdown, body), (.bodyText, rules.markdownToText body)]
  titles ++ bodies

def correctionConfirmation : Str := Str.of "purge_document_history"
def forgetConfirmation : Str := Str.of "forget_document"

def receiveStep (request : DocumentRequest) : Option DocumentWorld :=
  match request with
  | .create _ =>
    if s.creator = none then
      some { s.put i (.received request s.corrections) with creator := some i }
    else none
  | .update payload =>
    some { s.put i (.received request s.corrections) with
      allowed := s.allowed ++ payload.supplied rules }
  | .correct _ expected =>
    if expected.confirmation = correctionConfirmation then
      some (s.put i (.received request s.corrections))
    else some s
  | .forget expected =>
    if expected.confirmation = forgetConfirmation then
      some (s.put i (.received request s.corrections))
    else some s

def loadStep (request : DocumentRequest) (since : Nat) : Option DocumentWorld :=
  match request with
  | .create payload =>
    match payload.content rules with
    | .error _ => some (s.close i)
    | .ok memory => some (s.put i (.edited ⟨since, none, memory, none⟩))
  | .update payload =>
    match s.document with
    | none => some (s.close i)
    | some row =>
      match payload.apply rules row.content with
      | .error _ => some (s.close i)
      | .ok memory =>
        if memory = row.content then some (s.close i)
        else some (s.put i (.edited ⟨since, some row.content, memory, none⟩))
  | .correct _ _ | .forget _ => none

def lockStep (request : DocumentRequest) (since : Nat) : Option DocumentWorld :=
  match request with
  | .create _ | .update _ => none
  | .correct _ _ | .forget _ =>
    match s.document with
    | none => some (s.close i)
    | some row => if s.locks.free i () then some (s.take i (.locked request since row)) else none

/-- `_assert_memory_expectation`. -/
def meetsExpectation (expected : MemoryExpectation) (row : DocumentRow) (versionCount : Nat) :
    Bool :=
  row.updatedAt == expected.updatedAt && versionCount == expected.versionCount

def expectStep (request : DocumentRequest) (since : Nat) (row : DocumentRow) : DocumentWorld :=
  match request with
  | .correct _ expected | .forget expected =>
    if meetsExpectation expected row s.versions.length then
      s.put i (.expected request since row)
    else s.close i
  | .create _ | .update _ => s

def eraseStep (request : DocumentRequest) (since : Nat) (row : DocumentRow) : DocumentWorld :=
  match request with
  | .correct payload _ =>
    match payload.content rules with
    | .error _ => s.close i
    | .ok memory => s.put i (.edited ⟨since, some row.content, memory,
        some (s.versions.map (·.versionNumber))⟩)
  | .forget _ => s.put i .removed
  | .create _ | .update _ => s

/-- An `UPDATE` must find the row, and waits for its lock. -/
def flushStep (draft : Draft) (now : Nat) : Option DocumentWorld :=
  if draft.loaded.isSome ∧ s.document.isNone then some (s.close i)
  else if s.locks.free i () then some (s.take i (.flushed draft now))
  else none

/-- The version rows that the draft leaves. -/
def Draft.kept (draft : Draft) (versions : List DocumentVersion) : List DocumentVersion :=
  versions.filter fun version => !(draft.erased.any (·.contains version.versionNumber))

def latestVersion (versions : List DocumentVersion) : Nat :=
  versions.foldr (fun version latest => max version.versionNumber latest) 0

def appendStep (draft : Draft) (updatedAt versionNumber : Nat) : DocumentWorld :=
  if (draft.kept s.versions).any (·.versionNumber = versionNumber) then s.close i
  else s.put i (.appended draft updatedAt versionNumber)

def Draft.row (draft : Draft) (current : Option DocumentRow) (updatedAt : Nat) : DocumentRow where
  content :=
    match draft.loaded, current with
    | some loaded, some row => loaded.flushed draft.memory row.content
    | _, _ => draft.memory
  updatedAt := updatedAt

def publishDraft (draft : Draft) (updatedAt versionNumber : Nat) : DocumentWorld :=
  { s.close i with
    document := some (draft.row s.document updatedAt)
    versions := draft.kept s.versions ++ [⟨versionNumber, draft.memory⟩] }

def commitDraft (draft : Draft) (updatedAt versionNumber : Nat) : DocumentWorld :=
  let published := publishDraft s i draft updatedAt versionNumber
  match draft.erased with
  | none => { published with
      edits := s.edits ++ [draft]
      live := s.live ++ draft.memory.texts }
  | some _ => { published with
      corrections := s.corrections + 1
      edits := [draft]
      live := draft.memory.texts
      past := s.past ++ s.live
      allowed := draft.memory.texts }

def documentStep (s : DocumentWorld) : DocumentAction → Option DocumentWorld
  | .receive i request => if s.sessions i = none then receiveStep rules s i request else none
  | .load i =>
    match s.sessions i with
    | some (.received request since) => loadStep rules s i request since
    | _ => none
  | .lock i =>
    match s.sessions i with
    | some (.received request since) => lockStep s i request since
    | _ => none
  | .expect i =>
    match s.sessions i with
    | some (.locked request since row) => some (expectStep s i request since row)
    | _ => none
  | .erase i =>
    match s.sessions i with
    | some (.expected request since row) => some (eraseStep rules s i request since row)
    | _ => none
  | .flush i now =>
    match s.sessions i with
    | some (.edited draft) => flushStep s i draft now
    | _ => none
  | .number i =>
    match s.sessions i with
    | some (.flushed draft updatedAt) =>
      some (s.put i (.numbered draft updatedAt (latestVersion (draft.kept s.versions) + 1)))
    | _ => none
  | .append i =>
    match s.sessions i with
    | some (.numbered draft updatedAt versionNumber) =>
      some (appendStep s i draft updatedAt versionNumber)
    | _ => none
  | .commit i =>
    match s.sessions i with
    | some (.appended draft updatedAt versionNumber) =>
      some (commitDraft s i draft updatedAt versionNumber)
    | some .removed => some { s.close i with document := none, versions := [] }
    | _ => none
  | .fail i => if s.sessions i = none then none else some (s.close i)

end steps

end FounderOs.Documents
