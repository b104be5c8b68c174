import Mathlib.Algebra.Ring.Nat
import FounderOs.Canonical.SourceRecord
import FounderOs.Foundation.Text

namespace FounderOs.Canonical

open Text

/-- A JSON value, as far as the readers tell values apart: no id and no number is a boolean. -/
inductive Field where
  | other
  | text (s : String)
  | integer (n : Nat)
  deriving DecidableEq, Repr

def digitsValue (s : String) : Option Nat :=
  if s ≠ "" ∧ s.toList.all Char.isDigit then
    some (Nat.ofDigitChars 10 s.toList 0)
  else none

def removeSuffix (suffix s : String) : String :=
  if suffix.toList <:+ s.toList then clip s (s.toList.length - suffix.toList.length) else s

/-- What follows the first occurrence of `marker`. -/
def afterMarker (marker : List Char) : List Char → Option (List Char)
  | [] => if marker = [] then some [] else none
  | c :: rest =>
    if marker <+: c :: rest then some ((c :: rest).drop marker.length) else afterMarker marker rest

def lastPart (fullName : String) : String :=
  String.ofList ((fullName.toList.splitOn '/').getLast?.getD [])

namespace Field

variable (value : Field)

/-- `_safe_text` of the normalization, which takes texts only. -/
def safeText (limit : Nat) : Option String :=
  match value with
  | .text s => optionalText (some s) limit
  | .integer _ | .other => none

/-- `_safe_text` of the live sync, which takes integers as well. -/
def providerText (limit : Nat) : Option String :=
  match value with
  | .text s => optionalText (some s) limit
  | .integer n => optionalText (some (toString n)) limit
  | .other => none

/-- `_safe_text` of the execution result sync. -/
def resultText : Option String :=
  match value with
  | .text s => optionalText (some s) 1000
  | .integer n => some (toString n)
  | .other => none

def safeInt : Option Nat :=
  match value with
  | .integer n => some n
  | .text s => digitsValue (strip s)
  | .other => none

def providerInt : Option Nat :=
  match value with
  | .integer n => some n
  | .text s => digitsValue s
  | .other => none

def safeUrl : Option String :=
  (value.safeText 1000).bind fun s => if '@' ∈ s.toList then none else some (clip s 1000)

def hasScheme (s : String) : Bool :=
  decide ("https://".toList <+: s.toList ∨ "http://".toList <+: s.toList)

def providerUrl : Option String :=
  match value with
  | .text s => if hasScheme (strip s) then some (clip (strip s) 500) else none
  | .integer _ | .other => none

def resultUrl : Option String :=
  value.resultText.filter fun s => hasScheme s && decide ('@' ∉ s.toList)

def ofText (s : Option String) : Field := s.elim .other .text

end Field

/-- `^[A-Za-z0-9_.-]+$`, whose `$` also stands before a last line feed. -/
def matchesRepoPart (s : String) : Bool :=
  let body := if s.toList.getLast? = some '\n' then s.toList.dropLast else s.toList
  decide (body ≠ []) && body.all fun c => c.isAlphanum || c = '_' || c = '.' || c = '-'

def safeRepoPart (part : String) : Option String :=
  (optionalText (some part) 1000).bind fun s =>
    let name := removeSuffix ".git" s
    if '/' ∉ name.toList ∧ matchesRepoPart name = true then some name else none

def joinRepoParts (owner repo : List Char) : Option String :=
  (safeRepoPart (String.ofList owner)).bind fun owner =>
    (safeRepoPart (String.ofList repo)).map fun repo => owner ++ "/" ++ repo

def safeFullName (value : Field) : Option String :=
  (value.safeText 1000).bind fun s =>
    match (removeSuffix ".git" s).toList.splitOn '/' with
    | [owner, repo] => joinRepoParts owner repo
    | _ => none

def githubFullNameFromUrl (value : Field) : Option String :=
  (value.safeText 1000).bind fun s =>
    (afterMarker "github.com/".toList s.toList).bind fun path =>
      let path := (path.takeWhile (· ≠ '?')).takeWhile (· ≠ '#')
      match ((path.dropWhile (· = '/')).rdropWhile (· = '/')).splitOn '/' with
      | owner :: repo :: _ => joinRepoParts owner repo
      | _ => none

structure RepositoryMapping where
  fullName : Field := .other
  nameWithOwner : Field := .other
  htmlUrl : Field := .other
  url : Field := .other
  deriving DecidableEq, Repr

/-- The keys of an issue or pull request record that its external id is made from. -/
structure WorkItemRecord where
  externalId : Field := .other
  id : Field := .other
  number : Field := .other
  repositoryFullName : Field := .other
  fullName : Field := .other
  repositoryName : Field := .other
  sourceUrl : Field := .other
  htmlUrl : Field := .other
  webUrl : Field := .other
  url : Field := .other
  repository : Option RepositoryMapping := none
  deriving DecidableEq, Repr

structure RepositoryRecord where
  id : Field := .other
  fullName : Field := .other
  name : Field := .other
  deriving DecidableEq, Repr

structure NormalizedRepository where
  externalId : String
  fullName : String
  name : String
  deriving DecidableEq, Repr

structure NormalizedWorkItem where
  externalId : String
  number : Option Nat
  sourceUrl : Option String
  repositoryFullName : Option String
  deriving DecidableEq, Repr

def WorkKind.marker : WorkKind → String
  | .issue => "issue"
  | .pullRequest => "pull"

namespace WorkItemRecord

variable (record : WorkItemRecord)

def repositoryFullNameCandidates : List Field :=
  [record.repositoryFullName, record.fullName, record.repositoryName, record.sourceUrl,
    record.htmlUrl, record.webUrl, record.url] ++
    record.repository.elim []
      fun repository => [repository.fullName, repository.nameWithOwner, repository.htmlUrl,
        repository.url]

def recordRepositoryFullName : Option String :=
  record.repositoryFullNameCandidates.findSome? fun candidate =>
    safeFullName candidate <|> githubFullNameFromUrl candidate

def workItemSourceUrl : Option String :=
  [record.sourceUrl, record.htmlUrl, record.webUrl, record.url].findSome? Field.safeUrl

end WorkItemRecord

def workItemExternalId (record : WorkItemRecord) (repositoryFullName : Option String)
    (kind : WorkKind) (number : Option Nat) (sourceUrl : Option String) : String :=
  match record.externalId.safeText 255 <|> record.id.safeText 255 with
  | some explicit => if explicit ≠ "unknown" then explicit else unnamed
  | none => unnamed
where
  unnamed : String :=
    match repositoryFullName, number with
    | some fullName, some number =>
      clip (fullName ++ "#" ++ kind.marker ++ "/" ++ toString number) 255
    | _, _ => clip (sourceUrl.getD ("unknown-github-" ++ kind.marker)) 255

def buildNormalizedWorkItem (kind : WorkKind) (record : WorkItemRecord) : NormalizedWorkItem where
  externalId := workItemExternalId record record.recordRepositoryFullName kind
    record.number.safeInt record.workItemSourceUrl
  number := record.number.safeInt
  sourceUrl := record.workItemSourceUrl
  repositoryFullName := record.recordRepositoryFullName

def buildNormalizedIssue : WorkItemRecord → NormalizedWorkItem := buildNormalizedWorkItem .issue

def buildNormalizedPullRequest : WorkItemRecord → NormalizedWorkItem :=
  buildNormalizedWorkItem .pullRequest

def buildNormalizedRepository (repo : RepositoryRecord) : NormalizedRepository :=
  let fullName := (repo.fullName.safeText 1000 <|> repo.name.safeText 1000).getD "unknown"
  { externalId := (repo.id.safeText 1000).getD fullName
    fullName := fullName
    name := (repo.name.safeText 1000).getD (lastPart fullName) }

def workItemExternalIdFromNormalized (record : NormalizedWorkItem) : String :=
  (optionalText (some record.externalId) 255).getD "unknown"

def repositoryExternalId (repo : NormalizedRepository) : String :=
  (optionalText (some repo.externalId) 255 <|> optionalText (some repo.fullName) 255 <|>
    optionalText (some repo.name) 255).getD "unknown"

/-- The keys of a provider response that are read for its external id. -/
structure RepositoryResponse where
  id : Field
  name : Field
  deriving DecidableEq, Repr

structure WorkItemResponse where
  id : Field
  number : Field
  htmlUrl : Field
  url : Field
  deriving DecidableEq, Repr

def repositoryRecord (raw : RepositoryResponse) (fullName : String) : RepositoryRecord where
  id := .text ((raw.id.providerText 255).getD fullName)
  fullName := .text fullName
  name := .text ((raw.name.providerText 255).getD (lastPart fullName))

def issueRecordFromGithubResponse (raw : WorkItemResponse) (fullName : String) :
    WorkItemRecord :=
  let number := raw.number.providerInt
  -- `number or 'unknown'`: a zero is unknown too
  let shown := (number.filter (· ≠ 0)).elim "unknown" toString
  let externalId := (raw.id.providerText 255).getD (fullName ++ "#issue/" ++ shown)
  { externalId := .text externalId
    id := .text externalId
    number := number.elim .other .integer
    htmlUrl := .ofText raw.htmlUrl.providerUrl
    repositoryFullName := .text fullName }

def pullRequestRecordFromGithubResponse (raw : WorkItemResponse) (fullName : String) :
    WorkItemRecord :=
  let number := raw.number.providerInt
  let externalId :=
    match number with
    | some number => fullName ++ "#pull/" ++ toString number
    | none => (raw.id.providerText 255).getD (fullName ++ "#pull/unknown")
  { externalId := .text externalId
    id := .text externalId
    number := number.elim .other .integer
    htmlUrl := .ofText raw.htmlUrl.providerUrl
    repositoryFullName := .text fullName }

/-- `_issue_record_from_github_response` of the execution result sync. -/
def resultIssueRecord (raw : WorkItemResponse) (fullName : String) (fallbackNumber : Nat) :
    WorkItemRecord :=
  let number :=
    match raw.number with
    | .integer n => if n = 0 then fallbackNumber else n
    | .text _ | .other => fallbackNumber
  { id := .text (raw.id.resultText.getD (fullName ++ "#issue/" ++ toString number))
    number := .integer number
    sourceUrl := .ofText raw.htmlUrl.resultUrl
    url := .ofText raw.url.resultUrl
    repositoryFullName := .text fullName }

/-- A text that `strip` leaves alone, and not the empty one. -/
def Plain (s : String) : Prop := s ≠ "" ∧ ∀ c ∈ s.toList, isSpace c = false

/-- An id or a number as a text, cut to the width of `external_id`. -/
def shown (n : Nat) : String := clip (toString n) 255

section Texts

variable {s : String} {limit limit' : Nat}

theorem toList_clip : (clip s limit).toList = s.toList.take limit := String.toList_ofList

theorem clip_clip : clip (clip s limit) limit' = clip s (min limit' limit) := by
  rw [clip, toList_clip, List.take_take]
  rfl

theorem Plain.clip (h : Plain s) (hl : 0 < limit) : Plain (clip s limit) := by
  refine ⟨clip_ne_empty h.1 hl, fun c hc => ?_⟩
  rw [toList_clip] at hc
  exact h.2 c (List.mem_of_mem_take hc)

theorem optionalText_plain (h : Plain s) : optionalText (some s) limit = some (clip s limit) := by
  have hstrip : strip s = s := strip_eq_self h.2
  simp [optionalText, hstrip, h.1]

theorem safeText_plain (h : Plain s) : (Field.text s).safeText limit = some (clip s limit) :=
  optionalText_plain h

theorem digit_of_mem_toString {n : Nat} {c : Char} (h : c ∈ (toString n).toList) :
    c.isDigit = true := by
  rw [Nat.toString_eq_repr, Nat.toList_repr] at h
  exact Nat.isDigit_of_mem_toDigits (by decide) (by decide) h

theorem plain_toString (n : Nat) : Plain (toString n) := by
  refine ⟨Nat.repr_ne_empty, fun c hc => isSpace_of_alphanum ?_⟩
  rw [Char.isAlphanum, digit_of_mem_toString hc, Bool.or_true]

theorem providerText_integer (n : Nat) : (Field.integer n).providerText 255 = some (shown n) :=
  optionalText_plain (plain_toString n)

theorem plain_shown (n : Nat) : Plain (shown n) := (plain_toString n).clip (by decide)

theorem clip_shown (n : Nat) : clip (shown n) 255 = shown n := clip_clip

theorem not_mem_shown {n : Nat} {c : Char} (h : c.isDigit = false) : c ∉ (shown n).toList := by
  intro hc
  rw [shown, toList_clip] at hc
  cases h.symm.trans (digit_of_mem_toString (List.mem_of_mem_take hc))

theorem shown_ne_unknown (n : Nat) : shown n ≠ "unknown" := by
  intro h
  have hletter : 'u' ∉ (shown n).toList := not_mem_shown rfl
  rw [h] at hletter
  exact hletter (by decide)

/-- Ids below `10 ^ 255` are told apart. -/
theorem shown_inj {m n : Nat} (hm : m < 10 ^ 255) (hn : n < 10 ^ 255) :
    shown m = shown n ↔ m = n := by
  have hwhole : ∀ k, k < 10 ^ 255 → (shown k).toList = Nat.toDigits 10 k := by
    intro k hk
    have hlength : (Nat.toDigits 10 k).length ≤ 255 :=
      (Nat.length_toDigits_le_iff (by decide) (by decide)).2 hk
    rw [shown, toList_clip, Nat.toString_eq_repr, Nat.toList_repr, List.take_of_length_le hlength]
  refine ⟨fun h => ?_, fun h => h ▸ rfl⟩
  have hdigits : Nat.toDigits 10 m = Nat.toDigits 10 n := by
    rw [← hwhole m hm, ← hwhole n hn, h]
  have hvalue := congrArg (fun l => Nat.ofDigitChars 10 l 0) hdigits
  simpa [Nat.ofDigitChars_toDigits] using hvalue

end Texts

/-- What `_normalize_repository_full_name` lets through, as far as an external id depends on it: two
parts of letters, digits, `.`, `_` and `-`, each cut at 100 characters. -/
structure RepositoryFullName where
  text : String
  plain : Plain text
  unmarked : '#' ∉ text.toList
  short : text.toList.length ≤ 201

namespace RepositoryFullName

variable (repository repository' : RepositoryFullName)

/-- The external id of a numbered pull request, before it is cut. -/
def pullRequest (number : Nat) : String := repository.text ++ "#pull/" ++ toString number

/-- As much of a pull request's number as its external id has room for. -/
def shownNumber (number : Nat) : String :=
  clip (toString number) (249 - repository.text.toList.length)

theorem toList_pullRequest (number : Nat) : (repository.pullRequest number).toList =
    repository.text.toList ++ '#' :: ("pull/".toList ++ (toString number).toList) := by
  rw [pullRequest, String.toList_append, String.toList_append, List.append_assoc]
  rfl

theorem toList_clip_pullRequest (number : Nat) :
    (clip (repository.pullRequest number) 255).toList = repository.text.toList ++
      '#' :: ("pull/".toList ++ (repository.shownNumber number).toList) := by
  have hshort := repository.short
  have hroom : 255 - repository.text.toList.length =
      (249 - repository.text.toList.length) + 5 + 1 := by omega
  rw [toList_clip, toList_pullRequest, List.take_append, List.take_of_length_le (by omega), hroom,
    List.take_succ_cons, List.take_append, shownNumber, toList_clip]
  simp

theorem plain_pullRequest (number : Nat) : Plain (repository.pullRequest number) := by
  refine ⟨?_, ?_⟩
  · intro h
    have hlist := repository.toList_pullRequest number
    rw [h] at hlist
    exact absurd hlist.symm (by simp)
  · rw [toList_pullRequest]
    intro c hc
    rcases List.mem_append.1 hc with hname | hrest
    · exact repository.plain.2 c hname
    · rcases List.mem_cons.1 hrest with rfl | hrest
      · decide
      · have hmarker : ∀ c ∈ "pull/".toList, isSpace c = false :=
          not_space_of_all (by decide)
        rcases List.mem_append.1 hrest with hpull | hdigit
        · exact hmarker c hpull
        · exact (plain_toString number).2 c hdigit

theorem takeWhile_clip_pullRequest (number : Nat) :
    (clip (repository.pullRequest number) 255).toList.takeWhile (fun c => decide (c ≠ '#')) =
      repository.text.toList := by
  rw [toList_clip_pullRequest, List.takeWhile_append_of_pos]
  · simp
  · intro c hc
    exact decide_eq_true fun heq => repository.unmarked (heq ▸ hc)

theorem clip_pullRequest_eq_iff (number number' : Nat) :
    clip (repository.pullRequest number) 255 = clip (repository'.pullRequest number') 255 ↔
      repository.text = repository'.text ∧
        repository.shownNumber number = repository.shownNumber number' := by
  constructor
  · intro h
    have hname : repository.text = repository'.text := by
      rw [← String.toList_inj, ← takeWhile_clip_pullRequest repository number, h,
        takeWhile_clip_pullRequest]
    have hnumber : repository'.shownNumber number' = repository.shownNumber number' := by
      rw [shownNumber, shownNumber, hname]
    have hlists := congrArg String.toList h
    rw [toList_clip_pullRequest, toList_clip_pullRequest, ← hname, hnumber] at hlists
    have hrest := (List.cons.inj (List.append_cancel_left hlists)).2
    exact ⟨hname, String.toList_inj.1 (List.append_cancel_left hrest)⟩
  · rintro ⟨hname, hnumber⟩
    have hnumber' : repository'.shownNumber number' = repository.shownNumber number' := by
      rw [shownNumber, shownNumber, hname]
    rw [← String.toList_inj, toList_clip_pullRequest, toList_clip_pullRequest, hname, hnumber,
      hnumber']

end RepositoryFullName

theorem marker_mem_clip_pullRequest (repository : RepositoryFullName) (number : Nat) :
    '#' ∈ (clip (repository.pullRequest number) 255).toList := by
  rw [repository.toList_clip_pullRequest]
  exact List.mem_append_right _ List.mem_cons_self

/-- A record whose id is a plain text keeps it, cut to the width of the column. -/
theorem buildNormalizedWorkItem_explicit {record : WorkItemRecord} {kind : WorkKind} {s : String}
    (hid : (record.externalId.safeText 255 <|> record.id.safeText 255) = some (clip s 255))
    (hs : Plain s) (hknown : clip s 255 ≠ "unknown") :
    workItemExternalIdFromNormalized (buildNormalizedWorkItem kind record) = clip s 255 := by
  have hexplicit : (buildNormalizedWorkItem kind record).externalId = clip s 255 := by
    simp only [buildNormalizedWorkItem, workItemExternalId, hid, ne_eq, hknown, not_false_eq_true,
      if_true]
  rw [workItemExternalIdFromNormalized, hexplicit, optionalText_plain (hs.clip (by decide)),
    clip_clip]
  rfl

section Responses

variable (id : Nat) (number htmlUrl url name : Field)

theorem externalId_repositoryRecord (fullName : String) :
    repositoryExternalId (buildNormalizedRepository
      (repositoryRecord ⟨.integer id, name⟩ fullName)) = shown id := by
  have hid : (repositoryRecord ⟨.integer id, name⟩ fullName).id.safeText 1000 =
      some (clip (shown id) 1000) := by
    simp only [repositoryRecord, providerText_integer, Option.getD_some]
    exact safeText_plain (plain_shown id)
  have hshown : clip (shown id) 1000 = shown id := clip_clip
  simp only [repositoryExternalId, buildNormalizedRepository, hid, hshown, Option.getD_some]
  rw [optionalText_plain (plain_shown id), clip_shown]
  rfl

theorem externalId_issueRecord (fullName : String) :
    workItemExternalIdFromNormalized (buildNormalizedIssue
      (issueRecordFromGithubResponse ⟨.integer id, number, htmlUrl, url⟩ fullName)) = shown id := by
  refine buildNormalizedWorkItem_explicit ?_ (plain_toString id) (shown_ne_unknown id)
  simp only [issueRecordFromGithubResponse, providerText_integer, Option.getD_some]
  rw [safeText_plain (plain_shown id), clip_shown]
  rfl

theorem externalId_resultIssueRecord (fullName : String) (fallbackNumber : Nat) :
    workItemExternalIdFromNormalized (buildNormalizedIssue
      (resultIssueRecord ⟨.integer id, number, htmlUrl, url⟩ fullName fallbackNumber)) =
        shown id := by
  refine buildNormalizedWorkItem_explicit ?_ (plain_toString id) (shown_ne_unknown id)
  simp only [resultIssueRecord, Field.resultText, Option.getD_some]
  rw [safeText_plain (plain_toString id)]
  rfl

theorem externalId_pullRequestRecord_unnumbered (hnumber : number.providerInt = none)
    (fullName : String) :
    workItemExternalIdFromNormalized (buildNormalizedPullRequest
      (pullRequestRecordFromGithubResponse ⟨.integer id, number, htmlUrl, url⟩ fullName)) =
        shown id := by
  refine buildNormalizedWorkItem_explicit ?_ (plain_toString id) (shown_ne_unknown id)
  simp only [pullRequestRecordFromGithubResponse, hnumber, providerText_integer, Option.getD_some]
  rw [safeText_plain (plain_shown id), clip_shown]
  rfl

theorem externalId_pullRequestRecord_numbered {n : Nat} (hnumber : number.providerInt = some n)
    (repository : RepositoryFullName) :
    workItemExternalIdFromNormalized (buildNormalizedPullRequest
      (pullRequestRecordFromGithubResponse ⟨.integer id, number, htmlUrl, url⟩
        repository.text)) = clip (repository.pullRequest n) 255 := by
  have hplain := repository.plain_pullRequest n
  refine buildNormalizedWorkItem_explicit ?_ hplain fun h => ?_
  · have hname : repository.text ++ "#pull/" ++ toString n = repository.pullRequest n := rfl
    simp only [pullRequestRecordFromGithubResponse, hnumber, hname]
    rw [safeText_plain hplain]
    rfl
  · have hmarker := marker_mem_clip_pullRequest repository n
    rw [h] at hmarker
    revert hmarker
    decide

end Responses

end FounderOs.Canonical
