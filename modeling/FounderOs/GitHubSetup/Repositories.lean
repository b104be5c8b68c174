import FounderOs.Connectors.Normalize
import FounderOs.RepositoryAudit.Contract

namespace FounderOs.GitHubSetup

open Proposals Connectors RepositoryAudit

/-- What Python's library does with texts, of which nothing is assumed: the Unicode tables for what
is not ASCII, `isdigit`, `isalnum` of a character, and whether `fromisoformat` takes a text. -/
structure Platform where
  foldTable : Nat → Str
  isDigit : Str → Bool
  isAlnum : Nat → Bool
  isIsoformat : Str → Bool

def githubAppMaxRepositories : Nat := 500
def githubAppMaxSelectedRepositories : Nat := 100

structure SetupRepository where
  id : Str
  name : Str
  fullName : Str
  isPrivate : Bool
  visibility : Str
  archived : Bool
  defaultBranch : Option Str
  sourceUrl : Option Str
  lastActivityAt : Option Str
  deriving DecidableEq

/-- A JSON number without a fraction or an exponent is an `int`. -/
def isInt (text : Str) : Bool :=
  let digits := if text.head? = some 45 then text.tail else text
  !digits.isEmpty && digits.all isDigit

def repositoryChar (c : Nat) : Bool := nameChar c || c == 95 || c == 46 || c == 45

/-- Neither empty nor a step of a path, and `[A-Za-z0-9_.-]+` matches all of it. -/
def repositoryPart (part : Str) : Bool :=
  !part.isEmpty && part != Str.of "." && part != Str.of ".." && part.all repositoryChar

def safeRepositoryFullName (value : Value) : Option Str :=
  (safeText 500 value).filter fun text =>
    match text.splitOn 47 with
    | [owner, name] => repositoryPart owner && repositoryPart name
    | _ => false

/-- `full_name.rsplit("/", 1)[-1]`. -/
def lastPart (fullName : Str) : Str := (fullName.splitOn 47).getLastD []

def visibilities : List Str := ["public", "private", "internal"].map Str.of

section platform

variable (platform : Platform)

def folded (text : Str) : Str := Str.casefold platform.foldTable text

def safeIdentifier : Value → Option Str
  | .num text => if isInt text then some text else none
  | value => (safeText 100 value).filter platform.isDigit

def safeDatetimeText (value : Value) : Option Str :=
  (safeText 100 value).filter fun text =>
    platform.isIsoformat (text.flatMap fun c => if c = 90 then Str.of "+00:00" else [c])

/-- What `urlsplit` leaves as the path of a page of `https://github.com`, without its first slash:
the scheme is read in any case, the host only as it is written. -/
def githubPath (text : Str) : Option Str :=
  if (text.take 5).map (fun c => if isUpper c then c + 32 else c) = Str.of "https" ∧
      (text.drop 5).take 14 = Str.of "://github.com/" then some (text.drop 19)
  else none

def safeGithubRepositoryUrl (value : Value) (expectedFullName : Str) : Option Str :=
  match value with
  | .str text =>
    if text.isEmpty || 1000 < text.length || text.contains 63 || text.contains 35 ||
        text.contains 92 || text.any Str.isSpace || text.any isControl then none
    else
      ((githubPath text).bind fun path => safeRepositoryFullName (.str path)).bind fun fullName =>
        (safeRepositoryFullName (.str expectedFullName)).bind fun expected =>
          if folded platform fullName = folded platform expected then some text else none
  | _ => none

def repositoryVisibility (raw : Object) : Str :=
  match get raw "visibility" with
  | .str text =>
    if visibilities.contains text then text
    else if get raw "private" matches .bool true then Str.of "private" else Str.of "public"
  | _ => if get raw "private" matches .bool true then Str.of "private" else Str.of "public"

def normalizeProviderRepository (raw : Object) (fullName identifier : Str) : SetupRepository where
  id := identifier
  name := lastPart fullName
  fullName := fullName
  isPrivate := truthy (get raw "private")
  visibility := repositoryVisibility raw
  archived := truthy (get raw "archived")
  defaultBranch := safeText 255 (get raw "default_branch")
  sourceUrl := safeGithubRepositoryUrl platform
    (firstTruthy (pick raw ["source_url", "html_url"])) fullName
  lastActivityAt := safeDatetimeText platform
    (firstTruthy (pick raw ["last_activity_at", "updated_at"]))

def collectRepositories : List Object → List Str → List SetupRepository
  | [], _ => []
  | raw :: rest, seen =>
    match safeRepositoryFullName (get raw "full_name"), safeIdentifier platform (get raw "id") with
    | some fullName, some identifier =>
      if seen.contains (folded platform fullName) then collectRepositories rest seen
      else normalizeProviderRepository platform raw fullName identifier ::
        collectRepositories rest (folded platform fullName :: seen)
    | _, _ => collectRepositories rest seen

def normalizeProviderRepositories (value : List Object) : List SetupRepository :=
  (collectRepositories platform (value.take githubAppMaxRepositories) []).mergeSort fun a b =>
    Str.le (folded platform a.fullName) (folded platform b.fullName)

def SetupRepository.asObject (repository : SetupRepository) : Object :=
  [("id", .str repository.id), ("name", .str repository.name),
    ("full_name", .str repository.fullName), ("private", .bool repository.isPrivate),
    ("visibility", .str repository.visibility), ("archived", .bool repository.archived),
    ("default_branch", Connectors.optional repository.defaultBranch),
    ("source_url", Connectors.optional repository.sourceUrl),
    ("last_activity_at", Connectors.optional repository.lastActivityAt)].map
    fun entry => (Str.of entry.1, entry.2)

/-- The inventory is stored as JSON and read again as the provider's answer is. -/
def safeRepositoryInventory (inventory : List SetupRepository) : List SetupRepository :=
  normalizeProviderRepositories platform (inventory.map (·.asObject))

def normalizeSelectedRepositoryNames (names : List Str) : List Str :=
  (names.foldl (fun (kept : List Str × List Str) raw =>
    match safeRepositoryFullName (.str raw) with
    | some fullName =>
      if kept.2.contains (folded platform fullName) then kept
      else (kept.1 ++ [fullName], folded platform fullName :: kept.2)
    | none => kept) ([], [])).1

end platform

end FounderOs.GitHubSetup
