import FounderOs.GitHubSetup.Repositories
import FounderOs.RepositoryAudit.Rendered

namespace FounderOs.RepositoryAudit

open Headquarters Proposals Connectors GitHubSetup

section writers

variable (platform : GitHubSetup.Platform)

/-- The columns hold what is to be written. -/
def CanonicalRepository.fits (row : CanonicalRepository) : Bool :=
  row.externalId.length ≤ 255 && row.name.length ≤ 255 && row.fullName.length ≤ 500 &&
    row.defaultBranch.all (·.length ≤ 255) && row.sourceUrl.all (·.length ≤ 1000)

/-- Whether two rows of a workspace break one of the unique constraints. -/
def CanonicalRepository.collides (row other : CanonicalRepository) : Bool :=
  row.id != other.id && row.workspaceId == other.workspaceId &&
    (row.externalId == other.externalId || row.fullName == other.fullName)

def setupRow (id workspaceId : Uuid) (now : Str) (repository : SetupRepository) :
    CanonicalRepository where
  id := id
  workspaceId := workspaceId
  externalId := repository.id
  name := repository.name
  fullName := repository.fullName
  defaultBranch := Connectors.safeText 255 (Connectors.optional repository.defaultBranch)
  visibility := some repository.visibility
  archived := repository.archived
  sourceUrl := safeGithubRepositoryUrl platform (Connectors.optional repository.sourceUrl)
    repository.fullName
  lastActivityAt := safeDatetimeText platform (Connectors.optional repository.lastActivityAt)
  updatedAt := now

/-- `_upsert_setup_repository`; `none` where the database refuses the row. -/
def upsertSetupRepository (newId workspaceId : Uuid) (now : Str)
    (rows : List CanonicalRepository) (repository : SetupRepository) :
    Option (List CanonicalRepository) :=
  let found := rows.find? fun row =>
    row.workspaceId == workspaceId &&
      (row.externalId == repository.id || row.fullName == repository.fullName)
  let written := setupRow platform ((found.map (·.id)).getD newId) workspaceId now repository
  if !written.fits || rows.any (·.collides written) then none
  else match found with
  | none => some (rows ++ [written])
  | some row => some (rows.map fun other => if other.id = row.id then written else other)

/-- The names that the live sync takes: `_safe_repo_part`. -/
def safeRepoPart (value : Str) : Option Str :=
  let part := Str.strip value
  if part = [] ∨ part.head? = some 46 ∨ part.getLast? = some 46 ∨ [46, 46] <:+: part ∨
      part.any Str.isSpace then none
  else if part.all fun c => platform.isAlnum c || c == 46 || c == 95 || c == 45 then
    some (part.take 100)
  else none

def normalizeRepositoryFullName : Value → Option Str
  | .str text =>
    let whole := Str.strip text
    let rawName := whole.dropWhile (· != 47)
    if rawName = [] then none
    else do
      let owner ← safeRepoPart platform (whole.takeWhile (· != 47))
      let name ← safeRepoPart platform (rawName.drop 1)
      some (owner ++ 47 :: name)
  | _ => none

/-- `_repository_full_name` of the normalisation. -/
def repositoryFullName (repo : Object) : Str :=
  ((Connectors.safeText 1000 (get repo "full_name")).or
    (Connectors.safeText 1000 (get repo "name"))).getD (Str.of "unknown")

def repositoryExternalId (repo : Object) : Str :=
  (((Connectors.safeText 255 (get repo "external_id")).or
    (Connectors.safeText 255 (get repo "full_name"))).or
      (Connectors.safeText 255 (get repo "name"))).getD (Str.of "unknown")

end writers

section names

variable {value : Value} {text part : Str}

theorem safeText_spec {limit : Nat} (h : Connectors.safeText limit value = some text) :
    text.length ≤ limit := by
  cases value with
  | str whole =>
    simp only [Connectors.safeText] at h
    split at h
    · cases h
    · cases h
      exact List.length_take_le ..
  | _ => cases h

theorem repositoryPart_iff : repositoryPart part = true ↔
    part ≠ [] ∧ part ≠ Str.of "." ∧ part ≠ Str.of ".." ∧ ∀ c ∈ part, repositoryChar c = true := by
  simp [repositoryPart, and_assoc]

/-- Of the characters that a setup lets through, the contract asks more of the first. -/
theorem namePart_iff (h : repositoryPart part = true) :
    namePart part = true ↔ part.head?.any nameChar = true ∧ part.length ≤ 255 := by
  obtain ⟨-, -, -, hchars⟩ := repositoryPart_iff.1 h
  have htail : (part.tail.all fun c => nameChar c || c == 95 || c == 46 || c == 45) = true :=
    List.all_eq_true.2 fun c hc => hchars c (List.mem_of_mem_tail hc)
  simp [namePart, htail]

/-- Which of the names that a setup stores the contract takes. -/
theorem setup_name_admitted_iff (h : safeRepositoryFullName value = some text) :
    (lengthWithin 3 500 text = true ∧ gitHubFullName text = true) ↔
      ∀ part ∈ text.splitOn 47, part.head?.any nameChar = true ∧ part.length ≤ 255 := by
  obtain ⟨hread, hparts⟩ := Option.filter_eq_some_iff.1 h
  split at hparts
  · rename_i owner name hsplit
    rw [Bool.and_eq_true] at hparts
    have hjoined : [47].intercalate (text.splitOn 47) = text := List.intercalate_splitOn 47
    have howner := (repositoryPart_iff.1 hparts.1).1
    have hname := (repositoryPart_iff.1 hparts.2).1
    have hlength : lengthWithin 3 500 text = true := by
      have hmost := safeText_spec hread
      have hleast : 3 ≤ text.length := by
        rw [← hjoined, hsplit, List.intercalate_cons_cons, List.intercalate_singleton]
        have := List.length_pos_iff.2 howner
        have := List.length_pos_iff.2 hname
        simp only [List.length_append, List.length_singleton]
        omega
      simp [lengthWithin, hleast, hmost]
    rw [hsplit, gitHubFullName, hsplit]
    simp [hlength, namePart_iff hparts.1, namePart_iff hparts.2]
  · cases hparts

end names

section rendered

variable {Digest : Type} {rules : L0Rules Digest} {collate : Str → Str → Bool}
  {store : CanonicalStore} {workspaceId : Uuid}

theorem l0_renders_iff :
    (∃ results, buildWorkspaceRepositoryIntelligenceL0 rules collate store workspaceId =
        .ok results ∧
        ∀ repository ∈ store.repositoriesOf workspaceId, ∃ payload ∈ results,
          payload.repositoryId = repository.id ∧ payload.valid rules.toEvidenceRules = true) ↔
      (store.repositoriesOf workspaceId).length ≤ repositoryIntelligenceL0MaxRepositories ∧
        ∀ repository ∈ store.repositoriesOf workspaceId,
          repository.Admitted rules (store.recordOf repository) := by
  rw [← build_ok_iff]
  constructor
  · rintro ⟨results, hbuild, -⟩
    exact ⟨results, hbuild⟩
  · rintro ⟨results, hbuild⟩
    exact ⟨results, hbuild, fun _ hmem => build_renders hbuild hmem⟩

def sampleL0Rules : L0Rules (List Fields) where
  toEvidenceRules := asciiRules
  plainUrl _ := true
  repositoryDigest _ := List.replicate 64 48
  recordDigest _ := List.replicate 64 48
  repositoryDigest_hex _ := by decide
  recordDigest_hex _ := by decide

def samplePlatform : GitHubSetup.Platform where
  foldTable c := [c]
  isDigit text := text.all isDigit
  isAlnum := nameChar
  isIsoformat _ := true

/-- What GitHub lists: the repository of an organisation's defaults, and a service. -/
def sampleListing : List Object :=
  [[(Str.of "id", .num (Str.of "11")), (Str.of "full_name", .str (Str.of "acme/.github"))],
    [(Str.of "id", .num (Str.of "12")), (Str.of "full_name", .str (Str.of "acme/api"))]]

def sampleStored (names : List Object) : List CanonicalRepository :=
  (((normalizeProviderRepositories samplePlatform names).zipIdx).foldl (fun rows entry =>
    (upsertSetupRepository samplePlatform
      (sampleUuid ⟨entry.2 % 10, Nat.mod_lt _ (Nat.zero_lt_succ 9)⟩) sampleWorkspace [] rows
      entry.1).getD rows) [])

def sampleStore (listing : List Object) : CanonicalStore :=
  ⟨sampleStored listing, [], fun _ h => absurd h List.not_mem_nil⟩

theorem sampleListing_sorted : normalizeProviderRepositories samplePlatform sampleListing =
    collectRepositories samplePlatform sampleListing [] :=
  List.mergeSort_of_pairwise (of_decide_eq_true rfl)

theorem dot_github_fails_portfolio :
    ((sampleStore sampleListing).repositoriesOf sampleWorkspace).map (·.fullName) =
        [Str.of "acme/.github", Str.of "acme/api"] ∧
      (∃ results, buildWorkspaceRepositoryIntelligenceL0 sampleL0Rules Str.le
        (sampleStore (sampleListing.drop 1)) sampleWorkspace = .ok results) ∧
      ¬∃ results, buildWorkspaceRepositoryIntelligenceL0 sampleL0Rules Str.le
        (sampleStore sampleListing) sampleWorkspace = .ok results := by
  have hnames : ((sampleStore sampleListing).repositoriesOf sampleWorkspace).map (·.fullName) =
      [Str.of "acme/.github", Str.of "acme/api"] := by
    rw [CanonicalStore.repositoriesOf, sampleStore, sampleStored, sampleListing_sorted]
    decide +kernel
  refine ⟨hnames, build_ok_iff.2 ⟨by decide +kernel, fun repository hmem => ?_⟩, fun hbuild => ?_⟩
  · have hrow : ((sampleStore (sampleListing.drop 1)).repositoriesOf sampleWorkspace).all
        (fun repository => (shortText repository.externalId && safe repository.externalId) &&
          (lengthWithin 3 500 repository.fullName && gitHubFullName repository.fullName)) =
          true := by
      decide +kernel
    have hfields := List.all_eq_true.1 hrow repository hmem
    simp only [Bool.and_eq_true] at hfields
    exact ⟨hfields.1, hfields.2, fun hcited => (Bool.false_ne_true hcited).elim⟩
  · obtain ⟨-, hall⟩ := build_ok_iff.1 hbuild
    have hdot : Str.of "acme/.github" ∈
        ((sampleStore sampleListing).repositoriesOf sampleWorkspace).map (·.fullName) := by
      rw [hnames]
      exact List.mem_cons_self
    obtain ⟨repository, hmem, hname⟩ := List.mem_map.1 hdot
    have hmatch := (hall repository hmem).fullName.2
    rw [hname] at hmatch
    exact absurd hmatch (by decide +kernel)

end rendered

end FounderOs.RepositoryAudit
