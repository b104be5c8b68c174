import Mathlib.Data.List.Nodup
import FounderOs.Foundation.Transition
import FounderOs.RepositoryAudit.Writers

namespace FounderOs.RepositoryAudit

open Headquarters Proposals GitHubSetup

/-- The driver sends a text as UTF-8, and the database takes every character but NUL. -/
def CanonicalRepository.writable (row : CanonicalRepository) : Bool :=
  row.fits && ([row.externalId, row.name, row.fullName] ++ row.defaultBranch.toList ++
    row.sourceUrl.toList).all fun text => Str.encodable text && !text.contains 0

/-- Why an upsert does not come back: the database refuses a statement, or the row that an insert
ran into is not found. -/
inductive UpsertError where
  | database
  | unresolved
  deriving DecidableEq

structure StoredRepository where
  rows : List CanonicalRepository
  repository : CanonicalRepository
  created : Bool

namespace Normalization

section writers

variable (platform : GitHubSetup.Platform)

def safeUrl (value : Value) : Option Str := (Connectors.safeText 1000 value).filter (!·.contains 64)

def removeGit (text : Str) : Str :=
  if Str.of ".git" <:+ text then text.take (text.length - 4) else text

/-- `$` of the pattern matches before a last line feed as well. -/
def safeRepoPart (value : Str) : Option Str :=
  ((Connectors.safeText 1000 (.str value)).map removeGit).filter fun text =>
    let line := if text.getLast? = some 10 then text.dropLast else text
    !line.isEmpty && line.all repositoryChar

def safeFullName (value : Str) : Option Str :=
  (Connectors.safeText 1000 (.str value)).bind fun text =>
    match (removeGit text).splitOn 47 with
    | [owner, repo] => do
      let owner ← safeRepoPart owner
      let repo ← safeRepoPart repo
      some (owner ++ 47 :: repo)
    | _ => none

def repositoryUrlFromFullName (fullName : Str) : Option Str :=
  (safeFullName fullName).map (Str.of "https://github.com/" ++ ·)

def repositoryName (repo : Object) : Str :=
  match Connectors.safeText 1000 (get repo "name") with
  | some name => name
  | none =>
    let last := lastPart (repositoryFullName repo)
    if last = [] then Str.of "unknown" else last

def repositoryVisibility (value : Value) : Option Str :=
  (Connectors.safeText 1000 value).filter visibilities.contains

def parseOptionalDatetime (value : Value) : Option Str :=
  (Connectors.safeText 1000 value).filter fun text =>
    platform.isIsoformat (text.flatMap fun c => if c = 90 then Str.of "+00:00" else [c])

/-- The columns that an insert sets. -/
def mutableRow (id workspaceId : Uuid) (now : Str) (repo : Object) (externalId : Str) :
    CanonicalRepository where
  id := id
  workspaceId := workspaceId
  externalId := externalId
  name := repositoryName repo
  fullName := repositoryFullName repo
  defaultBranch := Connectors.safeText 1000 (get repo "default_branch")
  visibility := repositoryVisibility (get repo "visibility")
  archived := Connectors.truthy (get repo "archived")
  sourceUrl := safeUrl (get repo "source_url")
  lastActivityAt := parseOptionalDatetime platform (get repo "last_activity_at")
  updatedAt := now

def ofName (workspaceId : Uuid) (fullName : Str) (row : CanonicalRepository) : Bool :=
  row.workspaceId == workspaceId && row.fullName == fullName

def ofId (workspaceId : Uuid) (externalId : Str) (row : CanonicalRepository) : Bool :=
  row.workspaceId == workspaceId && row.externalId == externalId

/-- The row of the full name comes before the row of the external id. Each is one row at most, so
the times and the id decide nothing in the order. -/
def existingRow (rows : List CanonicalRepository) (workspaceId : Uuid)
    (externalId fullName : Str) : Option CanonicalRepository :=
  (rows.find? (ofName workspaceId fullName)).or (rows.find? (ofId workspaceId externalId))

/-- What the update makes of the row that is there. The full name in place of an external id does
not overwrite the one that is known. -/
def updatedRow (existing values : CanonicalRepository) : CanonicalRepository :=
  { values with
    id := existing.id
    externalId :=
      if values.externalId = values.fullName then existing.externalId else values.externalId }

/-- `_upsert_repository`. -/
def upsertRepository (newId workspaceId : Uuid) (now : Str) (rows : List CanonicalRepository)
    (repo : Object) (externalId : Str) : Except UpsertError StoredRepository :=
  let values := mutableRow platform newId workspaceId now repo externalId
  if !values.writable then .error .database
  else if !rows.any (·.collides values) then .ok ⟨rows ++ [values], values, true⟩
  else match existingRow rows workspaceId externalId values.fullName with
  | none => .error .unresolved
  | some existing =>
    let updated := updatedRow existing values
    if rows.any (·.collides updated) then .error .database
    else .ok ⟨rows.map fun other => if other.id = existing.id then updated else other,
      updated, false⟩

def workItemFullName (record : Object) : Str :=
  (Connectors.safeText 1000 (get record "repository_full_name")).getD (Str.of "unknown")

/-- The repository that is made up for a work item. -/
def workItemRepository (fullName : Str) : Object :=
  [(Str.of "external_id", .str fullName), (Str.of "name", .str (lastPart fullName)),
    (Str.of "full_name", .str fullName), (Str.of "visibility", .str (Str.of "private")),
    (Str.of "source_url", Connectors.optional (repositoryUrlFromFullName fullName))]

/-- `_ensure_repository_for_work_item`. -/
def ensureRepositoryForWorkItem (newId workspaceId : Uuid) (now : Str)
    (rows : List CanonicalRepository) (record : Object) : Except UpsertError StoredRepository :=
  match rows.find? (ofName workspaceId (workItemFullName record)) with
  | some repository => .ok ⟨rows, repository, false⟩
  | none => upsertRepository platform newId workspaceId now rows
      (workItemRepository (workItemFullName record)) (workItemFullName record)

end writers

end Normalization

open Normalization

/-- The three writers of `repositories`, with what each is given. -/
inductive Upsert where
  | sync (repo : Object)
  | workItem (record : Object)
  | setup (repository : SetupRepository)

namespace Upsert

def externalId : Upsert → Str
  | sync repo => repositoryExternalId repo
  | workItem record => workItemFullName record
  | setup repository => repository.id

def fullName : Upsert → Str
  | sync repo => repositoryFullName repo
  | workItem record => workItemFullName record
  | setup repository => repository.fullName

/-- The external id that comes with the repository; the full name in its place says that there is
none. -/
def given : Upsert → Option Str
  | sync repo =>
    (Connectors.safeText 255 (get repo "external_id")).filter (· ≠ repositoryFullName repo)
  | workItem _ => none
  | setup repository => some repository.id

section run

variable (platform : GitHubSetup.Platform) (newId workspaceId : Uuid) (now : Str)

/-- The row as an insert would write it. -/
def row : Upsert → CanonicalRepository
  | sync repo => mutableRow platform newId workspaceId now repo (repositoryExternalId repo)
  | workItem record => mutableRow platform newId workspaceId now
      (workItemRepository (workItemFullName record)) (workItemFullName record)
  | setup repository => setupRow platform newId workspaceId now repository

/-- The table that a call commits. What the setup writes goes through the same driver. -/
def run (rows : List CanonicalRepository) : Upsert → Except UpsertError (List CanonicalRepository)
  | sync repo => (upsertRepository platform newId workspaceId now rows repo
      (repositoryExternalId repo)).map (·.rows)
  | workItem record =>
    (ensureRepositoryForWorkItem platform newId workspaceId now rows record).map (·.rows)
  | setup repository =>
    if (setupRow platform newId workspaceId now repository).writable then
      (upsertSetupRepository platform newId workspaceId now rows repository).elim
        (.error .database) .ok
    else .error .database

end run

end Upsert

/-- What the primary key and the two unique constraints leave. -/
structure Unique (rows : List CanonicalRepository) : Prop where
  ids : (rows.map (·.id)).Nodup
  apart : ∀ row ∈ rows, ∀ other ∈ rows, row.collides other = false

/-- One row of the workspace has the external id and another one the full name. -/
def Crossed (rows : List CanonicalRepository) (workspaceId : Uuid) (externalId fullName : Str) :
    Prop :=
  ∃ row ∈ rows, ∃ other ∈ rows, ofId workspaceId externalId row = true ∧
    ofName workspaceId fullName other = true ∧ row ≠ other

/-- Nothing stands in the way of a call: the columns hold what it writes, and no two rows have the
external id and the full name between them. The full name alone cannot be in two rows, and a work
item writes nothing if a row has it. -/
def Upsert.Clear (platform : GitHubSetup.Platform) (newId workspaceId : Uuid) (now : Str)
    (rows : List CanonicalRepository) (call : Upsert) : Prop :=
  match call with
  | .sync repo => (call.row platform newId workspaceId now).writable = true ∧
      (repositoryExternalId repo ≠ repositoryFullName repo →
        ¬Crossed rows workspaceId (repositoryExternalId repo) (repositoryFullName repo))
  | .workItem record => (∃ row ∈ rows, ofName workspaceId (workItemFullName record) row = true) ∨
      (call.row platform newId workspaceId now).writable = true
  | .setup repository => (call.row platform newId workspaceId now).writable = true ∧
      ¬Crossed rows workspaceId repository.id repository.fullName

/-- A row of the workspace has the full name, and it is the only one with the given external id. -/
def Settled (rows : List CanonicalRepository) (workspaceId : Uuid) (fullName : Str)
    (given : Option Str) : Prop :=
  ∃ row ∈ rows, ofName workspaceId fullName row = true ∧
    ∀ externalId ∈ given, rows.filter (ofId workspaceId externalId) = [row]

section table

variable {rows : List CanonicalRepository} {row other updated : CanonicalRepository}
  {workspaceId : Uuid} {externalId fullName : Str}

theorem ofName_iff : ofName workspaceId fullName row = true ↔
    row.workspaceId = workspaceId ∧ row.fullName = fullName := by
  simp [ofName]

theorem ofId_iff : ofId workspaceId externalId row = true ↔
    row.workspaceId = workspaceId ∧ row.externalId = externalId := by
  simp [ofId]

theorem held_iff : (row.workspaceId == workspaceId &&
    (row.externalId == externalId || row.fullName == fullName)) = true ↔
      ofId workspaceId externalId row = true ∨ ofName workspaceId fullName row = true := by
  rw [ofId_iff, ofName_iff]
  simp only [Bool.and_eq_true, Bool.or_eq_true, beq_iff_eq]
  tauto

theorem collides_iff : row.collides other = true ↔
    row.id ≠ other.id ∧ (ofId other.workspaceId other.externalId row = true ∨
      ofName other.workspaceId other.fullName row = true) := by
  simp only [CanonicalRepository.collides, ofId, ofName, Bool.and_eq_true, Bool.or_eq_true,
    bne_iff_ne, beq_iff_eq]
  tauto

theorem collides_comm : row.collides other = other.collides row := by
  rw [Bool.eq_iff_iff]
  simp only [CanonicalRepository.collides, Bool.and_eq_true, Bool.or_eq_true, bne_iff_ne,
    beq_iff_eq, ne_comm (a := row.id), eq_comm (a := row.workspaceId),
    eq_comm (a := row.externalId), eq_comm (a := row.fullName)]

namespace Unique

variable (h : Unique rows)

include h

theorem eq_of_id (hrow : row ∈ rows) (hother : other ∈ rows) (hid : row.id = other.id) :
    row = other :=
  List.inj_on_of_nodup_map h.ids hrow hother hid

theorem eq_of_ofId (hrow : row ∈ rows) (hother : other ∈ rows)
    (hid : ofId workspaceId externalId row = true)
    (hid' : ofId workspaceId externalId other = true) : row = other := by
  by_contra hne
  obtain ⟨rfl, rfl⟩ := ofId_iff.1 hid'
  have hcollides : row.collides other = true :=
    collides_iff.2 ⟨fun heq => hne (h.eq_of_id hrow hother heq), .inl hid⟩
  exact Bool.false_ne_true ((h.apart row hrow other hother).symm.trans hcollides)

theorem eq_of_ofName (hrow : row ∈ rows) (hother : other ∈ rows)
    (hname : ofName workspaceId fullName row = true)
    (hname' : ofName workspaceId fullName other = true) : row = other := by
  by_contra hne
  obtain ⟨rfl, rfl⟩ := ofName_iff.1 hname'
  have hcollides : row.collides other = true :=
    collides_iff.2 ⟨fun heq => hne (h.eq_of_id hrow hother heq), .inr hname⟩
  exact Bool.false_ne_true ((h.apart row hrow other hother).symm.trans hcollides)

/-- What an update of one of the two rows runs into is the other one. -/
theorem blocked_iff (hrow : row ∈ rows)
    (hheld : ofId workspaceId externalId row = true ∨ ofName workspaceId fullName row = true) :
    (∃ other ∈ rows, other.id ≠ row.id ∧ (ofId workspaceId externalId other = true ∨
        ofName workspaceId fullName other = true)) ↔
      Crossed rows workspaceId externalId fullName := by
  constructor
  · rintro ⟨other, hother, hne, hholds⟩
    have hother_ne : other ≠ row := fun heq => hne (congrArg (·.id) heq)
    rcases hheld with hid | hname <;> rcases hholds with hid' | hname'
    · exact absurd (h.eq_of_ofId hother hrow hid' hid) hother_ne
    · exact ⟨row, hrow, other, hother, hid, hname', hother_ne.symm⟩
    · exact ⟨other, hother, row, hrow, hid', hname, hother_ne⟩
    · exact absurd (h.eq_of_ofName hother hrow hname' hname) hother_ne
  · rintro ⟨first, hfirst, second, hsecond, hid', hname', hne⟩
    rcases hheld with hid | hname
    · obtain rfl := h.eq_of_ofId hfirst hrow hid' hid
      exact ⟨second, hsecond, fun heq => hne (h.eq_of_id hsecond hfirst heq).symm, .inr hname'⟩
    · obtain rfl := h.eq_of_ofName hsecond hrow hname' hname
      exact ⟨first, hfirst, fun heq => hne (h.eq_of_id hfirst hsecond heq), .inl hid'⟩

theorem filter_ofId (hrow : row ∈ rows)
    (hid : ofId workspaceId externalId row = true) :
    rows.filter (ofId workspaceId externalId) = [row] := by
  refine List.perm_singleton.1 ((List.perm_ext_iff_of_nodup ?_ (List.nodup_singleton row)).2 ?_)
  · exact (List.Nodup.of_map _ h.ids).filter _
  · intro other
    rw [List.mem_filter, List.mem_singleton]
    constructor
    · rintro ⟨hother, hid'⟩
      exact h.eq_of_ofId hother hrow hid' hid
    · rintro rfl
      exact ⟨hrow, hid⟩

theorem append (hfresh : ∀ other ∈ rows, other.id ≠ row.id)
    (hfree : ∀ other ∈ rows, other.collides row = false) : Unique (rows ++ [row]) := by
  refine ⟨?_, ?_⟩
  · rw [List.map_append, List.nodup_append]
    refine ⟨h.ids, List.nodup_singleton _, ?_⟩
    intro id hid id' hid'
    obtain ⟨other, hother, rfl⟩ := List.mem_map.1 hid
    rw [List.mem_singleton.1 hid']
    exact hfresh other hother
  · have hself : row.collides row = false := by simp [CanonicalRepository.collides]
    intro first hfirst second hsecond
    rcases List.mem_append.1 hfirst with hfirst | hfirst <;>
      rcases List.mem_append.1 hsecond with hsecond | hsecond
    · exact h.apart first hfirst second hsecond
    · rw [List.mem_singleton.1 hsecond]
      exact hfree first hfirst
    · rw [List.mem_singleton.1 hfirst, collides_comm]
      exact hfree second hsecond
    · rw [List.mem_singleton.1 hfirst, List.mem_singleton.1 hsecond]
      exact hself

theorem replace (hid : updated.id = row.id)
    (hfree : ∀ other ∈ rows, other.collides updated = false) :
    Unique (rows.map fun other => if other.id = row.id then updated else other) := by
  refine ⟨?_, ?_⟩
  · have hids : (rows.map fun other => if other.id = row.id then updated else other).map (·.id) =
        rows.map (·.id) := by
      rw [List.map_map]
      refine List.map_congr_left fun other _ => ?_
      dsimp only [Function.comp_apply]
      split_ifs with heq
      · exact hid.trans heq.symm
      · rfl
    rw [hids]
    exact h.ids
  · have hself : updated.collides updated = false := by simp [CanonicalRepository.collides]
    intro first hfirst second hsecond
    obtain ⟨before, hbefore, rfl⟩ := List.mem_map.1 hfirst
    obtain ⟨before', hbefore', rfl⟩ := List.mem_map.1 hsecond
    split_ifs
    · exact hself
    · rw [collides_comm]
      exact hfree before' hbefore'
    · exact hfree before hbefore
    · exact h.apart before hbefore before' hbefore'

theorem settled {given : Option Str} (hrow : row ∈ rows)
    (hname : ofName workspaceId fullName row = true)
    (hgiven : ∀ externalId ∈ given, ofId workspaceId externalId row = true) :
    Settled rows workspaceId fullName given :=
  ⟨row, hrow, hname, fun externalId hmem => h.filter_ofId hrow (hgiven externalId hmem)⟩

end Unique

theorem mem_replace (hrow : row ∈ rows) :
    updated ∈ rows.map fun other => if other.id = row.id then updated else other :=
  List.mem_map.2 ⟨row, hrow, if_pos rfl⟩

theorem any_collides_iff : (rows.any fun other => other.collides updated) = true ↔
    ∃ other ∈ rows, other.id ≠ updated.id ∧
      (ofId updated.workspaceId updated.externalId other = true ∨
        ofName updated.workspaceId updated.fullName other = true) := by
  simp only [List.any_eq_true, collides_iff]

theorem free_of_any (hfree : ¬(rows.any fun other => other.collides updated) = true) :
    ∀ other ∈ rows, other.collides updated = false := by
  simpa only [List.any_eq_true, not_exists, not_and, Bool.not_eq_true] using hfree

theorem not_crossed_of_free (hfresh : ∀ other ∈ rows, other.id ≠ updated.id)
    (hfree : ¬(rows.any fun other => other.collides updated) = true) :
    ¬Crossed rows updated.workspaceId updated.externalId updated.fullName := by
  rintro ⟨first, hfirst, -, -, hid, -, -⟩
  exact hfree (any_collides_iff.2 ⟨first, hfirst, hfresh first hfirst, .inl hid⟩)

theorem existingRow_spec {existing : CanonicalRepository}
    (hsome : existingRow rows workspaceId externalId fullName = some existing) :
    existing ∈ rows ∧ (ofName workspaceId fullName existing = true ∨
      ofId workspaceId externalId existing = true ∧
        ∀ other ∈ rows, ¬ofName workspaceId fullName other = true) := by
  rw [existingRow, Option.or_eq_some_iff] at hsome
  rcases hsome with hname | ⟨hnone, hid⟩
  · exact ⟨List.mem_of_find?_eq_some hname, .inl (List.find?_some hname)⟩
  · exact ⟨List.mem_of_find?_eq_some hid,
      .inr ⟨List.find?_some hid, List.find?_eq_none.1 hnone⟩⟩

theorem existingRow_of_blocked (h : ∃ other ∈ rows,
    ofId workspaceId externalId other = true ∨ ofName workspaceId fullName other = true) :
    existingRow rows workspaceId externalId fullName ≠ none := by
  intro hnone
  obtain ⟨hname, hid⟩ := Option.or_eq_none_iff.1 hnone
  obtain ⟨other, hother, hheld | hheld⟩ := h
  · exact List.find?_eq_none.1 hid other hother hheld
  · exact List.find?_eq_none.1 hname other hother hheld

end table

section spec

variable {platform : GitHubSetup.Platform} {newId workspaceId : Uuid} {now : Str}
  {rows : List CanonicalRepository} {repo : Object} {externalId fullName : Str}

/-- What a call of `_upsert_repository` leaves behind when it comes back. -/
structure Stored (upserted : StoredRepository) (workspaceId : Uuid) (externalId fullName : Str) :
    Prop where
  unique : Unique upserted.rows
  mem : upserted.repository ∈ upserted.rows
  ofName : ofName workspaceId fullName upserted.repository = true
  ofId : externalId ≠ fullName →
    ofId workspaceId externalId upserted.repository = true

/-- The update runs into another row exactly if there are two identities and they are crossed. -/
theorem update_blocked_iff (h : Unique rows) {existing v : CanonicalRepository}
    (hfound : existingRow rows v.workspaceId v.externalId v.fullName =
      some existing) :
    (rows.any fun other => other.collides (updatedRow existing v)) = true ↔
      v.externalId ≠ v.fullName ∧
        Crossed rows v.workspaceId v.externalId v.fullName := by
  obtain ⟨hmem, hheld⟩ := existingRow_spec hfound
  rw [any_collides_iff]
  simp only [updatedRow]
  split_ifs with heq
  · refine iff_of_false ?_ (fun hne => hne.1 heq)
    rintro ⟨other, hother, hne, hholds | hholds⟩
    · have hhere : existing.workspaceId = v.workspaceId :=
        hheld.elim (fun hname => (ofName_iff.1 hname).1) fun hid => (ofId_iff.1 hid.1).1
      exact hne (congrArg (·.id)
        (h.eq_of_ofId hother hmem hholds (ofId_iff.2 ⟨hhere, rfl⟩)))
    · rcases hheld with hname | ⟨-, hnone⟩
      · exact hne (congrArg (·.id) (h.eq_of_ofName hother hmem hholds hname))
      · exact hnone other hother hholds
  · rw [h.blocked_iff hmem (hheld.symm.imp And.left id)]
    exact ⟨fun hcrossed => ⟨heq, hcrossed⟩, And.right⟩

variable (platform newId workspaceId now rows repo externalId) in
/-- An insert that runs into a row finds one: the third outcome of the code, that there is none,
does not come up. -/
theorem upsertRepository_cases :
    let values := mutableRow platform newId workspaceId now repo externalId
    (values.writable = false ∧
        upsertRepository platform newId workspaceId now rows repo externalId = .error .database) ∨
      (values.writable = true ∧ ¬(rows.any fun other => other.collides values) = true ∧
        upsertRepository platform newId workspaceId now rows repo externalId =
          .ok ⟨rows ++ [values], values, true⟩) ∨
      ∃ existing, values.writable = true ∧
        existingRow rows workspaceId externalId values.fullName = some existing ∧
        upsertRepository platform newId workspaceId now rows repo externalId =
          if rows.any fun other => other.collides (updatedRow existing values) then
            .error .database
          else .ok ⟨rows.map fun other =>
            if other.id = existing.id then updatedRow existing values else other,
            updatedRow existing values, false⟩ := by
  intro values
  unfold upsertRepository
  by_cases hwritable : values.writable = true
  · by_cases hblocked : (rows.any fun other => other.collides values) = true
    · obtain ⟨other, hother, -, hheld⟩ := any_collides_iff.1 hblocked
      obtain ⟨existing, hfound⟩ :=
        Option.ne_none_iff_exists'.1 (existingRow_of_blocked ⟨other, hother, hheld⟩)
      refine .inr (.inr ⟨existing, hwritable, hfound, ?_⟩)
      have hfound' : existingRow rows workspaceId externalId values.fullName = some existing :=
        hfound
      simp only [values, hwritable, hblocked, hfound', Bool.not_true, Bool.false_eq_true, if_false]
    · refine .inr (.inl ⟨hwritable, hblocked, ?_⟩)
      simp only [values, hwritable, hblocked, Bool.not_true, Bool.not_false, Bool.false_eq_true,
        if_false, if_true]
  · have hrefused := Bool.not_eq_true _ ▸ hwritable
    refine .inl ⟨hrefused, ?_⟩
    simp only [values, hrefused, Bool.not_false, if_true]

/-- `_upsert_repository` comes back exactly if the columns hold what it writes and, where it is
given an external id beside the full name, no two rows have one of them each. -/
theorem upsertRepository_ok_iff (h : Unique rows) (hfresh : ∀ row ∈ rows, row.id ≠ newId) :
    (∃ upserted,
        upsertRepository platform newId workspaceId now rows repo externalId = .ok upserted) ↔
      (mutableRow platform newId workspaceId now repo externalId).writable = true ∧
        (externalId ≠ repositoryFullName repo →
          ¬Crossed rows workspaceId externalId (repositoryFullName repo)) := by
  rcases upsertRepository_cases platform newId workspaceId now rows repo externalId with
    ⟨hrefused, heq⟩ | ⟨hwritable, hfree, heq⟩ | ⟨existing, hwritable, hfound, heq⟩
  · rw [heq, hrefused]
    exact iff_of_false (fun ⟨_, hok⟩ => nomatch hok) fun hclear => Bool.false_ne_true hclear.1
  · rw [heq]
    exact iff_of_true ⟨_, rfl⟩ ⟨hwritable, fun _ => not_crossed_of_free hfresh hfree⟩
  · have hiff := update_blocked_iff (v := mutableRow platform newId workspaceId now repo externalId)
      h hfound
    rw [heq]
    split_ifs with hblocked
    · obtain ⟨hne, hcrossed⟩ := hiff.1 hblocked
      exact iff_of_false (fun ⟨_, hok⟩ => nomatch hok) fun hclear => hclear.2 hne hcrossed
    · exact iff_of_true ⟨_, rfl⟩ ⟨hwritable, fun hne hcrossed => hblocked (hiff.2 ⟨hne, hcrossed⟩)⟩

theorem upsertRepository_stored (h : Unique rows) (hfresh : ∀ row ∈ rows, row.id ≠ newId)
    {upserted : StoredRepository}
    (hok : upsertRepository platform newId workspaceId now rows repo externalId = .ok upserted) :
    Stored upserted workspaceId externalId (repositoryFullName repo) := by
  rcases upsertRepository_cases platform newId workspaceId now rows repo externalId with
    ⟨-, heq⟩ | ⟨-, hfree, heq⟩ | ⟨existing, -, hfound, heq⟩
  · rw [heq] at hok
    cases hok
  · rw [heq] at hok
    cases hok
    exact ⟨h.append hfresh (free_of_any hfree), List.mem_append_right _ List.mem_cons_self,
      ofName_iff.2 ⟨rfl, rfl⟩, fun _ => ofId_iff.2 ⟨rfl, rfl⟩⟩
  · rw [heq] at hok
    split_ifs at hok with hblocked
    cases hok
    exact ⟨h.replace rfl (free_of_any hblocked), mem_replace (existingRow_spec hfound).1,
      ofName_iff.2 ⟨rfl, rfl⟩, fun hne => ofId_iff.2 ⟨rfl, if_neg hne⟩⟩

theorem strip_of_safeText {limit : Nat} {value : Value} {text : Str}
    (h : Connectors.safeText limit value = some text) (hshort : text.length < limit) :
    Str.strip text = text ∧ text ≠ [] := by
  cases value with
  | str whole =>
    simp only [Connectors.safeText] at h
    split_ifs at h with hblank
    have htake : (Str.strip whole).take limit = text := Option.some.inj h
    have hwhole : (Str.strip whole).length ≤ limit := by
      by_contra hlong
      rw [← htake, List.length_take_of_le (by omega)] at hshort
      exact Nat.lt_irrefl _ hshort
    rw [List.take_of_length_le hwhole] at htake
    exact htake ▸ ⟨Str.strip_strip whole, hblank⟩
  | _ => cases h

theorem workItemFullName_plain {record : Object}
    (hshort : (workItemFullName record).length < 1000) :
    repositoryFullName (workItemRepository (workItemFullName record)) =
      workItemFullName record := by
  have hplain : Str.strip (workItemFullName record) = workItemFullName record ∧
      workItemFullName record ≠ [] := by
    unfold workItemFullName at hshort ⊢
    cases htext : Connectors.safeText 1000 (get record "repository_full_name") with
    | none => exact ⟨by decide, by decide⟩
    | some text =>
      rw [htext] at hshort
      exact strip_of_safeText htext hshort
  have hread : get (workItemRepository (workItemFullName record)) "full_name" =
      .str (workItemFullName record) := rfl
  rw [repositoryFullName, hread, Connectors.safeText, hplain.1, if_neg hplain.2,
    List.take_of_length_le (Nat.le_of_lt hshort)]
  rfl

theorem length_of_writable {row : CanonicalRepository} (h : row.writable = true) :
    row.externalId.length ≤ 255 := by
  simp only [CanonicalRepository.writable, CanonicalRepository.fits, Bool.and_eq_true,
    decide_eq_true_eq] at h
  exact h.1.1.1.1.1

/-- What a call leaves behind: one row with both identities in a table that the constraints
allow. -/
def Upsert.Meets (call : Upsert) (workspaceId : Uuid) (rows : List CanonicalRepository) : Prop :=
  Unique rows ∧ Settled rows workspaceId call.fullName call.given

theorem sync_spec (h : Unique rows) (hfresh : ∀ row ∈ rows, row.id ≠ newId) (repo : Object) :
    ((∃ rows', (Upsert.sync repo).run platform newId workspaceId now rows = .ok rows') ↔
        (Upsert.sync repo).Clear platform newId workspaceId now rows) ∧
      ∀ rows', (Upsert.sync repo).run platform newId workspaceId now rows = .ok rows' →
        (Upsert.sync repo).Meets workspaceId rows' := by
  refine ⟨Iff.trans ?_ (upsertRepository_ok_iff h hfresh), fun rows' hrun => ?_⟩
  · constructor
    · rintro ⟨rows', hrun⟩
      obtain ⟨upserted, hok, -⟩ := map_eq_ok hrun
      exact ⟨upserted, hok⟩
    · rintro ⟨upserted, hok⟩
      exact ⟨upserted.rows, congrArg (Except.map _) hok⟩
  · obtain ⟨upserted, hok, rfl⟩ := map_eq_ok hrun
    have hstored := upsertRepository_stored h hfresh hok
    refine ⟨hstored.unique, hstored.unique.settled hstored.mem hstored.ofName ?_⟩
    intro externalId hgiven
    obtain ⟨hread, hne⟩ := Option.filter_eq_some_iff.1 hgiven
    have hexternal : repositoryExternalId repo = externalId := by
      rw [repositoryExternalId, hread]
      rfl
    rw [← hexternal]
    refine hstored.ofId ?_
    rw [hexternal]
    exact of_decide_eq_true hne

theorem workItem_spec (h : Unique rows) (hfresh : ∀ row ∈ rows, row.id ≠ newId)
    (record : Object) :
    ((∃ rows', (Upsert.workItem record).run platform newId workspaceId now rows = .ok rows') ↔
        (Upsert.workItem record).Clear platform newId workspaceId now rows) ∧
      ∀ rows', (Upsert.workItem record).run platform newId workspaceId now rows = .ok rows' →
        (Upsert.workItem record).Meets workspaceId rows' := by
  have hnone : ∀ externalId ∈ (Upsert.workItem record).given, False :=
    fun externalId hmem => Option.not_mem_none externalId hmem
  simp only [Upsert.run, ensureRepositoryForWorkItem, Upsert.Clear]
  cases hfind : rows.find? (ofName workspaceId (workItemFullName record)) with
  | some repository =>
    have hmem := List.mem_of_find?_eq_some hfind
    have hname : ofName workspaceId (workItemFullName record) repository = true :=
      List.find?_some hfind
    refine ⟨iff_of_true ⟨rows, rfl⟩ (.inl ⟨repository, hmem, hname⟩), fun rows' hrun => ?_⟩
    obtain rfl : rows = rows' := Except.ok.inj hrun
    exact ⟨h, h.settled hmem hname fun externalId hgiven => (hnone externalId hgiven).elim⟩
  | none =>
    have hmissing : ¬∃ row ∈ rows, ofName workspaceId (workItemFullName record) row = true :=
      fun ⟨row, hrow, hname⟩ => List.find?_eq_none.1 hfind row hrow hname
    have hplain (hwritable : ((Upsert.workItem record).row platform newId workspaceId
        now).writable = true) : repositoryFullName (workItemRepository (workItemFullName record)) =
          workItemFullName record := by
      refine workItemFullName_plain ?_
      have hlength : (workItemFullName record).length ≤ 255 := length_of_writable hwritable
      omega
    have hiff : (∃ upserted, upsertRepository platform newId workspaceId now rows
        (workItemRepository (workItemFullName record)) (workItemFullName record) =
          .ok upserted) ↔ _ := upsertRepository_ok_iff h hfresh
    refine ⟨⟨?_, ?_⟩, fun rows' hrun => ?_⟩
    · rintro ⟨rows', hrun⟩
      obtain ⟨upserted, hok, -⟩ := map_eq_ok hrun
      exact .inr (hiff.1 ⟨upserted, hok⟩).1
    · intro hclear
      have hwritable := hclear.resolve_left hmissing
      obtain ⟨upserted, hok⟩ := hiff.2 ⟨hwritable, fun hne => absurd (hplain hwritable).symm hne⟩
      exact ⟨upserted.rows, congrArg (Except.map _) hok⟩
    · obtain ⟨upserted, hok, rfl⟩ := map_eq_ok hrun
      have hstored := upsertRepository_stored h hfresh hok
      have hname := hstored.ofName
      rw [hplain (hiff.1 ⟨upserted, hok⟩).1] at hname
      exact ⟨hstored.unique, hstored.unique.settled hstored.mem hname
        fun externalId hgiven => (hnone externalId hgiven).elim⟩

/-- The set-up may be shown either of the two rows; what it writes into one then runs into the
other. -/
theorem setup_found_spec (h : Unique rows) {row : CanonicalRepository}
    {repository : SetupRepository} (hmem : row ∈ rows)
    (hheld : ofId workspaceId repository.id row = true ∨
      ofName workspaceId repository.fullName row = true) :
    (rows.any fun other =>
        other.collides (setupRow platform row.id workspaceId now repository)) = true ↔
      Crossed rows workspaceId repository.id repository.fullName := by
  rw [any_collides_iff, ← h.blocked_iff hmem hheld]
  rfl

theorem setup_spec (h : Unique rows) (hfresh : ∀ row ∈ rows, row.id ≠ newId)
    (repository : SetupRepository) :
    ((∃ rows', (Upsert.setup repository).run platform newId workspaceId now rows = .ok rows') ↔
        (Upsert.setup repository).Clear platform newId workspaceId now rows) ∧
      ∀ rows', (Upsert.setup repository).run platform newId workspaceId now rows = .ok rows' →
        (Upsert.setup repository).Meets workspaceId rows' := by
  have hgiven {externalId : Str} {row : CanonicalRepository} (hmem : externalId ∈ (Upsert.setup
      repository).given) (hid : ofId workspaceId repository.id row = true) :
      ofId workspaceId externalId row = true := Option.some.inj hmem ▸ hid
  simp only [Upsert.run, Upsert.Clear, Upsert.row]
  cases hwritable : (setupRow platform newId workspaceId now repository).writable with
  | false => simp
  | true =>
    have hfits (id : Uuid) : (setupRow platform id workspaceId now repository).fits = true :=
      (Bool.and_eq_true_iff.1 hwritable).1
    simp only [if_true, true_and, upsertSetupRepository, hfits, Bool.not_true, Bool.false_or]
    cases hfind : rows.find? fun row => row.workspaceId == workspaceId &&
        (row.externalId == repository.id || row.fullName == repository.fullName) with
    | none =>
      have hfree : ¬(rows.any fun other =>
          other.collides (setupRow platform newId workspaceId now repository)) = true := by
        rw [any_collides_iff]
        rintro ⟨other, hother, -, hheld⟩
        exact List.find?_eq_none.1 hfind other hother (held_iff.2 hheld)
      have hclear := not_crossed_of_free hfresh hfree
      simp only [Option.map_none, Option.getD_none, Bool.eq_false_iff.2 hfree]
      refine ⟨iff_of_true ⟨_, rfl⟩ hclear, fun rows' hrun => ?_⟩
      obtain rfl := Except.ok.inj hrun
      have hunique := h.append hfresh (free_of_any hfree)
      exact ⟨hunique, hunique.settled (List.mem_append_right _ List.mem_cons_self)
        (ofName_iff.2 ⟨rfl, rfl⟩) fun _ hmem => hgiven hmem (ofId_iff.2 ⟨rfl, rfl⟩)⟩
    | some row =>
      have hmem := List.mem_of_find?_eq_some hfind
      have hrow := List.find?_some hfind
      have hheld := held_iff.1 hrow
      have hiff : (rows.any fun other =>
          other.collides (setupRow platform row.id workspaceId now repository)) = true ↔ _ :=
        setup_found_spec h hmem hheld
      simp only [Option.map_some, Option.getD_some]
      split_ifs with hblocked
      · exact ⟨iff_of_false (fun ⟨_, hok⟩ => nomatch hok) (not_not_intro (hiff.1 hblocked)),
          fun _ hrun => nomatch hrun⟩
      · have hclear := fun hcrossed => hblocked (hiff.2 hcrossed)
        refine ⟨iff_of_true ⟨_, rfl⟩ hclear, fun rows' hrun => ?_⟩
        obtain rfl := Except.ok.inj hrun
        have hid : (setupRow platform row.id workspaceId now repository).id = row.id := rfl
        have hunique := h.replace hid (free_of_any hblocked)
        exact ⟨hunique, hunique.settled (mem_replace hmem) (ofName_iff.2 ⟨rfl, rfl⟩)
          fun _ hmem => hgiven hmem (ofId_iff.2 ⟨rfl, rfl⟩)⟩

theorem call_spec (h : Unique rows) (hfresh : ∀ row ∈ rows, row.id ≠ newId) (call : Upsert) :
    ((∃ rows', call.run platform newId workspaceId now rows = .ok rows') ↔
        call.Clear platform newId workspaceId now rows) ∧
      ∀ rows', call.run platform newId workspaceId now rows = .ok rows' →
        call.Meets workspaceId rows' := by
  cases call with
  | sync repo => exact sync_spec h hfresh repo
  | workItem record => exact workItem_spec h hfresh record
  | setup repository => exact setup_spec h hfresh repository

end spec

section runs

variable (platform : GitHubSetup.Platform)

/-- A call, with the id that a new row would get. -/
structure Write where
  call : Upsert
  newId : Uuid
  workspaceId : Uuid
  now : Str

/-- A call that is refused is rolled back. -/
def writeStep (rows : List CanonicalRepository) (write : Write) :
    Option (List CanonicalRepository) :=
  (write.call.run platform write.newId write.workspaceId write.now rows).toOption

def FreshId (rows : List CanonicalRepository) (write : Write) : Prop :=
  ∀ row ∈ rows, row.id ≠ write.newId

instance : ∀ rows write, Decidable (FreshId rows write) :=
  fun rows write => inferInstanceAs (Decidable (∀ row ∈ rows, row.id ≠ write.newId))

variable {platform} {rows : List CanonicalRepository}

theorem unique_writeStep (rows : List CanonicalRepository) (write : Write)
    (rows' : List CanonicalRepository) (h : Unique rows) (hfresh : FreshId rows write)
    (hstep : writeStep platform rows write = some rows') : Unique rows' :=
  ((call_spec h hfresh write.call).2 rows' (ok_of_toOption hstep)).1

theorem unique_of_reaches (h : Transition.Reaches (writeStep platform) FreshId [] rows) :
    Unique rows :=
  h.invariant unique_writeStep ⟨List.nodup_nil, fun _ hmem => absurd hmem List.not_mem_nil⟩

/-- In every table that the constraints allow, and so in every one that the calls reach. -/
theorem upsert_settles_iff {newId workspaceId : Uuid} {now : Str} (h : Unique rows)
    (hfresh : ∀ row ∈ rows, row.id ≠ newId) (call : Upsert) :
    (∃ rows', call.run platform newId workspaceId now rows = .ok rows' ∧
        Settled rows' workspaceId call.fullName call.given) ↔
      call.Clear platform newId workspaceId now rows := by
  obtain ⟨hiff, hmeets⟩ := call_spec h hfresh call
  rw [← hiff]
  constructor
  · rintro ⟨rows', hrun, -⟩
    exact ⟨rows', hrun⟩
  · rintro ⟨rows', hrun⟩
    exact ⟨rows', hrun, (hmeets rows' hrun).2⟩

end runs

section renamed

/-- The repository 42 under its old name. -/
def oldName : Object :=
  [(Str.of "external_id", .str (Str.of "42")), (Str.of "full_name", .str (Str.of "acme/old"))]

def newName : Object :=
  [(Str.of "external_id", .str (Str.of "42")), (Str.of "full_name", .str (Str.of "acme/new"))]

def pullRequestOfNew : Object :=
  [(Str.of "repository_full_name", .str (Str.of "acme/new"))]

def sampleWrite (call : Upsert) (n : Fin 10) : Write := ⟨call, sampleUuid n, sampleWorkspace, []⟩

def oldRow : CanonicalRepository :=
  mutableRow samplePlatform (sampleUuid (Fin.last 9)) sampleWorkspace [] oldName (Str.of "42")

theorem unique_oldRow : Unique [oldRow] := by
  refine ⟨List.nodup_cons.2 ⟨List.not_mem_nil, List.nodup_nil⟩, fun row hrow other hother => ?_⟩
  rw [List.mem_singleton.1 hrow, List.mem_singleton.1 hother]
  simp [CanonicalRepository.collides]

theorem rename_settles : ∃ rows', (Upsert.sync newName).run samplePlatform (sampleUuid 2)
      sampleWorkspace [] [oldRow] = .ok rows' ∧
    Settled rows' sampleWorkspace (Upsert.sync newName).fullName (Upsert.sync newName).given := by
  have hfresh : ∀ row ∈ [oldRow], row.id ≠ sampleUuid 2 := by decide +kernel
  refine (upsert_settles_iff unique_oldRow hfresh (.sync newName)).2 ⟨by decide +kernel, ?_⟩
  rintro - ⟨row, hrow, other, hother, -, -, hne⟩
  exact hne ((List.mem_singleton.1 hrow).trans (List.mem_singleton.1 hother).symm)

/-- A repository is renamed, and a pull request is read under the new name before the repository
is: the row that stands in for it bars the rename from then on. -/
theorem placeholder_bars_rename :
    (∃ rows, Transition.Reaches (writeStep samplePlatform) FreshId [] rows ∧
      ¬∃ rows', (Upsert.sync newName).run samplePlatform (sampleUuid 3) sampleWorkspace [] rows =
        .ok rows' ∧ Settled rows' sampleWorkspace (Upsert.sync newName).fullName
          (Upsert.sync newName).given) := by
  have hrun : ((Transition.exec (Transition.restrict (writeStep samplePlatform) FreshId) []
      [sampleWrite (.sync oldName) 1, sampleWrite (.workItem pullRequestOfNew) 2]).map fun rows =>
        ((Upsert.sync newName).run samplePlatform (sampleUuid 3) sampleWorkspace []
          rows).toOption.isNone) = some true := by
    decide +kernel
  obtain ⟨rows, hexec, hrefused⟩ := Option.map_eq_some_iff.1 hrun
  refine ⟨rows, Transition.reaches_of_exec_restrict hexec, ?_⟩
  rintro ⟨rows', hok, -⟩
  rw [hok] at hrefused
  exact absurd hrefused Bool.false_ne_true

end renamed

end FounderOs.RepositoryAudit
