import FounderOs.Foundation.SortedSet
import FounderOs.Recovery.TarFile
import FounderOs.RepositoryAudit.CheckoutTree

namespace FounderOs.Recovery

open RepositoryAudit (joinParts pathParts)

/-- What stands at a path. The content of a regular file is that of its inode. -/
inductive Tree (Inode : Type) where
  | directory (children : List (Str × Tree Inode))
  | file (inode : Inode)
  | link (toDirectory : Bool)
  | other

inductive RawKind where
  | file | directory
  deriving DecidableEq

def RawKind.value : RawKind → String
  | file => "file"
  | directory => "directory"

/-- What the digest of an inventory reads of an entry. -/
structure RawRow where
  archiveName : Str
  kind : RawKind
  size : Nat
  sha256 : Option Str
  deriving DecidableEq

/-- An entry; `source` is what stands at its `source_path`. -/
structure RawStorageEntry (Source : Type) extends RawRow where
  source : Source

structure RawStorageInventory (Source Digest : Type) where
  sourceState : String
  entries : List (RawStorageEntry Source)
  fileCount : Nat
  directoryCount : Nat
  totalBytes : Nat
  inventorySha256 : Digest

inductive RawError where
  | symbolicLink | notDirectory | holdsBackups | unsupportedDirectory | unsupportedFile
  | unreadable | unencodable | changedToLink | changedType | unsafeEntry | unsupportedEntry
  | unverifiable | mismatch
  deriving DecidableEq

/-- SHA-256 of a file, in hexadecimal digits, and of the text of an inventory. -/
structure RawHashes (Digest : Type) where
  file : Octets → Str
  file_hex : ∀ content, RepositoryAudit.lowerHex 64 (file content) = true
  inventory : Str → Digest

section inventory

variable {Digest Source : Type} (hashes : RawHashes Digest)

def sizeText (n : Nat) : Str := Str.of (toString n)

namespace RawRow

def digestText (row : RawRow) : Str := row.sha256.getD (Str.of "-")

def line (row : RawRow) : Str :=
  row.archiveName ++ 0 :: (Str.of row.kind.value ++
    0 :: (sizeText row.size ++ 0 :: (row.digestText ++ [10])))

def le (a b : RawRow) : Bool :=
  SortedSet.lex Str.le Str.le (a.archiveName, Str.of a.kind.value)
    (b.archiveName, Str.of b.kind.value)

end RawRow

def inventoryText (rows : List RawRow) : Str := (rows.mergeSort RawRow.le).flatMap RawRow.line

/-- `_raw_inventory_digest`, which raises on a name that has no UTF-8. -/
def rawInventoryDigest (rows : List RawRow) : Except RawError Digest :=
  if rows.all fun row => Str.encodable row.archiveName then
    .ok (hashes.inventory (inventoryText rows))
  else .error .unencodable

def inventoryOf (sourceState : String) (entries : List (RawStorageEntry Source)) :
    Except RawError (RawStorageInventory Source Digest) :=
  let rows := entries.map (·.toRawRow)
  (rawInventoryDigest hashes rows).map fun inventorySha256 =>
    { sourceState, entries, inventorySha256
      fileCount := rows.countP (·.kind = .file)
      directoryCount := rows.countP (·.kind = .directory)
      totalBytes := ((rows.filter (·.kind = .file)).map (·.size)).sum }

end inventory

section scan

variable {Archive Inode Digest : Type}

def childLe {Child : Type} (a b : Str × Child) : Bool := Str.le a.1 b.1

/-- A name that `os.walk` puts among the directories. -/
def Tree.isDirectoryName : Tree Inode → Bool
  | directory _ => true
  | link toDirectory => toDirectory
  | _ => false

def directoryEntry (path : List Str) (child : Str × Tree Inode) :
    Except RawError (RawStorageEntry (Tree Inode)) :=
  match child.2 with
  | .link _ => .error .symbolicLink
  | .directory _ => .ok ⟨⟨joinParts (path ++ [child.1]), .directory, 0, none⟩, child.2⟩
  | _ => .error .unsupportedDirectory

variable (hashes : RawHashes Digest) (content : Inode → Option Octets)

def fileEntry (path : List Str) (child : Str × Tree Inode) :
    Except RawError (RawStorageEntry (Tree Inode)) :=
  match child.2 with
  | .link _ => .error .symbolicLink
  | .file inode => match content inode with
    | none => .error .unreadable
    | some octets => .ok
      ⟨⟨joinParts (path ++ [child.1]), .file, octets.length, some (hashes.file octets)⟩, child.2⟩
  | _ => .error .unsupportedFile

mutual

/-- The entries below a directory: its own, and then those below each of its directories. -/
def walk (path : List Str) : Tree Inode → Except RawError (List (RawStorageEntry (Tree Inode)))
  | .directory children => do
    let directories ← ((children.filter fun child => child.2.isDirectoryName).mergeSort
      childLe).mapM (directoryEntry path)
    let files ← ((children.filter fun child => !child.2.isDirectoryName).mergeSort
      childLe).mapM (fileEntry hashes content path)
    let below ← ((walkAll path children).mergeSort childLe).mapM (·.2)
    return directories ++ files ++ below.flatten
  | .file _ | .link _ | .other => .ok []

def walkAll (path : List Str) : List (Str × Tree Inode) →
    List (Str × Except RawError (List (RawStorageEntry (Tree Inode))))
  | [] => []
  | (name, tree) :: rest => (name, walk (path ++ [name]) tree) :: walkAll path rest

end

mutual

/-- The regular files below a directory, under their names in the archive. -/
def Tree.files (path : List Str) : Tree Inode → List (Str × Inode)
  | .directory children => filesAll path children
  | .file _ | .link _ | .other => []

def filesAll (path : List Str) : List (Str × Tree Inode) → List (Str × Inode)
  | [] => []
  | (name, .file inode) :: rest => (joinParts (path ++ [name]), inode) :: filesAll path rest
  | (name, tree) :: rest => tree.files (path ++ [name]) ++ filesAll path rest

end

mutual

/-- All names in a tree are `admits`. -/
def Tree.Admitted (admits : Str → Bool) : Tree Inode → Prop
  | .directory children => AllAdmitted admits children
  | .file _ | .link _ | .other => True

def AllAdmitted (admits : Str → Bool) : List (Str × Tree Inode) → Prop
  | [] => True
  | (name, tree) :: rest => admits name = true ∧ tree.Admitted admits ∧ AllAdmitted admits rest

end

/-- A raw storage that does not change. An inode that has two names counts its links. -/
structure RawStorage {Archive : Type} (host : Host Archive) (Inode : Type) where
  source : Option (Tree Inode)
  content : Inode → Option Octets
  links : Inode → Nat
  admitted : ∀ tree ∈ source, tree.Admitted host.admits
  counted : ∀ tree ∈ source, ∀ first ∈ tree.files [], ∀ second ∈ tree.files [],
    first.2 = second.2 → first.1 ≠ second.1 → 1 < links first.2

/-- The regular files of a raw storage. -/
def RawStorage.files {Archive : Type} {host : Host Archive} (storage : RawStorage host Inode) :
    List (Str × Inode) :=
  (storage.source.map (Tree.files [])).getD []

/-- `scan_raw_storage`; `holdsBackups` is that the backups are below the source. -/
def scanRawStorage {Archive : Type} {host : Host Archive} (storage : RawStorage host Inode)
    (holdsBackups : Bool) :
    Except RawError (RawStorageInventory (Tree Inode) Digest) :=
  match storage.source with
  | none => inventoryOf hashes "missing" []
  | some (.link _) => .error .symbolicLink
  | some (.directory children) =>
    if holdsBackups then .error .holdsBackups
    else do inventoryOf hashes "present" (← walk hashes storage.content [] (.directory children))
  | some _ => .error .notDirectory

end scan

section archive

variable {Archive Inode Digest : Type} [DecidableEq Inode] {host : Host Archive}

def rawStorageName : Str := Str.of "raw_storage"

/-- The test of an entry before it is added, and what is added of it. -/
def rawAddition (storage : RawStorage host Inode) (entry : RawStorageEntry (Tree Inode)) :
    Except RawError (Addition Inode) :=
  let arcname := rawStorageName ++ 47 :: entry.archiveName
  match entry.source, entry.kind with
  | .link _, _ => .error .changedToLink
  | .directory _, .directory => .ok (.directory arcname)
  | .file inode, .file => match storage.content inode with
    | none => .error .unreadable
    | some content => .ok (.file ⟨arcname, inode, storage.links inode, content⟩)
  | _, _ => .error .changedType

def createRawStorageArchive (storage : RawStorage host Inode)
    (inventory : RawStorageInventory (Tree Inode) Digest) : Except RawError Archive :=
  (inventory.entries.mapM (rawAddition storage)).map fun additions =>
    host.write (addAll [] additions)

variable (hashes : RawHashes Digest)

/-- The members that are refused, before what they are of. -/
def unsafeMember (member : TarMember) : Bool :=
  member.name.head? == some 47 || (pathParts member.name).contains [46, 46] ||
    decide ((pathParts member.name).length < 2) ||
    decide ((pathParts member.name).head? ≠ some rawStorageName) || member.type.isLink

def memberEntry (member : TarMember) : Except RawError (RawStorageEntry Unit) :=
  let archiveName := joinParts (pathParts member.name).tail
  if unsafeMember member then .error .unsafeEntry
  else if member.type.isFile then
    if member.truncated then .error .unverifiable
    else .ok ⟨⟨archiveName, .file, member.content.length, some (hashes.file member.content)⟩, ()⟩
  else if member.type.isDirectory then .ok ⟨⟨archiveName, .directory, 0, none⟩, ()⟩
  else .error .unsupportedEntry

/-- `_verify_raw_storage_archive` -/
def verifyRawStorageArchive (host : Host Archive) [DecidableEq Digest] {Source : Type}
    (archive : Archive)
    (expected : RawStorageInventory Source Digest) : Except RawError Unit := do
  let members ← (host.members archive).elim (.error .unverifiable) .ok
  let actual ← inventoryOf hashes expected.sourceState (← members.mapM (memberEntry hashes))
  if actual.fileCount ≠ expected.fileCount ∨ actual.directoryCount ≠ expected.directoryCount ∨
      actual.totalBytes ≠ expected.totalBytes ∨
      actual.inventorySha256 ≠ expected.inventorySha256 then .error .mismatch
  else .ok ()

end archive

end FounderOs.Recovery
