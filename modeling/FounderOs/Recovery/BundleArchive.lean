import FounderOs.Foundation.Disk
import FounderOs.Foundation.Outcome
import FounderOs.Recovery.TarFile
import FounderOs.RepositoryAudit.CheckoutTree

namespace FounderOs.Recovery

open RepositoryAudit (pathParts)

/-- `BACKUP_FILE_NAMES` -/
def backupFileNames : List Str :=
  ["database.dump", "database.dump.sha256", "manifest.json", "manifest.json.sha256",
    "raw-storage.tar.gz", "raw-storage.tar.gz.sha256", "receipt.json"].map Str.of

/-- The test of the name of a bundle. -/
def bundleName (name : Str) : Bool :=
  !name.contains 47 && (Str.of "founderos-").isPrefixOf name &&
    !(Str.of ".partial").isSuffixOf name

/-- The directory of a verified bundle. The names of one inode count its links. -/
structure BundleDirectory {Archive : Type} (host : Host Archive) (Inode : Type) where
  name : Str
  inode : Str → Inode
  links : Inode → Nat
  content : Inode → Octets
  admitted : host.admits name = true
  named : bundleName name = true
  counted : ∀ first ∈ backupFileNames, ∀ second ∈ backupFileNames, inode first = inode second →
    first ≠ second → 1 < links (inode first)

inductive BundleError where
  | structureInvalid | nameInvalid | inventoryInvalid | unreadable | truncated | headerInvalid
  | authenticationFailed
  | disk (error : DiskError)
  deriving DecidableEq

section create

variable {Archive Inode : Type} [DecidableEq Inode] {host : Host Archive}

def bundleAdditions (bundle : BundleDirectory host Inode) : List (Addition Inode) :=
  .directory bundle.name :: (backupFileNames.mergeSort Str.le).map fun name =>
    .file ⟨bundle.name ++ 47 :: name, bundle.inode name, bundle.links (bundle.inode name),
      bundle.content (bundle.inode name)⟩

/-- `_create_bundle_archive` -/
def createBundleArchive (bundle : BundleDirectory host Inode) : Archive :=
  host.write (addAll [] (bundleAdditions bundle))

end create

section extract

variable {Archive : Type}

/-- `Path(text).name` -/
def pathName (text : Str) : Str := (pathParts text).getLastD []

/-- `path / name` of a name without a slash. -/
def joinName (path : List Str) (name : Str) : List Str := if name = [] then path else path ++ [name]

/-- The name of the bundle and the members that its files are. -/
def bundleMembers (members : List TarMember) : Except BundleError (Str × List TarMember) :=
  let directories := members.filter (·.type.isDirectory)
  let files := members.filter (·.type.isFile)
  match directories with
  | [directory] =>
    if files.length ≠ backupFileNames.length ∨
        members.length ≠ directories.length + files.length ∨ members.any (·.type.isLink) then
      .error .structureInvalid
    else if !bundleName directory.name then .error .nameInvalid
    else
      let expected := backupFileNames.map fun name => directory.name ++ 47 :: name
      if files.all (expected.contains ·.name) && expected.all ((files.map (·.name)).contains ·) then
        .ok (directory.name, files)
      else .error .inventoryInvalid
  | _ => .error .structureInvalid

variable (host : Host Archive)

/-- A new file with what can be read of a member; the mode is set after it is all there. -/
def extractFile (disk : Disk) (bundle : List Str) (member : TarMember) :
    Disk × Except BundleError Unit :=
  let name := pathName member.name
  let mode := if member.truncated then 0o666 else 0o600
  if name = [] then (disk, .error (.disk .isThere))
  else match disk.make host.admits bundle name (.file mode member.content) with
    | .error error => (disk, .error (.disk error))
    | .ok made => (made, if member.truncated then .error .unreadable else .ok ())

def extractFiles (disk : Disk) (bundle : List Str) :
    List TarMember → Disk × Except BundleError Unit
  | [] => (disk, .ok ())
  | member :: rest => match extractFile host disk bundle member with
    | (made, .error error) => (made, .error error)
    | (made, .ok ()) => extractFiles made bundle rest

/-- The bundle of the members in a directory that is there. -/
def extractMembers (disk : Disk) (members : List TarMember) (outputRoot : List Str) :
    Disk × Except BundleError (List Str) :=
  match bundleMembers members with
  | .error error => (disk, .error error)
  | .ok (name, files) =>
    match disk.make host.admits outputRoot name (.directory 0o700) with
    | .error error => (disk, .error (.disk error))
    | .ok made => match extractFiles host made (outputRoot ++ [name]) files with
      | (made, .error error) => (made, .error error)
      | (made, .ok ()) => (made, .ok (outputRoot ++ [name]))

/-- `_extract_bundle_archive` -/
def extractBundleArchive (disk : Disk) (archive : Archive) (outputRoot : List Str) :
    Disk × Except BundleError (List Str) :=
  match Disk.makeParents host.admits 0o700 disk [] outputRoot with
  | (made, .error error) => (made, .error (.disk error))
  | (made, .ok ()) => match host.members archive with
    | none => (made, .error .unreadable)
    | some members => extractMembers host made members outputRoot

end extract

section encrypt

/-- AES-GCM as an ideal cipher: what is encrypted, with its tag, is decrypted again. -/
structure Aead (Key : Type) where
  encrypt : Key → Octets → Octets → Octets → Octets × Octets
  decrypt : Key → Octets → Octets → Octets → Octets → Option Octets
  length_ciphertext : ∀ key nonce data plain, (encrypt key nonce data plain).1.length = plain.length
  length_tag : ∀ key nonce data plain, (encrypt key nonce data plain).2.length = 16
  decrypt_encrypt : ∀ key nonce data plain,
    decrypt key nonce data (encrypt key nonce data plain).2 (encrypt key nonce data plain).1 =
      some plain

def offsiteMagic : Octets := [70, 79, 83, 66, 65, 75, 48, 49]
def nonceBytes : Nat := 12
def tagBytes : Nat := 16

variable {Key : Type} (aead : Aead Key)

/-- `_encrypt_file` -/
def encryptFile (key : Key) (nonce source : Octets) : Octets :=
  let (ciphertext, tag) := aead.encrypt key nonce offsiteMagic source
  offsiteMagic ++ (nonce ++ (ciphertext ++ tag))

/-- `_decrypt_file` -/
def decryptFile (key : Key) (source : Octets) : Except BundleError Octets :=
  if source.length ≤ offsiteMagic.length + nonceBytes + tagBytes then .error .truncated
  else
    let header := source.take (offsiteMagic.length + nonceBytes)
    let nonce := header.drop offsiteMagic.length
    let tag := source.drop (source.length - tagBytes)
    let ciphertext := (source.drop (offsiteMagic.length + nonceBytes)).take
      (source.length - offsiteMagic.length - nonceBytes - tagBytes)
    if header.take offsiteMagic.length ≠ offsiteMagic ∨ nonce.length ≠ nonceBytes then
      .error .headerInvalid
    else (aead.decrypt key nonce offsiteMagic tag ciphertext).elim
      (.error .authenticationFailed) .ok

/-- An encrypted archive is decrypted, and what it holds extracted. -/
def recoverBundle (host : Host Octets) (key : Key) (disk : Disk) (artifact : Octets)
    (outputRoot : List Str) : Disk × Except BundleError (List Str) :=
  match decryptFile aead key artifact with
  | .error error => (disk, .error error)
  | .ok archive => extractBundleArchive host disk archive outputRoot

variable {aead}

theorem decrypt_encrypt {key : Key} {nonce source : Octets} (hnonce : nonce.length = nonceBytes)
    (hsource : source ≠ []) :
    decryptFile aead key (encryptFile aead key nonce source) = .ok source := by
  have hmagic : offsiteMagic.length = 8 := rfl
  have hpositive := List.length_pos_iff.2 hsource
  have hcipher := aead.length_ciphertext key nonce offsiteMagic source
  have htag := aead.length_tag key nonce offsiteMagic source
  have hplain := aead.decrypt_encrypt key nonce offsiteMagic source
  unfold decryptFile encryptFile
  generalize aead.encrypt key nonce offsiteMagic source = sealed at hcipher htag hplain ⊢
  obtain ⟨ciphertext, tag⟩ := sealed
  dsimp only at hcipher htag hplain ⊢
  unfold nonceBytes at hnonce
  have hheader : (offsiteMagic ++ (nonce ++ (ciphertext ++ tag))).take
      (offsiteMagic.length + nonceBytes) = offsiteMagic ++ nonce := by
    rw [← List.append_assoc]
    exact List.take_left' (by rw [List.length_append, hnonce]; rfl)
  have hrest : (offsiteMagic ++ (nonce ++ (ciphertext ++ tag))).drop
      (offsiteMagic.length + nonceBytes) = ciphertext ++ tag := by
    rw [← List.append_assoc]
    exact List.drop_left' (by rw [List.length_append, hnonce]; rfl)
  have hlength : (offsiteMagic ++ (nonce ++ (ciphertext ++ tag))).length =
      20 + ciphertext.length + 16 := by
    simp only [List.length_append, hmagic, hnonce, htag]
    omega
  have htail : (offsiteMagic ++ (nonce ++ (ciphertext ++ tag))).drop
      (20 + ciphertext.length + 16 - tagBytes) = tag := by
    rw [← List.append_assoc, ← List.append_assoc]
    refine List.drop_left' ?_
    simp only [List.length_append, hmagic, hnonce, tagBytes]
    omega
  have hciphertext : (ciphertext ++ tag).take
      (20 + ciphertext.length + 16 - offsiteMagic.length - nonceBytes - tagBytes) = ciphertext := by
    refine List.take_left' ?_
    simp only [hmagic, nonceBytes, tagBytes]
    omega
  rw [hlength, hheader, hrest, htail, hciphertext, List.take_left, List.drop_left, if_neg, if_neg,
    hplain]
  · rfl
  · simp [hnonce, nonceBytes]
  · simp only [hmagic, nonceBytes, tagBytes]
    omega

end encrypt

end FounderOs.Recovery
