import FounderOs.Foundation.Directory
import FounderOs.Foundation.SortedSet
import FounderOs.Foundation.Transition

namespace FounderOs.Recovery

open SortedSet

/-- The encryption, under which an archive comes back, and the hash of an artifact. The hash of an
archive stands for the archive. -/
structure Crypto (Key Nonce Archive Content Digest : Type) where
  encrypt : Key → Nonce → Archive → Content
  decrypt : Key → Content → Option Archive
  sha256 : Content → Digest
  decrypt_encrypt : ∀ key nonce archive, decrypt key (encrypt key nonce archive) = some archive

/-- A verified local bundle: the name of its directory, and the archive that is made of it. -/
structure VerifiedBundle (Archive : Type) where
  name : Str
  archive : Archive
  named : Str.of "founderos-" <+: name ∧ 47 ∉ name

structure OffsiteReceipt (Digest : Type) where
  formatVersion : Nat
  status : String
  createdAt : Nat
  artifact : Str
  artifactSha256 : Digest
  encryption : String
  keyPersistedWithBackup : Bool
  deriving DecidableEq

/-- The files of a target; a receipt is listed by the name of the artifact that its own extends. -/
structure Target (Content Digest : Type) where
  artifacts : Directory Str Content
  receipts : Directory Str (OffsiteReceipt Digest)

structure LoadedBackup (Digest : Type) where
  artifact : Str
  receipt : Str
  createdAt : Nat
  sha256 : Digest
  deriving DecidableEq

inductive RecoveryError where
  | receiptInvalid | artifactNameInvalid | artifactMissing | checksumFailed
  | noBackup | outsideTarget | noValidReceipt
  deriving DecidableEq

def offsiteFormatVersion : Nat := 1

def artifactName (bundle : Str) : Str :=
  Str.of "founderos-offsite-" ++ (bundle ++ Str.of ".fosbak")

def receiptName (artifact : Str) : Str := artifact ++ Str.of ".receipt.json"

/-- One component of a path, with the suffix of an artifact. -/
def validArtifactName (name : Str) : Bool :=
  !name.isEmpty && !name.contains 47 && (Str.of ".fosbak").isSuffixOf name

variable {Key Nonce Archive Content Digest : Type}

section load

variable [DecidableEq Digest] (crypto : Crypto Key Nonce Archive Content Digest)
  (target : Target Content Digest)

def loadOffsiteBackup (path : Str) (receipt : OffsiteReceipt Digest) :
    Except RecoveryError (LoadedBackup Digest) :=
  let artifact := Str.strip receipt.artifact
  if receipt.formatVersion ≠ offsiteFormatVersion ∨ receipt.status ≠ "encrypted_verified" ∨
      receipt.encryption ≠ "AES-256-GCM" ∨ receipt.keyPersistedWithBackup = true then
    .error .receiptInvalid
  else if validArtifactName artifact = false then .error .artifactNameInvalid
  else match target.artifacts.get artifact with
  | none => .error .artifactMissing
  | some content =>
    if crypto.sha256 content ≠ receipt.artifactSha256 then .error .checksumFailed
    else .ok ⟨artifact, path, receipt.createdAt, receipt.artifactSha256⟩

def loadOffsiteBackups : Except RecoveryError (List (LoadedBackup Digest)) :=
  (target.receipts.entries.mergeSort fun a b => Str.le (receiptName a.1) (receiptName b.1)).mapM
    fun entry => loadOffsiteBackup crypto target entry.1 entry.2

/-- `max(backups, key=(created_at, artifact.name))`. -/
def latest (backups : List (LoadedBackup Digest)) : Option (LoadedBackup Digest) :=
  backups.foldl (fun best item => match best with
    | none => some item
    | some found =>
      if lex (fun s t => decide (s ≤ t)) Str.le (item.createdAt, item.artifact)
        (found.createdAt, found.artifact) then some found else some item) none

def selectOffsiteBackup (artifactPath : Option Str) :
    Except RecoveryError (LoadedBackup Digest) := do
  let backups ← loadOffsiteBackups crypto target
  match artifactPath with
  | none => (latest backups).elim (.error .noBackup) .ok
  | some path =>
    if target.artifacts.get path = none then .error .outsideTarget
    else (backups.find? (·.artifact = path)).elim (.error .noValidReceipt) .ok

end load

/-- How far an export is; `failed` is its `except` clause, before which the artifact has been
`written` or has not. -/
inductive ExportPc (Digest : Type) where
  | checked
  | encrypted
  | hashed (sha256 : Digest)
  | verified (sha256 : Digest)
  | recorded
  | failed (written : Bool)
  | unlinked
  deriving DecidableEq

structure ExportCall (Key Archive : Type) where
  bundle : VerifiedBundle Archive
  key : Key
  createdAt : Nat

def ExportCall.artifact (call : ExportCall Key Archive) : Str := artifactName call.bundle.name

/-- A prune is `unlinked` between the two files of the first backup that is left to remove. -/
inductive Proc (Key Archive Digest : Type) where
  | idle
  | exporting (call : ExportCall Key Archive) (pc : ExportPc Digest)
  | pruning (removable : List (LoadedBackup Digest)) (unlinked : Bool)

/-- What an export has returned for. -/
structure ReportedBackup (Key Archive : Type) where
  artifact : Str
  key : Key
  archive : Archive

/-- Processes at work on one target. A backup is reported until a prune removes it. -/
structure World (P Key Archive Content Digest : Type) where
  target : Target Content Digest
  procs : P → Proc Key Archive Digest
  reported : List (ReportedBackup Key Archive)

inductive Action (P Key Nonce Archive Content Digest : Type) where
  | checkTarget (p : P) (bundle : VerifiedBundle Archive) (key : Key) (createdAt : Nat)
  | replaceArtifact (p : P) (nonce : Nonce)
  | hashArtifact (p : P)
  | verifyArtifact (p : P)
  | replaceReceipt (p : P)
  | exportReturn (p : P)
  | exportFail (p : P)
  | unlinkArtifact (p : P)
  | unlinkReceipt (p : P)
  | recover (artifactPath : Option Str)
  | loadPrune (p : P) (keep : List Str)
  | pruneArtifact (p : P)
  | pruneReceipt (p : P)
  | crash (p : P)
  | damageArtifact (name : Str) (content : Option Content)
  | damageReceipt (name : Str) (receipt : Option (OffsiteReceipt Digest))

section steps

variable {P : Type} (crypto : Crypto Key Nonce Archive Content Digest)

/-- Where the `except` clause is entered from, and with what under the name. -/
def ExportPc.written : ExportPc Digest → Bool
  | checked | unlinked => false
  | encrypted | hashed _ | verified _ | recorded => true
  | failed written => written

def ExportPc.inTry : ExportPc Digest → Bool
  | checked | encrypted | hashed _ | verified _ => true
  | recorded | failed _ | unlinked => false

def issuedReceipt (call : ExportCall Key Archive) (sha256 : Digest) : OffsiteReceipt Digest where
  formatVersion := offsiteFormatVersion
  status := "encrypted_verified"
  createdAt := call.createdAt
  artifact := call.artifact
  artifactSha256 := sha256
  encryption := "AES-256-GCM"
  keyPersistedWithBackup := false

namespace World

section files

variable (w : World P Key Archive Content Digest)

def setArtifact (name : Str) (content : Option Content) : World P Key Archive Content Digest :=
  { w with target := { w.target with artifacts := w.target.artifacts.place name content } }

def setReceipt (name : Str) (receipt : Option (OffsiteReceipt Digest)) :
    World P Key Archive Content Digest :=
  { w with target := { w.target with receipts := w.target.receipts.place name receipt } }

@[simp]
theorem artifact_setArtifact (name : Str) (content : Option Content) (other : Str) :
    (w.setArtifact name content).target.artifacts.get other =
      if name = other then content else w.target.artifacts.get other :=
  Directory.get_place _ _ _ _

@[simp]
theorem receipts_setArtifact (name : Str) (content : Option Content) :
    (w.setArtifact name content).target.receipts = w.target.receipts := rfl

@[simp]
theorem receipt_setReceipt (name : Str) (receipt : Option (OffsiteReceipt Digest)) (other : Str) :
    (w.setReceipt name receipt).target.receipts.get other =
      if name = other then receipt else w.target.receipts.get other :=
  Directory.get_place _ _ _ _

@[simp]
theorem artifacts_setReceipt (name : Str) (receipt : Option (OffsiteReceipt Digest)) :
    (w.setReceipt name receipt).target.artifacts = w.target.artifacts := rfl

end files

section procs

variable [DecidableEq P] [DecidableEq Digest] [DecidableEq Archive]
  (w : World P Key Archive Content Digest)

def setProc (p : P) (proc : Proc Key Archive Digest) : World P Key Archive Content Digest :=
  { w with procs := Function.update w.procs p proc }

omit [DecidableEq Digest] [DecidableEq Archive] in
@[simp]
theorem target_setProc (p : P) (proc : Proc Key Archive Digest) :
    (w.setProc p proc).target = w.target := rfl

/-- The start of `export_verified_backup`, which raises if one of the files is there. -/
def checkTarget (p : P) (call : ExportCall Key Archive) : World P Key Archive Content Digest :=
  if (w.target.artifacts.get call.artifact).isSome || (w.target.receipts.get call.artifact).isSome
  then w
  else w.setProc p (.exporting call .checked)

def hashArtifact (p : P) (call : ExportCall Key Archive) : World P Key Archive Content Digest :=
  w.setProc p (.exporting call (match w.target.artifacts.get call.artifact with
    | some content => .hashed (crypto.sha256 content)
    | none => .failed true))

def verifyArtifact (p : P) (call : ExportCall Key Archive) (sha256 : Digest) :
    World P Key Archive Content Digest :=
  w.setProc p (.exporting call
    (if (w.target.artifacts.get call.artifact).bind (crypto.decrypt call.key) =
      some call.bundle.archive then .verified sha256 else .failed true))

/-- What is left to remove is all that `keep` does not hold; `prune_offsite_backups` raises if
loading does. -/
def loadPrune (p : P) (keep : List Str) : World P Key Archive Content Digest :=
  match loadOffsiteBackups crypto w.target with
  | .ok backups => w.setProc p (.pruning (backups.filter fun backup => !keep.contains backup.artifact) false)
  | .error _ => w

def pruneArtifact (p : P) (item : LoadedBackup Digest) (rest : List (LoadedBackup Digest)) :
    World P Key Archive Content Digest :=
  if w.target.artifacts.get item.artifact = none then w.setProc p .idle
  else { (w.setArtifact item.artifact none).setProc p (.pruning (item :: rest) true) with
    reported := w.reported.filter (·.artifact ≠ item.artifact) }

def pruneReceipt (p : P) (item : LoadedBackup Digest) (rest : List (LoadedBackup Digest)) :
    World P Key Archive Content Digest :=
  if w.target.receipts.get item.receipt = none then w.setProc p .idle
  else (w.setReceipt item.receipt none).setProc p (.pruning rest false)

/-- One operation on a file, or one test between two of them. A drill and a materialisation only
read the files of the target. -/
def step : Action P Key Nonce Archive Content Digest → Option (World P Key Archive Content Digest)
  | .checkTarget p bundle key createdAt => match w.procs p with
    | .idle => some (w.checkTarget p ⟨bundle, key, createdAt⟩)
    | _ => none
  | .replaceArtifact p nonce => match w.procs p with
    | .exporting call .checked =>
      some ((w.setArtifact call.artifact
        (some (crypto.encrypt call.key nonce call.bundle.archive))).setProc p
          (.exporting call .encrypted))
    | _ => none
  | .hashArtifact p => match w.procs p with
    | .exporting call .encrypted => some (w.hashArtifact crypto p call)
    | _ => none
  | .verifyArtifact p => match w.procs p with
    | .exporting call (.hashed sha256) => some (w.verifyArtifact crypto p call sha256)
    | _ => none
  | .replaceReceipt p => match w.procs p with
    | .exporting call (.verified sha256) =>
      some ((w.setReceipt call.artifact (some (issuedReceipt call sha256))).setProc p
        (.exporting call .recorded))
    | _ => none
  | .exportReturn p => match w.procs p with
    | .exporting call .recorded =>
      some { w.setProc p .idle with
        reported := ⟨call.artifact, call.key, call.bundle.archive⟩ :: w.reported }
    | _ => none
  | .exportFail p => match w.procs p with
    | .exporting call pc =>
      if pc.inTry then some (w.setProc p (.exporting call (.failed pc.written))) else none
    | _ => none
  | .unlinkArtifact p => match w.procs p with
    | .exporting call (.failed _) =>
      some ((w.setArtifact call.artifact none).setProc p (.exporting call .unlinked))
    | _ => none
  | .unlinkReceipt p => match w.procs p with
    | .exporting call .unlinked => some ((w.setReceipt call.artifact none).setProc p .idle)
    | _ => none
  | .recover _ => some w
  | .loadPrune p keep => match w.procs p with
    | .idle => some (w.loadPrune crypto p keep)
    | _ => none
  | .pruneArtifact p => match w.procs p with
    | .pruning (item :: rest) false => some (w.pruneArtifact p item rest)
    | _ => none
  | .pruneReceipt p => match w.procs p with
    | .pruning (item :: rest) true => some (w.pruneReceipt p item rest)
    | _ => none
  | .crash p => some (w.setProc p .idle)
  | .damageArtifact name content => some (w.setArtifact name content)
  | .damageReceipt name receipt => some (w.setReceipt name receipt)

/-- Selecting the artifact of a backup succeeds, and it decrypts to what was exported. -/
def restores (backup : ReportedBackup Key Archive) : Bool :=
  match selectOffsiteBackup crypto w.target (some backup.artifact) with
  | .ok item =>
    (w.target.artifacts.get item.artifact).bind (crypto.decrypt backup.key) = some backup.archive
  | .error _ => false

end procs

end World

end steps

end FounderOs.Recovery
