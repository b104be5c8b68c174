import FounderOs.Foundation.Dict
import FounderOs.Foundation.JsonText
import FounderOs.Foundation.Outcome
import FounderOs.Foundation.Separated
import FounderOs.RepositoryAudit.Contract
import Mathlib.Algebra.BigOperators.Group.List.Basic
import Mathlib.Algebra.Order.Ring.Unbundled.Rat

namespace FounderOs.RepositoryAudit

open Separated

inductive CheckoutError where
  | path (detail : String)
  | limit (detail : String)
  | command (detail : String)
  deriving DecidableEq

/-- The data path, which no check of the tree reads, is left out. -/
structure RepositoryCheckoutPolicy where
  timeoutSeconds : Rat
  maxFiles : Int
  maxBytes : Int
  maxFileBytes : Int
  maxCommandOutputBytes : Int
  maxPathBytes : Int
  maxDepth : Int

def RepositoryCheckoutPolicy.validate (policy : RepositoryCheckoutPolicy) :
    Except CheckoutError Unit :=
  let integerBounds := [policy.maxFiles, policy.maxBytes, policy.maxFileBytes,
    policy.maxCommandOutputBytes, policy.maxPathBytes, policy.maxDepth]
  if policy.timeoutSeconds ≤ 0 then .error (.limit "checkout timeout must be positive")
  else if integerBounds.any (· ≤ 0) then
    .error (.limit "checkout resource bounds must be positive")
  else if policy.maxFileBytes > policy.maxBytes then
    .error (.limit "checkout file bound cannot exceed total byte bound")
  else .ok ()

/-- `unicodedata.normalize("NFC", ·)` and what `str.casefold` makes of a character that is not
ASCII. Neither ever brings in a slash. -/
structure PathRules where
  nfc : Str → Str
  foldTable : Nat → Str
  nfc_slash : ∀ text, 47 ∉ text → 47 ∉ nfc text
  foldTable_slash : ∀ c, 128 ≤ c → 47 ∉ foldTable c

section bytes

abbrev Bytes := List UInt8

def byteSpace (b : UInt8) : Bool := b == 32 || (9 ≤ b && b ≤ 13)

def continuation (b : Nat) : Bool := 128 ≤ b && b < 192

/-- The first character of a text in UTF-8, and the bytes after it. -/
def utf8Char : Bytes → Option (Nat × Bytes)
  | [] => none
  | lead :: rest =>
    let a := lead.toNat
    if a < 128 then some (a, rest)
    else
      let tail := rest.map UInt8.toNat
      let b := tail.getD 0 0
      let c := tail.getD 1 0
      let d := tail.getD 2 0
      if 194 ≤ a && a < 224 && continuation b then some ((a - 192) * 64 + (b - 128), rest.drop 1)
      else if 224 ≤ a && a < 240 && continuation b && continuation c then
        let code := (a - 224) * 4096 + (b - 128) * 64 + (c - 128)
        if code < 2048 || (55296 ≤ code && code < 57344) then none else some (code, rest.drop 2)
      else if 240 ≤ a && a < 245 && continuation b && continuation c && continuation d then
        let code := (a - 240) * 262144 + (b - 128) * 4096 + (c - 128) * 64 + (d - 128)
        if code < 65536 || 1114112 ≤ code then none else some (code, rest.drop 3)
      else none

def utf8Chars : Nat → Bytes → Option Str
  | _, [] => some []
  | 0, _ :: _ => none
  | fuel + 1, bytes => do
    let (c, rest) ← utf8Char bytes
    let text ← utf8Chars fuel rest
    return c :: text

/-- `bytes.decode("utf-8")`: a character takes at least one byte. -/
def decodeUtf8 (bytes : Bytes) : Option Str := utf8Chars bytes.length bytes

/-- `bytes.decode("ascii")`. -/
def decodeAscii (bytes : Bytes) : Option Str :=
  if bytes.all (· < 128) then some (bytes.map UInt8.toNat) else none

/-- `int` of an ASCII text: digits with single underscores between them, no more of them than the
interpreter converts. -/
def intOfText (text : Str) : Option Int :=
  let body := Str.strip text
  let negative := body.head? == some 45
  let unsigned := if negative || body.head? == some 43 then body.tail else body
  let groups := unsigned.splitOn 95
  let digits := groups.flatten
  if groups.all (fun group => group ≠ [] && group.all isDigit) && digits.length ≤ 4300 then
    let magnitude := digits.foldl (fun (value c : Nat) => value * 10 + (c - 48)) 0
    some (if negative then -(magnitude : Int) else magnitude)
  else none

end bytes

section parser

variable (rules : PathRules) (policy : RepositoryCheckoutPolicy)

structure TreeEntry where
  path : Str
  objectId : Str
  size : Int
  deriving DecidableEq

/-- What `_validated_tree_path` returns: the path, its key, and the directories above it, each with
its key. -/
structure TreePath where
  normalized : Str
  key : Str
  prefixes : List (Str × Str)

def joinParts (parts : List Str) : Str := [47].intercalate parts

def portablePart (part : Str) : Str := Str.casefold rules.foldTable (rules.nfc part)

def controlChar (c : Nat) : Bool := c < 32 || c == 127

def dotGit : Str := [46, 103, 105, 116]

def safePart (part : Str) : Bool :=
  part ≠ [] && part ≠ [46] && part ≠ [46, 46] && Str.casefold rules.foldTable part ≠ dotGit

/-- `PurePosixPath(value).parts` of a path that is not absolute. -/
def pathParts (value : Str) : List Str :=
  (value.splitOn 47).filter fun part => part ≠ [] && part ≠ [46]

def treePathOf (parts : List Str) : TreePath :=
  let normalizedParts := parts.map (portablePart rules)
  { normalized := joinParts parts
    key := joinParts normalizedParts
    prefixes := (List.range' 1 (normalizedParts.length - 1)).map fun index =>
      (joinParts (normalizedParts.take index), joinParts (parts.take index)) }

def validatedTreePath (value : Str) : Except CheckoutError TreePath :=
  let parts := pathParts value
  if value = [] || value.head? == some 47 || value.contains 92 || value.any controlChar then
    .error (.path "checkout tree contains an unsafe path")
  else if JsonText.utf8Size value > policy.maxPathBytes then
    .error (.limit "checkout path exceeds the configured byte bound")
  else if parts = [] || !parts.all (safePart rules) then
    .error (.path "checkout tree contains an unsafe path")
  else if parts.length > policy.maxDepth then
    .error (.limit "checkout path exceeds the configured depth bound")
  else .ok (treePathOf rules parts)

def strictly {α : Type} : Option α → Except CheckoutError α
  | some value => .ok value
  | none => .error (.command "git tree output failed strict validation")

def checkoutRefusal (bad : Bool) (error : CheckoutError) : Except CheckoutError Unit :=
  if bad then .error error else .ok ()

def fileModes : List Str := [Str.of "100644", Str.of "100755"]

/-- The object id, the size and the path of a record. -/
def treeRecord (record : Bytes) : Except CheckoutError (Str × Int × Str) :=
  let (header, rest) := record.span (· ≠ 9)
  match rest, (header.splitOnP byteSpace).filter (· ≠ []) with
  | _ :: rawPath, [rawMode, rawType, rawObjectId, rawSize] => do
    let mode ← strictly (decodeAscii rawMode)
    let objectType ← strictly (decodeAscii rawType)
    let objectId ← strictly (decodeAscii rawObjectId)
    let path ← strictly (decodeUtf8 rawPath)
    checkoutRefusal (objectType ≠ Str.of "blob" || !fileModes.contains mode)
      (.path "checkout tree contains an unsupported link or object type")
    let size ← strictly ((decodeAscii rawSize).bind intOfText)
    checkoutRefusal (!lowerHex 40 objectId || size < 0)
      (.command "git tree output contains an invalid object")
    return (objectId, size, path)
  | _, _ => .error (.command "git tree output failed strict validation")

/-- The state of the loop over the records. -/
structure TreeScan where
  entries : List TreeEntry
  filePaths : List (Str × Str)
  directoryPaths : List (Str × Str)
  totalBytes : Int

def TreeScan.start : TreeScan := ⟨[], [], [], 0⟩

def TreeScan.collisions (s : TreeScan) (place : TreePath) : Except CheckoutError Unit :=
  if (Dict.get s.filePaths place.key).isSome || (Dict.get s.directoryPaths place.key).isSome then
    .error (.path "checkout tree contains a portable path collision")
  else place.prefixes.forM fun entry =>
    if (Dict.get s.filePaths entry.1).isSome then
      .error (.path "checkout tree contains a file-directory collision")
    else if (Dict.get s.directoryPaths entry.1).any (· ≠ entry.2) then
      .error (.path "checkout tree contains a portable directory collision")
    else .ok ()

def TreeScan.place (s : TreeScan) (objectId : Str) (size : Int) (place : TreePath) : TreeScan where
  entries := s.entries ++ [⟨place.normalized, objectId, size⟩]
  filePaths := Dict.set s.filePaths place.key place.normalized
  directoryPaths := place.prefixes.foldl (fun d entry => Dict.setDefault d entry.1 entry.2)
    s.directoryPaths
  totalBytes := s.totalBytes + size

def TreeScan.bounds (s : TreeScan) (size : Int) : Except CheckoutError Unit :=
  if size > policy.maxFileBytes then
    .error (.limit "checkout file exceeds the configured byte bound")
  else if s.totalBytes > policy.maxBytes then
    .error (.limit "checkout exceeds the configured total byte bound")
  else if s.entries.length > policy.maxFiles then
    .error (.limit "checkout exceeds the configured file-count bound")
  else .ok ()

def TreeScan.record (s : TreeScan) (raw : Bytes) : Except CheckoutError TreeScan := do
  if raw = [] then return s
  let (objectId, size, path) ← treeRecord raw
  let place ← validatedTreePath rules policy path
  s.collisions place
  let next := s.place objectId size place
  next.bounds policy size
  return next

def parseTreeEntries (output : Bytes) : Except CheckoutError (List TreeEntry) :=
  ((output.splitOn 0).foldlM (TreeScan.record rules policy) TreeScan.start).map (·.entries)

end parser

end FounderOs.RepositoryAudit
