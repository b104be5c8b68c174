import FounderOs.Recovery.RawArchive
import FounderOs.RepositoryAudit.PortableTree

namespace FounderOs.Recovery

open RepositoryAudit (joinParts pathParts)

section lines

/-- The digest of a row is one of a file, or there is none. -/
def RawRow.Hashed (row : RawRow) : Prop :=
  ∀ sha256 ∈ row.sha256, RepositoryAudit.lowerHex 64 sha256 = true

variable {rows rows' : List RawRow} {row row' : RawRow} {rest rest' : Str}

theorem sizeText_inj {n m : Nat} (h : sizeText n = sizeText m) : n = m := by
  have hdigits : Nat.toDigits 10 n = Nat.toDigits 10 m := by
    rw [← Nat.toList_repr, ← Nat.toList_repr]
    exact congrArg String.toList (Str.of_inj h)
  rw [← Nat.ofDigitChars_ten_toDigits (n := n), hdigits, Nat.ofDigitChars_ten_toDigits]

theorem not_mem_sizeText (n : Nat) : 0 ∉ sizeText n := by
  intro h
  obtain ⟨c, hc, hzero⟩ := List.mem_map.1 h
  have hdigit : c.isDigit = true := Nat.isDigit_of_mem_toDigits (by decide) (by decide)
    (Nat.toList_repr ▸ hc)
  have hleast : 48 ≤ c.toNat := (Char.isDigit_iff_toNat.1 hdigit).1
  omega

theorem not_mem_kind (kind : RawKind) : 0 ∉ Str.of kind.value := by
  cases kind <;> decide

theorem kind_inj {kind kind' : RawKind} (h : Str.of kind.value = Str.of kind'.value) :
    kind = kind' := by
  revert h
  cases kind <;> cases kind' <;> decide

theorem not_mem_of_hex {sha256 : Str} (h : RepositoryAudit.lowerHex 64 sha256 = true) {c : Nat}
    (hc : c < 48) : c ∉ sha256 := by
  intro hmem
  have hall := List.all_eq_true.1 (Bool.and_eq_true_iff.1 h).2 c hmem
  simp only [RepositoryAudit.isDigit, Bool.or_eq_true, Bool.and_eq_true, decide_eq_true_eq] at hall
  omega

theorem RawRow.Hashed.not_mem (h : row.Hashed) {c : Nat} (hc : c < 45) : c ∉ row.digestText := by
  unfold RawRow.digestText
  cases hsha : row.sha256 with
  | none =>
    intro hmem
    obtain rfl := List.mem_singleton.1 (show c ∈ [45] from hmem)
    omega
  | some sha256 => exact not_mem_of_hex (h sha256 hsha) (by omega)

theorem digestText_inj (h : row.Hashed) (h' : row'.Hashed)
    (hsame : row.digestText = row'.digestText) : row.sha256 = row'.sha256 := by
  have hlength {sha256 : Str} (hhex : RepositoryAudit.lowerHex 64 sha256 = true) :
      sha256 ≠ Str.of "-" := by
    rintro rfl
    cases hhex
  unfold RawRow.digestText at hsame
  cases hsha : row.sha256 with
  | none =>
    cases hsha' : row'.sha256 with
    | none => rfl
    | some sha256 =>
      rw [hsha, hsha'] at hsame
      exact absurd hsame.symm (hlength (h' sha256 hsha'))
  | some sha256 =>
    cases hsha' : row'.sha256 with
    | none =>
      rw [hsha, hsha'] at hsame
      exact absurd hsame (hlength (h sha256 hsha))
    | some sha256' =>
      rw [hsha, hsha'] at hsame
      exact congrArg some hsame

/-- A line is read back, whatever comes after it. -/
theorem line_append_inj (h : row.Hashed) (h' : row'.Hashed) (hname : 0 ∉ row.archiveName)
    (hname' : 0 ∉ row'.archiveName) (hsame : row.line ++ rest = row'.line ++ rest') :
    row = row' ∧ rest = rest' := by
  simp only [RawRow.line, List.append_assoc, List.cons_append, List.nil_append] at hsame
  rw [Separated.append_cons_eq_of_not_mem hname hname',
    Separated.append_cons_eq_of_not_mem (not_mem_kind _) (not_mem_kind _),
    Separated.append_cons_eq_of_not_mem (not_mem_sizeText _) (not_mem_sizeText _),
    Separated.append_cons_eq_of_not_mem (h.not_mem (by decide)) (h'.not_mem (by decide))] at hsame
  obtain ⟨harchive, hkind, hsize, hdigest, hrest⟩ := hsame
  have hsha := digestText_inj h h' hdigest
  cases row
  cases row'
  exact ⟨RawRow.mk.injEq .. ▸ ⟨harchive, kind_inj hkind, sizeText_inj hsize, hsha⟩, hrest⟩

/-- Each line has three zeros, and those of its name. -/
theorem count_lines (h : ∀ row ∈ rows, row.Hashed) :
    (rows.flatMap RawRow.line).count 0 =
      3 * rows.length + (rows.flatMap (·.archiveName)).count 0 := by
  induction rows with
  | nil => rfl
  | cons row rows ih =>
    have hdigest := (h row (List.mem_cons_self ..)).not_mem (c := 0) (by decide)
    have hline : row.line.count 0 = 3 + row.archiveName.count 0 := by
      simp only [RawRow.line, List.count_append, List.count_cons,
        List.count_eq_zero_of_not_mem (not_mem_kind _),
        List.count_eq_zero_of_not_mem (not_mem_sizeText _),
        List.count_eq_zero_of_not_mem hdigest]
      simp
      omega
    rw [List.flatMap_cons, List.flatMap_cons, List.count_append, List.count_append, hline,
      ih fun row hrow => h row (List.mem_cons_of_mem _ hrow), List.length_cons]
    omega

theorem lines_inj (h : ∀ row ∈ rows, row.Hashed) (h' : ∀ row ∈ rows', row.Hashed)
    (hnames : ∀ row ∈ rows, 0 ∉ row.archiveName) (hnames' : ∀ row ∈ rows', 0 ∉ row.archiveName)
    (hlength : rows.length = rows'.length)
    (hsame : rows.flatMap RawRow.line = rows'.flatMap RawRow.line) : rows = rows' := by
  induction rows generalizing rows' with
  | nil => exact (List.length_eq_zero_iff.1 hlength.symm).symm
  | cons row rows ih =>
    cases rows' with
    | nil => cases hlength
    | cons row' rows' =>
      rw [List.forall_mem_cons] at h h' hnames hnames'
      rw [List.flatMap_cons, List.flatMap_cons] at hsame
      obtain ⟨hrow, hrest⟩ := line_append_inj h.1 h'.1 hnames.1 hnames'.1 hsame
      rw [hrow, ih h.2 h'.2 hnames.2 hnames'.2 (Nat.succ_injective hlength) hrest]

/-- As many rows that have one text are the same rows, if the names of one of the two are free of
zeros. -/
theorem perm_of_inventoryText (h : ∀ row ∈ rows, row.Hashed) (h' : ∀ row ∈ rows', row.Hashed)
    (hnames : ∀ row ∈ rows', 0 ∉ row.archiveName) (hlength : rows.length = rows'.length)
    (hsame : inventoryText rows = inventoryText rows') : rows.Perm rows' := by
  have hperm := List.mergeSort_perm rows RawRow.le
  have hperm' := List.mergeSort_perm rows' RawRow.le
  have hsorted : ∀ row ∈ rows.mergeSort RawRow.le, row.Hashed := fun row hrow =>
    h row (hperm.mem_iff.1 hrow)
  have hsorted' : ∀ row ∈ rows'.mergeSort RawRow.le, row.Hashed := fun row hrow =>
    h' row (hperm'.mem_iff.1 hrow)
  have hcount : ((rows.mergeSort RawRow.le).flatMap (·.archiveName)).count 0 = 0 := by
    have hfree : ((rows'.mergeSort RawRow.le).flatMap (·.archiveName)).count 0 = 0 := by
      rw [List.count_eq_zero]
      intro hzero
      obtain ⟨row, hrow, hzero⟩ := List.mem_flatMap.1 hzero
      exact hnames row (hperm'.mem_iff.1 hrow) hzero
    have htexts := congrArg (List.count 0) hsame
    unfold inventoryText at htexts
    rw [count_lines hsorted, count_lines hsorted', hperm.length_eq, hperm'.length_eq, hfree,
      hlength] at htexts
    omega
  have hrows := lines_inj hsorted hsorted'
    (fun row hrow hzero => List.count_eq_zero.1 hcount (List.mem_flatMap.2 ⟨row, hrow, hzero⟩))
    (fun row hrow => hnames row (hperm'.mem_iff.1 hrow))
    (hperm.length_eq.trans (hlength.trans hperm'.length_eq.symm)) hsame
  exact hperm.symm.trans (hrows ▸ hperm')

end lines

section scanned

variable {Inode Digest : Type} {hashes : RawHashes Digest} {content : Inode → Option Octets}
variable {admits : Str → Bool} {path : List Str} {children : List (Str × Tree Inode)}
variable {tree : Tree Inode} {entries : List (RawStorageEntry (Tree Inode))}
variable {entry : RawStorageEntry (Tree Inode)} {file : Str × Inode}

/-- What an archive is to hold of an entry. -/
def rowOf (hashes : RawHashes Digest) (found : Str × Option Octets) : RawRow :=
  match found.2 with
  | none => ⟨found.1, .directory, 0, none⟩
  | some octets => ⟨found.1, .file, octets.length, some (hashes.file octets)⟩

/-- An entry that a scan makes of what stands at its place. -/
inductive Scanned (hashes : RawHashes Digest) (content : Inode → Option Octets) :
    RawStorageEntry (Tree Inode) → Prop where
  | directory (name : Str) (children : List (Str × Tree Inode)) :
    Scanned hashes content ⟨rowOf hashes (name, none), .directory children⟩
  | file (name : Str) (inode : Inode) (octets : Octets) (hcontent : content inode = some octets) :
    Scanned hashes content ⟨rowOf hashes (name, some octets), .file inode⟩

/-- An entry below a path. -/
structure Placed (admits : Str → Bool) (path : List Str)
    (entry : RawStorageEntry (Tree Inode)) (rest : List Str) : Prop where
  ne_nil : rest ≠ []
  admitted : ∀ part ∈ rest, admits part = true
  archiveName : entry.archiveName = joinParts (path ++ rest)

def fileOf (entry : RawStorageEntry (Tree Inode)) : Option (Str × Inode) :=
  match entry.source with
  | .file inode => some (entry.archiveName, inode)
  | _ => none

theorem forall_mem_of_allAdmitted (h : AllAdmitted admits children) :
    ∀ child ∈ children, admits child.1 = true ∧ child.2.Admitted admits := by
  induction children with
  | nil => exact fun _ h => (List.not_mem_nil h).elim
  | cons child children ih =>
    rw [List.forall_mem_cons]
    exact ⟨⟨h.1, h.2.1⟩, ih h.2.2⟩

theorem walkAll_eq_map : walkAll hashes content path children =
    children.map fun child => (child.1, walk hashes content (path ++ [child.1]) child.2) := by
  induction children with
  | nil => rfl
  | cons child children ih => rw [walkAll, ih, List.map_cons]

theorem directoryEntry_ok (hashes : RawHashes Digest) {child : Str × Tree Inode}
    (h : directoryEntry path child = .ok entry) :
    ∃ grandchildren, child.2 = .directory grandchildren ∧
      entry = ⟨rowOf hashes (joinParts (path ++ [child.1]), none), .directory grandchildren⟩ := by
  obtain ⟨name, tree⟩ := child
  cases tree with
  | directory grandchildren => exact ⟨grandchildren, rfl, (Except.ok.inj h).symm⟩
  | file inode => cases h
  | link toDirectory => cases h
  | other => cases h

theorem fileEntry_ok {child : Str × Tree Inode}
    (h : fileEntry hashes content path child = .ok entry) :
    ∃ inode octets, child.2 = .file inode ∧ content inode = some octets ∧
      entry = ⟨rowOf hashes (joinParts (path ++ [child.1]), some octets), .file inode⟩ := by
  obtain ⟨name, tree⟩ := child
  cases tree with
  | directory grandchildren => cases h
  | file inode =>
    unfold fileEntry at h
    cases hcontent : content inode with
    | none =>
      simp only [hcontent] at h
      cases h
    | some octets =>
      simp only [hcontent] at h
      exact ⟨inode, octets, rfl, hcontent, (Except.ok.inj h).symm⟩
  | link toDirectory => cases h
  | other => cases h

/-- The entries of a directory are those of its children, and those below its directories. -/
theorem mem_walk (h : walk hashes content path (.directory children) = .ok entries) :
    (∀ child ∈ children, ∃ below, walk hashes content (path ++ [child.1]) child.2 = .ok below) ∧
      ∀ entry, entry ∈ entries ↔
        (∃ child ∈ children, child.2.isDirectoryName = true ∧
          directoryEntry path child = .ok entry) ∨
        (∃ child ∈ children, child.2.isDirectoryName = false ∧
          fileEntry hashes content path child = .ok entry) ∨
        ∃ child ∈ children, ∃ below,
          walk hashes content (path ++ [child.1]) child.2 = .ok below ∧ entry ∈ below := by
  rw [walk] at h
  obtain ⟨directories, hdirectories, h⟩ := ok_of_bind_ok h
  obtain ⟨files, hfiles, h⟩ := ok_of_bind_ok h
  obtain ⟨below, hbelow, h⟩ := ok_of_bind_ok h
  cases h
  constructor
  · intro child hchild
    have hmem : (child.1, walk hashes content (path ++ [child.1]) child.2) ∈
        walkAll hashes content path children := by
      rw [walkAll_eq_map]
      exact List.mem_map_of_mem hchild
    obtain ⟨result, -, hresult⟩ := mem_of_mapM_ok hbelow (List.mem_mergeSort.2 hmem)
    exact ⟨result, hresult⟩
  · intro entry
    rw [List.mem_append, List.mem_append, mem_mapM_ok hdirectories, mem_mapM_ok hfiles,
      List.mem_flatten]
    simp only [mem_mapM_ok hbelow, List.mem_mergeSort, List.mem_filter, walkAll_eq_map,
      List.mem_map, and_assoc, or_assoc, Bool.not_eq_true']
    refine or_congr_right (or_congr_right ?_)
    constructor
    · rintro ⟨result, ⟨_, ⟨child, hchild, rfl⟩, hresult⟩, hentry⟩
      exact ⟨child, hchild, result, hresult, hentry⟩
    · rintro ⟨child, hchild, result, hresult, hentry⟩
      exact ⟨result, ⟨_, ⟨child, hchild, rfl⟩, hresult⟩, hentry⟩

mutual

/-- By recursion on the tree: every entry is scanned, and placed below the path. -/
theorem walk_sound (tree : Tree Inode) (path : List Str)
    (entries : List (RawStorageEntry (Tree Inode))) (hadmitted : tree.Admitted admits)
    (h : walk hashes content path tree = .ok entries) :
    ∀ entry ∈ entries, Scanned hashes content entry ∧ ∃ rest, Placed admits path entry rest := by
  cases tree with
  | directory children =>
    obtain ⟨-, hmem⟩ := mem_walk h
    have hchildren := forall_mem_of_allAdmitted hadmitted
    intro entry hentry
    rcases (hmem entry).1 hentry with ⟨child, hchild, -, hok⟩ | ⟨child, hchild, -, hok⟩ |
      ⟨child, hchild, below, hbelow, hentry⟩
    · obtain ⟨grandchildren, -, rfl⟩ := directoryEntry_ok hashes hok
      refine ⟨.directory _ _, [child.1], List.cons_ne_nil _ _, fun part hpart => ?_, rfl⟩
      rw [List.mem_singleton.1 hpart]
      exact (hchildren child hchild).1
    · obtain ⟨inode, octets, -, hcontent, rfl⟩ := fileEntry_ok hok
      refine ⟨.file _ _ _ hcontent, [child.1], List.cons_ne_nil _ _, fun part hpart => ?_, rfl⟩
      rw [List.mem_singleton.1 hpart]
      exact (hchildren child hchild).1
    · exact walkAll_sound children path hadmitted child hchild below hbelow entry hentry
  | file inode =>
    cases h
    exact fun _ h => (List.not_mem_nil h).elim
  | link toDirectory =>
    cases h
    exact fun _ h => (List.not_mem_nil h).elim
  | other =>
    cases h
    exact fun _ h => (List.not_mem_nil h).elim

theorem walkAll_sound (children : List (Str × Tree Inode)) (path : List Str)
    (hadmitted : AllAdmitted admits children) :
    ∀ child ∈ children, ∀ below, walk hashes content (path ++ [child.1]) child.2 = .ok below →
      ∀ entry ∈ below, Scanned hashes content entry ∧ ∃ rest, Placed admits path entry rest := by
  match children with
  | [] => exact fun _ h => (List.not_mem_nil h).elim
  | (name, tree) :: children =>
    intro child hchild below hbelow entry hentry
    rcases List.mem_cons.1 hchild with rfl | hchild
    · obtain ⟨hscanned, rest, hplaced⟩ :=
        walk_sound tree (path ++ [name]) below hadmitted.2.1 hbelow entry hentry
      refine ⟨hscanned, name :: rest, List.cons_ne_nil _ _, ?_, ?_⟩
      · exact List.forall_mem_cons.2 ⟨hadmitted.1, hplaced.admitted⟩
      · rw [hplaced.archiveName, List.append_assoc]
        rfl
    · exact walkAll_sound children path hadmitted.2.2 child hchild below hbelow entry hentry

end

/-- A child that is a regular file. -/
def childFile (path : List Str) (child : Str × Tree Inode) : Option (Str × Inode) :=
  match child.2 with
  | .file inode => some (joinParts (path ++ [child.1]), inode)
  | _ => none

theorem filesAll_cons {child : Str × Tree Inode} : filesAll path (child :: children) =
    (childFile path child).toList ++
      (child.2.files (path ++ [child.1]) ++ filesAll path children) := by
  obtain ⟨name, tree⟩ := child
  cases tree <;> rfl

/-- Of the children, the files are those that have an entry. -/
theorem mem_fileOf_walk (h : walk hashes content path (.directory children) = .ok entries) :
    file ∈ entries.filterMap fileOf ↔
      (∃ child ∈ children, childFile path child = some file) ∨
        ∃ child ∈ children, ∃ below,
          walk hashes content (path ++ [child.1]) child.2 = .ok below ∧
            file ∈ below.filterMap fileOf := by
  have hfiles : ∀ child ∈ children, child.2.isDirectoryName = false →
      ∃ entry, fileEntry hashes content path child = .ok entry ∧ entry ∈ entries := by
    intro child hchild hname
    rw [walk] at h
    obtain ⟨directories, -, h⟩ := ok_of_bind_ok h
    obtain ⟨files, hfiles, h⟩ := ok_of_bind_ok h
    obtain ⟨below, -, h⟩ := ok_of_bind_ok h
    cases h
    have hmem : child ∈
        (children.filter fun child => !child.2.isDirectoryName).mergeSort childLe := by
      rw [List.mem_mergeSort, List.mem_filter, hname]
      exact ⟨hchild, rfl⟩
    obtain ⟨entry, hentry, hok⟩ := mem_of_mapM_ok hfiles hmem
    exact ⟨entry, hok, List.mem_append_left _ (List.mem_append_right _ hentry)⟩
  obtain ⟨-, hmem⟩ := mem_walk h
  constructor
  · intro hfile
    obtain ⟨entry, hentry, hof⟩ := List.mem_filterMap.1 hfile
    rcases (hmem entry).1 hentry with ⟨child, hchild, -, hok⟩ | ⟨child, hchild, -, hok⟩ |
      ⟨child, hchild, below, hbelow, hentry⟩
    · obtain ⟨grandchildren, -, rfl⟩ := directoryEntry_ok hashes hok
      cases hof
    · obtain ⟨inode, octets, hnode, -, rfl⟩ := fileEntry_ok hok
      refine .inl ⟨child, hchild, ?_⟩
      rw [childFile, hnode, ← hof]
      rfl
    · exact .inr ⟨child, hchild, below, hbelow, List.mem_filterMap.2 ⟨entry, hentry, hof⟩⟩
  · rintro (⟨⟨name, tree⟩, hchild, hof⟩ | ⟨child, hchild, below, hbelow, hfile⟩)
    · cases tree with
      | file inode =>
        obtain ⟨entry, hok, hentry⟩ := hfiles _ hchild rfl
        obtain ⟨inode', octets, hnode, -, rfl⟩ := fileEntry_ok hok
        obtain rfl := Tree.file.inj hnode
        exact List.mem_filterMap.2 ⟨_, hentry, hof⟩
      | directory grandchildren => cases hof
      | link toDirectory => cases hof
      | other => cases hof
    · obtain ⟨entry, hentry, hof⟩ := List.mem_filterMap.1 hfile
      exact List.mem_filterMap.2 ⟨entry, (hmem entry).2 (.inr (.inr ⟨child, hchild, below, hbelow,
        hentry⟩)), hof⟩

mutual

/-- By recursion on the tree: the entries of regular files are those of the tree. -/
theorem mem_files (tree : Tree Inode) (path : List Str)
    (entries : List (RawStorageEntry (Tree Inode)))
    (h : walk hashes content path tree = .ok entries) :
    file ∈ entries.filterMap fileOf ↔ file ∈ tree.files path := by
  cases tree with
  | directory children =>
    rw [mem_fileOf_walk h]
    exact (mem_filesAll children path (mem_walk h).1).symm
  | file inode =>
    cases h
    exact Iff.rfl
  | link toDirectory =>
    cases h
    exact Iff.rfl
  | other =>
    cases h
    exact Iff.rfl

theorem mem_filesAll (children : List (Str × Tree Inode)) (path : List Str)
    (h : ∀ child ∈ children, ∃ below,
      walk hashes content (path ++ [child.1]) child.2 = .ok below) :
    file ∈ filesAll path children ↔ (∃ child ∈ children, childFile path child = some file) ∨
      ∃ child ∈ children, ∃ below, walk hashes content (path ++ [child.1]) child.2 = .ok below ∧
        file ∈ below.filterMap fileOf := by
  match children with
  | [] => simp [filesAll]
  | (name, tree) :: children =>
    rw [List.forall_mem_cons] at h
    obtain ⟨⟨below, hbelow⟩, hrest⟩ := h
    rw [filesAll_cons, List.mem_append, List.mem_append, Option.mem_toList,
      ← mem_files tree (path ++ [name]) below hbelow, mem_filesAll children path hrest]
    simp only [List.mem_cons, exists_eq_or_imp, hbelow, Except.ok.injEq, exists_eq_left']
    exact or_assoc.symm.trans or_or_or_comm

end

theorem toRawRow_of_scanned (h : Scanned hashes content entry) :
    entry.toRawRow = rowOf hashes (entry.archiveName,
      match entry.source with
      | .file inode => content inode
      | _ => none) := by
  cases h with
  | directory name children => rfl
  | file name inode octets hcontent =>
    simp only [hcontent]
    rfl

end scanned

section storage

variable {Archive : Type} {host : Host Archive} {Inode Digest : Type} {hashes : RawHashes Digest}
variable {storage : RawStorage host Inode} {holdsBackups : Bool} {Source : Type}
variable {inventory : RawStorageInventory (Tree Inode) Digest}
variable {entries : List (RawStorageEntry Source)} {summary : RawStorageInventory Source Digest}

structure Summarised (hashes : RawHashes Digest) (entries : List (RawStorageEntry Source))
    (summary : RawStorageInventory Source Digest) : Prop where
  listed : summary.entries = entries
  fileCount : summary.fileCount = (entries.map (·.toRawRow)).countP (·.kind = .file)
  directoryCount : summary.directoryCount = (entries.map (·.toRawRow)).countP (·.kind = .directory)
  totalBytes : summary.totalBytes =
    (((entries.map (·.toRawRow)).filter (·.kind = .file)).map (·.size)).sum
  digest : rawInventoryDigest hashes (entries.map (·.toRawRow)) = .ok summary.inventorySha256

theorem summarised_of_ok {sourceState : String}
    (h : inventoryOf hashes sourceState entries = .ok summary) :
    Summarised hashes entries summary := by
  obtain ⟨digest, hdigest, rfl⟩ := map_eq_ok h
  exact ⟨rfl, rfl, rfl, rfl, hdigest⟩

/-- What a scan comes to. -/
structure Inventoried (hashes : RawHashes Digest) (storage : RawStorage host Inode)
    (inventory : RawStorageInventory (Tree Inode) Digest) : Prop where
  summarised : Summarised hashes inventory.entries inventory
  scanned : ∀ entry ∈ inventory.entries, Scanned hashes storage.content entry
  placed : ∀ entry ∈ inventory.entries, ∃ rest, Placed host.admits [] entry rest
  files : ∀ file, file ∈ inventory.entries.filterMap fileOf ↔ file ∈ storage.files

theorem inventoried_of_scan (h : scanRawStorage hashes storage holdsBackups = .ok inventory) :
    Inventoried hashes storage inventory := by
  unfold scanRawStorage at h
  have hadmitted := storage.admitted
  cases hsource : storage.source with
  | none =>
    simp only [hsource] at h
    have hsummary := summarised_of_ok h
    have hentries := hsummary.listed
    rw [← hentries] at hsummary
    refine ⟨hsummary, ?_, ?_, ?_⟩
    · rw [hentries]
      exact fun _ h => (List.not_mem_nil h).elim
    · rw [hentries]
      exact fun _ h => (List.not_mem_nil h).elim
    · intro file
      rw [hentries, RawStorage.files, hsource]
      exact Iff.rfl
  | some tree =>
    rw [hsource] at h
    cases tree with
    | directory children =>
      dsimp only at h
      split at h
      · cases h
      · obtain ⟨entries, hwalk, h⟩ := ok_of_bind_ok h
        have hsummary := summarised_of_ok h
        have hentries := hsummary.listed
        have hsound := walk_sound (.directory children) [] entries
          (hadmitted _ (Option.mem_def.2 hsource)) hwalk
        rw [← hentries] at hsummary
        refine ⟨hsummary, ?_, ?_, ?_⟩
        · rw [hentries]
          exact fun entry hentry => (hsound entry hentry).1
        · rw [hentries]
          exact fun entry hentry => (hsound entry hentry).2
        · intro file
          rw [hentries, mem_files _ _ _ hwalk, RawStorage.files, hsource]
          rfl
    | file inode => cases h
    | link toDirectory => cases h
    | other => cases h

end storage

end FounderOs.Recovery
