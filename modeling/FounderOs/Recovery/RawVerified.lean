import FounderOs.Recovery.RawRoundTrip

namespace FounderOs.Recovery

open RepositoryAudit (joinParts pathParts)

/-- Lists whose images are the same up to order are so themselves, where the images differ. -/
theorem perm_of_map {α β : Type} [DecidableEq α] [DecidableEq β] {f : α → β} {xs ys : List α}
    (hinj : ∀ a ∈ xs ++ ys, ∀ b ∈ xs ++ ys, f a = f b → a = b)
    (h : (xs.map f).Perm (ys.map f)) : xs.Perm ys := by
  have hcount {a : α} (ha : a ∈ xs ++ ys) {zs : List α} (hzs : ∀ b ∈ zs, b ∈ xs ++ ys) :
      (zs.map f).count (f a) = zs.count a := by
    rw [List.count, List.countP_map]
    refine List.countP_congr fun b hb => ?_
    simp only [Function.comp_apply, beq_iff_eq]
    exact ⟨fun hsame => hinj b (hzs b hb) a ha hsame, congrArg f⟩
  rw [List.perm_iff_count]
  intro a
  by_cases ha : a ∈ xs ++ ys
  · rw [← hcount ha fun b hb => List.mem_append_left _ hb,
      ← hcount ha fun b hb => List.mem_append_right _ hb, h.count_eq]
  · rw [List.mem_append, not_or] at ha
    rw [List.count_eq_zero_of_not_mem ha.1, List.count_eq_zero_of_not_mem ha.2]

section names

variable {Archive : Type} {host : Host Archive} {parts : List Str}

theorem arcname_eq (hparts : parts ≠ []) :
    rawStorageName ++ 47 :: joinParts parts = joinParts (rawStorageName :: parts) := by
  have h : [47].intercalate ([rawStorageName] ++ parts) =
      [47].intercalate [rawStorageName] ++ 47 :: [47].intercalate parts :=
    Separated.intercalate_append (List.cons_ne_nil _ _) hparts
  rw [List.intercalate_singleton] at h
  exact h.symm

theorem host_slash (hparts : ∀ part ∈ parts, host.admits part = true) :
    ∀ part ∈ rawStorageName :: parts, 47 ∉ part := by
  rw [List.forall_mem_cons]
  exact ⟨by decide, fun part hpart => (host.admits_component part (hparts part hpart)).2.1⟩

theorem splitOn_arcname (hne : parts ≠ []) (hparts : ∀ part ∈ parts, host.admits part = true) :
    (rawStorageName ++ 47 :: joinParts parts).splitOn 47 = rawStorageName :: parts := by
  rw [arcname_eq hne]
  exact RepositoryAudit.splitOn_joinParts (List.cons_ne_nil _ _) (host_slash hparts)

theorem pathParts_arcname (hne : parts ≠ []) (hparts : ∀ part ∈ parts, host.admits part = true) :
    pathParts (rawStorageName ++ 47 :: joinParts parts) = rawStorageName :: parts := by
  rw [pathParts, splitOn_arcname hne hparts, List.filter_eq_self, List.forall_mem_cons]
  refine ⟨by decide, fun part hpart => ?_⟩
  obtain ⟨hnil, -, -, hdot, -⟩ := host.admits_component part (hparts part hpart)
  simp [hnil, hdot]

theorem not_mem_joinParts (hparts : ∀ part ∈ parts, host.admits part = true) :
    0 ∉ joinParts parts := by
  intro hzero
  have hall : ∀ c ∈ joinParts parts, c ≠ 0 := Text.forall_intercalate (by decide)
    fun part hpart c hc hzero => (host.admits_component part (hparts part hpart)).2.2.1 (hzero ▸ hc)
  exact hall 0 hzero rfl

end names

section additions

variable {Archive Inode Digest : Type} {host : Host Archive} {hashes : RawHashes Digest}
variable {storage : RawStorage host Inode} {entry : RawStorageEntry (Tree Inode)}
variable {entries : List (RawStorageEntry (Tree Inode))}
variable {inventory : RawStorageInventory (Tree Inode) Digest}

def fileAddition (storage : RawStorage host Inode) (file : Str × Inode) : AddedFile Inode where
  arcname := rawStorageName ++ 47 :: file.1
  inode := file.2
  links := storage.links file.2
  content := (storage.content file.2).getD []

def additionOf (storage : RawStorage host Inode) (entry : RawStorageEntry (Tree Inode)) :
    Addition Inode :=
  match fileOf entry with
  | some file => .file (fileAddition storage file)
  | none => .directory (rawStorageName ++ 47 :: entry.archiveName)

theorem rawAddition_of_scanned (h : Scanned hashes storage.content entry) :
    rawAddition storage entry = .ok (additionOf storage entry) := by
  cases h with
  | directory name children => rfl
  | file name inode octets hcontent =>
    simp only [rawAddition, rowOf, hcontent, additionOf, fileOf, fileAddition, Option.getD_some]

theorem arcname_additionOf : (additionOf storage entry).arcname =
    rawStorageName ++ 47 :: entry.archiveName := by
  unfold additionOf fileOf
  cases entry.source <;> rfl

theorem files_additionOf : (entries.map (additionOf storage)).filterMap Addition.file? =
    (entries.filterMap fileOf).map (fileAddition storage) := by
  rw [List.filterMap_map, List.map_filterMap]
  congr 1
  funext entry
  rw [Function.comp_apply, additionOf]
  cases fileOf entry <;> rfl

theorem mem_added (hinventoried : Inventoried hashes storage inventory) {added : AddedFile Inode} :
    added ∈ (inventory.entries.map (additionOf storage)).filterMap Addition.file? ↔
      ∃ file ∈ storage.files, fileAddition storage file = added := by
  rw [files_additionOf, List.mem_map]
  exact exists_congr fun file => and_congr_left' (hinventoried.files file)

theorem arcname_inj {name name' : Str}
    (h : rawStorageName ++ 47 :: name = rawStorageName ++ 47 :: name') : name = name' :=
  (List.cons.inj (List.append_cancel_left h)).2

/-- The names of a raw storage link to different inodes. -/
def RawStorage.Unaliased (storage : RawStorage host Inode) : Prop :=
  ∀ file ∈ storage.files, ∀ other ∈ storage.files, file.2 = other.2 → file.1 = other.1

variable [DecidableEq Inode]

theorem counted_additions (hinventoried : Inventoried hashes storage inventory) :
    Counted [] (inventory.entries.map (additionOf storage)) := by
  refine ⟨fun _ _ _ h => (Option.some_ne_none _ h.symm).elim, ?_⟩
  intro added hadded other hother hinode hne
  obtain ⟨file, hfile, rfl⟩ := (mem_added hinventoried).1 hadded
  obtain ⟨file', hfile', rfl⟩ := (mem_added hinventoried).1 hother
  cases hsource : storage.source with
  | none =>
    rw [RawStorage.files, hsource] at hfile
    exact (List.not_mem_nil hfile).elim
  | some tree =>
    rw [RawStorage.files, hsource] at hfile hfile'
    refine storage.counted tree (Option.mem_def.2 hsource) file hfile file' hfile' hinode ?_
    intro hsame
    exact hne (congrArg (fun name => rawStorageName ++ 47 :: name) hsame)

theorem unlinked_additions (hinventoried : Inventoried hashes storage inventory) :
    Unlinked [] (inventory.entries.map (additionOf storage)) ↔ storage.Unaliased := by
  constructor
  · intro hunlinked file hfile other hother hinode
    exact arcname_inj (hunlinked.among _ ((mem_added hinventoried).2 ⟨file, hfile, rfl⟩) _
      ((mem_added hinventoried).2 ⟨other, hother, rfl⟩) hinode)
  · intro hunaliased
    refine ⟨fun _ _ _ h => (Option.some_ne_none _ h.symm).elim, ?_⟩
    intro added hadded other hother hinode
    obtain ⟨file, hfile, rfl⟩ := (mem_added hinventoried).1 hadded
    obtain ⟨file', hfile', rfl⟩ := (mem_added hinventoried).1 hother
    exact congrArg (fun name => rawStorageName ++ 47 :: name)
      (hunaliased file hfile file' hfile' hinode)

/-- The archive is what its additions make of it. -/
theorem created (hinventoried : Inventoried hashes storage inventory) :
    ∃ archive, createRawStorageArchive storage inventory = .ok archive ∧
      host.members archive =
        some (addAll [] (inventory.entries.map (additionOf storage))) := by
  refine ⟨host.write (addAll [] (inventory.entries.map (additionOf storage))), ?_, ?_⟩
  · rw [createRawStorageArchive, mapM_eq_map fun entry hentry =>
      rawAddition_of_scanned (hinventoried.scanned entry hentry)]
    rfl
  · refine host.members_write _ (addAll_addable (fun _ h => (List.not_mem_nil h).elim) ?_)
    intro addition haddition
    obtain ⟨entry, hentry, rfl⟩ := List.mem_map.1 haddition
    obtain ⟨rest, hplaced⟩ := hinventoried.placed entry hentry
    rw [arcname_additionOf, hplaced.archiveName, List.nil_append,
      splitOn_arcname hplaced.ne_nil hplaced.admitted]
    exact List.forall_mem_cons.2 ⟨host.admits_portable _ (by decide), hplaced.admitted⟩

end additions

section verify

variable {Archive Inode Digest : Type} {host : Host Archive} {hashes : RawHashes Digest}
variable {storage : RawStorage host Inode} {member : TarMember} {members : List TarMember}
variable {found : RawStorageEntry Unit} {entry : RawStorageEntry (Tree Inode)}
variable {inventory : RawStorageInventory (Tree Inode) Digest} {archive : Archive}

/-- A member that is safe, with what it holds. -/
def memberFound (member : TarMember) : Str × Option Octets :=
  (joinParts (pathParts member.name).tail, if member.type.isFile then some member.content else none)

def entryFound (storage : RawStorage host Inode) (entry : RawStorageEntry (Tree Inode)) :
    Str × Option Octets :=
  (entry.archiveName, match entry.source with
    | .file inode => storage.content inode
    | _ => none)

theorem memberEntry_ok (h : memberEntry hashes member = .ok found) :
    unsafeMember member = false ∧ found = ⟨rowOf hashes (memberFound member), ()⟩ := by
  unfold memberEntry at h
  dsimp only at h
  split at h
  · cases h
  · next hsafe =>
    refine ⟨Bool.eq_false_iff.2 hsafe, ?_⟩
    unfold memberFound
    split at h
    · next hfile =>
      rw [if_pos hfile]
      split at h
      · cases h
      · exact (Except.ok.inj h).symm
    · next hfile =>
      rw [if_neg hfile]
      split at h
      · exact (Except.ok.inj h).symm
      · cases h

theorem memberEntry_of_safe (hsafe : unsafeMember member = false)
    (htruncated : member.truncated = false)
    (htype : member.type.isFile = true ∨ member.type.isDirectory = true) :
    memberEntry hashes member = .ok ⟨rowOf hashes (memberFound member), ()⟩ := by
  unfold memberEntry memberFound
  rw [hsafe, htruncated]
  rcases htype with hfile | hdirectory
  · rw [hfile]
    rfl
  · cases hfile : member.type.isFile with
    | true => rfl
    | false =>
      rw [hdirectory]
      rfl

theorem pathParts_of_placed {rest : List Str} (hplaced : Placed host.admits [] entry rest) :
    pathParts (rawStorageName ++ 47 :: entry.archiveName) = rawStorageName :: rest := by
  rw [hplaced.archiveName, List.nil_append]
  exact pathParts_arcname hplaced.ne_nil hplaced.admitted

theorem safe_of_placed {rest : List Str} (hplaced : Placed host.admits [] entry rest)
    (hname : member.name = rawStorageName ++ 47 :: entry.archiveName)
    (htype : member.type.isLink = false) : unsafeMember member = false := by
  have hlength : 0 < rest.length := List.length_pos_iff.2 hplaced.ne_nil
  have hdots : [46, 46] ∉ rest := fun hmem =>
    (host.admits_component _ (hplaced.admitted _ hmem)).2.2.2.2 rfl
  have hfirst : ([46, 46] : Str) ≠ rawStorageName := by decide
  have hhead : (rawStorageName ++ 47 :: entry.archiveName).head? = some 114 := rfl
  simp only [unsafeMember, hname, pathParts_of_placed hplaced, htype, hhead, Bool.or_false,
    List.length_cons, List.head?_cons]
  have hlong : ¬ rest.length + 1 < 2 := by omega
  rw [decide_eq_false hlong]
  simp [hdots, hfirst]

/-- What is added as it is becomes an entry with the row that it was added for. -/
theorem memberEntry_plain (hscanned : Scanned hashes storage.content entry) {rest : List Str}
    (hplaced : Placed host.admits [] entry rest) :
    memberEntry hashes (additionOf storage entry).plain = .ok ⟨entry.toRawRow, ()⟩ := by
  have hplain : (additionOf storage entry).plain.name = rawStorageName ++ 47 :: entry.archiveName ∧
      (additionOf storage entry).plain.truncated = false := by
    unfold additionOf fileOf
    cases entry.source <;> exact ⟨rfl, rfl⟩
  have hrelative : joinParts (pathParts (additionOf storage entry).plain.name).tail =
      entry.archiveName := by
    rw [hplain.1, pathParts_of_placed hplaced]
    exact hplaced.archiveName.symm
  have hsame : memberFound (additionOf storage entry).plain = entryFound storage entry ∧
      ((additionOf storage entry).plain.type.isFile = true ∨
        (additionOf storage entry).plain.type.isDirectory = true) := by
    unfold memberFound entryFound
    rw [hrelative]
    cases hscanned with
    | directory name children => exact ⟨rfl, .inr rfl⟩
    | file name inode octets hcontent =>
      refine ⟨?_, .inl rfl⟩
      simp only [hcontent]
      simp [additionOf, fileOf, fileAddition, Addition.plain, fileMember, MemberType.isFile,
        hcontent]
  have hlink : (additionOf storage entry).plain.type.isLink = false := by
    rcases hsame.2 with hfile | hdirectory
    · exact MemberType.not_isLink_of_isFile hfile
    · exact MemberType.not_isLink_of_isDirectory hdirectory
  rw [memberEntry_of_safe (safe_of_placed hplaced hplain.1 hlink) hplain.2 hsame.2, hsame.1,
    toRawRow_of_scanned hscanned]
  rfl

variable {Source : Type} {expected : RawStorageInventory Source Digest}

/-- What a verification that succeeds has found. -/
structure Verified (hashes : RawHashes Digest) (members : List TarMember)
    (expected : RawStorageInventory Source Digest) : Prop where
  safe : ∀ member ∈ members, unsafeMember member = false
  fileCount : (members.map fun member =>
    rowOf hashes (memberFound member)).countP (·.kind = .file) = expected.fileCount
  directoryCount : (members.map fun member =>
    rowOf hashes (memberFound member)).countP (·.kind = .directory) = expected.directoryCount
  digest : hashes.inventory (inventoryText
    (members.map fun member => rowOf hashes (memberFound member))) = expected.inventorySha256

theorem digest_ok {rows : List RawRow} {digest : Digest}
    (h : rawInventoryDigest hashes rows = .ok digest) :
    hashes.inventory (inventoryText rows) = digest := by
  unfold rawInventoryDigest at h
  split at h
  · exact Except.ok.inj h
  · cases h

variable [DecidableEq Digest]

theorem verified_of_ok
    (h : verifyRawStorageArchive hashes host archive expected = .ok ()) :
    ∃ members, host.members archive = some members ∧ Verified hashes members expected := by
  obtain ⟨members, hmembers, h⟩ := ok_of_bind_ok h
  obtain ⟨entries, hentries, h⟩ := ok_of_bind_ok h
  obtain ⟨actual, hactual, h⟩ := ok_of_bind_ok h
  have hread : host.members archive = some members := by
    cases hread : host.members archive with
    | none =>
      rw [hread] at hmembers
      cases hmembers
    | some found =>
      rw [hread] at hmembers
      exact congrArg some (Except.ok.inj hmembers)
  split at h
  · cases h
  · next hsame =>
    simp only [not_or, ne_eq, not_not] at hsame
    obtain ⟨hfiles, hdirectories, -, hdigest⟩ := hsame
    have hsummary := summarised_of_ok hactual
    have hrows : entries.map (·.toRawRow) =
        members.map fun member => rowOf hashes (memberFound member) :=
      map_of_mapM_ok (fun member found hfound => by rw [(memberEntry_ok hfound).2]) hentries
    refine ⟨members, hread, fun member hmember => ?_, ?_, ?_, ?_⟩
    · obtain ⟨found, -, hfound⟩ := mem_of_mapM_ok hentries hmember
      exact (memberEntry_ok hfound).1
    · rw [← hfiles, hsummary.fileCount, hrows]
    · rw [← hdirectories, hsummary.directoryCount, hrows]
    · rw [← hdigest, ← digest_ok hsummary.digest, hrows]

end verify

section roundTrip

variable {Archive Inode Digest : Type} {host : Host Archive} (hashes : RawHashes Digest)
variable (storage : RawStorage host Inode) (inventory : RawStorageInventory (Tree Inode) Digest)
variable (members : List TarMember)

def foundAll : List (Str × Option Octets) :=
  members.map memberFound ++ inventory.entries.map (entryFound storage)

/-- No two contents, nor two inventories, of a storage and an archive have one digest. -/
structure HashesApart : Prop where
  files : ∀ found ∈ foundAll storage inventory members,
    ∀ other ∈ foundAll storage inventory members, ∀ first ∈ found.2, ∀ second ∈ other.2,
      hashes.file first = hashes.file second → first = second
  inventories :
    hashes.inventory (inventoryText
        (members.map fun member => rowOf hashes (memberFound member))) =
      hashes.inventory (inventoryText (inventory.entries.map (·.toRawRow))) →
    inventoryText (members.map fun member => rowOf hashes (memberFound member)) =
      inventoryText (inventory.entries.map (·.toRawRow))

/-- The archive has the files and directories of the inventory, with the same relative names and
contents, and all of them below the prefix. -/
structure HoldsExactly : Prop where
  same : (members.map memberFound).Perm (inventory.entries.map (entryFound storage))
  inside : ∀ member ∈ members, member.name.head? ≠ some 47 ∧ member.type.isLink = false ∧
    ∃ rest, rest ≠ [] ∧ [46, 46] ∉ rest ∧ pathParts member.name = rawStorageName :: rest

variable {hashes storage inventory members}

theorem rowOf_inj {found other : Str × Option Octets}
    (hfiles : ∀ first ∈ found.2, ∀ second ∈ other.2,
      hashes.file first = hashes.file second → first = second)
    (h : rowOf hashes found = rowOf hashes other) : found = other := by
  obtain ⟨name, content⟩ := found
  obtain ⟨name', content'⟩ := other
  have hnames : name = name' := by
    have hrow := congrArg RawRow.archiveName h
    cases content <;> cases content' <;> exact hrow
  cases content with
  | none =>
    cases content' with
    | none => rw [hnames]
    | some second => cases congrArg RawRow.kind h
  | some first =>
    cases content' with
    | none => cases congrArg RawRow.kind h
    | some second =>
      have hsha : some (hashes.file first) = some (hashes.file second) := congrArg RawRow.sha256 h
      rw [hnames, hfiles first rfl second rfl (Option.some.inj hsha)]

theorem hashed_rowOf (found : Str × Option Octets) : (rowOf hashes found).Hashed := by
  intro sha256 hsha
  unfold rowOf at hsha
  cases hcontent : found.2 with
  | none =>
    rw [hcontent] at hsha
    cases hsha
  | some octets =>
    rw [hcontent] at hsha
    cases hsha
    exact hashes.file_hex octets

theorem countP_kinds {rows : List RawRow} :
    rows.length = rows.countP (·.kind = .file) + rows.countP (·.kind = .directory) := by
  induction rows with
  | nil => rfl
  | cons row rows ih =>
    rw [List.length_cons, List.countP_cons, List.countP_cons, ih]
    cases hkind : row.kind with
    | file => simp; omega
    | directory => simp; omega

theorem unsafeMember_eq_false {member : TarMember} (h : unsafeMember member = false) :
    member.name.head? ≠ some 47 ∧ member.type.isLink = false ∧
      ∃ rest, rest ≠ [] ∧ [46, 46] ∉ rest ∧ pathParts member.name = rawStorageName :: rest := by
  simp only [unsafeMember, Bool.or_eq_false_iff, decide_eq_false_iff_not, beq_eq_false_iff_ne,
    not_lt, not_not] at h
  obtain ⟨⟨⟨⟨hhead, hdots⟩, hlength⟩, hfirst⟩, hlink⟩ := h
  refine ⟨hhead, hlink, (pathParts member.name).tail, ?_, ?_, ?_⟩
  · intro hnil
    have htail := congrArg List.length hnil
    rw [List.length_tail, List.length_nil] at htail
    omega
  · intro hmem
    rw [List.contains_eq_mem, decide_eq_false_iff_not] at hdots
    exact hdots (List.mem_of_mem_tail hmem)
  · exact (List.cons_head?_tail hfirst).symm

/-- What is verified against the inventory of a storage holds exactly that. -/
theorem holdsExactly_of_verified (hinventoried : Inventoried hashes storage inventory)
    (hverified : Verified hashes members inventory)
    (hapart : HashesApart hashes storage inventory members) :
    HoldsExactly storage inventory members := by
  refine ⟨?_, fun member hmember => unsafeMember_eq_false (hverified.safe member hmember)⟩
  have hrows : inventory.entries.map (·.toRawRow) =
      (inventory.entries.map (entryFound storage)).map (rowOf hashes) := by
    rw [List.map_map]
    exact List.map_congr_left fun entry hentry =>
      toRawRow_of_scanned (hinventoried.scanned entry hentry)
  have hlength : (members.map fun member => rowOf hashes (memberFound member)).length =
      (inventory.entries.map (·.toRawRow)).length := by
    rw [countP_kinds, countP_kinds, hverified.fileCount, hverified.directoryCount,
      hinventoried.summarised.fileCount, hinventoried.summarised.directoryCount]
  have htext := hapart.inventories
    (hverified.digest.trans (digest_ok hinventoried.summarised.digest).symm)
  have hperm := perm_of_inventoryText (fun row hrow => by
      obtain ⟨member, -, rfl⟩ := List.mem_map.1 hrow
      exact hashed_rowOf _) (fun row hrow => by
      rw [hrows] at hrow
      obtain ⟨found, -, rfl⟩ := List.mem_map.1 hrow
      exact hashed_rowOf _) (fun row hrow => by
      obtain ⟨entry, hentry, rfl⟩ := List.mem_map.1 hrow
      obtain ⟨rest, hplaced⟩ := hinventoried.placed entry hentry
      rw [hplaced.archiveName]
      exact not_mem_joinParts hplaced.admitted) hlength htext
  rw [hrows, ← Function.comp_def, ← List.map_map] at hperm
  refine perm_of_map (fun found hfound other hother hsame => ?_) hperm
  exact rowOf_inj (fun first hfirst second hsecond =>
    hapart.files found hfound other hother first hfirst second hsecond) hsame

variable [DecidableEq Inode] [DecidableEq Digest]

/-- An archive is verified exactly if no two names of its storage are linked to one inode. -/
theorem verified_created_iff (hinventoried : Inventoried hashes storage inventory)
    {archive : Archive}
    (hmembers : host.members archive =
      some (addAll [] (inventory.entries.map (additionOf storage)))) :
    verifyRawStorageArchive hashes host archive inventory = .ok () ↔
      storage.Unaliased := by
  rw [← unlinked_additions hinventoried]
  constructor
  · intro h
    obtain ⟨members, hread, hverified⟩ := verified_of_ok h
    obtain rfl := Option.some.inj (hmembers.symm.trans hread)
    by_contra hlinked
    obtain ⟨member, hmember, htype⟩ := hardLink_of_linked (counted_additions hinventoried) hlinked
    have hsafe := (unsafeMember_eq_false (hverified.safe member hmember)).2.1
    rw [htype] at hsafe
    cases hsafe
  · intro hunlinked
    have hentries : (addAll [] (inventory.entries.map (additionOf storage))).mapM
        (memberEntry hashes) = .ok (inventory.entries.map fun entry => ⟨entry.toRawRow, ()⟩) := by
      rw [addAll_of_unlinked hunlinked, List.map_map, List.mapM_map]
      refine mapM_eq_map fun entry hentry => ?_
      obtain ⟨rest, hplaced⟩ := hinventoried.placed entry hentry
      exact memberEntry_plain (hinventoried.scanned entry hentry) hplaced
    have hrows : (inventory.entries.map fun entry =>
        (⟨entry.toRawRow, ()⟩ : RawStorageEntry Unit)).map (·.toRawRow) =
          inventory.entries.map (·.toRawRow) := by
      rw [List.map_map]
      rfl
    have hsummary := hinventoried.summarised
    unfold verifyRawStorageArchive
    rw [hmembers]
    simp only [Option.elim, bind, Except.bind, hentries, inventoryOf, hrows, hsummary.digest,
      Except.map, hsummary.fileCount, hsummary.directoryCount, hsummary.totalBytes, ne_eq,
      not_true_eq_false, or_self, if_false]

/-- Every storage that is scanned has an archive that is verified, and whatever is verified holds
exactly the storage, if and only if no two names of the storage are linked to one inode. -/
theorem raw_storage_round_trip_iff {holdsBackups : Bool}
    (hscan : scanRawStorage hashes storage holdsBackups = .ok inventory) :
    ((∃ archive, createRawStorageArchive storage inventory = .ok archive ∧
        verifyRawStorageArchive hashes host archive inventory = .ok ()) ∧
      ∀ archive members, host.members archive = some members →
        HashesApart hashes storage inventory members →
          verifyRawStorageArchive hashes host archive inventory = .ok () →
            HoldsExactly storage inventory members) ↔ storage.Unaliased := by
  have hinventoried := inventoried_of_scan hscan
  obtain ⟨archive, hcreated, hmembers⟩ := created hinventoried
  rw [← verified_created_iff hinventoried hmembers]
  constructor
  · rintro ⟨⟨archive', hcreated', hverified⟩, -⟩
    obtain rfl := Except.ok.inj (hcreated.symm.trans hcreated')
    exact hverified
  · intro hverified
    refine ⟨⟨archive, hcreated, hverified⟩, fun archive members hmembers hapart hverified => ?_⟩
    obtain ⟨members', hmembers', hverified⟩ := verified_of_ok hverified
    obtain rfl := Option.some.inj (hmembers.symm.trans hmembers')
    exact holdsExactly_of_verified hinventoried hverified hapart

end roundTrip

/-- An archive that is kept as its members. -/
def memberHost : Host (List TarMember) where
  admits := portableName
  admits_component := portable_component
  admits_portable _ h := h
  write := id
  members := some
  members_write _ _ := rfl

def sampleRows : List RawRow :=
  [⟨Str.of "a", .file, 1,
      some (Str.of "ca978112ca1bbdcafac231b39a23dc4da786eff8147c4e72b9807785afee48bb")⟩,
    ⟨Str.of "d", .directory, 0, none⟩,
    ⟨Str.of "d/b", .file, 1,
      some (Str.of "3e23e8160039594a33894f6564e1b1348bbd7a0088d42c4acb73eeaed59c009d")⟩]

/-- The digests are those of the texts that the samples have. -/
def sampleRawHashes : RawHashes Str where
  file content :=
    if content = [98] then Str.of "3e23e8160039594a33894f6564e1b1348bbd7a0088d42c4acb73eeaed59c009d"
    else Str.of "ca978112ca1bbdcafac231b39a23dc4da786eff8147c4e72b9807785afee48bb"
  file_hex content := by split <;> decide +kernel
  inventory text :=
    if text = sampleRows.flatMap RawRow.line then
      Str.of "04b3a279c428a7049ad4bbc8992691b58fed2d55dba437e8c686d501095e5152"
    else Str.of "e409e090f177bc71c4f47ecab0cdb27a0a060d3d9c363da17100e58937116f0f"

/-- A file in a directory beside another file. -/
def sampleTree (inode : Nat) : Tree Nat :=
  .directory [(Str.of "a", .file 0), (Str.of "d", .directory [(Str.of "b", .file inode)])]

def sampleContent (inode : Nat) : Option Octets := some (if inode = 1 then [98] else [97])

def sampleRawStorage (inode links : Nat) (hlinks : inode = 0 → 1 < links) :
    RawStorage memberHost Nat where
  source := some (sampleTree inode)
  content := sampleContent
  links _ := links
  admitted tree htree := by
    obtain rfl := Option.some.inj htree
    exact ⟨by decide +kernel, trivial, by decide +kernel, ⟨by decide +kernel, trivial, trivial⟩,
      trivial⟩
  counted tree htree := by
    obtain rfl := Option.some.inj htree
    intro first hfirst second hsecond hinode hne
    rcases List.mem_cons.1 hfirst with rfl | hfirst
    · rcases List.mem_cons.1 hsecond with rfl | hsecond
      · exact (hne rfl).elim
      · obtain rfl := List.mem_singleton.1 hsecond
        exact hlinks hinode.symm
    · obtain rfl := List.mem_singleton.1 hfirst
      rcases List.mem_cons.1 hsecond with rfl | hsecond
      · exact hlinks hinode
      · exact (hne (congrArg Prod.fst (List.mem_singleton.1 hsecond).symm)).elim

theorem sampleRawStorage_scanned {inode links : Nat} {hlinks : inode = 0 → 1 < links}
    (hinode : inode = 0 ∨ inode = 1) :
    ∃ inventory, scanRawStorage sampleRawHashes (sampleRawStorage inode links hlinks) false =
      .ok inventory := by
  have hle : Str.le (Str.of "a") (Str.of "d") = true := by decide +kernel
  have hsorted : (walkAll sampleRawHashes sampleContent []
      [(Str.of "a", .file 0), (Str.of "d", .directory [(Str.of "b", .file inode)])]).mergeSort
        childLe = walkAll sampleRawHashes sampleContent []
          [(Str.of "a", .file 0), (Str.of "d", .directory [(Str.of "b", .file inode)])] := by
    refine List.mergeSort_of_pairwise ?_
    simp only [walkAll, List.pairwise_cons, List.mem_singleton, forall_eq, List.not_mem_nil,
      false_implies, implies_true, List.Pairwise.nil, and_true]
    exact hle
  have hscanned : (scanRawStorage sampleRawHashes (sampleRawStorage inode links hlinks)
      false).toOption.isSome = true := by
    change (walk sampleRawHashes sampleContent [] (sampleTree inode) >>=
      inventoryOf sampleRawHashes "present").toOption.isSome = true
    rw [sampleTree, walk, hsorted]
    rcases hinode with rfl | rfl
    · decide +kernel
    · decide +kernel
  obtain ⟨inventory, hinventory⟩ := Option.isSome_iff_exists.1 hscanned
  exact ⟨inventory, ok_of_toOption hinventory⟩

def apartStorage : RawStorage memberHost Nat := sampleRawStorage 1 1 (by decide)

/-- Two names of one inode. -/
def linkedStorage : RawStorage memberHost Nat := sampleRawStorage 0 2 (by decide)

theorem raw_storage_round_trip_iff_apart : ∃ inventory,
    scanRawStorage sampleRawHashes apartStorage false = .ok inventory ∧
      (((∃ archive, createRawStorageArchive apartStorage inventory = .ok archive ∧
          verifyRawStorageArchive sampleRawHashes memberHost archive inventory = .ok ()) ∧
        ∀ archive members, memberHost.members archive = some members →
          HashesApart sampleRawHashes apartStorage inventory members →
            verifyRawStorageArchive sampleRawHashes memberHost archive inventory = .ok () →
              HoldsExactly apartStorage inventory members) ↔ apartStorage.Unaliased) := by
  obtain ⟨inventory, hscan⟩ := sampleRawStorage_scanned (.inr rfl)
  exact ⟨inventory, hscan, raw_storage_round_trip_iff hscan⟩

/-- The second name is stored as a link, which the verification refuses. -/
theorem linked_storage_refused :
    ¬∀ (storage : RawStorage memberHost Nat) holdsBackups inventory,
      scanRawStorage sampleRawHashes storage holdsBackups = .ok inventory →
        ∃ archive, createRawStorageArchive storage inventory = .ok archive ∧
          verifyRawStorageArchive sampleRawHashes memberHost archive inventory = .ok () := by
  intro hall
  obtain ⟨inventory, hscan⟩ := sampleRawStorage_scanned (.inl rfl)
  obtain ⟨archive, hcreated, hverified⟩ := hall linkedStorage false inventory hscan
  have hinventoried := inventoried_of_scan hscan
  obtain ⟨archive', hcreated', hmembers⟩ := created hinventoried
  obtain rfl := Except.ok.inj (hcreated.symm.trans hcreated')
  have hunaliased := (verified_created_iff hinventoried hmembers).1 hverified
  have hsame := hunaliased (Str.of "a", 0) (by decide +kernel) (Str.of "d/b", 0) (by decide +kernel)
    rfl
  revert hsame
  decide +kernel

end FounderOs.Recovery
