import FounderOs.Recovery.BundleArchive
import FounderOs.RepositoryAudit.PortableTree
import Mathlib.Data.List.Perm.Subperm
import Mathlib.Logic.Equiv.List

namespace FounderOs.Recovery

open RepositoryAudit (pathParts)

section names

variable {name file : Str}

theorem backupFileName_portable : ∀ file ∈ backupFileNames, portableName file = true := by
  decide +kernel

theorem backupFileNames_nodup : backupFileNames.Nodup := by decide +kernel

theorem backupFileNames_sorted : backupFileNames.mergeSort Str.le = backupFileNames :=
  List.mergeSort_of_pairwise (by decide +kernel)

theorem bundleName_component (h : bundleName name = true) :
    name ≠ [] ∧ 47 ∉ name ∧ name ≠ [46] := by
  simp only [bundleName, Bool.and_eq_true, Bool.not_eq_true', List.isPrefixOf_iff_prefix] at h
  obtain ⟨⟨hslash, rest, rfl⟩, -⟩ := h
  refine ⟨by simp [Str.of], fun hmem => ?_, ?_⟩
  · rw [List.contains_eq_mem, decide_eq_false_iff_not] at hslash
    exact hslash hmem
  · intro hdot
    have hhead := congrArg List.head? hdot
    cases hhead

theorem splitOn_member (hname : 47 ∉ name) (hfile : 47 ∉ file) :
    (name ++ 47 :: file).splitOn 47 = [name, file] := by
  have hjoined : name ++ 47 :: file = [47].intercalate [name, file] := by
    simp [List.intercalate, List.intersperse]
  rw [hjoined]
  refine List.splitOn_intercalate 47 ?_ (List.cons_ne_nil _ _)
  simp [hname, hfile]

/-- The name of a member of a bundle is that of its file. -/
theorem pathName_member (hname : bundleName name = true) (hfile : file ∈ backupFileNames) :
    pathName (name ++ 47 :: file) = file := by
  obtain ⟨hnil, hslash, hdot⟩ := bundleName_component hname
  obtain ⟨hnil', hslash', -, hdot', -⟩ :=
    portable_component file (backupFileName_portable file hfile)
  rw [pathName, pathParts, splitOn_member hslash hslash']
  simp [hnil, hdot, hnil', hdot']

end names

section members

variable {members files : List TarMember} {name : Str}

/-- The members that a bundle is made of, each for one of its files. -/
structure BundleOf (members : List TarMember) (name : Str) (files : List TarMember) : Prop where
  named : bundleName name = true
  chosen : files = members.filter (·.type.isFile)
  names : (files.map (·.name)).Perm (backupFileNames.map fun file => name ++ 47 :: file)
  unlinked : ∀ member ∈ members, member.type.isLink = false

theorem expected_nodup : (backupFileNames.map fun file => name ++ 47 :: file).Nodup := by
  refine backupFileNames_nodup.map fun file file' hsame => ?_
  exact (List.cons.inj (List.append_cancel_left hsame)).2

theorem bundleMembers_ok (h : bundleMembers members = .ok (name, files)) :
    BundleOf members name files := by
  unfold bundleMembers at h
  dsimp only at h
  split at h
  · next directory hdirectory =>
    split at h
    · cases h
    · next hstructure =>
      split at h
      · cases h
      · next hname =>
        split at h
        · next hnames =>
          cases h
          simp only [not_or, ne_eq, not_not] at hstructure
          simp only [Bool.not_eq_true', Bool.not_eq_false] at hname
          simp only [Bool.and_eq_true, List.all_eq_true, List.contains_eq_mem,
            decide_eq_true_eq] at hnames
          refine ⟨hname, rfl, ?_, by simpa using hstructure.2.2⟩
          have hsubperm : (backupFileNames.map fun file => directory.name ++ 47 :: file).Subperm
              ((members.filter (·.type.isFile)).map (·.name)) :=
            expected_nodup.subperm fun expected hexpected => hnames.2 expected hexpected
          refine (hsubperm.perm_of_length_le ?_).symm
          rw [List.length_map, List.length_map, hstructure.1]
        · cases h
  · cases h

end members

section extract

variable {Archive : Type} {host : Host Archive} {disk : Disk} {bundle outputRoot : List Str}
variable {members files : List TarMember} {member : TarMember} {archive : Archive} {name : Str}

/-- A regular file of one of the names in a directory. -/
def FileIn (bundle names path : List Str) (node : DiskNode) : Prop :=
  ∃ name ∈ names, path = bundle ++ [name] ∧ ∃ mode content, node = .file mode content

variable {names : List Str}

theorem grows_extractFile (hname : pathName member.name ∈ names) :
    Disk.Grows (FileIn bundle names) disk (extractFile host disk bundle member).1 := by
  unfold extractFile
  dsimp only
  split
  · exact Disk.Grows.refl disk
  · split
    · exact Disk.Grows.refl disk
    · next made hmake => exact Disk.grows_of_make hmake ⟨_, hname, rfl, _, _, rfl⟩

theorem extractFile_ok (h : (extractFile host disk bundle member).2 = .ok ()) :
    (extractFile host disk bundle member).1.node (bundle ++ [pathName member.name]) =
      some (.file 0o600 member.content) := by
  unfold extractFile at h ⊢
  dsimp only at h ⊢
  split at h
  · cases h
  · next hname =>
    rw [if_neg hname]
    split at h
    · cases h
    · next made hmake =>
      split at h
      · cases h
      · next htruncated =>
        rw [(Disk.make_ok hmake).2.2.2, Function.update_self, if_neg htruncated]

/-- By induction on the members that are left. -/
theorem grows_extractFiles (hnames : ∀ member ∈ files, pathName member.name ∈ names) :
    Disk.Grows (FileIn bundle names) disk (extractFiles host disk bundle files).1 := by
  induction files generalizing disk with
  | nil => exact Disk.Grows.refl disk
  | cons member rest ih =>
    rw [List.forall_mem_cons] at hnames
    have hfirst : Disk.Grows (FileIn bundle names) disk (extractFile host disk bundle member).1 :=
      grows_extractFile hnames.1
    rw [extractFiles]
    split
    · next made error hextract =>
      rw [hextract] at hfirst
      exact hfirst
    · next made hextract =>
      rw [hextract] at hfirst
      exact hfirst.trans (ih hnames.2)

theorem extractFiles_ok (h : (extractFiles host disk bundle files).2 = .ok ()) :
    ∀ member ∈ files, (extractFiles host disk bundle files).1.node
      (bundle ++ [pathName member.name]) = some (.file 0o600 member.content) := by
  induction files generalizing disk with
  | nil => exact fun _ h => (List.not_mem_nil h).elim
  | cons member rest ih =>
    rw [extractFiles] at h ⊢
    split at h
    · cases h
    · next made hextract =>
      have hfirst := extractFile_ok (congrArg Prod.snd hextract)
      rw [hextract] at hfirst
      intro other hother
      rcases List.mem_cons.1 hother with rfl | hother
      · have hgrows : Disk.Grows (FileIn bundle (rest.map fun member => pathName member.name)) made
            (extractFiles host made bundle rest).1 :=
          grows_extractFiles fun member hmember => List.mem_map_of_mem hmember
        exact hgrows.keeps hfirst
      · exact ih h other hother

theorem extractFile_of_absent (hbundle : disk.isDirectory bundle = true)
    (habsent : disk.node (bundle ++ [pathName member.name]) = none)
    (hadmits : host.admits (pathName member.name) = true) (htruncated : member.truncated = false) :
    (extractFile host disk bundle member).2 = .ok () := by
  obtain ⟨made, hmake⟩ : ∃ made, disk.make host.admits bundle (pathName member.name)
      (.file (if member.truncated then 0o666 else 0o600) member.content) = .ok made :=
    Disk.make_of_absent hbundle habsent hadmits
  unfold extractFile
  dsimp only
  rw [if_neg (host.admits_component _ hadmits).1, hmake, htruncated]
  rfl

theorem extractFiles_of_absent (hbundle : disk.isDirectory bundle = true)
    (hnodup : (files.map fun member => pathName member.name).Nodup)
    (habsent : ∀ member ∈ files, disk.node (bundle ++ [pathName member.name]) = none)
    (hadmits : ∀ member ∈ files, host.admits (pathName member.name) = true)
    (htruncated : ∀ member ∈ files, member.truncated = false) :
    (extractFiles host disk bundle files).2 = .ok () := by
  induction files generalizing disk with
  | nil => rfl
  | cons member rest ih =>
    rw [List.forall_mem_cons] at habsent hadmits htruncated
    rw [List.map_cons, List.nodup_cons] at hnodup
    have hok := extractFile_of_absent hbundle habsent.1 hadmits.1 htruncated.1
    have hgrows : Disk.Grows (FileIn bundle [pathName member.name]) disk
        (extractFile host disk bundle member).1 := grows_extractFile (List.mem_singleton_self _)
    rw [extractFiles]
    split
    · next made error hextract =>
      rw [hextract] at hok
      cases hok
    · next made hextract =>
      rw [hextract] at hgrows
      refine ih (hgrows.isDirectory hbundle) hnodup.2 (fun other hother => ?_) hadmits.2
        htruncated.2
      rcases hgrows (bundle ++ [pathName other.name]) with
        hsame | ⟨-, node, -, name, hname, hpath, -⟩
      · rw [hsame]
        exact habsent.2 other hother
      · obtain rfl := List.mem_singleton.1 hname
        have hsame := (List.cons.inj (List.append_cancel_left hpath)).1
        exact (hnodup.1 (List.mem_map.2 ⟨other, hother, hsame⟩)).elim

theorem BundleOf.pathNames (h : BundleOf members name files) :
    (files.map fun member => pathName member.name).Perm backupFileNames := by
  have hperm := h.names.map pathName
  have hnames : (backupFileNames.map fun file => name ++ 47 :: file).map pathName =
      backupFileNames := by
    rw [List.map_map]
    refine (List.map_congr_left fun file hfile => ?_).trans (List.map_id _)
    exact pathName_member h.named hfile
  rw [hnames, List.map_map] at hperm
  exact hperm

theorem BundleOf.mem_pathNames (h : BundleOf members name files) :
    ∀ member ∈ files, pathName member.name ∈ backupFileNames := fun _ hmember =>
  h.pathNames.mem_iff.1 (List.mem_map_of_mem hmember)

/-- What is made on the way of an extraction: the directories down to the output, the bundle and its
files. -/
def Made (outputRoot bundle path : List Str) (node : DiskNode) : Prop :=
  path <+: outputRoot ∧ node = .directory 0o700 ∨ path = bundle ∧ node = .directory 0o700 ∨
    FileIn bundle backupFileNames path node

/-- A new directory with regular files of exactly the seven names. -/
structure Extracted (disk final : Disk) (bundle : List Str) (members : List TarMember) : Prop where
  absent : disk.node bundle = none
  directory : final.node bundle = some (.directory 0o700)
  files : ∀ file ∈ backupFileNames, ∃ member ∈ members, member.type.isFile = true ∧
    pathName member.name = file ∧ final.node (bundle ++ [file]) = some (.file 0o600 member.content)
  only : ∀ rest, (final.node (bundle ++ rest)).isSome = true →
    rest = [] ∨ ∃ file ∈ backupFileNames, rest = [file]

theorem grows_extractMembers : ∃ name, bundleName name = true ∧
    Disk.Grows (Made outputRoot (outputRoot ++ [name])) disk
      (extractMembers host disk members outputRoot).1 := by
  unfold extractMembers
  split
  · exact ⟨Str.of "founderos-", by decide +kernel, Disk.Grows.refl disk⟩
  · next name files hmembers =>
    have hbundle := bundleMembers_ok hmembers
    refine ⟨name, hbundle.named, ?_⟩
    split
    · exact Disk.Grows.refl disk
    · next made hmake =>
      have hmade : Disk.Grows (Made outputRoot (outputRoot ++ [name])) disk made :=
        Disk.grows_of_make hmake (.inr (.inl ⟨rfl, rfl⟩))
      have hfiles : Disk.Grows (FileIn (outputRoot ++ [name]) backupFileNames) made
          (extractFiles host made (outputRoot ++ [name]) files).1 :=
        grows_extractFiles hbundle.mem_pathNames
      have hall := hmade.trans (hfiles.mono fun path node hnew => .inr (.inr hnew))
      split <;> rename_i hextract <;> rwa [hextract] at hall

theorem extractMembers_ok {final : Disk} {bundle : List Str}
    (h : extractMembers host disk members outputRoot = (final, .ok bundle)) :
    ∃ name, bundleName name = true ∧ bundle = outputRoot ++ [name] ∧
      Extracted disk final bundle members := by
  unfold extractMembers at h
  split at h
  · cases h
  · next name files hmembers =>
    have hbundle := bundleMembers_ok hmembers
    split at h
    · cases h
    · next made hmake =>
      obtain ⟨-, habsent, -, hmade⟩ := Disk.make_ok hmake
      have hdirectory : made.node (outputRoot ++ [name]) = some (.directory 0o700) := by
        rw [hmade, Function.update_self]
      have hgrows : Disk.Grows (FileIn (outputRoot ++ [name]) backupFileNames) made
          (extractFiles host made (outputRoot ++ [name]) files).1 :=
        grows_extractFiles hbundle.mem_pathNames
      split at h
      · cases h
      · next final' hextract =>
        cases h
        have hfiles := extractFiles_ok (congrArg Prod.snd hextract)
        rw [hextract] at hgrows hfiles
        refine ⟨name, hbundle.named, rfl, habsent, hgrows.keeps hdirectory, fun file hfile => ?_,
          fun rest hthere => ?_⟩
        · obtain ⟨member, hmember, rfl⟩ := List.mem_map.1 (hbundle.pathNames.mem_iff.2 hfile)
          have hchosen := hmember
          rw [hbundle.chosen] at hchosen
          obtain ⟨hmem, htype⟩ := List.mem_filter.1 hchosen
          exact ⟨member, hmem, htype, rfl, hfiles member hmember⟩
        · by_cases hrest : rest = []
          · exact .inl hrest
          · rcases hgrows (outputRoot ++ [name] ++ rest) with hsame | ⟨-, node, -, hnew⟩
            · have hbelow : made.node (outputRoot ++ [name] ++ rest) = none := by
                rw [hmade, Function.update_of_ne (by simpa using hrest)]
                exact disk.node_below habsent
              rw [hsame, hbelow] at hthere
              cases hthere
            · obtain ⟨file, hfile, hpath, -⟩ := hnew
              exact .inr ⟨file, hfile, List.append_cancel_left hpath⟩

variable (host disk archive outputRoot) in
/-- An extraction makes nothing but directories down to the output, and in it one bundle with files
of the seven names; all of them if it is accepted. -/
structure StaysInside : Prop where
  written : ∃ name, bundleName name = true ∧
    Disk.Grows (Made outputRoot (outputRoot ++ [name])) disk
      (extractBundleArchive host disk archive outputRoot).1
  accepted : ∀ bundle, (extractBundleArchive host disk archive outputRoot).2 = .ok bundle →
    ∃ name members, bundleName name = true ∧ bundle = outputRoot ++ [name] ∧
      host.members archive = some members ∧
        Extracted disk (extractBundleArchive host disk archive outputRoot).1 bundle members

theorem staysInside : StaysInside host disk outputRoot archive := by
  have hparents : Disk.Grows (fun path node => path <+: outputRoot ∧ node = .directory 0o700) disk
      (Disk.makeParents host.admits 0o700 disk [] outputRoot).1 := Disk.grows_makeParents
  have hmade {name : Str} : Disk.Grows (Made outputRoot (outputRoot ++ [name])) disk
      (Disk.makeParents host.admits 0o700 disk [] outputRoot).1 :=
    hparents.mono fun path node hnew => .inl hnew
  have hnamed : bundleName (Str.of "founderos-") = true := by decide +kernel
  constructor
  · unfold extractBundleArchive
    split
    · next made error hmake =>
      rw [hmake] at hmade
      exact ⟨_, hnamed, hmade⟩
    · next made hmake =>
      rw [hmake] at hmade
      split
      · exact ⟨_, hnamed, hmade⟩
      · next members hmembers =>
        obtain ⟨name, hname, hgrows⟩ := grows_extractMembers
        exact ⟨name, hname, hmade.trans hgrows⟩
  · intro bundle h
    unfold extractBundleArchive at h ⊢
    split at h
    · cases h
    · next made hmake =>
      rw [hmake] at hparents
      split at h
      · cases h
      · next members hmembers =>
        obtain ⟨name, hname, rfl, hextracted⟩ := extractMembers_ok (Prod.ext rfl h)
        refine ⟨name, members, hname, rfl, hmembers, ?_, hextracted.directory, hextracted.files,
          hextracted.only⟩
        rcases hparents (outputRoot ++ [name]) with hsame | ⟨habsent, -⟩
        · rw [← hsame]
          exact hextracted.absent
        · exact habsent

end extract

section recovered

variable {Key Inode : Type} {host : Host Octets} {aead : Aead Key}
variable {bundle : BundleDirectory host Inode} {key : Key} {nonce : Octets} {disk : Disk}
variable {outputRoot : List Str}

/-- The seven files are different inodes. -/
def BundleDirectory.Unaliased (bundle : BundleDirectory host Inode) : Prop :=
  ∀ first ∈ backupFileNames, ∀ second ∈ backupFileNames,
    bundle.inode first = bundle.inode second → first = second

/-- The output can be made, and holds no such bundle. -/
structure Ready (host : Host Octets) (disk : Disk) (outputRoot : List Str) (name : Str) :
    Prop where
  made : (Disk.makeParents host.admits 0o700 disk [] outputRoot).2 = .ok ()
  absent : (Disk.makeParents host.admits 0o700 disk [] outputRoot).1.node (outputRoot ++ [name]) =
    none

def addedFile (bundle : BundleDirectory host Inode) (file : Str) : AddedFile Inode :=
  ⟨bundle.name ++ 47 :: file, bundle.inode file, bundle.links (bundle.inode file),
    bundle.content (bundle.inode file)⟩

theorem bundleAdditions_eq : bundleAdditions bundle =
    .directory bundle.name :: backupFileNames.map fun file => .file (addedFile bundle file) := by
  rw [bundleAdditions, backupFileNames_sorted]
  rfl

theorem files_bundleAdditions :
    (bundleAdditions bundle).filterMap Addition.file? = backupFileNames.map (addedFile bundle) := by
  rw [bundleAdditions_eq, List.filterMap_cons]
  have hfiles : Addition.file? ∘ (fun file => .file (addedFile bundle file)) =
      some ∘ addedFile bundle := rfl
  rw [List.filterMap_map, hfiles, List.filterMap_eq_map]
  rfl

variable [DecidableEq Inode]

/-- What is encrypted is decrypted, and extracted to a directory of the same name with the same
files. -/
def Recovers (aead : Aead Key) (bundle : BundleDirectory host Inode) (key : Key) (nonce : Octets)
    (disk : Disk) (outputRoot : List Str) : Prop :=
  ∃ final, recoverBundle aead host key disk
      (encryptFile aead key nonce (createBundleArchive bundle)) outputRoot =
        (final, .ok (outputRoot ++ [bundle.name])) ∧
    (∀ file ∈ backupFileNames, final.node (outputRoot ++ [bundle.name] ++ [file]) =
      some (.file 0o600 (bundle.content (bundle.inode file)))) ∧
    ∀ rest, (final.node (outputRoot ++ [bundle.name] ++ rest)).isSome = true →
      rest = [] ∨ ∃ file ∈ backupFileNames, rest = [file]

theorem counted_bundle : Counted [] (bundleAdditions bundle) := by
  refine ⟨fun _ _ _ h => (Option.some_ne_none _ h.symm).elim, ?_⟩
  rw [files_bundleAdditions]
  intro added hadded other hother hinode hne
  obtain ⟨file, hfile, rfl⟩ := List.mem_map.1 hadded
  obtain ⟨file', hfile', rfl⟩ := List.mem_map.1 hother
  refine bundle.counted file hfile file' hfile' hinode ?_
  rintro rfl
  exact hne rfl

theorem unlinked_bundle : Unlinked [] (bundleAdditions bundle) ↔ bundle.Unaliased := by
  have hinj {file file' : Str} (h : bundle.name ++ 47 :: file = bundle.name ++ 47 :: file') :
      file = file' := (List.cons.inj (List.append_cancel_left h)).2
  constructor
  · intro hunlinked first hfirst second hsecond hinode
    have hamong := hunlinked.among
    rw [files_bundleAdditions] at hamong
    exact hinj (hamong _ (List.mem_map_of_mem hfirst) _ (List.mem_map_of_mem hsecond) hinode)
  · intro hunaliased
    refine ⟨fun _ _ _ h => (Option.some_ne_none _ h.symm).elim, ?_⟩
    rw [files_bundleAdditions]
    intro added hadded other hother hinode
    obtain ⟨file, hfile, rfl⟩ := List.mem_map.1 hadded
    obtain ⟨file', hfile', rfl⟩ := List.mem_map.1 hother
    exact congrArg (fun name => bundle.name ++ 47 :: name)
      (hunaliased file hfile file' hfile' hinode)

theorem members_bundle : host.members (createBundleArchive bundle) =
    some (addAll [] (bundleAdditions bundle)) := by
  refine host.members_write _ (addAll_addable (fun _ h => (List.not_mem_nil h).elim) ?_)
  have hslash := (host.admits_component _ bundle.admitted).2.1
  rw [bundleAdditions_eq]
  intro addition haddition
  rcases List.mem_cons.1 haddition with rfl | haddition
  · have hparts : bundle.name.splitOn 47 = [bundle.name] := by
      have hjoined : ([47].intercalate [bundle.name]).splitOn 47 = [bundle.name] :=
        List.splitOn_intercalate 47 (by simpa using hslash) (List.cons_ne_nil _ _)
      rwa [List.intercalate_singleton] at hjoined
    simp [Addition.arcname, hparts, bundle.admitted]
  · obtain ⟨file, hfile, rfl⟩ := List.mem_map.1 haddition
    have hportable := backupFileName_portable file hfile
    simp [Addition.arcname, addedFile, splitOn_member hslash
      (portable_component file hportable).2.1, bundle.admitted, host.admits_portable file hportable]

def extractedFile (bundle : BundleDirectory host Inode) (file : Str) : TarMember :=
  fileMember (bundle.name ++ 47 :: file) (bundle.content (bundle.inode file))

omit [DecidableEq Inode] in
theorem plain_bundle : (bundleAdditions bundle).map Addition.plain =
    directoryMember bundle.name :: backupFileNames.map (extractedFile bundle) := by
  rw [bundleAdditions_eq, List.map_cons, List.map_map]
  rfl

omit [DecidableEq Inode] in
theorem bundleMembers_plain : bundleMembers
    (directoryMember bundle.name :: backupFileNames.map (extractedFile bundle)) =
      .ok (bundle.name, backupFileNames.map (extractedFile bundle)) := by
  have hdirectories : (directoryMember bundle.name ::
      backupFileNames.map (extractedFile bundle)).filter (·.type.isDirectory) =
        [directoryMember bundle.name] := rfl
  have hfiles : (directoryMember bundle.name ::
      backupFileNames.map (extractedFile bundle)).filter (·.type.isFile) =
        backupFileNames.map (extractedFile bundle) := rfl
  have hlinks : (directoryMember bundle.name ::
      backupFileNames.map (extractedFile bundle)).any (·.type.isLink) = false := rfl
  have hnames : (backupFileNames.map (extractedFile bundle)).map (·.name) =
      backupFileNames.map fun file => bundle.name ++ 47 :: file := by
    rw [List.map_map]
    rfl
  unfold bundleMembers
  dsimp only
  rw [hdirectories, hfiles, hlinks, hnames]
  dsimp only
  rw [if_neg (by simp [Nat.add_comm]), if_neg (by simp [directoryMember, bundle.named]), if_pos]
  · rfl
  · rw [Bool.and_eq_true, List.all_eq_true, List.all_eq_true]
    constructor
    · intro member hmember
      obtain ⟨file, hfile, rfl⟩ := List.mem_map.1 hmember
      exact List.contains_iff_mem.2 (List.mem_map_of_mem hfile)
    · exact fun name hname => List.contains_iff_mem.2 hname

omit [DecidableEq Inode] in
/-- The plain members of a bundle are all extracted. -/
theorem extract_plain (hroot : disk.isDirectory outputRoot = true)
    (habsent : disk.node (outputRoot ++ [bundle.name]) = none) : ∃ final,
    extractMembers host disk
        (directoryMember bundle.name :: backupFileNames.map (extractedFile bundle)) outputRoot =
      (final, .ok (outputRoot ++ [bundle.name])) ∧
      ∀ file ∈ backupFileNames, final.node (outputRoot ++ [bundle.name] ++ [file]) =
        some (.file 0o600 (bundle.content (bundle.inode file))) := by
  have hpath : ∀ file ∈ backupFileNames, pathName (extractedFile bundle file).name = file :=
    fun file hfile => pathName_member bundle.named hfile
  obtain ⟨made, hmake⟩ : ∃ made, disk.make host.admits outputRoot bundle.name (.directory 0o700) =
      .ok made := Disk.make_of_absent hroot habsent bundle.admitted
  have hmade := (Disk.make_ok hmake).2.2.2
  have hdirectory : made.isDirectory (outputRoot ++ [bundle.name]) = true := by
    rw [Disk.isDirectory, hmade, Function.update_self]
    rfl
  have hnames : (backupFileNames.map (extractedFile bundle)).map
      (fun member => pathName member.name) = backupFileNames := by
    rw [List.map_map]
    exact (List.map_congr_left hpath).trans (List.map_id _)
  have hfiles : (extractFiles host made (outputRoot ++ [bundle.name])
      (backupFileNames.map (extractedFile bundle))).2 = .ok () := by
    refine extractFiles_of_absent hdirectory (by rw [hnames]; exact backupFileNames_nodup) ?_ ?_ ?_
    all_goals
      intro member hmember
      obtain ⟨file, hfile, rfl⟩ := List.mem_map.1 hmember
    · rw [hmade, Function.update_of_ne (by simp)]
      exact disk.node_below habsent
    · rw [hpath file hfile]
      exact host.admits_portable file (backupFileName_portable file hfile)
    · rfl
  have hcontents := extractFiles_ok hfiles
  rw [extractMembers, bundleMembers_plain]
  dsimp only
  rw [hmake]
  dsimp only
  split
  · next final error hextract =>
    rw [hextract] at hfiles
    cases hfiles
  · next final hextract =>
    rw [hextract] at hcontents
    refine ⟨final, rfl, fun file hfile => ?_⟩
    have hcontent := hcontents _ (List.mem_map_of_mem hfile)
    rw [hpath file hfile] at hcontent
    exact hcontent

theorem recovers_iff (hnonce : nonce.length = nonceBytes) (hwrite : ∀ added, host.write added ≠ [])
    (hready : Ready host disk outputRoot bundle.name) :
    Recovers aead bundle key nonce disk outputRoot ↔ bundle.Unaliased := by
  obtain ⟨hmade, habsent⟩ := hready
  have hroot := Disk.isDirectory_makeParents disk.root hmade
  rw [List.nil_append] at hroot
  have hextract : recoverBundle aead host key disk
      (encryptFile aead key nonce (createBundleArchive bundle)) outputRoot =
        extractMembers host (Disk.makeParents host.admits 0o700 disk [] outputRoot).1
          (addAll [] (bundleAdditions bundle)) outputRoot := by
    have hnonempty : createBundleArchive bundle ≠ [] := hwrite _
    rw [recoverBundle, decrypt_encrypt hnonce hnonempty]
    dsimp only
    rw [extractBundleArchive]
    split
    · next made error hmake =>
      rw [hmake] at hmade
      cases hmade
    · next made hmake => rw [members_bundle, hmake]
  unfold Recovers
  rw [hextract, ← unlinked_bundle]
  constructor
  · rintro ⟨final, hfinal, -⟩
    by_contra hlinked
    obtain ⟨member, hmember, htype⟩ := hardLink_of_linked counted_bundle hlinked
    have hunlinked : member.type.isLink = false := by
      unfold extractMembers at hfinal
      split at hfinal
      · cases hfinal
      · next name files hmembers => exact (bundleMembers_ok hmembers).unlinked member hmember
    rw [htype] at hunlinked
    cases hunlinked
  · intro hunlinked
    rw [addAll_of_unlinked hunlinked, plain_bundle]
    obtain ⟨final, hfinal, hcontents⟩ := extract_plain hroot habsent
    obtain ⟨-, -, -, hextracted⟩ := extractMembers_ok hfinal
    exact ⟨final, hfinal, hcontents, hextracted.only⟩

/-- A verified bundle is recovered, and whatever is extracted stays inside, if and only if the seven
files are different inodes. -/
theorem recovery_archives_iff (hnonce : nonce.length = nonceBytes)
    (hwrite : ∀ added, host.write added ≠ []) (hready : Ready host disk outputRoot bundle.name) :
    Recovers aead bundle key nonce disk outputRoot ∧
        (∀ disk outputRoot archive, StaysInside host disk outputRoot archive) ↔
      bundle.Unaliased := by
  rw [and_iff_left fun _ _ _ => staysInside]
  exact recovers_iff hnonce hwrite hready

end recovered

def memberTypes : List MemberType :=
  [.regular, .oldRegular, .contiguous, .sparse, .directory, .hardLink, .symbolicLink,
    .characterDevice, .blockDevice, .fifo, .unknown]

def codedMember (member : TarMember) : Str × Nat × Str × List Nat × Bool :=
  (member.name, memberTypes.idxOf member.type, member.linkName, member.content.map UInt8.toNat,
    member.truncated)

def decodedMember (coded : Str × Nat × Str × List Nat × Bool) : TarMember :=
  ⟨coded.1, memberTypes.getD coded.2.1 .unknown, coded.2.2.1, coded.2.2.2.1.map UInt8.ofNat,
    coded.2.2.2.2⟩

theorem decoded_coded (member : TarMember) : decodedMember (codedMember member) = member := by
  obtain ⟨name, type, linkName, content, truncated⟩ := member
  have htype : memberTypes.getD (memberTypes.idxOf type) .unknown = type := by
    cases type <;> rfl
  have hcontent : (content.map UInt8.toNat).map UInt8.ofNat = content := by
    rw [List.map_map]
    exact (List.map_congr_left fun octet _ => UInt8.ofNat_toNat).trans (List.map_id _)
  simp only [decodedMember, codedMember, htype, hcontent]

/-- An archive as one number, written as so many octets. -/
def codedHost : Host Octets where
  admits := portableName
  admits_component := portable_component
  admits_portable _ h := h
  write members := List.replicate (Encodable.encode (members.map codedMember) + 1) 0
  members octets := (Encodable.decode (octets.length - 1)).map (List.map decodedMember)
  members_write added _ := by
    rw [List.length_replicate, Nat.add_sub_cancel, Encodable.encodek, Option.map_some, List.map_map]
    exact congrArg some
      ((List.map_congr_left fun member _ => decoded_coded member).trans (List.map_id _))

def openAead : Aead Unit where
  encrypt _ _ _ plain := (plain, List.replicate 16 0)
  decrypt _ _ _ _ ciphertext := some ciphertext
  length_ciphertext _ _ _ _ := rfl
  length_tag _ _ _ _ := rfl
  decrypt_encrypt _ _ _ _ := rfl

/-- A bundle whose dump is the file with a number. -/
def sampleDirectory (dump links : Nat)
    (hcounted : ∀ first ∈ backupFileNames, ∀ second ∈ backupFileNames,
      (if first = Str.of "database.dump" then dump else backupFileNames.idxOf first) =
        (if second = Str.of "database.dump" then dump else backupFileNames.idxOf second) →
        first ≠ second → 1 < links) : BundleDirectory codedHost Nat where
  name := Str.of "founderos-1"
  inode name := if name = Str.of "database.dump" then dump else backupFileNames.idxOf name
  links _ := links
  content inode := [UInt8.ofNat inode]
  admitted := by decide +kernel
  named := by decide +kernel
  counted := hcounted

def plainBundle : BundleDirectory codedHost Nat := sampleDirectory 0 1 (by decide +kernel)

/-- The dump is a second name of the archive of the raw storage. -/
def linkedBundle : BundleDirectory codedHost Nat := sampleDirectory 4 2 (by decide +kernel)

def emptyDisk : Disk where
  node path := if path = [] then some (.directory 0o755) else none
  root := rfl
  closed path name h := by
    rw [if_neg (by simp)] at h
    cases h

theorem ready_sample : Ready codedHost emptyDisk [Str.of "out"] (Str.of "founderos-1") :=
  ⟨by decide +kernel, by decide +kernel⟩

def sampleNonce : Octets := List.replicate 12 7

theorem recovery_archives_iff_plain :
    Recovers openAead plainBundle () sampleNonce emptyDisk [Str.of "out"] ∧
        (∀ disk outputRoot archive, StaysInside codedHost disk outputRoot archive) ↔
      plainBundle.Unaliased :=
  recovery_archives_iff rfl (fun _ => List.cons_ne_nil _ _) ready_sample

/-- The second name is stored as a link, which the extraction refuses. -/
theorem linked_bundle_not_recovered :
    ¬∀ (bundle : BundleDirectory codedHost Nat) disk outputRoot,
      Ready codedHost disk outputRoot bundle.name →
        Recovers openAead bundle () sampleNonce disk outputRoot := by
  intro hall
  have hunaliased := (recovers_iff rfl (fun _ => List.cons_ne_nil _ _) ready_sample).1
    (hall linkedBundle emptyDisk [Str.of "out"] ready_sample)
  have hsame := hunaliased (Str.of "database.dump") (by decide +kernel)
    (Str.of "raw-storage.tar.gz") (by decide +kernel) (by decide +kernel)
  revert hsame
  decide +kernel

end FounderOs.Recovery
