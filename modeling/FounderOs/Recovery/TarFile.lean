import FounderOs.Foundation.Dict
import FounderOs.Foundation.Str

namespace FounderOs.Recovery

abbrev Octets := List UInt8

/-- The types of members that `tarfile` tells apart; what it does not know is `unknown`. -/
inductive MemberType where
  | regular | oldRegular | contiguous | sparse | directory | hardLink | symbolicLink
  | characterDevice | blockDevice | fifo | unknown
  deriving DecidableEq

namespace MemberType

def isFile : MemberType → Bool
  | regular | oldRegular | contiguous | sparse => true
  | _ => false

def isDirectory (type : MemberType) : Bool := type == directory

def isLink (type : MemberType) : Bool := type == symbolicLink || type == hardLink

theorem not_isLink_of_isFile {type : MemberType} (h : type.isFile = true) :
    type.isLink = false := by
  cases type <;> first | rfl | cases h

theorem not_isLink_of_isDirectory {type : MemberType} (h : type.isDirectory = true) :
    type.isLink = false := by
  cases type <;> first | rfl | cases h

end MemberType

/-- A member of an archive. Reading it yields its content, and raises after that if the archive
ends too early. -/
structure TarMember where
  name : Str
  type : MemberType
  linkName : Str
  content : Octets
  truncated : Bool
  deriving DecidableEq

/-- What `TarFile.add` makes of files and directories whose names are `admits`. -/
def TarMember.Addable (admits : Str → Bool) (member : TarMember) : Prop :=
  member.truncated = false ∧ (∀ part ∈ member.name.splitOn 47, admits part = true) ∧
    (member.type = .regular ∧ member.linkName = [] ∨
      member.type = .directory ∧ member.linkName = [] ∧ member.content = [] ∨
      member.type = .hardLink ∧ member.content = [] ∧
        ∀ part ∈ member.linkName.splitOn 47, admits part = true)

def portableChar (c : Nat) : Bool :=
  (97 ≤ c && c ≤ 122) || (48 ≤ c && c ≤ 57) || [45, 46, 95].contains c

/-- A short name of portable characters, the first of which is a letter. -/
def portableName (name : Str) : Bool :=
  name.head?.any (fun c => 97 ≤ c && c ≤ 122) && name.all portableChar && name.length ≤ 64

theorem portable_component (name : Str) (h : portableName name = true) :
    name ≠ [] ∧ 47 ∉ name ∧ 0 ∉ name ∧ name ≠ [46] ∧ name ≠ [46, 46] := by
  simp only [portableName, Bool.and_eq_true, List.all_eq_true] at h
  obtain ⟨⟨hhead, hall⟩, -⟩ := h
  refine ⟨?_, fun hslash => ?_, fun hzero => ?_, ?_, ?_⟩
  · rintro rfl
    cases hhead
  · cases hall 47 hslash
  · cases hall 0 hzero
  · rintro rfl
    cases hhead
  · rintro rfl
    cases hhead

/-- The names that a directory can have, and what opening an archive for reading makes of what
writing it has made. -/
structure Host (Archive : Type) where
  admits : Str → Bool
  admits_component : ∀ name, admits name = true →
    name ≠ [] ∧ 47 ∉ name ∧ 0 ∉ name ∧ name ≠ [46] ∧ name ≠ [46, 46]
  admits_portable : ∀ name, portableName name = true → admits name = true
  write : List TarMember → Archive
  members : Archive → Option (List TarMember)
  members_write : ∀ added : List TarMember, (∀ member ∈ added, member.Addable admits) →
    members (write added) = some added

section write

variable {Inode : Type}

/-- A regular file that is added, with what `lstat` says of it. -/
structure AddedFile (Inode : Type) where
  arcname : Str
  inode : Inode
  links : Nat
  content : Octets

inductive Addition (Inode : Type) where
  | directory (arcname : Str)
  | file (added : AddedFile Inode)

namespace Addition

def arcname : Addition Inode → Str
  | directory arcname => arcname
  | file added => added.arcname

def file? : Addition Inode → Option (AddedFile Inode)
  | directory _ => none
  | file added => some added

end Addition

/-- `TarFile.inodes`, the names under which inodes have been added. -/
abbrev InodeNames (Inode : Type) := List (Inode × Str)

def directoryMember (arcname : Str) : TarMember := ⟨arcname, .directory, [], [], false⟩

def fileMember (arcname : Str) (content : Octets) : TarMember :=
  ⟨arcname, .regular, [], content, false⟩

/-- What is added as it is. -/
def Addition.plain : Addition Inode → TarMember
  | directory arcname => directoryMember arcname
  | file added => fileMember added.arcname added.content

variable [DecidableEq Inode]

/-- The name that `TarFile.gettarinfo` makes a regular file a hard link to. -/
def linkedTo (inodes : InodeNames Inode) (added : AddedFile Inode) : Option Str :=
  if 1 < added.links then (Dict.get inodes added.inode).filter (· ≠ added.arcname) else none

/-- `TarFile.add` of one thing after another. -/
def addAll (inodes : InodeNames Inode) : List (Addition Inode) → List TarMember
  | [] => []
  | .directory arcname :: rest => directoryMember arcname :: addAll inodes rest
  | .file added :: rest => match linkedTo inodes added with
    | some linkName => ⟨added.arcname, .hardLink, linkName, [], false⟩ :: addAll inodes rest
    | none => fileMember added.arcname added.content ::
      addAll (Dict.set inodes added.inode added.arcname) rest

variable (inodes : InodeNames Inode) (additions : List (Addition Inode))

/-- No inode is added under a second name. -/
structure Unlinked : Prop where
  before : ∀ added ∈ additions.filterMap Addition.file?, ∀ name,
    Dict.get inodes added.inode = some name → name = added.arcname
  among : ∀ added ∈ additions.filterMap Addition.file?,
    ∀ other ∈ additions.filterMap Addition.file?, added.inode = other.inode →
      added.arcname = other.arcname

/-- The links of an inode count its names. -/
structure Counted : Prop where
  before : ∀ added ∈ additions.filterMap Addition.file?, ∀ name,
    Dict.get inodes added.inode = some name → name ≠ added.arcname → 1 < added.links
  among : ∀ added ∈ additions.filterMap Addition.file?,
    ∀ other ∈ additions.filterMap Addition.file?, added.inode = other.inode →
      added.arcname ≠ other.arcname → 1 < added.links

variable {inodes additions} {added : AddedFile Inode} {arcname : Str}

theorem unlinked_nil : Unlinked inodes [] where
  before _ h := (List.not_mem_nil h).elim
  among _ h := (List.not_mem_nil h).elim

theorem unlinked_file : Unlinked inodes (.file added :: additions) ↔
    (∀ name, Dict.get inodes added.inode = some name → name = added.arcname) ∧
      Unlinked (Dict.set inodes added.inode added.arcname) additions := by
  constructor
  · rintro ⟨hbefore, hamong⟩
    simp only [List.filterMap_cons, Addition.file?, List.mem_cons] at hbefore hamong
    refine ⟨hbefore added (.inl rfl), fun other hother name hget => ?_,
      fun other hother third hthird => hamong other (.inr hother) third (.inr hthird)⟩
    rw [Dict.get_set] at hget
    split at hget
    · next hsame =>
      obtain rfl := Option.some.inj hget
      exact hamong added (.inl rfl) other (.inr hother) hsame
    · exact hbefore other (.inr hother) name hget
  · rintro ⟨hfirst, hbefore, hamong⟩
    have hsame : ∀ other ∈ additions.filterMap Addition.file?, added.inode = other.inode →
        added.arcname = other.arcname := by
      intro other hother hinode
      exact hbefore other hother added.arcname (by rw [Dict.get_set, if_pos hinode])
    constructor
    · simp only [List.filterMap_cons, Addition.file?, List.mem_cons, forall_eq_or_imp]
      refine ⟨hfirst, fun other hother name hget => ?_⟩
      by_cases hinode : added.inode = other.inode
      · exact (hfirst name (hinode ▸ hget)).trans (hsame other hother hinode)
      · exact hbefore other hother name (by rw [Dict.get_set, if_neg hinode, hget])
    · simp only [List.filterMap_cons, Addition.file?, List.mem_cons, forall_eq_or_imp]
      refine ⟨⟨fun _ => trivial, hsame⟩, fun other hother => ⟨?_, hamong other hother⟩⟩
      exact fun hinode => (hsame other hother hinode.symm).symm

theorem Counted.tail (h : Counted inodes (.file added :: additions)) :
    Counted (Dict.set inodes added.inode added.arcname) additions := by
  obtain ⟨hbefore, hamong⟩ := h
  simp only [List.filterMap_cons, Addition.file?, List.mem_cons] at hbefore hamong
  refine ⟨fun other hother name hget hne => ?_, fun other hother third hthird =>
    hamong other (.inr hother) third (.inr hthird)⟩
  rw [Dict.get_set] at hget
  split at hget
  · next hsame =>
    obtain rfl := Option.some.inj hget
    exact hamong other (.inr hother) added (.inl rfl) hsame.symm hne.symm
  · exact hbefore other (.inr hother) name hget hne

theorem linkedTo_eq_none (h : Counted inodes (.file added :: additions)) :
    linkedTo inodes added = none ↔
      ∀ name, Dict.get inodes added.inode = some name → name = added.arcname := by
  have hbefore := h.before added (List.mem_cons_self ..)
  unfold linkedTo
  split
  · next hlinks =>
    rw [Option.filter_eq_none_iff]
    simp
  · next hlinks =>
    refine ⟨fun _ name hget => ?_, fun _ => rfl⟩
    by_contra hne
    exact hlinks (hbefore name hget hne)

theorem linkedTo_of_unlinked (h : Unlinked inodes (.file added :: additions)) :
    linkedTo inodes added = none := by
  unfold linkedTo
  split
  · rw [Option.filter_eq_none_iff]
    simpa using (unlinked_file.1 h).1
  · rfl

theorem addAll_of_unlinked (h : Unlinked inodes additions) :
    addAll inodes additions = additions.map Addition.plain := by
  induction additions generalizing inodes with
  | nil => rfl
  | cons addition rest ih =>
    cases addition with
    | directory arcname => exact congrArg _ (ih ⟨h.before, h.among⟩)
    | file added =>
      rw [addAll, linkedTo_of_unlinked h]
      exact congrArg _ (ih (unlinked_file.1 h).2)

theorem hardLink_of_linked (hcounted : Counted inodes additions)
    (h : ¬Unlinked inodes additions) :
    ∃ member ∈ addAll inodes additions, member.type = .hardLink := by
  induction additions generalizing inodes with
  | nil => exact absurd unlinked_nil h
  | cons addition rest ih =>
    cases addition with
    | directory arcname =>
      obtain ⟨member, hmem, htype⟩ := ih ⟨hcounted.before, hcounted.among⟩ fun hrest =>
        h ⟨hrest.before, hrest.among⟩
      exact ⟨member, List.mem_cons_of_mem _ hmem, htype⟩
    | file added =>
      rw [addAll]
      cases hlinked : linkedTo inodes added with
      | none =>
        have hrest : ¬Unlinked (Dict.set inodes added.inode added.arcname) rest := fun hrest =>
          h (unlinked_file.2 ⟨(linkedTo_eq_none hcounted).1 hlinked, hrest⟩)
        obtain ⟨member, hmem, htype⟩ := ih hcounted.tail hrest
        exact ⟨member, List.mem_cons_of_mem _ hmem, htype⟩
      | some linkName => exact ⟨_, List.mem_cons_self .., rfl⟩

theorem addAll_addable {admits : Str → Bool}
    (hinodes : ∀ entry ∈ inodes, ∀ part ∈ entry.2.splitOn 47, admits part = true)
    (hadditions : ∀ addition ∈ additions, ∀ part ∈ addition.arcname.splitOn 47,
      admits part = true) :
    ∀ member ∈ addAll inodes additions, member.Addable admits := by
  induction additions generalizing inodes with
  | nil => exact fun _ h => (List.not_mem_nil h).elim
  | cons addition rest ih =>
    have hfirst := hadditions addition (List.mem_cons_self ..)
    have hrest := fun addition hmem => hadditions addition (List.mem_cons_of_mem _ hmem)
    cases addition with
    | directory arcname =>
      intro member hmember
      rcases List.mem_cons.1 hmember with rfl | hmember
      · exact ⟨rfl, hfirst, .inr (.inl ⟨rfl, rfl, rfl⟩)⟩
      · exact ih hinodes hrest member hmember
    | file added =>
      rw [addAll]
      cases hlinked : linkedTo inodes added with
      | none =>
        intro member hmember
        rcases List.mem_cons.1 hmember with rfl | hmember
        · exact ⟨rfl, hfirst, .inl ⟨rfl, rfl⟩⟩
        · refine ih (fun entry hentry => ?_) hrest member hmember
          rcases Dict.mem_of_mem_set hentry with rfl | hentry
          · exact hfirst
          · exact hinodes entry hentry
      | some linkName =>
        have hname : (added.inode, linkName) ∈ inodes := by
          unfold linkedTo at hlinked
          split at hlinked
          · exact Dict.mem_of_get (Option.filter_eq_some_iff.1 hlinked).1
          · cases hlinked
        intro member hmember
        rcases List.mem_cons.1 hmember with rfl | hmember
        · exact ⟨rfl, hfirst, .inr (.inr ⟨rfl, rfl, hinodes _ hname⟩)⟩
        · exact ih hinodes hrest member hmember

end write

end FounderOs.Recovery
