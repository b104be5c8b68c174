import FounderOs.Foundation.Str
import Mathlib.Logic.Function.Basic

namespace FounderOs

/-- A directory or a regular file, with the mode that it is made with. -/
inductive DiskNode where
  | directory (mode : Nat)
  | file (mode : Nat) (content : List UInt8)
  deriving DecidableEq

def DiskNode.isDirectory : DiskNode → Bool
  | directory _ => true
  | file _ _ => false

/-- What stands at each path, where only a directory has something below it. -/
structure Disk where
  node : List Str → Option DiskNode
  root : (node []).any DiskNode.isDirectory = true
  closed : ∀ path name, (node (path ++ [name])).isSome = true →
    (node path).any DiskNode.isDirectory = true

inductive DiskError where
  | isThere | noDirectory | badName
  deriving DecidableEq

namespace Disk

section make

variable (disk : Disk)

def isDirectory (path : List Str) : Bool := (disk.node path).any DiskNode.isDirectory

theorem node_below {path rest : List Str} (habsent : disk.node path = none) :
    disk.node (path ++ rest) = none := by
  induction rest using List.reverseRecOn with
  | nil => rwa [List.append_nil]
  | append_singleton rest name ih =>
    rw [← List.append_assoc]
    by_contra hthere
    have hparent := disk.closed (path ++ rest) name (Option.isSome_iff_ne_none.2 hthere)
    rw [ih] at hparent
    cases hparent

/-- A new entry of a directory. -/
def place (path : List Str) (name : Str) (node : DiskNode)
    (h : disk.isDirectory path = true ∧ disk.node (path ++ [name]) = none) : Disk where
  node := Function.update disk.node (path ++ [name]) (some node)
  root := by
    rw [Function.update_of_ne (List.append_ne_nil_of_right_ne_nil _ (List.cons_ne_nil _ _)).symm]
    exact disk.root
  closed := by
    intro path' name' hthere
    by_cases hsame : path' ++ [name'] = path ++ [name]
    · obtain ⟨rfl, -⟩ := List.append_inj' hsame rfl
      rw [Function.update_of_ne (by simp)]
      exact h.1
    · rw [Function.update_of_ne hsame] at hthere
      have hparent := disk.closed path' name' hthere
      rw [Function.update_of_ne]
      · exact hparent
      · rintro rfl
        rw [h.2] at hparent
        cases hparent

variable (admits : Str → Bool)

/-- Making an entry raises if there is one, or no directory for it. -/
def make (path : List Str) (name : Str) (node : DiskNode) : Except DiskError Disk :=
  if h : disk.isDirectory path = true ∧ disk.node (path ++ [name]) = none then
    if admits name then .ok (disk.place path name node h) else .error .badName
  else if (disk.node (path ++ [name])).isSome then .error .isThere else .error .noDirectory

/-- `mkdir(mode, parents=True, exist_ok=True)`, from a directory downwards. -/
def makeParents (mode : Nat) (disk : Disk) (base : List Str) :
    List Str → Disk × Except DiskError Unit
  | [] => (disk, .ok ())
  | name :: rest =>
    if disk.isDirectory (base ++ [name]) then makeParents mode disk (base ++ [name]) rest
    else match disk.make admits base name (.directory mode) with
      | .error error => (disk, .error error)
      | .ok made => makeParents mode made (base ++ [name]) rest

end make

variable {disk made : Disk} {admits : Str → Bool} {path rest : List Str} {name : Str}
variable {node : DiskNode}

theorem make_ok (h : disk.make admits path name node = .ok made) :
    disk.isDirectory path = true ∧ disk.node (path ++ [name]) = none ∧ admits name = true ∧
      made.node = Function.update disk.node (path ++ [name]) (some node) := by
  unfold make at h
  split at h
  · next hplace =>
    split at h
    · next hadmits =>
      cases h
      exact ⟨hplace.1, hplace.2, hadmits, rfl⟩
    · cases h
  · split at h <;> cases h

theorem make_of_absent (hdirectory : disk.isDirectory path = true)
    (habsent : disk.node (path ++ [name]) = none) (hadmits : admits name = true) :
    ∃ made, disk.make admits path name node = .ok made := by
  refine ⟨disk.place path name node ⟨hdirectory, habsent⟩, ?_⟩
  rw [make, dif_pos ⟨hdirectory, habsent⟩, if_pos hadmits]

/-- Nothing is there but what was before, and new entries of a kind. -/
def Grows (kind : List Str → DiskNode → Prop) (disk made : Disk) : Prop :=
  ∀ path, made.node path = disk.node path ∨
    disk.node path = none ∧ ∃ node, made.node path = some node ∧ kind path node

variable {kind kind' : List Str → DiskNode → Prop} {final : Disk}

theorem Grows.refl (disk : Disk) : Grows kind disk disk := fun _ => .inl rfl

theorem Grows.mono (h : Grows kind disk made)
    (hkind : ∀ path node, kind path node → kind' path node) : Grows kind' disk made := by
  intro path
  refine (h path).imp_right fun ⟨habsent, node, hnode, hnew⟩ => ?_
  exact ⟨habsent, node, hnode, hkind path node hnew⟩

theorem Grows.trans (h : Grows kind disk made) (h' : Grows kind made final) :
    Grows kind disk final := by
  intro path
  rcases h' path with hsame | ⟨habsent, hnew⟩
  · rw [hsame]
    exact h path
  · rcases h path with hsame | ⟨-, node, hnode, -⟩
    · exact .inr ⟨hsame ▸ habsent, hnew⟩
    · rw [habsent] at hnode
      cases hnode

theorem Grows.keeps (h : Grows kind disk made) (hnode : disk.node path = some node) :
    made.node path = some node := by
  rcases h path with hsame | ⟨habsent, -⟩
  · rw [hsame, hnode]
  · rw [hnode] at habsent
    cases habsent

theorem Grows.isDirectory (h : Grows kind disk made) (hpath : disk.isDirectory path = true) :
    made.isDirectory path = true := by
  unfold Disk.isDirectory at hpath ⊢
  cases hnode : disk.node path with
  | none =>
    rw [hnode] at hpath
    cases hpath
  | some node => rwa [h.keeps hnode, ← hnode]

theorem grows_of_make (h : disk.make admits path name node = .ok made)
    (hkind : kind (path ++ [name]) node) : Grows kind disk made := by
  obtain ⟨-, habsent, -, hmade⟩ := make_ok h
  intro other
  rw [hmade]
  by_cases hsame : other = path ++ [name]
  · subst hsame
    exact .inr ⟨habsent, node, Function.update_self .., hkind⟩
  · exact .inl (Function.update_of_ne hsame ..)

/-- By induction on the names that are left: only directories above the last are new. -/
theorem grows_makeParents {mode : Nat} :
    Grows (fun path node => path <+: base ++ rest ∧ node = .directory mode) disk
      (makeParents admits mode disk base rest).1 := by
  induction rest generalizing disk base with
  | nil => exact Grows.refl disk
  | cons name rest ih =>
    have happend : base ++ [name] ++ rest = base ++ name :: rest := by simp
    rw [makeParents]
    split
    · rw [← happend]
      exact ih
    · cases hmake : disk.make admits base name (.directory mode) with
      | error error => exact Grows.refl disk
      | ok made =>
        have hbelow : base ++ [name] <+: base ++ name :: rest := happend ▸ List.prefix_append _ _
        refine (grows_of_make hmake ⟨hbelow, rfl⟩).trans ?_
        rw [← happend]
        exact ih

theorem isDirectory_makeParents {mode : Nat} (hbase : disk.isDirectory base = true)
    (h : (makeParents admits mode disk base rest).2 = .ok ()) :
    (makeParents admits mode disk base rest).1.isDirectory (base ++ rest) = true := by
  induction rest generalizing disk base with
  | nil => rwa [List.append_nil]
  | cons name rest ih =>
    have happend : base ++ [name] ++ rest = base ++ name :: rest := by simp
    rw [makeParents] at h ⊢
    split
    · next hthere =>
      rw [if_pos hthere] at h
      rw [← happend]
      exact ih hthere h
    · next hthere =>
      rw [if_neg hthere] at h
      cases hmake : disk.make admits base name (.directory mode) with
      | error error =>
        rw [hmake] at h
        cases h
      | ok made =>
        rw [hmake] at h
        have hmade : made.isDirectory (base ++ [name]) = true := by
          rw [isDirectory, (make_ok hmake).2.2.2, Function.update_self]
          rfl
        rw [← happend]
        exact ih hmade h

end Disk

end FounderOs
