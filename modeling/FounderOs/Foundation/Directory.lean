import FounderOs.Foundation.Dict

namespace FounderOs

/-- What stands under the names of a directory. -/
structure Directory (K V : Type) where
  entries : List (K × V)
  nodup : (entries.map (·.1)).Nodup

namespace Directory

variable {K V : Type}

def empty : Directory K V := ⟨[], List.nodup_nil⟩

section ops

variable [DecidableEq K]

def get (d : Directory K V) (k : K) : Option V := Dict.get d.entries k

/-- A name is taken, whether something stood under it or not. -/
def put (d : Directory K V) (k : K) (v : V) : Directory K V :=
  ⟨Dict.set d.entries k v, Dict.nodup_keys_set d.nodup⟩

def remove (d : Directory K V) (k : K) : Directory K V :=
  ⟨d.entries.filter (·.1 ≠ k), d.nodup.sublist (List.filter_sublist.map _)⟩

/-- `put` or `remove`. -/
def place (d : Directory K V) (k : K) : Option V → Directory K V
  | some v => d.put k v
  | none => d.remove k

variable {d : Directory K V} {k k' : K} {v : V}

@[simp]
theorem get_empty (k : K) : (empty : Directory K V).get k = none := rfl

theorem mem_entries_iff : (k, v) ∈ d.entries ↔ d.get k = some v :=
  ⟨Dict.get_of_mem d.nodup, Dict.mem_of_get⟩

@[simp]
theorem get_put (d : Directory K V) (k : K) (v : V) (k' : K) :
    (d.put k v).get k' = if k = k' then some v else d.get k' :=
  Dict.get_set d.entries k v k'

@[simp]
theorem get_remove (d : Directory K V) (k k' : K) :
    (d.remove k).get k' = if k = k' then none else d.get k' := by
  apply Option.ext
  intro v
  rw [← mem_entries_iff, remove, List.mem_filter, mem_entries_iff, decide_eq_true_eq]
  split_ifs with heq
  · simp [heq]
  · simp [Ne.symm heq]

@[simp]
theorem get_place (d : Directory K V) (k : K) (v : Option V) (k' : K) :
    (d.place k v).get k' = if k = k' then v else d.get k' := by
  cases v with
  | none => exact get_remove d k k'
  | some v => exact get_put d k v k'

end ops

end Directory

end FounderOs
