import Mathlib.Logic.Function.Basic

namespace FounderOs.Locks

variable {K I : Type}

/-- Who holds each lock, until its transaction ends. -/
abbrev Table (K I : Type) := K → Option I

namespace Table

variable (locks : Table K I) (i : I) (k : K)

def free [DecidableEq I] : Bool := (locks k).all (· = i)

def take [DecidableEq K] : Table K I := Function.update locks k (some i)

def takeAll [DecidableEq K] (keys : List K) : Table K I := keys.foldl (fun locks k => locks.take i k) locks

def release [DecidableEq I] : Table K I := fun k => if locks k = some i then none else locks k

end Table

variable {locks : Table K I} {i j : I} {k l : K}

theorem exclusive (hi : locks k = some i) (hj : locks k = some j) : i = j :=
  Option.some.inj (hi.symm.trans hj)

section taken

variable [DecidableEq K]

@[simp] theorem take_self : locks.take i k k = some i := Function.update_self ..

theorem take_of_ne (h : l ≠ k) : locks.take i k l = locks l := Function.update_of_ne h ..

theorem takeAll_cons {keys : List K} :
    locks.takeAll i (k :: keys) = (locks.take i k).takeAll i keys := rfl

end taken

section free

variable [DecidableEq I]

theorem eq_of_free (hfree : locks.free i k = true) (h : locks k = some j) : j = i := by
  simpa [Table.free, h] using hfree

/-- A lock that is free for its taker takes nothing from the others. -/
theorem take_of_holds [DecidableEq K] (hfree : locks.free i k = true) (h : locks l = some j) :
    locks.take i k l = some j := by
  by_cases hkey : l = k
  · subst hkey
    rw [take_self, eq_of_free hfree h]
  · rw [take_of_ne hkey, h]

theorem free_take [DecidableEq K] (h : locks.free i k = true) : (locks.take i l).free i k = true := by
  by_cases hkey : k = l
  · subst hkey
    simp [Table.free]
  · rw [Table.free, take_of_ne hkey]
    exact h

theorem takeAll_of_holds [DecidableEq K] {keys : List K} (hfree : ∀ k ∈ keys, locks.free i k = true)
    (h : locks l = some j) : locks.takeAll i keys l = some j := by
  induction keys generalizing locks with
  | nil => exact h
  | cons k keys ih =>
    obtain ⟨hhead, hrest⟩ := List.forall_mem_cons.1 hfree
    exact ih (fun k' hk' => free_take (hrest k' hk')) (take_of_holds hhead h)

/-- The keys that are taken together are the taker's. -/
theorem takeAll_self [DecidableEq K] {keys : List K} (hfree : ∀ k ∈ keys, locks.free i k = true)
    (h : l ∈ keys) : locks.takeAll i keys l = some i := by
  induction keys generalizing locks with
  | nil => exact absurd h List.not_mem_nil
  | cons k keys ih =>
    obtain ⟨-, hrest⟩ := List.forall_mem_cons.1 hfree
    have hfree' := fun k' hk' => free_take (l := k) (hrest k' hk')
    rcases List.mem_cons.1 h with rfl | hmem
    · rw [takeAll_cons]
      exact takeAll_of_holds hfree' take_self
    · exact ih hfree' hmem

theorem release_of_holds (hne : j ≠ i) (h : locks l = some j) : locks.release i l = some j := by
  have hother : locks l ≠ some i := fun hi => hne (exclusive h hi)
  rw [Table.release, if_neg hother, h]

end free

end FounderOs.Locks
