import Mathlib.Data.List.Induction
import Mathlib.Logic.Function.Basic

namespace FounderOs.LastWrite

variable {A K V : Type} [DecidableEq K] (key : A → K) (value : A → V)

/-- A table after writes that each replace what is there. -/
def writeAll (table : K → Option V) (writes : List A) : K → Option V :=
  writes.foldl (fun table a => Function.update table (key a) (some (value a))) table

def writesTo (k : K) (writes : List A) : List A := writes.filter fun a => key a = k

variable {key value} {table : K → Option V} {writes : List A} {k : K} {a : A}

/-- The last write to a key decides what the key holds. -/
theorem writeAll_eq :
    writeAll key value table writes k = ((writesTo key k writes).getLast?.map value).or (table k) := by
  induction writes using List.reverseRecOn with
  | nil => rfl
  | append_singleton writes a ih =>
    rw [writeAll, List.foldl_append, List.foldl_cons, List.foldl_nil, ← writeAll, writesTo,
      List.filter_append, ← writesTo]
    by_cases hkey : key a = k
    · subst hkey
      simp
    · rw [Function.update_of_ne (Ne.symm hkey), ih]
      simp [hkey]

theorem writeAll_last (h : (writesTo key k writes).getLast? = some a) :
    writeAll key value table writes k = some (value a) := by
  rw [writeAll_eq, h]
  rfl

end FounderOs.LastWrite
