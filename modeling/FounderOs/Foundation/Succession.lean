import Mathlib.Data.List.Induction

namespace FounderOs.Succession

variable {E : Type} (R : Option E → E → Prop)

/-- Each entry is admitted by the one before it, the first by `last`. -/
def Holds : Option E → List E → Prop
  | _, [] => True
  | last, e :: es => R last e ∧ Holds (some e) es

def latest : Option E → List E → Option E
  | last, [] => last
  | _, e :: es => latest (some e) es

variable {R} {last : Option E} {before after : List E} {e : E}

theorem latest_append : latest last (before ++ after) = latest (latest last before) after := by
  induction before generalizing last with
  | nil => rfl
  | cons e es ih => exact ih

theorem holds_append :
    Holds R last (before ++ after) ↔ Holds R last before ∧ Holds R (latest last before) after := by
  induction before generalizing last with
  | nil => exact (iff_of_eq (true_and _)).symm
  | cons e es ih => exact (and_congr_right fun _ => ih).trans and_assoc.symm

theorem Holds.split (h : Holds R last (before ++ e :: after)) : R (latest last before) e :=
  (holds_append.1 h).2.1

theorem latest_eq_getLast? : latest none before = before.getLast? := by
  induction before using List.reverseRecOn with
  | nil => rfl
  | append_singleton es e _ =>
    rw [latest_append, List.getLast?_concat]
    rfl

end FounderOs.Succession
