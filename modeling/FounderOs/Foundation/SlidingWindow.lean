import FounderOs.Foundation.Dict
import Mathlib.Order.Lattice
import Mathlib.Data.List.Basic

namespace FounderOs.SlidingWindow

variable {T : Type} [LinearOrder T]

/-- What a log of instants still has, once those up to the start of a window are dropped from its
front. -/
def prune (start : T) (log : List T) : List T := log.dropWhile (· ≤ start)

section logs

variable {start later now first : T} {log : List T}

theorem prune_cons_of_le (h : first ≤ start) : prune start (first :: log) = prune start log :=
  List.dropWhile_cons_of_pos (p := fun instant => instant ≤ start) (decide_eq_true h)

theorem prune_cons_of_lt (h : start < first) : prune start (first :: log) = first :: log :=
  List.dropWhile_cons_of_neg (p := fun instant => instant ≤ start) (by simpa using h)

theorem prune_prune (h : start ≤ later) : prune later (prune start log) = prune later log := by
  induction log with
  | nil => rfl
  | cons first log ih =>
    rcases le_or_gt first start with hfirst | hfirst
    · rw [prune_cons_of_le hfirst, prune_cons_of_le (le_trans hfirst h), ih]
    · rw [prune_cons_of_lt hfirst]

theorem prune_concat (h : start < now) : prune start (log ++ [now]) = prune start log ++ [now] := by
  induction log with
  | nil => exact prune_cons_of_lt h
  | cons first log ih =>
    rcases le_or_gt first start with hfirst | hfirst
    · rw [List.cons_append, prune_cons_of_le hfirst, prune_cons_of_le hfirst, ih]
    · rw [List.cons_append, prune_cons_of_lt hfirst, prune_cons_of_lt hfirst, List.cons_append]

/-- A log that is in order is left with the instants after the start. -/
theorem prune_eq_filter (h : log.Pairwise (· ≤ ·)) :
    prune start log = log.filter (start < ·) := by
  induction log with
  | nil => rfl
  | cons first log ih =>
    rw [List.pairwise_cons] at h
    rcases le_or_gt first start with hfirst | hfirst
    · rw [prune_cons_of_le hfirst, ih h.2, List.filter_cons_of_neg (by simpa using hfirst)]
    · rw [prune_cons_of_lt hfirst]
      refine (List.filter_eq_self.2 fun instant hmem => ?_).symm
      rcases List.mem_cons.1 hmem with rfl | hmem
      · exact decide_eq_true hfirst
      · exact decide_eq_true (lt_of_lt_of_le hfirst (h.1 instant hmem))

end logs

section keyed

variable {K : Type}

/-- Every log is pruned, and a key that is left with none goes. -/
def pruneAll (start : T) (logs : List (K × List T)) : List (K × List T) :=
  (logs.map fun entry => (entry.1, prune start entry.2)).filter fun entry => !entry.2.isEmpty

variable {start : T} {logs : List (K × List T)}

theorem keys_pruneAll : ((pruneAll start logs).map (·.1)).Sublist (logs.map (·.1)) := by
  have hsub : (pruneAll start logs).Sublist _ := List.filter_sublist
  have hkeys := hsub.map (·.1)
  rwa [List.map_map] at hkeys

/-- A key whose instants are all dropped reads as one that has none. -/
theorem get_pruneAll [DecidableEq K] {k : K} (hkeys : (logs.map (·.1)).Nodup) :
    (Dict.get (pruneAll start logs) k).getD [] = prune start ((Dict.get logs k).getD []) := by
  have hmapped : ((logs.map fun entry => (entry.1, prune start entry.2)).map (·.1)).Nodup := by
    rwa [List.map_map]
  rw [pruneAll, Dict.get_filter (p := fun log => !log.isEmpty) hmapped, Dict.get_mapValues]
  cases Dict.get logs k with
  | none => rfl
  | some log =>
    rw [Option.map_some, Option.filter_some, Option.getD_some]
    split
    · rfl
    · rename_i hempty
      have hnil : prune start log = [] := by simpa using hempty
      rw [hnil]
      rfl

end keyed

section bounds

variable (start : T → T)

/-- No instant of the window lies before the start that another one has. -/
def Narrow (window : T → Bool) : Prop :=
  ∀ first second, window first = true → window second = true → start second < first

/-- No narrow window has more of the instants than the limit. -/
def Limited (limit : Nat) (history : List T) : Prop :=
  ∀ window, Narrow start window → history.countP window ≤ limit

variable {start} {limit : Nat} {history : List T} {now : T} {window : T → Bool}

theorem limited_nil : Limited start limit [] := fun _ _ => Nat.zero_le limit

/-- A narrow window around an instant has nothing of what that instant prunes. -/
theorem countP_le_prune (hwindow : Narrow start window) (hnow : window now = true) :
    history.countP window ≤ (prune (start now) history).length := by
  induction history with
  | nil => exact Nat.zero_le _
  | cons first history ih =>
    rcases le_or_gt first (start now) with hfirst | hfirst
    · have hout : ¬window first = true := fun hin =>
        not_lt_of_ge hfirst (hwindow first now hin hnow)
      rw [List.countP_cons_of_neg hout, prune_cons_of_le hfirst]
      exact ih
    · rw [prune_cons_of_lt hfirst]
      exact List.countP_le_length

/-- An instant that finds room in the log finds room in every narrow window. -/
theorem limited_concat (h : Limited start limit history)
    (hroom : (prune (start now) history).length < limit) :
    Limited start limit (history ++ [now]) := by
  intro window hwindow
  rw [List.countP_append]
  cases hnow : window now with
  | true =>
    have hcount : history.countP window ≤ (prune (start now) history).length :=
      countP_le_prune hwindow hnow
    rw [List.countP_cons_of_pos hnow, List.countP_nil]
    omega
  | false =>
    rw [List.countP_cons_of_neg (Bool.eq_false_iff.1 hnow), List.countP_nil]
    exact h window hwindow

end bounds

end FounderOs.SlidingWindow
