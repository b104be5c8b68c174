import Mathlib.Order.Lattice
import Mathlib.Data.List.Perm.Basic
import Mathlib.Data.List.Pairwise

namespace FounderOs.Register

variable {T V : Type} [LinearOrder T]

/-- A register that keeps the time of its value and, once retired, of the retirement. -/
inductive Cell (T V : Type) where
  | vacant
  | live (stamp : T) (value : V)
  | retired (stamp retiredAt : T) (value : V)

/-- What one observer saw at `time`: a value, or that there is none. -/
structure Sighting (T V : Type) where
  time : T
  seen : Option V

def Cell.value : Cell T V → Option V
  | .live _ v => some v
  | .vacant | .retired _ _ _ => none

def Cell.observe (c : Cell T V) (o : Sighting T V) : Cell T V :=
  match o.seen, c with
  | some v, .vacant => .live o.time v
  | some v, .live s w => if s ≤ o.time then .live o.time v else .live s w
  | some v, .retired s r w => if s ≤ o.time ∧ r ≤ o.time then .live o.time v else .retired s r w
  | none, .live s w => if s ≤ o.time then .retired s o.time w else .live s w
  | none, c => c

def observeAll (order : List (Sighting T V)) : Cell T V := order.foldl Cell.observe .vacant

def Cell.Within : Cell T V → T → Prop
  | .vacant, _ => True
  | .live s _, t => s ≤ t
  | .retired s r _, t => s ≤ t ∧ r ≤ t

section observe

variable {s r t : T} {v w : V}

@[simp] theorem observe_some_vacant :
    (Cell.vacant : Cell T V).observe ⟨t, some v⟩ = .live t v := rfl

@[simp] theorem observe_some_live :
    (Cell.live s w).observe ⟨t, some v⟩ = if s ≤ t then .live t v else .live s w := rfl

@[simp] theorem observe_some_retired :
    (Cell.retired s r w).observe ⟨t, some v⟩ =
      if s ≤ t ∧ r ≤ t then .live t v else .retired s r w := rfl

@[simp] theorem observe_none_vacant :
    (Cell.vacant : Cell T V).observe ⟨t, none⟩ = .vacant := rfl

@[simp] theorem observe_none_live :
    (Cell.live s w).observe ⟨t, none⟩ = if s ≤ t then .retired s t w else .live s w := rfl

@[simp] theorem observe_none_retired :
    (Cell.retired s r w).observe ⟨t, none⟩ = .retired s r w := rfl

@[simp] theorem within_vacant : (Cell.vacant : Cell T V).Within t ↔ True := Iff.rfl

@[simp] theorem within_live : (Cell.live s w).Within t ↔ s ≤ t := Iff.rfl

@[simp] theorem within_retired : (Cell.retired s r w).Within t ↔ s ≤ t ∧ r ≤ t := Iff.rfl

end observe

variable {c : Cell T V} {o newest : Sighting T V} {t : T} {v : V}

theorem observe_within (h : c.Within t) (ho : o.time ≤ t) : (c.observe o).Within t := by
  obtain ⟨time, seen⟩ := o
  cases seen with
  | none =>
    cases c with
    | vacant => exact h
    | live s w =>
      rw [observe_none_live]
      split
      · exact ⟨h, ho⟩
      · exact h
    | retired s r w => exact h
  | some v =>
    cases c with
    | vacant => exact ho
    | live s w =>
      rw [observe_some_live]
      split
      · exact ho
      · exact h
    | retired s r w =>
      rw [observe_some_retired]
      split
      · exact ho
      · exact h

theorem foldl_within {order : List (Sighting T V)} (h : c.Within t)
    (hall : ∀ o ∈ order, o.time ≤ t) : (order.foldl Cell.observe c).Within t := by
  induction order generalizing c with
  | nil => exact h
  | cons o rest ih =>
    refine ih (observe_within h (hall o (by simp))) ?_
    intro p hp
    exact hall p (List.mem_cons_of_mem o hp)

theorem observe_seen (h : c.Within o.time) (hseen : o.seen = some v) :
    c.observe o = .live o.time v := by
  obtain ⟨time, seen⟩ := o
  subst hseen
  cases c with
  | vacant => rfl
  | live s w => exact if_pos (within_live.1 h)
  | retired s r w => exact if_pos (within_retired.1 h)

theorem observe_unseen (h : c.Within o.time) (hseen : o.seen = none) :
    (c.observe o).value = none := by
  obtain ⟨time, seen⟩ := o
  subst hseen
  cases c with
  | vacant => rfl
  | live s w =>
    have hs : s ≤ time := h
    rw [observe_none_live, if_pos hs]
    rfl
  | retired s r w => rfl

/-- A value survives every older sighting, whether it shows a value or none. -/
theorem observe_older (h : o.time < t) : (Cell.live t v).observe o = .live t v := by
  have hnot : ¬t ≤ o.time := not_le_of_gt h
  obtain ⟨time, seen⟩ := o
  cases seen with
  | some w => exact if_neg hnot
  | none => exact if_neg hnot

theorem foldl_older {order : List (Sighting T V)} (h : ∀ o ∈ order, o.time < t) :
    order.foldl Cell.observe (.live t v) = .live t v := by
  induction order with
  | nil => rfl
  | cons o rest ih =>
    rw [List.foldl_cons, observe_older (h o (by simp))]
    exact ih (fun p hp => h p (List.mem_cons_of_mem o hp))

theorem foldl_unseen {order : List (Sighting T V)} (h : ∀ o ∈ order, o.seen = none) :
    order.foldl Cell.observe .vacant = .vacant := by
  induction order with
  | nil => rfl
  | cons o rest ih =>
    have hvacant : (Cell.vacant : Cell T V).observe o = .vacant := by
      obtain ⟨time, seen⟩ := o
      obtain rfl : seen = none := h ⟨time, seen⟩ List.mem_cons_self
      rfl
    rw [List.foldl_cons, hvacant]
    exact ih (fun p hp => h p (List.mem_cons_of_mem o hp))

theorem foldl_seen_live {order : List (Sighting T V)} (h : ∀ o ∈ order, o.seen.isSome = true)
    (hc : c.value.isSome = true) : (order.foldl Cell.observe c).value.isSome = true := by
  induction order generalizing c with
  | nil => exact hc
  | cons o rest ih =>
    refine ih (fun p hp => h p (List.mem_cons_of_mem o hp)) ?_
    obtain ⟨time, seen⟩ := o
    obtain ⟨w, rfl⟩ := Option.isSome_iff_exists.1 (h ⟨time, seen⟩ List.mem_cons_self)
    cases c with
    | live s u =>
      rw [observe_some_live]
      split <;> rfl
    | vacant => cases hc
    | retired s r u => cases hc

/-- The newest sighting decides, whatever came before or comes after it. -/
theorem observeAll_newest_seen {order : List (Sighting T V)} (hmem : newest ∈ order)
    (hnewest : ∀ o ∈ order, o.time ≤ newest.time)
    (hdistinct : order.Pairwise (fun o p => o.time ≠ p.time)) (hseen : newest.seen = some v) :
    (observeAll order).value = some v := by
  obtain ⟨before, after, rfl⟩ := List.append_of_mem hmem
  have hbefore : (before.foldl Cell.observe .vacant).Within newest.time :=
    foldl_within (c := (.vacant : Cell T V)) trivial
      (fun o ho => hnewest o (List.mem_append_left _ ho))
  have hafter : ∀ o ∈ after, o.time < newest.time := by
    intro o ho
    have hle := hnewest o (List.mem_append_right _ (List.mem_cons_of_mem newest ho))
    have hne := (List.pairwise_cons.1 (List.pairwise_append.1 hdistinct).2.1).1 o ho
    exact lt_of_le_of_ne hle hne.symm
  rw [observeAll, List.foldl_append, List.foldl_cons, observe_seen hbefore hseen,
    foldl_older hafter]
  rfl

theorem observeAll_in_order {earlier : List (Sighting T V)}
    (hnewest : ∀ o ∈ earlier, o.time ≤ newest.time) :
    (observeAll (earlier ++ [newest])).value = newest.seen := by
  have hwithin : (earlier.foldl Cell.observe .vacant).Within newest.time :=
    foldl_within (c := (.vacant : Cell T V)) trivial hnewest
  rw [observeAll, List.foldl_append, List.foldl_cons, List.foldl_nil]
  cases hseen : newest.seen with
  | some w => rw [observe_seen hwithin hseen]; rfl
  | none => exact observe_unseen hwithin hseen

section Observers

variable {A : Type} (sight : A → Sighting T V) {observers : List A}

/-- Those who saw nothing first, then the others: nothing is left to retire the value. -/
theorem observeAll_revived (h : ∃ a ∈ observers, (sight a).seen.isSome = true) :
    ∃ order : List A, order.Perm observers ∧ (observeAll (order.map sight)).value.isSome = true := by
  let unseen := observers.filter (fun a => !(sight a).seen.isSome)
  let seen := observers.filter (fun a => (sight a).seen.isSome)
  have hperm : (unseen ++ seen).Perm observers :=
    List.perm_append_comm.trans (List.filter_append_perm _ observers)
  have hunseen : ∀ o ∈ unseen.map sight, o.seen = none := by
    intro o ho
    obtain ⟨a, ha, rfl⟩ := List.mem_map.1 ho
    simpa using (List.mem_filter.1 ha).2
  have hseen : ∀ o ∈ seen.map sight, o.seen.isSome = true := by
    intro o ho
    obtain ⟨a, ha, rfl⟩ := List.mem_map.1 ho
    exact (List.mem_filter.1 ha).2
  have hne : seen.map sight ≠ [] := by
    obtain ⟨a, ha, hsome⟩ := h
    exact List.ne_nil_of_mem (List.mem_map_of_mem (List.mem_filter.2 ⟨ha, hsome⟩))
  refine ⟨unseen ++ seen, hperm, ?_⟩
  rw [observeAll, List.map_append, List.foldl_append, foldl_unseen hunseen]
  obtain ⟨first, rest, hfirst⟩ := List.exists_cons_of_ne_nil hne
  rw [hfirst] at hseen ⊢
  obtain ⟨w, hw⟩ := Option.isSome_iff_exists.1 (hseen first List.mem_cons_self)
  have hlive : (Cell.vacant : Cell T V).observe first = .live first.time w :=
    observe_seen trivial hw
  rw [List.foldl_cons, hlive]
  exact foldl_seen_live (fun o ho => hseen o (List.mem_cons_of_mem first ho)) rfl

/-- Every order leaves what the newest observer saw exactly when it saw a value or nobody did. -/
theorem observeAll_converges_iff {newest : A} (hmem : newest ∈ observers)
    (hnewest : ∀ a ∈ observers, (sight a).time ≤ (sight newest).time)
    (hdistinct : observers.Pairwise (fun a b => (sight a).time ≠ (sight b).time)) :
    (∀ order : List A, order.Perm observers →
        (observeAll (order.map sight)).value = (sight newest).seen) ↔
      ((sight newest).seen.isSome = true ∨ ∀ a ∈ observers, (sight a).seen = none) := by
  constructor
  · intro hall
    by_contra hneither
    obtain ⟨hunseen, hsome⟩ := not_or.1 hneither
    have hexists : ∃ a ∈ observers, (sight a).seen.isSome = true := by
      by_contra hnone
      refine hsome fun a ha => ?_
      by_contra hne
      exact hnone ⟨a, ha, Option.isSome_iff_ne_none.2 hne⟩
    obtain ⟨order, hperm, hlive⟩ := observeAll_revived sight hexists
    rw [hall order hperm] at hlive
    exact hunseen hlive
  · rintro (hseen | hnone) order hperm
    · obtain ⟨w, hw⟩ := Option.isSome_iff_exists.1 hseen
      have hpairs : (order.map sight).Pairwise (fun o p => o.time ≠ p.time) :=
        List.pairwise_map.2 (hdistinct.perm hperm.symm (fun h => h.symm))
      have holder : ∀ o ∈ order.map sight, o.time ≤ (sight newest).time := by
        intro o ho
        obtain ⟨a, ha, rfl⟩ := List.mem_map.1 ho
        exact hnewest a (hperm.mem_iff.1 ha)
      rw [hw]
      exact observeAll_newest_seen (List.mem_map_of_mem (hperm.mem_iff.2 hmem)) holder hpairs hw
    · have hvacant : observeAll (order.map sight) = .vacant := by
        refine foldl_unseen fun o ho => ?_
        obtain ⟨a, ha, rfl⟩ := List.mem_map.1 ho
        exact hnone a (hperm.mem_iff.1 ha)
      rw [hvacant, hnone newest hmem]
      rfl

end Observers

end FounderOs.Register
