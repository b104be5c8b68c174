import FounderOs.Foundation.Dict

namespace FounderOs.Dict

variable {K R : Type}

theorem getD_tally_count {k : K} (xs : List Unit) :
    (tally (fun _ _ => 0) (fun count _ => count + 1) k xs).getD 0 = xs.length := by
  induction xs using List.reverseRecOn with
  | nil => rfl
  | append_singleton xs x ih => simp [tally_concat, ih]

variable [DecidableEq K]

/-- `SELECT key, count(*) … GROUP BY key`. -/
def countBy (key : R → K) (rows : List R) : List (K × Nat) :=
  gather (fun _ _ => 0) (fun count _ => count + 1) (rows.map fun row => (key row, ()))

/-- A key that no row has is not among the groups. -/
theorem getD_countBy (key : R → K) (rows : List R) (k : K) :
    (get (countBy key rows) k).getD 0 = rows.countP fun row => key row = k := by
  have hunder : (under k (rows.map fun row => (key row, ()))).length =
      rows.countP fun row => key row = k := by
    simp [under, List.filter_map, Function.comp_def, List.countP_eq_length_filter]
  rw [countBy, get_gather, getD_tally_count, hunder]

variable {kept within p q : R → Bool}

/-- What is counted of one group, by a filter for its key. -/
theorem getD_countBy_filter {key : R → K} {rows : List R} {k : K}
    (h : ∀ row, key row = k → kept row = (within row && p row)) :
    (get (countBy key (rows.filter kept)) k).getD 0 =
      (rows.filter fun row => within row && key row = k).countP p := by
  rw [getD_countBy, List.countP_filter, List.countP_filter]
  refine List.countP_congr fun row _ => ?_
  simp only [Bool.and_eq_true, decide_eq_true_eq]
  constructor
  · rintro ⟨hk, hkept⟩
    rw [h row hk, Bool.and_eq_true] at hkept
    exact ⟨hkept.2, hkept.1, hk⟩
  · rintro ⟨hp, hwithin, hk⟩
    exact ⟨hk, by rw [h row hk, hwithin, hp]; rfl⟩

/-- A filter that asks more counts as many only if it drops none. -/
theorem countP_eq_countP_iff {rows : List R}
    (hpq : ∀ row ∈ rows, p row = true → q row = true) :
    rows.countP p = rows.countP q ↔ ∀ row ∈ rows, q row = true → p row = true := by
  induction rows with
  | nil => simp
  | cons first rows ih =>
    have hrest := ih fun row hrow => hpq row (List.mem_cons_of_mem _ hrow)
    have hle : rows.countP p ≤ rows.countP q :=
      List.countP_mono_left fun row hrow => hpq row (List.mem_cons_of_mem _ hrow)
    have hfirst := hpq first List.mem_cons_self
    simp only [List.countP_cons, List.forall_mem_cons]
    cases hp : p first <;> cases hq : q first
    · simp [hrest]
    · simp
      omega
    · simp [hp, hq] at hfirst
    · simp [hrest]

end FounderOs.Dict
