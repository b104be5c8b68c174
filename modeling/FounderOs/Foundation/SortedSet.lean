import FounderOs.Foundation.Str
import Mathlib.Data.List.Dedup
import Mathlib.Logic.Function.Basic

namespace FounderOs.SortedSet

variable {α β : Type} {le : α → α → Bool}

/-- An order by which a set is listed in one way only. -/
structure Orders (le : α → α → Bool) : Prop where
  trans : ∀ a b c, le a b = true → le b c = true → le a c = true
  total : ∀ a b, (le a b || le b a) = true
  antisymm : ∀ a b, le a b = true → le b a = true → a = b

/-- What is in the list, each once and in order. -/
def sortedSet [DecidableEq α] (le : α → α → Bool) (xs : List α) : List α := xs.dedup.mergeSort le

theorem Orders.comap (h : Orders le) {f : β → α} (hf : Function.Injective f) :
    Orders fun a b => le (f a) (f b) where
  trans a b c := h.trans (f a) (f b) (f c)
  total a b := h.total (f a) (f b)
  antisymm _ _ hab hba := hf (h.antisymm _ _ hab hba)

section lex

variable [DecidableEq α] {le' : β → β → Bool}

/-- The first components decide, and where they are the same, the second ones. -/
def lex (le : α → α → Bool) (le' : β → β → Bool) (a b : α × β) : Bool :=
  if a.1 = b.1 then le' a.2 b.2 else le a.1 b.1

theorem Orders.lex (h : Orders le) (h' : Orders le') : Orders (lex le le') where
  trans a b c hab hbc := by
    simp only [SortedSet.lex] at hab hbc ⊢
    split at hab <;> split at hbc
    · rename_i hfst hfst'
      rw [if_pos (hfst.trans hfst')]
      exact h'.trans _ _ _ hab hbc
    · rename_i hfst hne
      rw [if_neg (hfst ▸ hne), hfst]
      exact hbc
    · rename_i hne hfst
      rw [if_neg (hfst ▸ hne), ← hfst]
      exact hab
    · rename_i hne _
      have hac := h.trans _ _ _ hab hbc
      split
      · rename_i hsame
        exact absurd (h.antisymm _ _ hab (hsame ▸ hbc)) hne
      · exact hac
  total a b := by
    simp only [SortedSet.lex, @eq_comm _ b.1]
    split
    · exact h'.total _ _
    · exact h.total _ _
  antisymm a b hab hba := by
    simp only [SortedSet.lex, @eq_comm _ b.1] at hab hba
    split at hab
    · rename_i hfst
      rw [if_pos hfst] at hba
      exact Prod.ext hfst (h'.antisymm _ _ hab hba)
    · rename_i hne
      rw [if_neg hne] at hba
      exact absurd (h.antisymm _ _ hab hba) hne

end lex

section text

theorem le_trans_text : ∀ a b c : Str, Str.le a b = true → Str.le b c = true →
    Str.le a c = true := by
  intro a
  induction a with
  | nil => exact fun _ _ _ _ => rfl
  | cons x a ih =>
    intro b c hab hbc
    cases b with
    | nil => cases hab
    | cons y b =>
      cases c with
      | nil => cases hbc
      | cons z c =>
        simp only [Str.le, Bool.or_eq_true, Bool.and_eq_true, decide_eq_true_eq,
          beq_iff_eq] at hab hbc ⊢
        rcases hab with hxy | ⟨rfl, hab⟩
        · rcases hbc with hyz | ⟨rfl, -⟩
          · exact .inl (hxy.trans hyz)
          · exact .inl hxy
        · exact hbc.imp_right fun h => ⟨h.1, ih b c hab h.2⟩

theorem le_total_text : ∀ a b : Str, (Str.le a b || Str.le b a) = true := by
  intro a
  induction a with
  | nil => exact fun _ => rfl
  | cons x a ih =>
    intro b
    cases b with
    | nil => rfl
    | cons y b =>
      have hrest := ih b
      simp only [Str.le, Bool.or_eq_true, Bool.and_eq_true, decide_eq_true_eq,
        beq_iff_eq] at hrest ⊢
      rcases Nat.lt_trichotomy x y with h | rfl | h
      · exact .inl (.inl h)
      · exact hrest.imp (fun h => .inr ⟨rfl, h⟩) fun h => .inr ⟨rfl, h⟩
      · exact .inr (.inl h)

theorem le_antisymm_text : ∀ a b : Str, Str.le a b = true → Str.le b a = true → a = b := by
  intro a
  induction a with
  | nil =>
    intro b _ hba
    cases b with
    | nil => rfl
    | cons _ _ => cases hba
  | cons x a ih =>
    intro b hab hba
    cases b with
    | nil => cases hab
    | cons y b =>
      simp only [Str.le, Bool.or_eq_true, Bool.and_eq_true, decide_eq_true_eq,
        beq_iff_eq] at hab hba
      rcases hab with hxy | ⟨rfl, hab⟩
      · rcases hba with hyx | ⟨rfl, -⟩
        · exact absurd hxy (Nat.lt_asymm hyx)
        · exact absurd hxy (Nat.lt_irrefl _)
      · rcases hba with hxx | ⟨-, hba⟩
        · exact absurd hxx (Nat.lt_irrefl _)
        · rw [ih b hab hba]

theorem orders_text : Orders Str.le := ⟨le_trans_text, le_total_text, le_antisymm_text⟩

end text

section sorted

variable [DecidableEq α] {xs ys : List α} {x : α}

theorem sortedSet_perm : (sortedSet le xs).Perm xs.dedup := List.mergeSort_perm _ le

theorem mem_sortedSet : x ∈ sortedSet le xs ↔ x ∈ xs := by
  rw [sortedSet_perm.mem_iff, List.mem_dedup]

theorem nodup_sortedSet : (sortedSet le xs).Nodup :=
  sortedSet_perm.nodup_iff.2 (List.nodup_dedup xs)

theorem sortedSet_congr (hle : Orders le) (h : ∀ x, x ∈ xs ↔ x ∈ ys) :
    sortedSet le xs = sortedSet le ys := by
  have hperm : xs.dedup.Perm ys.dedup :=
    (List.perm_ext_iff_of_nodup (List.nodup_dedup xs) (List.nodup_dedup ys)).2 fun x => by
      rw [List.mem_dedup, List.mem_dedup, h x]
  exact List.Perm.eq_of_pairwise (fun a b _ _ => hle.antisymm a b)
    (List.pairwise_mergeSort hle.trans hle.total _) (List.pairwise_mergeSort hle.trans hle.total _)
    (sortedSet_perm.trans (hperm.trans sortedSet_perm.symm))

end sorted

/-- An order under which only rows with one id tie. -/
structure Ranks (le : α → α → Bool) (id : α → β) : Prop where
  trans : ∀ a b c, le a b = true → le b c = true → le a c = true
  total : ∀ a b, (le a b || le b a) = true
  tie : ∀ a b, le a b = true → le b a = true → id a = id b

section ranks

variable {id : α → β} {xs ys : List α}

/-- The greater key comes first, and where the keys are the same, the order below decides. -/
def greaterFirst (key : α → Nat) (le : α → α → Bool) (a b : α) : Bool :=
  if key a ≠ key b then key b < key a else le a b

theorem Ranks.greaterFirst (h : Ranks le id) (key : α → Nat) : Ranks (greaterFirst key le) id where
  trans a b c hab hbc := by
    simp only [SortedSet.greaterFirst, ne_eq, ite_not] at hab hbc ⊢
    split at hab
    · next hsame =>
      rw [hsame]
      split at hbc
      · next hsame' =>
        rw [if_pos hsame']
        exact h.trans a b c hab hbc
      · next hne =>
        rw [if_neg hne]
        exact hbc
    · next hne =>
      have hlt := of_decide_eq_true hab
      split at hbc
      · next hsame' =>
        rw [← hsame', if_neg hne]
        exact hab
      · have hlt' := of_decide_eq_true hbc
        rw [if_neg (by omega)]
        exact decide_eq_true (hlt'.trans hlt)
  total a b := by
    simp only [SortedSet.greaterFirst, ne_eq, ite_not]
    by_cases hsame : key a = key b
    · rw [if_pos hsame, if_pos hsame.symm]
      exact h.total a b
    · rw [if_neg hsame, if_neg (Ne.symm hsame)]
      simp only [Bool.or_eq_true, decide_eq_true_eq]
      omega
  tie a b hab hba := by
    simp only [SortedSet.greaterFirst, ne_eq, ite_not] at hab hba
    split at hab
    · next hsame =>
      rw [if_pos hsame.symm] at hba
      exact h.tie a b hab hba
    · next hne =>
      rw [if_neg (Ne.symm hne)] at hba
      exact absurd (of_decide_eq_true hab) (of_decide_eq_true hba).asymm

/-- Rows with different ids are sorted alike, in whatever order they come. -/
theorem Ranks.mergeSort_eq (h : Ranks le id) (hnodup : (xs.map id).Nodup) (hperm : xs.Perm ys) :
    xs.mergeSort le = ys.mergeSort le := by
  refine List.Perm.eq_of_pairwise (fun a b ha hb hab hba => ?_)
    (List.pairwise_mergeSort h.trans h.total xs) (List.pairwise_mergeSort h.trans h.total ys)
    ((List.mergeSort_perm xs le).trans (hperm.trans (List.mergeSort_perm ys le).symm))
  have hmem : b ∈ xs := hperm.mem_iff.2 (List.mem_mergeSort.1 hb)
  exact List.inj_on_of_nodup_map hnodup (List.mem_mergeSort.1 ha) hmem (h.tie a b hab hba)

/-- No two rows with different ids tie. -/
theorem Ranks.le_iff_not_le (h : Ranks le id) (hnodup : (xs.map id).Nodup) {a b : α} (ha : a ∈ xs)
    (hb : b ∈ xs) (hne : a ≠ b) : le a b = true ↔ le b a = false := by
  constructor
  · intro hab
    rw [Bool.eq_false_iff]
    intro hba
    exact hne (List.inj_on_of_nodup_map hnodup ha hb (h.tie a b hab hba))
  · intro hba
    simpa [hba] using h.total a b

end ranks

end FounderOs.SortedSet
