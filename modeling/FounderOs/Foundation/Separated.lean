import Mathlib.Data.List.Basic

namespace FounderOs.Separated

variable {α : Type}

/-- A path that goes on from another one, after a separator. -/
def Beneath (a : α) (stem path : List α) : Prop := ∃ rest, path = stem ++ a :: rest

theorem intercalate_append {a : α} {head tail : List (List α)} (hhead : head ≠ [])
    (htail : tail ≠ []) : [a].intercalate (head ++ tail) =
      [a].intercalate head ++ a :: [a].intercalate tail := by
  induction head with
  | nil => exact absurd rfl hhead
  | cons part head ih =>
    cases head with
    | nil =>
      obtain ⟨next, tail, rfl⟩ := List.exists_cons_of_ne_nil htail
      simp [List.intercalate_cons_cons]
    | cons next head =>
      have hrest := ih (List.cons_ne_nil next head)
      simp only [List.cons_append] at hrest ⊢
      rw [List.intercalate_cons_cons, List.intercalate_cons_cons, hrest]
      simp

theorem beneath_intercalate {a : α} {head tail : List (List α)} (hhead : head ≠ [])
    (htail : tail ≠ []) : Beneath a ([a].intercalate head) ([a].intercalate (head ++ tail)) := by
  apply Exists.intro
  exact intercalate_append hhead htail

/-- Two texts are split at one separator alike, or at different ones. -/
theorem append_cons_eq_iff {a : α} {left right left' right' : List α} :
    left ++ a :: right = left' ++ a :: right' ↔
      left = left' ∧ right = right' ∨
        (∃ rest, left' = left ++ a :: rest ∧ right = rest ++ a :: right') ∨
          ∃ rest, left = left' ++ a :: rest ∧ right' = rest ++ a :: right := by
  constructor
  · intro h
    rcases List.append_eq_append_iff.1 h with ⟨rest, hleft, hright⟩ | ⟨rest, hleft, hright⟩
    · cases rest with
      | nil =>
        rw [List.append_nil] at hleft
        exact .inl ⟨hleft.symm, (List.cons.inj hright).2⟩
      | cons b rest =>
        obtain ⟨rfl, hrest⟩ := List.cons.inj hright
        exact .inr (.inl ⟨rest, hleft, hrest⟩)
    · cases rest with
      | nil =>
        rw [List.append_nil] at hleft
        exact .inl ⟨hleft, (List.cons.inj hright).2.symm⟩
      | cons b rest =>
        obtain ⟨rfl, hrest⟩ := List.cons.inj hright
        exact .inr (.inr ⟨rest, hleft, hrest⟩)
  · rintro (⟨rfl, rfl⟩ | ⟨rest, rfl, rfl⟩ | ⟨rest, rfl, rfl⟩) <;> simp

theorem append_cons_eq_of_not_mem {a : α} {left right left' right' : List α} (hleft : a ∉ left)
    (hleft' : a ∉ left') :
    left ++ a :: right = left' ++ a :: right' ↔ left = left' ∧ right = right' := by
  rw [append_cons_eq_iff]
  refine ⟨?_, .inl⟩
  rintro (h | ⟨rest, rfl, -⟩ | ⟨rest, rfl, -⟩)
  · exact h
  · simp at hleft'
  · simp at hleft

variable [BEq α] [LawfulBEq α] {a : α} {parts : List (List α)} {stem path part : List α}

theorem not_mem_of_mem_splitOn (h : part ∈ path.splitOn a) : a ∉ part := by
  induction path generalizing part with
  | nil =>
    obtain rfl := List.mem_singleton.1 (List.splitOn_nil a ▸ h)
    exact List.not_mem_nil
  | cons c path ih =>
    rw [List.splitOn_cons_eq_if_modifyHead] at h
    split at h
    · rcases List.mem_cons.1 h with rfl | h
      · exact List.not_mem_nil
      · exact ih h
    · rename_i hc
      obtain ⟨first, rest, hsplit⟩ := List.exists_cons_of_ne_nil (List.splitOn_ne_nil a path)
      rw [hsplit] at h ih
      rcases List.mem_cons.1 h with rfl | h
      · intro ha
        rcases List.mem_cons.1 ha with rfl | ha
        · exact hc BEq.rfl
        · exact ih List.mem_cons_self ha
      · exact ih (List.mem_cons_of_mem first h)

/-- What a path goes on from is a proper beginning of its parts. -/
theorem beneath_iff (hne : parts ≠ []) (hparts : ∀ part ∈ parts, a ∉ part) :
    Beneath a stem ([a].intercalate parts) ↔
      ∃ head tail, head ≠ [] ∧ tail ≠ [] ∧ parts = head ++ tail ∧ stem = [a].intercalate head := by
  constructor
  · rintro ⟨rest, h⟩
    have hsplit := congrArg (List.splitOn a) h
    rw [List.splitOn_intercalate a hparts hne, List.splitOn_append_cons_self] at hsplit
    exact ⟨stem.splitOn a, rest.splitOn a, List.splitOn_ne_nil a stem, List.splitOn_ne_nil a rest,
      hsplit, (List.intercalate_splitOn a).symm⟩
  · rintro ⟨head, tail, hhead, htail, rfl, rfl⟩
    exact beneath_intercalate hhead htail

theorem intercalate_inj {parts' : List (List α)} (hne : parts ≠ []) (hne' : parts' ≠ [])
    (hparts : ∀ part ∈ parts, a ∉ part) (hparts' : ∀ part ∈ parts', a ∉ part)
    (h : [a].intercalate parts = [a].intercalate parts') : parts = parts' := by
  have hsplit := congrArg (List.splitOn a) h
  rwa [List.splitOn_intercalate a hparts hne, List.splitOn_intercalate a hparts' hne'] at hsplit

end FounderOs.Separated
