import Mathlib.Data.List.Basic
import Mathlib.Data.List.Infix

namespace FounderOs.Paging

variable {α β : Type}

/-- The loop of a paginated read: page `n`, `n + 1`, … until a short one; `none` when `fuel` pages
were all full. -/
def readPages (perPage : Nat) (page : Nat → List α) : Nat → Nat → Option (List (List α))
  | 0, _ => none
  | fuel + 1, n =>
    if (page n).length < perPage then some [page n]
    else (readPages perPage page fuel (n + 1)).map (page n :: ·)

def slice (perPage n : Nat) (listing : List β) : List β :=
  (listing.drop (n * perPage)).take perPage

/-- Between two reads of a listing, `x` moves only towards its end. -/
def MovesBack (x : β) (before after : List β) : Prop := ∀ k, x ∈ before.drop k → x ∈ after.drop k

variable {perPage fuel n : Nat} {page : Nat → List α} {pages : List (List α)}
  {listing : Nat → List β} {key : α → β} {x : β}

/-- What is new is listed first and what stays keeps its order: if `x` stays, and all that was
listed ahead of it, it cannot move forward. -/
theorem movesBack_of_newest_first {before after added : List β} {stays : β → Bool}
    (h : after = added ++ before.filter stays) (hx : stays x = true)
    (hahead : ∀ ahead behind, before = ahead ++ x :: behind → ∀ y ∈ ahead, stays y = true) :
    MovesBack x before after := by
  intro k hk
  obtain ⟨ahead, behind, hdrop⟩ := List.append_of_mem hk
  have hbefore : before = (before.take k ++ ahead) ++ x :: behind := by
    rw [List.append_assoc, ← hdrop, List.take_append_drop]
  have hstays : (before.take k ++ ahead).filter stays = before.take k ++ ahead :=
    List.filter_eq_self.2 (hahead _ behind hbefore)
  have hlength : (before.take k).length = k := by
    refine List.length_take_of_le ?_
    have hpos := List.length_pos_of_mem hk
    rw [List.length_drop] at hpos
    omega
  have hfilter : before.filter stays = (before.take k ++ ahead) ++ x :: behind.filter stays := by
    conv_lhs => rw [hbefore]
    rw [List.filter_append, hstays, List.filter_cons_of_pos hx]
  rw [h, hfilter, List.append_assoc, List.drop_append]
  refine List.mem_append_right _ ?_
  have hle : k - added.length ≤ (before.take k).length := by omega
  rw [List.drop_append_of_le_length hle]
  simp

theorem mem_slice_or_drop {l : List β} (hx : x ∈ l.drop (n * perPage)) :
    x ∈ slice perPage n l ∨ x ∈ l.drop ((n + 1) * perPage) := by
  have hsplit : l.drop (n * perPage) =
      slice perPage n l ++ l.drop ((n + 1) * perPage) := by
    have htail : (n + 1) * perPage = n * perPage + perPage := by
      rw [Nat.add_mul, Nat.one_mul]
    rw [slice, htail, ← List.drop_drop, List.take_append_drop]
  rw [hsplit] at hx
  exact List.mem_append.1 hx

theorem drop_eq_nil_of_short {l : List β} (h : (slice perPage n l).length < perPage) :
    l.drop ((n + 1) * perPage) = [] := by
  rw [slice, List.length_take, List.length_drop] at h
  refine List.drop_eq_nil_of_le ?_
  rw [Nat.add_mul, Nat.one_mul]
  omega

theorem length_readPages_pos (h : readPages perPage page fuel n = some pages) :
    0 < pages.length := by
  cases fuel with
  | zero => cases h
  | succ fuel =>
    rw [readPages] at h
    split at h
    · cases h
      simp
    · obtain ⟨rest, -, rfl⟩ := Option.map_eq_some_iff.1 h
      simp

/-- A complete walk does not miss what was there at its first page and never moved forward. -/
theorem mem_of_readPages (key : α → β) (listing : Nat → List β) (hpage : ∀ k, (page k).map key = slice perPage k (listing k))
    (hread : readPages perPage page fuel n = some pages)
    (hmoves : ∀ k, k + 1 < pages.length → MovesBack x (listing (n + k)) (listing (n + k + 1)))
    (hx : x ∈ (listing n).drop (n * perPage)) : x ∈ pages.flatten.map key := by
  induction fuel generalizing n pages with
  | zero => cases hread
  | succ fuel ih =>
    rw [readPages] at hread
    rcases mem_slice_or_drop hx with hhere | hlater
    · rw [← hpage] at hhere
      split at hread
      · cases hread
        simpa using hhere
      · obtain ⟨rest, -, rfl⟩ := Option.map_eq_some_iff.1 hread
        rw [List.flatten_cons, List.map_append]
        exact List.mem_append_left _ hhere
    · split at hread
      · rename_i hshort
        rw [← List.length_map (f := key), hpage] at hshort
        rw [drop_eq_nil_of_short hshort] at hlater
        cases hlater
      · obtain ⟨rest, hrest, rfl⟩ := Option.map_eq_some_iff.1 hread
        rw [List.flatten_cons, List.map_append]
        refine List.mem_append_right _ (ih hrest ?_ ?_)
        · intro k hk
          have hnext := hmoves (k + 1) (by simpa using Nat.succ_lt_succ hk)
          have hindex : n + (k + 1) = n + 1 + k := by omega
          rwa [hindex] at hnext
        · have hlength : 1 < (page n :: rest).length :=
            Nat.succ_lt_succ (length_readPages_pos hrest)
          exact hmoves 0 hlength _ hlater

theorem mem_page_of_mem_readPages (h : readPages perPage page fuel n = some pages) {y : α}
    (hy : y ∈ pages.flatten) : ∃ k, y ∈ page k := by
  induction fuel generalizing n pages with
  | zero => cases h
  | succ fuel ih =>
    rw [readPages] at h
    split at h
    · cases h
      exact ⟨n, by simpa using hy⟩
    · obtain ⟨rest, hrest, rfl⟩ := Option.map_eq_some_iff.1 h
      rcases List.mem_append.1 (List.flatten_cons ▸ hy) with hhere | hlater
      · exact ⟨n, hhere⟩
      · exact ih hrest hlater

end FounderOs.Paging
