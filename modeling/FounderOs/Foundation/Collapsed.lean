import FounderOs.Foundation.Str

namespace FounderOs.Str

/-- `" ".join(value.split())` -/
def collapse (t : Str) : Str := [32].intercalate (words t)

/-- A word as `str.split` returns it. -/
def Word (w : Str) : Prop := w ≠ [] ∧ ∀ c ∈ w, isSpace c = false

theorem isSpace_blank : isSpace 32 = true := by decide

theorem words_append_cons (u v : Str) {c : Nat} (hc : isSpace c = true) :
    words (u ++ c :: v) = words u ++ words v := by
  rw [words, List.splitOnP_append_cons u v hc, List.filter_append, words, words]

theorem words_of_word {w : Str} (h : Word w) : words w = [w] := by
  rw [words, List.splitOnP_eq_singleton h.2]
  simp [h.1]

theorem not_space_of_mem_splitOnP {t w : Str} (hw : w ∈ t.splitOnP isSpace) :
    ∀ c ∈ w, isSpace c = false := by
  induction t generalizing w with
  | nil =>
    obtain rfl := List.mem_singleton.1 (List.splitOnP_nil (p := isSpace) ▸ hw)
    simp
  | cons d t ih =>
    obtain ⟨first, rest, hsplit⟩ := List.exists_cons_of_ne_nil (List.splitOnP_ne_nil isSpace t)
    rw [List.splitOnP_cons_eq_if_modifyHead] at hw
    split at hw
    · rcases List.mem_cons.1 hw with rfl | hw
      · simp
      · exact ih hw
    · rename_i hd
      rw [hsplit] at hw ih
      rcases List.mem_cons.1 hw with rfl | hw
      · exact List.forall_mem_cons.2 ⟨by simpa using hd, ih List.mem_cons_self⟩
      · exact ih (List.mem_cons_of_mem first hw)

theorem word_of_mem_words {t w : Str} (hw : w ∈ words t) : Word w := by
  obtain ⟨hsplit, hne⟩ := List.mem_filter.1 hw
  exact ⟨by simpa using hne, not_space_of_mem_splitOnP hsplit⟩

theorem words_intercalate {ws : List Str} (h : ∀ w ∈ ws, Word w) :
    words ([32].intercalate ws) = ws := by
  induction ws with
  | nil => rfl
  | cons w ws ih =>
    obtain ⟨hw, hws⟩ := List.forall_mem_cons.1 h
    cases ws with
    | nil => rw [List.intercalate_singleton, words_of_word hw]
    | cons v ws =>
      rw [List.intercalate_cons_cons, List.append_assoc, List.singleton_append,
        words_append_cons _ _ isSpace_blank, words_of_word hw, ih hws, List.singleton_append]

theorem words_collapse (t : Str) : words (collapse t) = words t :=
  words_intercalate fun _ => word_of_mem_words

theorem collapse_collapse (t : Str) : collapse (collapse t) = collapse t := by
  rw [collapse, words_collapse, collapse]

theorem getLast?_intercalate {ws : List Str} (h : ∀ w ∈ ws, Word w) :
    ([32].intercalate ws).getLast? ≠ some 32 := by
  induction ws with
  | nil => simp
  | cons w ws ih =>
    obtain ⟨hw, hws⟩ := List.forall_mem_cons.1 h
    cases ws with
    | nil =>
      rw [List.intercalate_singleton]
      intro hlast
      have hspace := hw.2 32 (List.mem_of_getLast? hlast)
      rw [isSpace_blank] at hspace
      cases hspace
    | cons v ws =>
      have hrest : [32].intercalate (v :: ws) ≠ [] := by
        cases ws with
        | nil => simpa using (hws v (by simp)).1
        | cons u ws => simp [List.intercalate_cons_cons]
      rw [List.intercalate_cons_cons, List.getLast?_append_of_ne_nil _ hrest]
      exact ih hws

/-- A cut falls inside a word, or right after the space between two words. -/
theorem take_intercalate {ws : List Str} (h : ∀ w ∈ ws, Word w) (n : Nat) :
    ∃ us : List Str, (∀ u ∈ us, Word u) ∧ (([32].intercalate ws).take n = [32].intercalate us ∨
      us ≠ [] ∧ ([32].intercalate ws).take n = [32].intercalate us ++ [32]) := by
  induction ws generalizing n with
  | nil => exact ⟨[], by simp, .inl (by simp)⟩
  | cons w ws ih =>
    obtain ⟨hw, hws⟩ := List.forall_mem_cons.1 h
    have hpart : ∀ m, m ≠ 0 → Word (w.take m) := fun m hm =>
      ⟨by simpa [List.take_eq_nil_iff, hm] using hw.1, fun c hc => hw.2 c (List.mem_of_mem_take hc)⟩
    rcases Nat.eq_zero_or_pos n with rfl | hn
    · exact ⟨[], by simp, .inl (by simp)⟩
    cases ws with
    | nil =>
      refine ⟨[w.take n], by simpa using hpart n hn.ne', .inl ?_⟩
      rw [List.intercalate_singleton, List.intercalate_singleton]
    | cons v ws =>
      rw [List.intercalate_cons_cons, List.append_assoc, List.singleton_append]
      by_cases hlength : n ≤ w.length
      · refine ⟨[w.take n], by simpa using hpart n hn.ne', .inl ?_⟩
        rw [List.take_append_of_le_length hlength, List.intercalate_singleton]
      · obtain ⟨m, rfl⟩ : ∃ m, n = w.length + (m + 1) := ⟨n - w.length - 1, by omega⟩
        obtain ⟨us, hus, hcut⟩ := ih hws m
        rw [List.take_length_add_append, List.take_succ_cons]
        have hall : ∀ u ∈ w :: us, Word u := List.forall_mem_cons.2 ⟨hw, hus⟩
        refine ⟨w :: us, hall, ?_⟩
        cases us with
        | nil =>
          rcases hcut with hcut | ⟨hne, -⟩
          · exact .inr ⟨List.cons_ne_nil _ _, by simp [hcut]⟩
          · exact absurd rfl hne
        | cons u us =>
          rw [List.intercalate_cons_cons]
          rcases hcut with hcut | ⟨-, hcut⟩
          · exact .inl (by simp [hcut])
          · exact .inr ⟨List.cons_ne_nil _ _, by simp [hcut]⟩

/-- A collapsed text that was cut is still collapsed unless the cut left a space at its end. -/
theorem collapse_take_iff (t : Str) (n : Nat) :
    collapse ((collapse t).take n) = (collapse t).take n ↔
      ((collapse t).take n).getLast? ≠ some 32 := by
  obtain ⟨us, hus, hcut | ⟨hne, hcut⟩⟩ := take_intercalate (fun w => word_of_mem_words (t := t)) n
  · have hcut : (collapse t).take n = [32].intercalate us := hcut
    rw [hcut, collapse, words_intercalate hus]
    exact iff_of_true rfl (getLast?_intercalate hus)
  · have hcut : (collapse t).take n = [32].intercalate us ++ [32] := hcut
    rw [hcut, collapse, words_append_cons _ [] isSpace_blank, words_intercalate hus]
    refine iff_of_false (fun h => ?_) (by simp)
    have hlength := congrArg List.length h
    simp [words] at hlength

end FounderOs.Str
