import FounderOs.Foundation.Text

namespace FounderOs

/-- A Python `str`: code points, lone surrogates among them. -/
abbrev Str := List Nat

namespace Str

def of (s : String) : Str := s.toList.map Char.toNat

/-- `str.encode("utf-8")` succeeds. -/
def encodable (t : Str) : Bool := t.all fun c => !(0xD800 ≤ c && c ≤ 0xDFFF)

def isSpace (c : Nat) : Bool := Text.isSpace (Char.ofNat c)

def strip (t : Str) : Str := (t.dropWhile isSpace).rdropWhile isSpace

/-- `str.split()`. -/
def words (t : Str) : List Str := (t.splitOnP isSpace).filter (· ≠ [])

/-- `str.casefold`, with the Unicode table for what is not ASCII. -/
def casefold (table : Nat → Str) (t : Str) : Str :=
  t.flatMap fun c => if c < 128 then [if 65 ≤ c ∧ c ≤ 90 then c + 32 else c] else table c

def joined (t : Str) : Str := [32].intercalate (words (strip t))

theorem of_inj {s t : String} (h : of s = of t) : s = t := by
  have hlist : s.toList = t.toList := List.map_injective_iff.2 (fun _ _ => Char.toNat_inj.1) h
  exact String.toList_inj.1 hlist

theorem strip_map {f : Nat → Nat} (h : ∀ c, isSpace (f c) = isSpace c) (t : Str) :
    strip (t.map f) = (strip t).map f := by
  have hcomp : isSpace ∘ f = isSpace := funext h
  rw [strip, strip, List.rdropWhile, List.rdropWhile, List.dropWhile_map, ← List.map_reverse,
    List.dropWhile_map, ← List.map_reverse, hcomp]

theorem strip_strip (t : Str) : strip (strip t) = strip t := by
  have hhead : (strip t).dropWhile isSpace = strip t := by
    unfold strip
    cases h : t.dropWhile isSpace with
    | nil => rfl
    | cons c rest =>
      have hc : isSpace c = false := by
        have := List.head?_dropWhile_not isSpace t
        simpa [h] using this
      obtain ⟨tail, htail⟩ := List.rdropWhile_prefix isSpace (c :: rest)
      cases hkept : (c :: rest).rdropWhile isSpace with
      | nil => rfl
      | cons d kept =>
        rw [hkept] at htail
        obtain ⟨rfl, -⟩ := List.cons.inj htail
        simp [hc]
  rw [strip, hhead]
  unfold strip
  exact List.rdropWhile_idempotent isSpace (t.dropWhile isSpace)

theorem length_strip_le (t : Str) : (strip t).length ≤ t.length :=
  (List.rdropWhile_prefix isSpace _).length_le.trans (List.dropWhile_sublist isSpace).length_le

theorem strip_eq_self {t : Str} (h : ∀ c ∈ t, isSpace c = false) : strip t = t := by
  have hdrop : t.dropWhile isSpace = t := by
    cases t with
    | nil => rfl
    | cons c t => simp [h c (by simp)]
  rw [strip, hdrop, List.rdropWhile_eq_self_iff]
  intro hne
  simp [h _ (List.getLast_mem hne)]

theorem isSpace_printable : ∀ c < 127, 32 < c → isSpace c = false := by decide

theorem mem_of_mem_words {t w : Str} {c : Nat} (hw : w ∈ words t) (hc : c ∈ w) : c ∈ t := by
  have hsplit : ∀ w ∈ t.splitOnP isSpace, ∀ c ∈ w, c ∈ t := by
    clear hw hc w c
    induction t with
    | nil => simp
    | cons d t ih =>
      obtain ⟨first, rest, hsplit⟩ := List.exists_cons_of_ne_nil (List.splitOnP_ne_nil isSpace t)
      rw [hsplit] at ih
      obtain ⟨hfirst, hrest⟩ := List.forall_mem_cons.1 ih
      rw [List.splitOnP_cons_eq_if_modifyHead, hsplit]
      split
      · refine List.forall_mem_cons.2 ⟨(fun _ hc => nomatch hc), fun w hw c hc => ?_⟩
        exact List.mem_cons_of_mem d (ih w hw c hc)
      · refine List.forall_mem_cons.2 ⟨fun c hc => ?_, fun w hw c hc => ?_⟩
        · rcases List.mem_cons.1 hc with rfl | hc
          · exact List.mem_cons_self
          · exact List.mem_cons_of_mem d (hfirst c hc)
        · exact List.mem_cons_of_mem d (hrest w hw c hc)
  exact hsplit w (List.mem_filter.1 hw).1 c hc

theorem words_ne_nil {t : Str} {c : Nat} (hc : c ∈ t) (hspace : isSpace c = false) :
    words t ≠ [] := by
  induction t with
  | nil => cases hc
  | cons d t ih =>
    obtain ⟨w, rest, hsplit⟩ := List.exists_cons_of_ne_nil (List.splitOnP_ne_nil isSpace t)
    unfold words at ih ⊢
    rw [List.splitOnP_cons_eq_if_modifyHead]
    split
    · rename_i hd
      have hmem : c ∈ t := (List.mem_cons.1 hc).resolve_left fun hsame => by
        rw [hsame, hd] at hspace
        cases hspace
      simpa using ih hmem
    · simp [hsplit]

/-- A text in which nothing is a space is left as it is. -/
theorem joined_eq_self {t : Str} (h : ∀ c ∈ t, isSpace c = false) : joined t = t := by
  rw [joined, strip_eq_self h, words, List.splitOnP_eq_singleton h]
  cases t <;> simp

theorem mem_intercalate {ws : List Str} {c : Nat} (hc : c ∈ [32].intercalate ws) :
    c = 32 ∨ ∃ w ∈ ws, c ∈ w := by
  induction ws with
  | nil => cases hc
  | cons w ws ih =>
    cases ws with
    | nil =>
      rw [List.intercalate_singleton] at hc
      exact .inr ⟨w, List.mem_singleton_self w, hc⟩
    | cons v ws =>
      rw [List.intercalate_cons_cons, List.mem_append, List.mem_append] at hc
      rcases hc with (hc | hc) | hc
      · exact .inr ⟨w, List.mem_cons_self, hc⟩
      · exact .inl (List.mem_singleton.1 hc)
      · rcases ih hc with rfl | ⟨u, hu, hc⟩
        · exact .inl rfl
        · exact .inr ⟨u, List.mem_cons_of_mem w hu, hc⟩

theorem mem_of_mem_strip {t : Str} {c : Nat} (hc : c ∈ strip t) : c ∈ t :=
  (List.dropWhile_sublist isSpace).mem ((List.rdropWhile_prefix isSpace _).sublist.mem hc)

theorem mem_joined {t : Str} {c : Nat} (hc : c ∈ joined t) : c = 32 ∨ c ∈ t := by
  rcases mem_intercalate hc with rfl | ⟨w, hw, hc⟩
  · exact .inl rfl
  · exact .inr (mem_of_mem_strip (mem_of_mem_words hw hc))

theorem encodable_joined {t : Str} (h : encodable t = true) : encodable (joined t) = true := by
  refine List.all_eq_true.2 fun c hc => ?_
  rcases mem_joined hc with rfl | hc
  · rfl
  · exact List.all_eq_true.1 h c hc

theorem head_of_strip {t : Str} {c : Nat} (h : strip (c :: t) = c :: t) : isSpace c = false := by
  by_contra hspace
  have hdrop : (c :: t).dropWhile isSpace = t.dropWhile isSpace := by
    simp [Bool.of_not_eq_false hspace]
  have hlength : (strip (c :: t)).length ≤ t.length := by
    rw [strip, hdrop]
    exact length_strip_le t
  rw [h] at hlength
  exact absurd hlength (Nat.not_succ_le_self _)

theorem last_of_strip {t : Str} {c : Nat} (h : strip (t ++ [c]) = t ++ [c]) : isSpace c = false := by
  have hself : (t ++ [c]).rdropWhile isSpace = t ++ [c] := by
    have hidem := List.rdropWhile_idempotent isSpace ((t ++ [c]).dropWhile isSpace)
    have hstrip : ((t ++ [c]).dropWhile isSpace).rdropWhile isSpace = t ++ [c] := h
    rwa [hstrip] at hidem
  have hlast := List.rdropWhile_eq_self_iff.1 hself (by simp)
  simpa using hlast

theorem space_mem_joined {t : Str} (hstrip : strip t = t) {c : Nat} (hc : c ∈ t)
    (hspace : isSpace c = true) : 32 ∈ joined t := by
  obtain ⟨u, v, rfl⟩ := List.append_of_mem hc
  have hsplit : words (u ++ c :: v) = words u ++ words v := by
    rw [words, List.splitOnP_append_cons u v hspace, List.filter_append, words, words]
  have hu : words u ≠ [] := by
    cases u with
    | nil =>
      rw [head_of_strip hstrip] at hspace
      cases hspace
    | cons d u => exact words_ne_nil List.mem_cons_self (head_of_strip hstrip)
  have hv : words v ≠ [] := by
    rcases List.eq_nil_or_concat v with rfl | ⟨v, d, rfl⟩
    · rw [last_of_strip hstrip] at hspace
      cases hspace
    · rw [List.concat_eq_append, ← List.cons_append, ← List.append_assoc] at hstrip
      exact words_ne_nil (by simp) (last_of_strip hstrip)
  rw [joined, hstrip, hsplit]
  obtain ⟨first, us, hu⟩ := List.exists_cons_of_ne_nil hu
  obtain ⟨second, vs, hv⟩ := List.exists_cons_of_ne_nil hv
  rw [hu, hv]
  cases us with
  | nil => simp [List.intercalate_cons_cons]
  | cons next us => simp [List.intercalate_cons_cons]

/-- The order of `str`, by code points. -/
def le : Str → Str → Bool
  | [], _ => true
  | _ :: _, [] => false
  | c :: t, d :: u => c < d || c == d && le t u

end Str

end FounderOs
