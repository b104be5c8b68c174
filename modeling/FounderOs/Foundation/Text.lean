import Mathlib.Data.List.DropRight

namespace FounderOs.Text

/-- The characters of Python's `str.isspace`. -/
def isSpace (c : Char) : Bool :=
  let n := c.toNat
  (9 ≤ n && n ≤ 13) || (28 ≤ n && n ≤ 32) || n = 133 || n = 160 || n = 5760 ||
    (8192 ≤ n && n ≤ 8202) || n = 8232 || n = 8233 || n = 8239 || n = 8287 || n = 12288

def stripChars (l : List Char) : List Char := (l.dropWhile isSpace).rdropWhile isSpace

def strip (s : String) : String := String.ofList (stripChars s.toList)

def lower (s : String) : String := String.ofList (s.toList.map Char.toLower)

def clip (s : String) (limit : Nat) : String := String.ofList (s.toList.take limit)

def truthy (value : Option String) : Bool := value.any (fun s => s != "")

/-- The non-blank text of a value, cut to a limit. -/
def optionalText (value : Option String) (limit : Nat) : Option String :=
  value.bind (fun s => if strip s = "" then none else some (clip (strip s) limit))

def stripped (value : Option String) : Option String :=
  value.bind (fun s => if strip s = "" then none else some (strip s))

theorem not_space_of_all {l : List Char} (h : l.all (fun c => !isSpace c) = true) :
    ∀ c ∈ l, isSpace c = false := by
  intro c hc
  have hnot := List.all_eq_true.mp h c hc
  rwa [Bool.not_eq_true'] at hnot

theorem stripChars_eq_self {l : List Char} (h : ∀ c ∈ l, isSpace c = false) : stripChars l = l := by
  have hdrop : l.dropWhile isSpace = l := by
    cases l with
    | nil => rfl
    | cons c l => simp [h c (by simp)]
  rw [stripChars, hdrop, List.rdropWhile_eq_self_iff]
  intro hl
  simp [h _ (List.getLast_mem hl)]

theorem strip_eq_self {s : String} (h : ∀ c ∈ s.toList, isSpace c = false) : strip s = s := by
  rw [strip, stripChars_eq_self h, String.ofList_toList]

theorem ofList_eq_empty {l : List Char} : String.ofList l = "" ↔ l = [] := by
  constructor
  · intro h
    have := congrArg String.toList h
    simpa using this
  · rintro rfl
    rfl

theorem clip_ne_empty {s : String} {limit : Nat} (hs : s ≠ "") (hl : 0 < limit) :
    clip s limit ≠ "" := by
  intro h
  rw [clip, ofList_eq_empty] at h
  cases limit with
  | zero => cases hl
  | succ limit =>
    cases hc : s.toList with
    | nil => exact hs (String.toList_eq_nil_iff.mp hc)
    | cons c l => simp [hc] at h

@[simp] theorem truthy_none : truthy none = false := rfl

theorem truthy_some {s : String} : truthy (some s) = true ↔ s ≠ "" := by simp [truthy]

theorem truthy_optionalText {value : Option String} {limit : Nat} (hl : 0 < limit) :
    truthy (optionalText value limit) = true ↔ ∃ s, value = some s ∧ strip s ≠ "" := by
  cases value with
  | none => simp [optionalText]
  | some s =>
    by_cases hs : strip s = ""
    · simp [optionalText, hs]
    · simp [optionalText, hs, truthy_some, clip_ne_empty hs hl]

theorem strip_ne_empty {s : String} (hs : s ≠ "") (h : ∀ c ∈ s.toList, isSpace c = false) :
    strip s ≠ "" := by
  rwa [strip_eq_self h]

theorem isSpace_of_alphanum {c : Char} (h : c.isAlphanum = true) : isSpace c = false := by
  change ((decide (c.val ≥ 'A'.val ∧ c.val ≤ 'Z'.val) || (c.val ≥ 'a'.val && c.val ≤ 'z'.val)) ||
    (c.val ≥ '0'.val && c.val ≤ '9'.val)) = true at h
  simp only [Bool.or_eq_true, Bool.and_eq_true, decide_eq_true_eq, ge_iff_le,
    UInt32.le_iff_toNat_le] at h
  have hn : c.toNat = c.val.toNat := rfl
  simp only [isSpace, hn, Bool.or_eq_false_iff, Bool.and_eq_false_iff, decide_eq_false_iff_not]
  change ((65 ≤ _ ∧ _ ≤ 90) ∨ (97 ≤ _ ∧ _ ≤ 122)) ∨ (48 ≤ _ ∧ _ ≤ 57) at h
  omega

variable {α : Type} [BEq α] {P : α → Prop}

theorem forall_splitOn {l : List α} (h : ∀ c ∈ l, P c) (a : α) :
    ∀ part ∈ l.splitOn a, ∀ c ∈ part, P c := by
  induction l with
  | nil => simp
  | cons x l ih =>
    have ih := ih (fun c hc => h c (List.mem_cons_of_mem x hc))
    rw [List.splitOn_cons_eq_if_modifyHead]
    split
    · simpa using ih
    · cases hs : l.splitOn a with
      | nil => simp
      | cons head rest =>
        rw [hs] at ih
        intro part hpart c hc
        rcases List.mem_cons.mp hpart with rfl | hrest
        · rcases List.mem_cons.mp hc with rfl | hc
          · exact h c (by simp)
          · exact ih head (by simp) c hc
        · exact ih part (by simp [hrest]) c hc

omit [BEq α] in
theorem forall_intercalate {a : α} (ha : P a) {parts : List (List α)}
    (h : ∀ part ∈ parts, ∀ c ∈ part, P c) : ∀ c ∈ [a].intercalate parts, P c := by
  induction parts with
  | nil => simp
  | cons part rest ih =>
    have ih := ih (fun q hq => h q (List.mem_cons_of_mem part hq))
    cases rest with
    | nil => simpa using h part (by simp)
    | cons q rest =>
      rw [List.intercalate_cons_cons]
      intro c hc
      rcases List.mem_append.mp hc with hc | hc
      · rcases List.mem_append.mp hc with hc | hc
        · exact h part (by simp) c hc
        · exact List.mem_singleton.mp hc ▸ ha
      · exact ih c hc

end FounderOs.Text
