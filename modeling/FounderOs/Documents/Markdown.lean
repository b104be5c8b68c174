import FounderOs.Foundation.Str

namespace FounderOs.Documents

section substitute

/-- A match of a pattern at the head of a text: what replaces it, and its length. -/
abbrev Pattern := Str → Option (Str × Nat)

/-- `pattern.sub(…)`, after `skip` more characters of the last match. -/
def substitute (pattern : Pattern) : Nat → Str → Str
  | _, [] => []
  | skip + 1, _ :: t => substitute pattern skip t
  | 0, c :: t =>
    match pattern (c :: t) with
    | none => c :: substitute pattern 0 t
    | some (replacement, length) => replacement ++ substitute pattern (length - 1) t

variable {pattern : Pattern} {t : Str}

theorem substitute_of_none {c : Nat} (h : pattern (c :: t) = none) :
    substitute pattern 0 (c :: t) = c :: substitute pattern 0 t := by
  rw [substitute, h]

theorem substitute_skipped {skip : Nat} (h : t.length ≤ skip) : substitute pattern skip t = [] := by
  induction t generalizing skip with
  | nil => rw [substitute]
  | cons c t ih =>
    cases skip with
    | zero => simp at h
    | succ skip => exact ih (Nat.le_of_succ_le_succ h)

/-- What holds of the characters of a text holds of those that a substitution leaves, if it holds
of the replacements. -/
theorem forall_mem_substitute {P : Nat → Prop}
    (hpattern : ∀ u replacement length, (∀ c ∈ u, P c) →
      pattern u = some (replacement, length) → ∀ c ∈ replacement, P c)
    (skip : Nat) (h : ∀ c ∈ t, P c) : ∀ c ∈ substitute pattern skip t, P c := by
  fun_induction substitute pattern skip t with
  | case1 => exact h
  | case2 skip c t ih => exact ih (List.forall_mem_cons.1 h).2
  | case3 c t hnone ih =>
    exact List.forall_mem_cons.2 ⟨(List.forall_mem_cons.1 h).1, ih (List.forall_mem_cons.1 h).2⟩
  | case4 c t replacement length hsome ih =>
    exact List.forall_mem_append.2
      ⟨hpattern _ _ _ h hsome, ih (List.forall_mem_cons.1 h).2⟩

end substitute

/-- `[…]+`, replaced as a whole. -/
def runOf (member : Nat → Bool) (replacement : Str) : Pattern := fun t =>
  if t.takeWhile member = [] then none else some (replacement, (t.takeWhile member).length)

/-- `_MARKDOWN_LINK_RE`, by its label. -/
def markdownLink : Pattern
  | [] => none
  | c :: rest =>
    let label := rest.takeWhile (· != 93)
    let target := rest.drop (label.length + 2)
    let url := target.takeWhile (· != 41)
    if c = 91 ∧ (rest.drop label.length).take 2 = [93, 40] ∧ url.length < target.length then
      some (label, label.length + url.length + 4)
    else none

/-- `_MARKDOWN_IMAGE_RE` -/
def markdownImage : Pattern
  | [] => none
  | c :: rest =>
    if c = 33 then (markdownLink rest).map fun link => ([], link.2 + 1) else none

def fence : Str := [96, 96, 96]

/-- `_MARKDOWN_CODE_FENCE_RE`: the fence and the rest of its line, the break included. -/
def markdownCodeFence : Pattern := fun t =>
  if t.take 3 = fence then
    let line := (t.drop 3).takeWhile (· != 10)
    some ([], 3 + line.length + min 1 ((t.drop 3).length - line.length))
  else none

def inlineMarks : Str := Str.of "*_`~>#"

def markdownInlineMarks : Pattern := runOf inlineMarks.contains []

def whitespace : Pattern := runOf [32, 9].contains [32]

/-- `_BLANKLINES_RE` -/
def blankLines : Pattern := fun t =>
  if 3 ≤ (t.takeWhile (· == 10)).length then
    some ([10, 10], (t.takeWhile (· == 10)).length)
  else none

/-- Where `str.splitlines` ends a line. -/
def isLineBreak (c : Nat) : Bool :=
  [10, 11, 12, 13, 28, 29, 30, 0x85, 0x2028, 0x2029].contains c

/-- The lines of the rest of a text, after the characters of the line that is being read. A line
feed that follows a carriage return ends no line of its own. -/
def splitLinesFrom (line : Str) (returned : Bool) : Str → List Str
  | [] => if line = [] then [] else [line]
  | c :: t =>
    if returned && c == 10 then splitLinesFrom line false t
    else if isLineBreak c then line :: splitLinesFrom [] (c == 13) t
    else splitLinesFrom (line ++ [c]) false t

/-- `str.splitlines()` -/
def splitLines (t : Str) : List Str := splitLinesFrom [] false t

def markdownToText (bodyMarkdown : Str) : Str :=
  if bodyMarkdown = [] then []
  else
    let text := substitute markdownImage 0 bodyMarkdown
    let text := substitute markdownLink 0 text
    let text := substitute markdownCodeFence 0 text
    let text := substitute markdownInlineMarks 0 text
    let text := substitute whitespace 0 text
    let text := substitute blankLines 0 text
    Str.strip ([10].intercalate ((splitLines text).map Str.strip))

section lines

variable {t : Str}

theorem splitLinesFrom_line (h : ∀ c ∈ t, isLineBreak c = false) (line : Str)
    (hne : line ++ t ≠ []) : splitLinesFrom line false t = [line ++ t] := by
  induction t generalizing line with
  | nil =>
    rw [List.append_nil] at hne ⊢
    rw [splitLinesFrom, if_neg hne]
  | cons c t ih =>
    obtain ⟨hc, ht⟩ := List.forall_mem_cons.1 h
    have hrest : splitLinesFrom (line ++ [c]) false t = [(line ++ [c]) ++ t] :=
      ih ht (line ++ [c]) (by simp)
    rw [splitLinesFrom, hc, hrest, List.append_assoc]
    rfl

theorem splitLines_line (h : ∀ c ∈ t, isLineBreak c = false) (hne : t ≠ []) :
    splitLines t = [t] := splitLinesFrom_line h [] hne

end lines

section fenced

variable {t : Str}

theorem markdownImage_tick : markdownImage (96 :: t) = none := rfl

theorem markdownLink_tick : markdownLink (96 :: t) = none := by simp [markdownLink]

theorem substitute_fence {pattern : Pattern} (h : ∀ t, pattern (96 :: t) = none) :
    substitute pattern 0 (fence ++ t) = fence ++ substitute pattern 0 t := by
  simp only [fence, List.cons_append, List.nil_append]
  rw [substitute_of_none (h _), substitute_of_none (h _), substitute_of_none (h _)]

theorem label_mem {u label : Str} {length : Nat} (h : markdownLink u = some (label, length))
    {c : Nat} (hc : c ∈ label) : c ∈ u := by
  cases u with
  | nil => cases h
  | cons d u =>
    simp only [markdownLink] at h
    split at h
    · cases h
      exact List.mem_cons_of_mem _ ((List.takeWhile_prefix _).subset hc)
    · cases h

theorem markdownCodeFence_line (h : 10 ∉ t) :
    markdownCodeFence (fence ++ t) = some ([], 3 + t.length) := by
  have hline : t.takeWhile (· != 10) = t := by
    rw [List.takeWhile_eq_self_iff]
    intro c hc
    exact bne_iff_ne.2 fun heq => h (heq ▸ hc)
  simp [markdownCodeFence, fence, hline]

/-- A fence at the head of a text without a line feed takes the text along. -/
theorem markdownToText_fenced (h : 10 ∉ t) : markdownToText (fence ++ t) = [] := by
  have himage : substitute markdownImage 0 (fence ++ t) = fence ++ substitute markdownImage 0 t :=
    substitute_fence fun _ => rfl
  have hlink := substitute_fence (t := substitute markdownImage 0 t) fun _ => markdownLink_tick
  have hkept : ∀ c ∈ substitute markdownLink 0 (substitute markdownImage 0 t), c ≠ 10 := by
    refine forall_mem_substitute (fun u label length hu hlabel c hc => hu c (label_mem hlabel hc)) 0
      (forall_mem_substitute (fun u replacement length _ hsome c hc => ?_) 0 ?_)
    · cases u with
      | nil => cases hsome
      | cons d u =>
        simp only [markdownImage] at hsome
        split at hsome
        · obtain ⟨link, -, hlink⟩ := Option.map_eq_some_iff.1 hsome
          cases hlink
          cases hc
        · cases hsome
    · exact fun c hc heq => h (heq ▸ hc)
  have hfence : substitute markdownCodeFence 0
      (fence ++ substitute markdownLink 0 (substitute markdownImage 0 t)) = [] := by
    have hmatch := markdownCodeFence_line fun hmem => hkept 10 hmem rfl
    simp only [fence, List.cons_append, List.nil_append] at hmatch ⊢
    rw [substitute, hmatch]
    exact substitute_skipped (by simp; omega)
  rw [markdownToText, if_neg (by simp [fence])]
  simp only [himage, hlink, hfence]
  rfl

end fenced

end FounderOs.Documents
