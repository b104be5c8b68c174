import FounderOs.Foundation.Str
import Mathlib.Data.List.Infix

namespace FounderOs.Like

inductive Token (α : Type) where
  | any
  | one
  | char (a : α)
  deriving DecidableEq

section accepts

variable {α : Type} [DecidableEq α] {p : List (Token α)} {l t : List α}

/-- The whole text is what the tokens stand for, one after the other. -/
def accepts : List (Token α) → List α → Bool
  | [], t => t.isEmpty
  | .any :: p, t => t.tails.any (accepts p)
  | .one :: _, [] => false
  | .one :: p, _ :: t => accepts p t
  | .char _ :: _, [] => false
  | .char a :: p, b :: t => a == b && accepts p t

theorem accepts_any : accepts (.any :: p) t = true ↔ ∃ u, u <:+ t ∧ accepts p u = true := by
  simp only [accepts, List.any_eq_true, List.mem_tails]

theorem accepts_chars :
    accepts (l.map .char ++ p) t = true ↔ ∃ u, t = l ++ u ∧ accepts p u = true := by
  induction l generalizing t with
  | nil => simp
  | cons a l ih =>
    cases t with
    | nil => simp [accepts]
    | cons b t =>
      simp only [List.map_cons, List.cons_append, accepts, Bool.and_eq_true, beq_iff_eq, ih,
        List.cons.injEq]
      constructor
      · rintro ⟨rfl, u, rfl, hu⟩
        exact ⟨u, ⟨rfl, rfl⟩, hu⟩
      · rintro ⟨u, ⟨rfl, rfl⟩, hu⟩
        exact ⟨rfl, u, rfl, hu⟩

theorem accepts_only_any : accepts [.any] t = true :=
  accepts_any.2 ⟨[], List.nil_suffix, rfl⟩

/-- Characters after a wildcard are found in what is accepted, whatever follows them. -/
theorem infix_of_accepts (h : accepts (.any :: (l.map .char ++ p)) t = true) : l <:+: t := by
  obtain ⟨u, ⟨v, rfl⟩, hu⟩ := accepts_any.1 h
  obtain ⟨w, rfl, -⟩ := accepts_chars.1 hu
  exact ⟨v, w, by rw [List.append_assoc]⟩

theorem accepts_within_iff :
    accepts (.any :: (l.map .char ++ [.any])) t = true ↔ l <:+: t := by
  refine ⟨infix_of_accepts, ?_⟩
  rintro ⟨v, w, rfl⟩
  refine accepts_any.2 ⟨l ++ w, ⟨v, (List.append_assoc v l w).symm⟩, ?_⟩
  exact accepts_chars.2 ⟨w, rfl, accepts_only_any⟩

end accepts

section parse

def percent : Nat := 37
def underscore : Nat := 95
def backslash : Nat := 92

def token (c : Nat) : Token Nat :=
  if c = percent then .any else if c = underscore then .one else .char c

/-- The tokens of the rest of a pattern, the last character before it being an escape or not. No
pattern ends with an escape. -/
def parseFrom : Bool → Str → Option (List (Token Nat))
  | false, [] => some []
  | true, [] => none
  | true, c :: p => (parseFrom false p).map (Token.char c :: ·)
  | false, c :: p =>
    if c = backslash then parseFrom true p else (parseFrom false p).map (token c :: ·)

/-- `text LIKE pattern`; a pattern that is refused finds nothing. -/
def like (text pattern : Str) : Bool := (parseFrom false pattern).any (accepts · text)

/-- What a search text is looked up by. -/
def around (q : Str) : Str := percent :: (q ++ [percent])

variable {q t : Str}

theorem like_around : like t (around q) =
    ((parseFrom false (q ++ [percent])).map (Token.any :: ·)).any (accepts · t) := rfl

/-- A pattern in which nothing is special but the two ends. -/
theorem parse_literal (h : ∀ c ∈ q, c ≠ percent ∧ c ≠ underscore ∧ c ≠ backslash) :
    parseFrom false (q ++ [percent]) = some (q.map .char ++ [.any]) := by
  induction q with
  | nil => rfl
  | cons c q ih =>
    obtain ⟨⟨hpercent, hunderscore, hbackslash⟩, hq⟩ := List.forall_mem_cons.1 h
    rw [List.cons_append, parseFrom, if_neg hbackslash, ih hq, token, if_neg hpercent,
      if_neg hunderscore]
    rfl

/-- Without a wildcard of its own a pattern is a text to be found, which ends with the closing
wildcard if that is escaped. -/
theorem parse_wildless (h : ∀ c ∈ q, c ≠ percent ∧ c ≠ underscore) (escaped : Bool) :
    ∃ l : Str, (q ≠ [] ∨ escaped = true → l ≠ []) ∧
      ∃ p, parseFrom escaped (q ++ [percent]) = some (l.map Token.char ++ p) := by
  induction q generalizing escaped with
  | nil =>
    cases escaped with
    | false => exact ⟨[], by simp, [.any], rfl⟩
    | true => exact ⟨[percent], by simp, [], rfl⟩
  | cons c q ih =>
    obtain ⟨⟨hpercent, hunderscore⟩, hq⟩ := List.forall_mem_cons.1 h
    by_cases hescape : escaped = false ∧ c = backslash
    · obtain ⟨rfl, rfl⟩ := hescape
      obtain ⟨l, hl, p, hp⟩ := ih hq true
      exact ⟨l, fun _ => hl (.inr rfl), p, by rw [List.cons_append, parseFrom, if_pos rfl, hp]⟩
    · obtain ⟨l, -, p, hp⟩ := ih hq false
      refine ⟨c :: l, fun _ => List.cons_ne_nil c l, p, ?_⟩
      cases escaped with
      | true => rw [List.cons_append, parseFrom, hp]; rfl
      | false =>
        rw [List.cons_append, parseFrom, if_neg fun hc => hescape ⟨rfl, hc⟩, hp, token,
          if_neg hpercent, if_neg hunderscore]
        rfl

theorem like_around_iff (h : ∀ c ∈ q, c ≠ percent ∧ c ≠ underscore ∧ c ≠ backslash) :
    like t (around q) = true ↔ q <:+: t := by
  rw [like_around, parse_literal h]
  exact accepts_within_iff

/-- What is found without a wildcard is one text in all that it is found in. -/
theorem found_of_wildless (hq : q ≠ []) (h : ∀ c ∈ q, c ≠ percent ∧ c ≠ underscore) :
    ∃ l : Str, l ≠ [] ∧ ∀ t, like t (around q) = true → l <:+: t := by
  obtain ⟨l, hl, p, hp⟩ := parse_wildless h false
  refine ⟨l, hl (.inl hq), fun t ht => ?_⟩
  rw [like_around, hp] at ht
  exact infix_of_accepts ht

end parse

end FounderOs.Like
