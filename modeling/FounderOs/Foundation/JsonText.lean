import Mathlib.Algebra.Ring.Nat
import FounderOs.Foundation.Str

namespace FounderOs.JsonText

def hexDigit (n : Nat) : Nat := if n < 10 then 48 + n else 87 + n

def hexValue (c : Nat) : Nat := if c < 58 then c - 48 else c - 87

/-- What stands for a character in a string, with `ensure_ascii=False`. -/
def escape (c : Nat) : Str :=
  if c = 34 then [92, 34]
  else if c = 92 then [92, 92]
  else if c = 8 then [92, 98]
  else if c = 12 then [92, 102]
  else if c = 10 then [92, 110]
  else if c = 13 then [92, 114]
  else if c = 9 then [92, 116]
  else if c < 32 then [92, 117, 48, 48, hexDigit (c / 16), hexDigit (c % 16)]
  else [c]

def quote (text : Str) : Str := 34 :: text.flatMap escape ++ [34]

/-- Reads one character of a string. -/
def unescape : Str → Option (Nat × Str)
  | 92 :: 34 :: rest => some (34, rest)
  | 92 :: 92 :: rest => some (92, rest)
  | 92 :: 98 :: rest => some (8, rest)
  | 92 :: 102 :: rest => some (12, rest)
  | 92 :: 110 :: rest => some (10, rest)
  | 92 :: 114 :: rest => some (13, rest)
  | 92 :: 116 :: rest => some (9, rest)
  | 92 :: 117 :: 48 :: 48 :: high :: low :: rest => some (16 * hexValue high + hexValue low, rest)
  | c :: rest => some (c, rest)
  | [] => none

theorem hexValue_hexDigit : ∀ c < 32, 16 * hexValue (hexDigit (c / 16)) +
    hexValue (hexDigit (c % 16)) = c := by
  decide

theorem unescape_escape (c : Nat) (rest : Str) : unescape (escape c ++ rest) = some (c, rest) := by
  unfold escape
  split_ifs with h34 h92 h8 h12 h10 h13 h9 hcontrol
  · rw [h34]; rfl
  · rw [h92]; rfl
  · rw [h8]; rfl
  · rw [h12]; rfl
  · rw [h10]; rfl
  · rw [h13]; rfl
  · rw [h9]; rfl
  · simp only [List.cons_append, List.nil_append, unescape, hexValue_hexDigit c hcontrol]
  · simp only [List.cons_append, List.nil_append]
    unfold unescape
    split <;> simp_all

theorem escape_append_inj {c d : Nat} {rest rest' : Str}
    (h : escape c ++ rest = escape d ++ rest') : c = d ∧ rest = rest' := by
  have hread := congrArg unescape h
  rw [unescape_escape, unescape_escape] at hread
  exact Prod.mk.inj (Option.some.inj hread)

theorem head_escape (c : Nat) (rest : Str) : (escape c ++ rest).head? ≠ some 34 := by
  unfold escape
  split_ifs <;> simp_all

theorem escaped_append_inj {text text' rest rest' : Str}
    (h : text.flatMap escape ++ 34 :: rest = text'.flatMap escape ++ 34 :: rest') :
    text = text' ∧ rest = rest' := by
  induction text generalizing text' with
  | nil =>
    cases text' with
    | nil => exact ⟨rfl, (List.cons.inj h).2⟩
    | cons d text' =>
      rw [List.flatMap_cons, List.append_assoc] at h
      exact absurd (congrArg List.head? h).symm (head_escape d _)
  | cons c text ih =>
    rw [List.flatMap_cons, List.append_assoc] at h
    cases text' with
    | nil => exact absurd (congrArg List.head? h) (head_escape c _)
    | cons d text' =>
      rw [List.flatMap_cons, List.append_assoc] at h
      obtain ⟨rfl, hnext⟩ := escape_append_inj h
      obtain ⟨rfl, hrest⟩ := ih hnext
      exact ⟨rfl, hrest⟩

/-- A string says where it ends. -/
theorem quote_append_inj {text text' rest rest' : Str}
    (h : quote text ++ rest = quote text' ++ rest') : text = text' ∧ rest = rest' := by
  simp only [quote, List.cons_append, List.append_assoc, List.nil_append, List.cons.injEq,
    true_and] at h
  exact escaped_append_inj h

/-- The members of an object, whose values are texts of JSON. -/
def members : List (Str × Str) → Str
  | [] => []
  | [(key, value)] => quote key ++ 58 :: value
  | (key, value) :: fields => quote key ++ 58 :: (value ++ 44 :: members fields)

/-- `json.dumps`, with the separators `","` and `":"`, of an object whose keys come in order. -/
def object (fields : List (Str × Str)) : Str := 123 :: (members fields ++ [125])

def array (items : List Str) : Str := 91 :: ([44].intercalate items ++ [93])

def strings (fields : List (Str × Str)) : List (Str × Str) :=
  fields.map fun field => (field.1, quote field.2)

/-- What follows a member. -/
def afterMember : List (Str × Str) → Str
  | [] => [125]
  | field :: fields => 44 :: (members (strings (field :: fields)) ++ [125])

theorem members_cons (field : Str × Str) (fields : List (Str × Str)) :
    members (strings (field :: fields)) ++ [125] =
      quote field.1 ++ (58 :: (quote field.2 ++ afterMember fields)) := by
  cases fields <;> simp [strings, members, afterMember, List.append_assoc]

theorem afterMember_inj {fields fields' : List (Str × Str)}
    (h : afterMember fields = afterMember fields') : fields = fields' := by
  induction fields generalizing fields' with
  | nil =>
    cases fields' with
    | nil => rfl
    | cons _ _ => cases h
  | cons field fields ih =>
    cases fields' with
    | nil => cases h
    | cons field' fields' =>
      have hfields : members (strings (field :: fields)) ++ [125] =
          members (strings (field' :: fields')) ++ [125] := (List.cons.inj h).2
      rw [members_cons, members_cons] at hfields
      obtain ⟨hkey, hrest⟩ := quote_append_inj hfields
      obtain ⟨hvalue, hrest⟩ := quote_append_inj (List.cons.inj hrest).2
      rw [Prod.ext hkey hvalue, ih hrest]

/-- An object of strings is read back from its text. -/
theorem object_strings_inj {fields fields' : List (Str × Str)}
    (h : object (strings fields) = object (strings fields')) : fields = fields' := by
  have hfields := (List.cons.inj h).2
  cases fields with
  | nil =>
    cases fields' with
    | nil => rfl
    | cons field' fields' =>
      rw [members_cons] at hfields
      cases hfields
  | cons field fields =>
    cases fields' with
    | nil =>
      rw [members_cons] at hfields
      cases hfields
    | cons field' fields' =>
      refine afterMember_inj ?_
      rw [afterMember, afterMember, hfields]

/-- What `encode("utf-8")` takes. -/
def utf8Size (text : Str) : Nat :=
  (text.map fun c => if c < 128 then 1 else if c < 2048 then 2 else if c < 65536 then 3 else 4).sum

end FounderOs.JsonText
