import FounderOs.Foundation.JsonText
import FounderOs.Proposals.SecretKeys

namespace FounderOs.Proposals

open JsonText

section values

variable (number text : Str → Bool) (nonFinite : Bool)

mutual

/-- A check of every number, and of every string and key. -/
def Value.every : Value → Bool
  | .null => true
  | .bool _ => true
  | .num digits => number digits
  | .nonFinite => nonFinite
  | .str string => text string
  | .arr items => everyItem items
  | .obj fields => everyField fields

def everyItem : List Value → Bool
  | [] => true
  | item :: items => item.every && everyItem items

def everyField : List (Str × Value) → Bool
  | [] => true
  | (key, value) :: fields => (text key && value.every) && everyField fields

end

end values

mutual

/-- The value with the members of each object in the order of their keys. Two dicts are equal when
these are. -/
def Value.sorted : Value → Value
  | .null => .null
  | .bool value => .bool value
  | .num digits => .num digits
  | .nonFinite => .nonFinite
  | .str string => .str string
  | .arr items => .arr (sortedItems items)
  | .obj fields => .obj ((sortedFields fields).mergeSort fun a b => Str.le a.1 b.1)

def sortedItems : List Value → List Value
  | [] => []
  | item :: items => item.sorted :: sortedItems items

def sortedFields : List (Str × Value) → List (Str × Value)
  | [] => []
  | (key, value) :: fields => (key, value.sorted) :: sortedFields fields

end

mutual

/-- `json.dumps` with `ensure_ascii=False` and the separators `","` and `":"`. -/
def Value.dumps : Value → Option Str
  | .null => some (Str.of "null")
  | .bool value => some (Str.of (if value then "true" else "false"))
  | .num digits => some digits
  | .nonFinite => none
  | .str string => some (quote string)
  | .arr items => (dumpsItems items).map array
  | .obj fields => (dumpsFields fields).map object

def dumpsItems : List Value → Option (List Str)
  | [] => some []
  | item :: items => do return (← item.dumps) :: (← dumpsItems items)

def dumpsFields : List (Str × Value) → Option (List (Str × Str))
  | [] => some []
  | (key, value) :: fields => do return (key, ← value.dumps) :: (← dumpsFields fields)

end

def numberChar (c : Nat) : Bool :=
  (48 ≤ c && c ≤ 57) || c == 43 || c == 45 || c == 46 || c == 69 || c == 101

def numberText (digits : Str) : Bool := !digits.isEmpty && digits.all numberChar

/-- No high surrogate stands before a low one: `json.loads` joins them. -/
def whole : Str → Bool
  | high :: low :: rest =>
    !(0xD800 ≤ high && high ≤ 0xDBFF && 0xDC00 ≤ low && low ≤ 0xDFFF) && whole (low :: rest)
  | _ => true

/-- What `json.loads` makes. -/
def Value.loaded (value : Value) : Bool := value.every numberText whole true

def Value.finite (value : Value) : Bool := value.every (fun _ => true) (fun _ => true) false

/-- No string and no key has a surrogate. -/
def Value.encodable (value : Value) : Bool := value.every (fun _ => true) Str.encodable true

section every

variable {number text : Str → Bool} {nonFinite : Bool}

theorem everyField_iff {fields : List (Str × Value)} :
    everyField number text nonFinite fields = true ↔
      ∀ field ∈ fields, text field.1 = true ∧ field.2.every number text nonFinite = true := by
  induction fields with
  | nil => simp [everyField]
  | cons field fields ih =>
    rw [everyField, Bool.and_eq_true, Bool.and_eq_true, List.forall_mem_cons, ih]

theorem everyField_perm {fields fields' : List (Str × Value)} (h : fields.Perm fields') :
    everyField number text nonFinite fields = everyField number text nonFinite fields' := by
  rw [Bool.eq_iff_iff, everyField_iff, everyField_iff]
  exact forall_congr' fun field => imp_congr_left h.mem_iff

mutual

/-- The order of the members does not matter. -/
theorem every_sorted : (value : Value) →
    value.sorted.every number text nonFinite = value.every number text nonFinite
  | .null | .bool _ | .num _ | .nonFinite | .str _ => by rw [Value.sorted]
  | .arr items => by
    rw [Value.sorted, Value.every, Value.every, everyItem_sorted items]
  | .obj fields => by
    rw [Value.sorted, Value.every, Value.every, everyField_perm (List.mergeSort_perm _ _),
      everyField_sorted fields]

theorem everyItem_sorted : (items : List Value) →
    everyItem number text nonFinite (sortedItems items) = everyItem number text nonFinite items
  | [] => rfl
  | item :: items => by
    rw [sortedItems, everyItem, everyItem, every_sorted item, everyItem_sorted items]

theorem everyField_sorted : (fields : List (Str × Value)) →
    everyField number text nonFinite (sortedFields fields) =
      everyField number text nonFinite fields
  | [] => rfl
  | (key, value) :: fields => by
    rw [sortedFields, everyField, everyField, every_sorted value, everyField_sorted fields]

end

end every

section dumps

mutual

theorem dumps_of_finite : (value : Value) → value.finite = true → ∃ text, value.dumps = some text
  | .null, _ | .bool _, _ | .num _, _ | .str _, _ => ⟨_, rfl⟩
  | .nonFinite, h => nomatch h
  | .arr items, h => by
    obtain ⟨texts, htexts⟩ := dumpsItems_of_finite items h
    exact ⟨array texts, by rw [Value.dumps, htexts, Option.map_some]⟩
  | .obj fields, h => by
    obtain ⟨texts, htexts⟩ := dumpsFields_of_finite fields h
    exact ⟨object texts, by rw [Value.dumps, htexts, Option.map_some]⟩

theorem dumpsItems_of_finite : (items : List Value) →
    everyItem (fun _ => true) (fun _ => true) false items = true →
      ∃ texts, dumpsItems items = some texts
  | [], _ => ⟨[], rfl⟩
  | item :: items, h => by
    obtain ⟨hitem, hitems⟩ := Bool.and_eq_true_iff.1 h
    obtain ⟨text, htext⟩ := dumps_of_finite item hitem
    obtain ⟨texts, htexts⟩ := dumpsItems_of_finite items hitems
    exact ⟨text :: texts, by rw [dumpsItems, htext, htexts]; rfl⟩

theorem dumpsFields_of_finite : (fields : List (Str × Value)) →
    everyField (fun _ => true) (fun _ => true) false fields = true →
      ∃ texts, dumpsFields fields = some texts
  | [], _ => ⟨[], rfl⟩
  | (key, value) :: fields, h => by
    obtain ⟨hfield, hfields⟩ := Bool.and_eq_true_iff.1 h
    obtain ⟨text, htext⟩ := dumps_of_finite value (Bool.and_eq_true_iff.1 hfield).2
    obtain ⟨texts, htexts⟩ := dumpsFields_of_finite fields hfields
    exact ⟨(key, text) :: texts, by rw [dumpsFields, htext, htexts]; rfl⟩

end

mutual

/-- What the validator can measure is finite. -/
theorem finite_of_dumpsSize : (value : Value) → (dumpsSize value).isSome = true →
    value.finite = true
  | .null, _ | .bool _, _ | .num _, _ | .str _, _ => rfl
  | .nonFinite, h => nomatch h
  | .arr items, h => finite_of_itemsSize items (by simpa [dumpsSize] using h)
  | .obj fields, h => finite_of_fieldsSize fields (by simpa [dumpsSize] using h)

theorem finite_of_itemsSize : (items : List Value) → (itemsSize items).isSome = true →
    everyItem (fun _ => true) (fun _ => true) false items = true
  | [], _ => rfl
  | item :: items, h => by
    obtain ⟨size, hsize⟩ := Option.isSome_iff_exists.1 h
    rw [itemsSize] at hsize
    obtain ⟨first, hfirst, hsize⟩ := Option.bind_eq_some_iff.1 hsize
    obtain ⟨rest, hrest, -⟩ := Option.bind_eq_some_iff.1 hsize
    exact Bool.and_eq_true_iff.2 ⟨finite_of_dumpsSize item (by rw [hfirst]; rfl),
      finite_of_itemsSize items (by rw [hrest]; rfl)⟩

theorem finite_of_fieldsSize : (fields : List (Str × Value)) →
    (fieldsSize fields).isSome = true →
      everyField (fun _ => true) (fun _ => true) false fields = true
  | [], _ => rfl
  | (key, value) :: fields, h => by
    obtain ⟨size, hsize⟩ := Option.isSome_iff_exists.1 h
    rw [fieldsSize] at hsize
    obtain ⟨first, hfirst, hsize⟩ := Option.bind_eq_some_iff.1 hsize
    obtain ⟨rest, hrest, -⟩ := Option.bind_eq_some_iff.1 hsize
    exact Bool.and_eq_true_iff.2 ⟨finite_of_dumpsSize value (by rw [hfirst]; rfl),
      finite_of_fieldsSize fields (by rw [hrest]; rfl)⟩

end

end dumps

section encodable

theorem encodable_append (text rest : Str) :
    Str.encodable (text ++ rest) = (Str.encodable text && Str.encodable rest) := List.all_append

theorem encodable_cons {c : Nat} {text : Str} (h : c < 128) :
    Str.encodable (c :: text) = Str.encodable text := by
  have hc : (!(decide (0xD800 ≤ c) && decide (c ≤ 0xDFFF))) = true := by
    rw [decide_eq_false (by omega : ¬0xD800 ≤ c)]
    rfl
  simp only [Str.encodable, List.all_cons, hc, Bool.true_and]

theorem encodable_escape (c : Nat) : Str.encodable (escape c) = Str.encodable [c] := by
  have hdigits : ∀ c < 32, Str.encodable [92, 117, 48, 48, hexDigit (c / 16), hexDigit (c % 16)] =
      Str.encodable [c] := by decide
  unfold escape
  split_ifs with h34 h92 h8 h12 h10 h13 h9 hcontrol
  · rw [h34]; rfl
  · rw [h92]; rfl
  · rw [h8]; rfl
  · rw [h12]; rfl
  · rw [h10]; rfl
  · rw [h13]; rfl
  · rw [h9]; rfl
  · exact hdigits c hcontrol
  · rfl

theorem encodable_quote (text : Str) : Str.encodable (quote text) = Str.encodable text := by
  have hescaped : Str.encodable (text.flatMap escape) = Str.encodable text := by
    induction text with
    | nil => rfl
    | cons c text ih =>
      rw [List.flatMap_cons, encodable_append, encodable_escape, ih, ← encodable_append]
      rfl
  rw [quote, List.cons_append, encodable_cons (by decide), encodable_append, hescaped]
  exact Bool.and_true _

theorem encodable_numberText {digits : Str} (h : numberText digits = true) :
    Str.encodable digits = true := by
  rw [Str.encodable, List.all_eq_true]
  intro c hc
  have hchar := List.all_eq_true.1 (Bool.and_eq_true_iff.1 h).2 c hc
  simp only [numberChar, Bool.or_eq_true, Bool.and_eq_true, decide_eq_true_eq, beq_iff_eq] at hchar
  simp only [Bool.not_eq_true', Bool.and_eq_false_iff, decide_eq_false_iff_not]
  omega

theorem encodable_array (texts : List Str) :
    Str.encodable (array texts) = texts.all Str.encodable := by
  have hitems : Str.encodable ([44].intercalate texts) = texts.all Str.encodable := by
    induction texts with
    | nil => rfl
    | cons text texts ih =>
      cases texts with
      | nil => simp
      | cons next texts =>
        have hall : (text :: next :: texts).all Str.encodable =
            (Str.encodable text && (next :: texts).all Str.encodable) := List.all_cons
        have hcomma : Str.encodable [44] = true := rfl
        rw [List.intercalate_cons_cons, encodable_append, encodable_append, ih, hall, hcomma,
          Bool.and_true]
  rw [array, encodable_cons (by decide), encodable_append, hitems]
  exact Bool.and_true _

theorem encodable_object (fields : List (Str × Str)) :
    Str.encodable (object fields) =
      fields.all fun field => Str.encodable field.1 && Str.encodable field.2 := by
  have hmembers : Str.encodable (members fields) =
      fields.all fun field => Str.encodable field.1 && Str.encodable field.2 := by
    induction fields with
    | nil => rfl
    | cons field fields ih =>
      cases fields with
      | nil =>
        rw [members, encodable_append, encodable_quote, encodable_cons (by decide)]
        simp
      | cons next fields =>
        rw [members, encodable_append, encodable_quote, encodable_cons (by decide),
          encodable_append, encodable_cons (by decide), ih, ← Bool.and_assoc]
        · rfl
        · exact List.cons_ne_nil next fields
  rw [object, encodable_cons (by decide), encodable_append, hmembers]
  exact Bool.and_true _

mutual

/-- The text of a value can be encoded when its strings can. -/
theorem encodable_dumps : (value : Value) → value.loaded = true → ∀ {text},
    value.dumps = some text → Str.encodable text = value.encodable
  | .null, _, _, h => by cases h; rfl
  | .bool true, _, _, h => by cases h; rfl
  | .bool false, _, _, h => by cases h; rfl
  | .nonFinite, _, _, h => nomatch h
  | .num digits, hloaded, _, h => by
    cases h
    rw [encodable_numberText hloaded]
    rfl
  | .str string, _, _, h => by
    cases h
    exact encodable_quote string
  | .arr items, hloaded, _, h => by
    obtain ⟨texts, htexts, rfl⟩ := Option.map_eq_some_iff.1 h
    rw [encodable_array, encodable_dumpsItems items hloaded htexts]
    rfl
  | .obj fields, hloaded, _, h => by
    obtain ⟨texts, htexts, rfl⟩ := Option.map_eq_some_iff.1 h
    rw [encodable_object, encodable_dumpsFields fields hloaded htexts]
    rfl

theorem encodable_dumpsItems : (items : List Value) → everyItem numberText whole true items = true →
    ∀ {texts}, dumpsItems items = some texts →
      texts.all Str.encodable = everyItem (fun _ => true) Str.encodable true items
  | [], _, _, h => by cases h; rfl
  | item :: items, hloaded, _, h => by
    obtain ⟨hitem, hitems⟩ := Bool.and_eq_true_iff.1 hloaded
    obtain ⟨text, htext, h⟩ := Option.bind_eq_some_iff.1 h
    obtain ⟨texts, htexts, h⟩ := Option.bind_eq_some_iff.1 h
    cases h
    rw [List.all_cons, encodable_dumps item hitem htext, encodable_dumpsItems items hitems htexts]
    rfl

theorem encodable_dumpsFields : (fields : List (Str × Value)) →
    everyField numberText whole true fields = true → ∀ {texts}, dumpsFields fields = some texts →
      texts.all (fun field => Str.encodable field.1 && Str.encodable field.2) =
        everyField (fun _ => true) Str.encodable true fields
  | [], _, _, h => by cases h; rfl
  | (key, value) :: fields, hloaded, _, h => by
    obtain ⟨hfield, hfields⟩ := Bool.and_eq_true_iff.1 hloaded
    obtain ⟨text, htext, h⟩ := Option.bind_eq_some_iff.1 h
    obtain ⟨texts, htexts, h⟩ := Option.bind_eq_some_iff.1 h
    cases h
    rw [List.all_cons, encodable_dumps value (Bool.and_eq_true_iff.1 hfield).2 htext,
      encodable_dumpsFields fields hfields htexts]
    rfl

end

end encodable

section readable

/-- No number goes on here. -/
def Delimited (rest : Str) : Prop := ∀ c ∈ rest.head?, numberChar c = false

/-- Of which kind the value is that begins with the character. -/
def kindOf (c : Nat) : Nat :=
  if c = 110 then 1 else if c = 116 then 2 else if c = 102 then 3 else if c = 34 then 4
  else if c = 91 then 5 else if c = 123 then 6 else if numberChar c then 7 else 0

def Value.kind : Value → Nat
  | .null => 1
  | .bool true => 2
  | .bool false => 3
  | .str _ => 4
  | .arr _ => 5
  | .obj _ => 6
  | .num _ => 7
  | .nonFinite => 0

theorem kindOf_numberChar {c : Nat} (h : numberChar c = true) : kindOf c = 7 := by
  have hne : c ≠ 110 ∧ c ≠ 116 ∧ c ≠ 102 ∧ c ≠ 34 ∧ c ≠ 91 ∧ c ≠ 123 := by
    refine ⟨?_, ?_, ?_, ?_, ?_, ?_⟩ <;>
    · rintro rfl
      cases h
  rw [kindOf, if_neg hne.1, if_neg hne.2.1, if_neg hne.2.2.1, if_neg hne.2.2.2.1,
    if_neg hne.2.2.2.2.1, if_neg hne.2.2.2.2.2, if_pos h]

/-- The first character of a text tells the kind of its value. -/
theorem kind_of_dumps {value : Value} {text : Str} (hloaded : value.loaded = true)
    (h : value.dumps = some text) : ∃ c rest, text = c :: rest ∧ kindOf c = value.kind := by
  cases value with
  | null => cases h; exact ⟨_, _, rfl, rfl⟩
  | bool value =>
    cases value <;> cases h
    · exact ⟨_, _, rfl, rfl⟩
    · exact ⟨_, _, rfl, rfl⟩
  | nonFinite => cases h
  | num digits =>
    obtain rfl : digits = text := Option.some.inj h
    obtain ⟨hne, hchars⟩ := Bool.and_eq_true_iff.1 hloaded
    cases digits with
    | nil => cases hne
    | cons c rest => exact ⟨c, rest, rfl, kindOf_numberChar (List.all_eq_true.1 hchars c (by simp))⟩
  | str string => cases h; exact ⟨_, _, rfl, rfl⟩
  | arr items =>
    obtain ⟨texts, -, rfl⟩ := Option.map_eq_some_iff.1 h
    exact ⟨_, _, rfl, rfl⟩
  | obj fields =>
    obtain ⟨texts, -, rfl⟩ := Option.map_eq_some_iff.1 h
    exact ⟨_, _, rfl, rfl⟩

theorem number_append_inj {digits digits' rest rest' : Str} (hdigits : digits.all numberChar = true)
    (hdigits' : digits'.all numberChar = true) (hrest : Delimited rest) (hrest' : Delimited rest')
    (h : digits ++ rest = digits' ++ rest') : digits = digits' ∧ rest = rest' := by
  induction digits generalizing digits' with
  | nil =>
    cases digits' with
    | nil => exact ⟨rfl, h⟩
    | cons c digits' =>
      rw [List.nil_append] at h
      have hc := hrest c (by rw [h]; rfl)
      rw [List.all_eq_true.1 hdigits' c (by simp)] at hc
      cases hc
  | cons c digits ih =>
    rw [List.all_cons, Bool.and_eq_true] at hdigits
    cases digits' with
    | nil =>
      rw [List.nil_append] at h
      have hc := hrest' c (by rw [← h]; rfl)
      rw [hdigits.1] at hc
      cases hc
    | cons d digits' =>
      rw [List.all_cons, Bool.and_eq_true] at hdigits'
      obtain ⟨rfl, htail⟩ := List.cons.inj h
      obtain ⟨rfl, hrests⟩ := ih hdigits.2 hdigits'.2 htail
      exact ⟨rfl, hrests⟩

/-- What follows an item of an array, up to its end. -/
def afterItem : List Str → Str
  | [] => [93]
  | text :: texts => 44 :: ([44].intercalate (text :: texts) ++ [93])

def afterField : List (Str × Str) → Str
  | [] => [125]
  | field :: fields => 44 :: (members (field :: fields) ++ [125])

theorem array_cons (text : Str) (texts : List Str) :
    array (text :: texts) = 91 :: (text ++ afterItem texts) := by
  cases texts with
  | nil => simp [array, afterItem]
  | cons next texts => simp [array, afterItem, List.intercalate_cons_cons]

theorem object_cons (field : Str × Str) (fields : List (Str × Str)) :
    object (field :: fields) =
      123 :: (quote field.1 ++ (58 :: (field.2 ++ afterField fields))) := by
  cases fields with
  | nil => simp [object, members, afterField]
  | cons next fields => simp [object, members, afterField]

theorem delimited_afterItem (texts : List Str) (rest : Str) :
    Delimited (afterItem texts ++ rest) := by
  intro c hc
  cases texts <;>
  · obtain rfl := Option.some.inj hc
    rfl

theorem delimited_afterField (fields : List (Str × Str)) (rest : Str) :
    Delimited (afterField fields ++ rest) := by
  intro c hc
  cases fields <;>
  · obtain rfl := Option.some.inj hc
    rfl

/-- What the text of a nonempty array goes on with, after the bracket. -/
theorem afterItem_cons (text : Str) (texts : List Str) :
    afterItem (text :: texts) = 44 :: (text ++ afterItem texts) := by
  have harray := array_cons text texts
  rw [array] at harray
  rw [afterItem, (List.cons.inj harray).2]

theorem afterField_cons (field : Str × Str) (fields : List (Str × Str)) :
    afterField (field :: fields) =
      44 :: (quote field.1 ++ (58 :: (field.2 ++ afterField fields))) := by
  have hobject := object_cons field fields
  rw [object] at hobject
  rw [afterField, (List.cons.inj hobject).2]

variable {rest rest' : Str}

theorem kind_of_append {value value' : Value} {text text' : Str} (hloaded : value.loaded = true)
    (hloaded' : value'.loaded = true) (hdumps : value.dumps = some text)
    (hdumps' : value'.dumps = some text') (h : text ++ rest = text' ++ rest') :
    value.kind = value'.kind := by
  obtain ⟨c, tail, rfl, hkind⟩ := kind_of_dumps hloaded hdumps
  obtain ⟨c', tail', rfl, hkind'⟩ := kind_of_dumps hloaded' hdumps'
  rw [← hkind, ← hkind', (List.cons.inj h).1]

theorem array_of_afterItem {texts texts' : List Str}
    (h : afterItem texts ++ rest = afterItem texts' ++ rest') :
    array texts ++ rest = array texts' ++ rest' := by
  cases texts with
  | nil =>
    cases texts' with
    | nil =>
      have hrests : rest = rest' := (List.cons.inj h).2
      rw [hrests]
    | cons text' texts' => cases (List.cons.inj h).1
  | cons text texts =>
    cases texts' with
    | nil => cases (List.cons.inj h).1
    | cons text' texts' =>
      rw [afterItem_cons, afterItem_cons] at h
      rw [array_cons, array_cons]
      exact congrArg (91 :: ·) (List.cons.inj h).2

theorem object_of_afterField {fields fields' : List (Str × Str)}
    (h : afterField fields ++ rest = afterField fields' ++ rest') :
    object fields ++ rest = object fields' ++ rest' := by
  cases fields with
  | nil =>
    cases fields' with
    | nil =>
      have hrests : rest = rest' := (List.cons.inj h).2
      rw [hrests]
    | cons field' fields' => cases (List.cons.inj h).1
  | cons field fields =>
    cases fields' with
    | nil => cases (List.cons.inj h).1
    | cons field' fields' =>
      rw [afterField_cons, afterField_cons] at h
      rw [object_cons, object_cons]
      exact congrArg (123 :: ·) (List.cons.inj h).2

/-- No value begins with the character that ends an array. -/
theorem not_bracket {value : Value} {text : Str} (hloaded : value.loaded = true)
    (h : value.dumps = some text) (tail : Str) : 93 :: rest ≠ text ++ tail := by
  intro happ
  obtain ⟨c, more, rfl, hkind⟩ := kind_of_dumps hloaded h
  rw [← (List.cons.inj happ).1] at hkind
  cases value with
  | bool value => cases value <;> cases hkind
  | nonFinite => cases h
  | _ => cases hkind

mutual

/-- A text is of one value only. -/
theorem dumps_append_inj : (value value' : Value) → value.loaded = true → value'.loaded = true →
    ∀ {text text' rest rest'}, value.dumps = some text → value'.dumps = some text' →
      Delimited rest → Delimited rest' → text ++ rest = text' ++ rest' →
        value = value' ∧ rest = rest'
  | .nonFinite, _, _, _, _, _, _, _, h, _, _, _, _ => nomatch h
  | .null, value', hloaded, hloaded', _, _, _, _, h, h', _, _, happ => by
    have hkind := kind_of_append hloaded hloaded' h h' happ
    cases value' with
    | null =>
      cases h
      cases h'
      exact ⟨rfl, List.append_cancel_left happ⟩
    | bool value' => cases value' <;> simp [Value.kind] at hkind
    | _ => simp [Value.kind] at hkind
  | .bool value, value', hloaded, hloaded', _, _, _, _, h, h', _, _, happ => by
    have hkind := kind_of_append hloaded hloaded' h h' happ
    cases value' with
    | bool value' =>
      obtain rfl : value = value' := by cases value <;> cases value' <;> simp [Value.kind] at hkind ⊢
      cases h
      cases h'
      exact ⟨rfl, List.append_cancel_left happ⟩
    | _ => cases value <;> simp [Value.kind] at hkind
  | .num digits, value', hloaded, hloaded', _, _, _, _, h, h', hrest, hrest', happ => by
    have hkind := kind_of_append hloaded hloaded' h h' happ
    cases value' with
    | num digits' =>
      cases h
      cases h'
      obtain ⟨rfl, hrests⟩ := number_append_inj (Bool.and_eq_true_iff.1 hloaded).2
        (Bool.and_eq_true_iff.1 hloaded').2 hrest hrest' happ
      exact ⟨rfl, hrests⟩
    | bool value' => cases value' <;> simp [Value.kind] at hkind
    | _ => simp [Value.kind] at hkind
  | .str string, value', hloaded, hloaded', _, _, _, _, h, h', _, _, happ => by
    have hkind := kind_of_append hloaded hloaded' h h' happ
    cases value' with
    | str string' =>
      cases h
      cases h'
      obtain ⟨rfl, hrests⟩ := quote_append_inj happ
      exact ⟨rfl, hrests⟩
    | bool value' => cases value' <;> simp [Value.kind] at hkind
    | _ => simp [Value.kind] at hkind
  | .arr items, value', hloaded, hloaded', _, _, _, _, h, h', hrest, hrest', happ => by
    have hkind := kind_of_append hloaded hloaded' h h' happ
    cases value' with
    | arr items' =>
      obtain ⟨texts, htexts, rfl⟩ := Option.map_eq_some_iff.1 h
      obtain ⟨texts', htexts', rfl⟩ := Option.map_eq_some_iff.1 h'
      obtain ⟨rfl, hrests⟩ := items_append_inj items items' hloaded hloaded' htexts htexts'
        hrest hrest' happ
      exact ⟨rfl, hrests⟩
    | bool value' => cases value' <;> simp [Value.kind] at hkind
    | _ => simp [Value.kind] at hkind
  | .obj fields, value', hloaded, hloaded', _, _, _, _, h, h', hrest, hrest', happ => by
    have hkind := kind_of_append hloaded hloaded' h h' happ
    cases value' with
    | obj fields' =>
      obtain ⟨texts, htexts, rfl⟩ := Option.map_eq_some_iff.1 h
      obtain ⟨texts', htexts', rfl⟩ := Option.map_eq_some_iff.1 h'
      obtain ⟨rfl, hrests⟩ := fields_append_inj fields fields' hloaded hloaded' htexts htexts'
        hrest hrest' happ
      exact ⟨rfl, hrests⟩
    | bool value' => cases value' <;> simp [Value.kind] at hkind
    | _ => simp [Value.kind] at hkind

theorem items_append_inj : (items items' : List Value) →
    everyItem numberText whole true items = true → everyItem numberText whole true items' = true →
    ∀ {texts texts' rest rest'}, dumpsItems items = some texts → dumpsItems items' = some texts' →
      Delimited rest → Delimited rest' → array texts ++ rest = array texts' ++ rest' →
        items = items' ∧ rest = rest'
  | [], items', _, hloaded', _, _, _, _, h, h', _, _, happ => by
    cases h
    cases items' with
    | nil =>
      cases h'
      exact ⟨rfl, List.append_cancel_left happ⟩
    | cons item' items' =>
      obtain ⟨text', htext', h'⟩ := Option.bind_eq_some_iff.1 h'
      obtain ⟨texts', -, h'⟩ := Option.bind_eq_some_iff.1 h'
      cases h'
      rw [array_cons, List.cons_append, List.append_assoc] at happ
      exact absurd (List.cons.inj happ).2
        (not_bracket (Bool.and_eq_true_iff.1 hloaded').1 htext' _)
  | item :: items, items', hloaded, hloaded', _, _, _, _, h, h', hrest, hrest', happ => by
    obtain ⟨hitem, hitems⟩ := Bool.and_eq_true_iff.1 hloaded
    obtain ⟨text, htext, h⟩ := Option.bind_eq_some_iff.1 h
    obtain ⟨texts, htexts, h⟩ := Option.bind_eq_some_iff.1 h
    cases h
    rw [array_cons, List.cons_append, List.append_assoc] at happ
    cases items' with
    | nil =>
      cases h'
      exact absurd (List.cons.inj happ).2.symm (not_bracket hitem htext _)
    | cons item' items' =>
      obtain ⟨hitem', hitems'⟩ := Bool.and_eq_true_iff.1 hloaded'
      obtain ⟨text', htext', h'⟩ := Option.bind_eq_some_iff.1 h'
      obtain ⟨texts', htexts', h'⟩ := Option.bind_eq_some_iff.1 h'
      cases h'
      rw [array_cons, List.cons_append, List.append_assoc] at happ
      obtain ⟨rfl, hafter⟩ := dumps_append_inj item item' hitem hitem' htext htext'
        (delimited_afterItem texts _) (delimited_afterItem texts' _) (List.cons.inj happ).2
      obtain ⟨rfl, hrests⟩ := items_append_inj items items' hitems hitems' htexts htexts' hrest hrest'
        (array_of_afterItem hafter)
      exact ⟨rfl, hrests⟩

theorem fields_append_inj : (fields fields' : List (Str × Value)) →
    everyField numberText whole true fields = true →
    everyField numberText whole true fields' = true →
    ∀ {texts texts' rest rest'}, dumpsFields fields = some texts →
      dumpsFields fields' = some texts' → Delimited rest → Delimited rest' →
        object texts ++ rest = object texts' ++ rest' → fields = fields' ∧ rest = rest'
  | [], fields', _, _, _, _, _, _, h, h', _, _, happ => by
    cases h
    cases fields' with
    | nil =>
      cases h'
      exact ⟨rfl, List.append_cancel_left happ⟩
    | cons field' fields' =>
      obtain ⟨text', -, h'⟩ := Option.bind_eq_some_iff.1 h'
      obtain ⟨texts', -, h'⟩ := Option.bind_eq_some_iff.1 h'
      cases h'
      rw [object_cons] at happ
      cases (List.cons.inj (List.cons.inj happ).2).1
  | (key, value) :: fields, fields', hloaded, hloaded', _, _, _, _, h, h', hrest, hrest', happ => by
    obtain ⟨hfield, hfields⟩ := Bool.and_eq_true_iff.1 hloaded
    obtain ⟨text, htext, h⟩ := Option.bind_eq_some_iff.1 h
    obtain ⟨texts, htexts, h⟩ := Option.bind_eq_some_iff.1 h
    cases h
    rw [object_cons, List.cons_append, List.append_assoc, List.cons_append, List.append_assoc] at happ
    cases fields' with
    | nil =>
      cases h'
      cases (List.cons.inj (List.cons.inj happ).2).1
    | cons field' fields' =>
      obtain ⟨hfield', hfields'⟩ := Bool.and_eq_true_iff.1 hloaded'
      obtain ⟨text', htext', h'⟩ := Option.bind_eq_some_iff.1 h'
      obtain ⟨texts', htexts', h'⟩ := Option.bind_eq_some_iff.1 h'
      cases h'
      rw [object_cons, List.cons_append, List.append_assoc, List.cons_append,
        List.append_assoc] at happ
      obtain ⟨hkey, hvalue⟩ := quote_append_inj (List.cons.inj happ).2
      obtain ⟨hsame, hafter⟩ := dumps_append_inj value field'.2 (Bool.and_eq_true_iff.1 hfield).2
        (Bool.and_eq_true_iff.1 hfield').2 htext htext' (delimited_afterField texts _)
        (delimited_afterField texts' _) (List.cons.inj hvalue).2
      obtain ⟨rfl, hrests⟩ := fields_append_inj fields fields' hfields hfields' htexts htexts' hrest
        hrest' (object_of_afterField hafter)
      exact ⟨congrArg (· :: fields) (Prod.ext hkey hsame), hrests⟩

end

theorem dumps_inj {value value' : Value} {text : Str} (hloaded : value.loaded = true)
    (hloaded' : value'.loaded = true) (h : value.dumps = some text)
    (h' : value'.dumps = some text) : value = value' := by
  have hnothing : Delimited [] := fun _ hc => nomatch hc
  exact (dumps_append_inj value value' hloaded hloaded' h h' hnothing hnothing rfl).1

end readable

end FounderOs.Proposals
