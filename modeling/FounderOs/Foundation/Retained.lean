import Mathlib.Data.Option.Basic
import Mathlib.Data.List.Nodup
import Mathlib.Logic.Function.Basic
import FounderOs.Foundation.Dict

namespace FounderOs.Retained

variable {Id Line Item Key Row Time : Type}

/-- One pass over what is to be kept. A complete pass speaks for all that its line ever asserted. -/
structure Pass (Id Line Item : Type) where
  id : Id
  line : Line
  complete : Bool
  items : List Item

/-- The pass that asserted a key last, the items of its first and its last assertion, and whether
its record is still held. -/
structure Standing (Id Line Item : Type) where
  id : Id
  line : Line
  first : Item
  last : Item
  held : Bool

section standing

variable [DecidableEq Id] [DecidableEq Line] [DecidableEq Key] (key : Item → Key)

def Pass.asserts (p : Pass Id Line Item) (k : Key) : Bool := p.items.any (key · = k)

def firstItem (items : List Item) (k : Key) : Option Item := items.find? (key · = k)

def lastItem (items : List Item) (k : Key) : Option Item := (items.filter (key · = k)).getLast?

def Pass.note (p : Pass Id Line Item) (f : Key → Option (Standing Id Line Item)) (x : Item) :
    Key → Option (Standing Id Line Item) :=
  Function.update f (key x)
    (some
      { id := p.id
        line := p.line
        first := (f (key x)).elim x (·.first)
        last := x
        held := true })

def Pass.lapses (p : Pass Id Line Item) (s : Standing Id Line Item) : Bool :=
  p.complete && s.line = p.line && s.id ≠ p.id

def Pass.lapse (p : Pass Id Line Item) (s : Standing Id Line Item) : Standing Id Line Item :=
  { s with held := s.held && !p.lapses s }

/-- The passes are given newest first. -/
def standing : List (Pass Id Line Item) → Key → Option (Standing Id Line Item)
  | [] => fun _ => none
  | p :: earlier => fun k => (p.items.foldl (p.note key) (standing earlier) k).map p.lapse

def held (h : List (Pass Id Line Item)) (k : Key) : Bool := (standing key h k).any (·.held)

end standing

section history

variable [DecidableEq Key] {key : Item → Key} {p q : Pass Id Line Item}
variable {f : Key → Option (Standing Id Line Item)} {k : Key} {s : Standing Id Line Item}

theorem asserts_iff : p.asserts key k = true ↔ ∃ x ∈ p.items, key x = k := by
  simp [Pass.asserts]

theorem note_of_unasserted {items : List Item} (h : ∀ x ∈ items, key x ≠ k) :
    items.foldl (p.note key) f k = f k := by
  induction items generalizing f with
  | nil => rfl
  | cons x items ih =>
    have hne : k ≠ key x := (h x (List.mem_cons_self ..)).symm
    rw [List.foldl_cons, ih fun y hy => h y (List.mem_cons_of_mem _ hy)]
    exact Function.update_of_ne hne ..

theorem lastItem_mem {items : List Item} {x : Item} (h : lastItem key items k = some x) :
    x ∈ items ∧ key x = k := by
  have hmem := List.mem_filter.1 (List.mem_of_getLast? h)
  exact ⟨hmem.1, of_decide_eq_true hmem.2⟩

theorem lastItem_cons (x : Item) (items : List Item) (k : Key) : lastItem key (x :: items) k =
    (lastItem key items k).or (if key x = k then some x else none) := by
  unfold lastItem
  rw [List.filter_cons]
  split
  · rename_i hkey
    rw [List.getLast?_cons, if_pos (of_decide_eq_true hkey)]
    cases (items.filter (key · = k)).getLast? <;> rfl
  · rename_i hkey
    rw [if_neg fun heq => hkey (decide_eq_true heq), Option.or_none]

/-- An asserted key stands with the pass, under the item that came last. -/
theorem note_of_asserted {items : List Item} (h : ∃ x ∈ items, key x = k) :
    ∃ x first, lastItem key items k = some x ∧
      items.foldl (p.note key) f k = some ⟨p.id, p.line, first, x, true⟩ ∧
        ((f k).map (·.first)).or (firstItem key items k) = some first := by
  induction items generalizing f with
  | nil =>
    obtain ⟨x, hx, -⟩ := h
    cases hx
  | cons x items ih =>
    rw [List.foldl_cons, lastItem_cons, firstItem, List.find?_cons]
    by_cases hrest : ∃ y ∈ items, key y = k
    · obtain ⟨y, first, hlast, hfold, hfirst⟩ := ih hrest (f := p.note key f x)
      refine ⟨y, first, by rw [hlast]; rfl, hfold, ?_⟩
      by_cases hx : key x = k
      · subst hx
        have hnoted : p.note key f x (key x) = _ := Function.update_self ..
        rw [hnoted] at hfirst
        rw [← hfirst, decide_eq_true rfl]
        cases f (key x) <;> rfl
      · have hsame : p.note key f x k = f k := Function.update_of_ne (Ne.symm hx) ..
        rw [hsame] at hfirst
        rw [decide_eq_false hx]
        exact hfirst
    · have hall : ∀ y ∈ items, key y ≠ k := fun y hy hkey => hrest ⟨y, hy, hkey⟩
      have hlast : lastItem key items k = none := by
        cases hlast : lastItem key items k with
        | none => rfl
        | some y => exact absurd (lastItem_mem hlast).2 (hall y (lastItem_mem hlast).1)
      obtain ⟨y, hy, hkey⟩ := h
      obtain rfl : y = x := by
        rcases List.mem_cons.1 hy with rfl | hy
        · rfl
        · exact absurd hkey (hall y hy)
      subst hkey
      refine ⟨y, (f (key y)).elim y (·.first), by rw [hlast, if_pos rfl]; rfl, ?_, ?_⟩
      · rw [note_of_unasserted hall]
        exact Function.update_self ..
      · rw [decide_eq_true rfl]
        cases f (key y) <;> rfl

theorem noted_cases {items : List Item} (hs : items.foldl (p.note key) f k = some s) :
    s.id = p.id ∨ f k = some s := by
  by_cases hasserts : ∃ x ∈ items, key x = k
  · obtain ⟨x, first, -, hfold, -⟩ := note_of_asserted (p := p) (f := f) hasserts
    obtain rfl := Option.some.inj (hfold.symm.trans hs)
    exact .inl rfl
  · exact .inr ((note_of_unasserted fun x hx hkey => hasserts ⟨x, hx, hkey⟩).symm.trans hs)

variable [DecidableEq Id] [DecidableEq Line] {h : List (Pass Id Line Item)}

theorem standing_mem (hs : standing key h k = some s) :
    ∃ q ∈ h, q.id = s.id ∧ q.line = s.line ∧ s.last ∈ q.items ∧ key s.last = k := by
  induction h generalizing s with
  | nil => cases hs
  | cons p h ih =>
    obtain ⟨noted, hnoted, rfl⟩ := Option.map_eq_some_iff.1 hs
    by_cases hasserts : ∃ x ∈ p.items, key x = k
    · obtain ⟨x, first, hlast, hfold, -⟩ := note_of_asserted (p := p) hasserts
      rw [hfold] at hnoted
      cases hnoted
      obtain ⟨hx, hkey⟩ := lastItem_mem hlast
      exact ⟨p, List.mem_cons_self .., rfl, rfl, hx, hkey⟩
    · rw [note_of_unasserted fun x hx hkey => hasserts ⟨x, hx, hkey⟩] at hnoted
      obtain ⟨q, hq, hrest⟩ := ih hnoted
      exact ⟨q, List.mem_cons_of_mem _ hq, hrest⟩

theorem standing_of_asserted (hasserts : p.asserts key k = true) :
    ∃ x first, lastItem key p.items k = some x ∧
      standing key (p :: h) k = some ⟨p.id, p.line, first, x, true⟩ ∧
        ((standing key h k).map (·.first)).or (firstItem key p.items k) = some first := by
  obtain ⟨x, first, hlast, hfold, hfirst⟩ :=
    note_of_asserted (p := p) (f := standing key h) (asserts_iff.1 hasserts)
  refine ⟨x, first, hlast, ?_, hfirst⟩
  change Option.map p.lapse (p.items.foldl (p.note key) (standing key h) k) = _
  rw [hfold]
  simp [Pass.lapse, Pass.lapses]

theorem standing_of_unasserted (hasserts : p.asserts key k = false) :
    standing key (p :: h) k = (standing key h k).map p.lapse := by
  have hall : ∀ x ∈ p.items, key x ≠ k := fun x hx hkey =>
    Bool.eq_false_iff.1 hasserts (asserts_iff.2 ⟨x, hx, hkey⟩)
  change Option.map p.lapse (p.items.foldl (p.note key) (standing key h) k) = _
  rw [note_of_unasserted hall]

/-- What a key was first asserted with, over all the passes. -/
theorem standing_first (h : List (Pass Id Line Item)) (k : Key) :
    (standing key h k).map (·.first) = firstItem key (h.reverse.flatMap (·.items)) k := by
  induction h with
  | nil => rfl
  | cons p h ih =>
    rw [List.reverse_cons, List.flatMap_append, firstItem, List.find?_append, ← firstItem, ← ih]
    cases hasserts : p.asserts key k with
    | true =>
      obtain ⟨x, first, -, hstanding, hfirst⟩ := standing_of_asserted (h := h) hasserts
      rw [hstanding, Option.map_some, ← hfirst]
      simp [firstItem]
    | false =>
      have hnone : p.items.find? (key · = k) = none := by
        rw [List.find?_eq_none]
        intro x hx hkey
        exact Bool.eq_false_iff.1 hasserts (asserts_iff.2 ⟨x, hx, of_decide_eq_true hkey⟩)
      rw [standing_of_unasserted hasserts]
      cases standing key h k <;> simp [hnone, Pass.lapse]

theorem held_of_asserted (hasserts : p.asserts key k = true) : held key (p :: h) k = true := by
  obtain ⟨x, first, -, hstanding, -⟩ := standing_of_asserted (h := h) hasserts
  rw [held, hstanding]
  rfl

/-- A partial pass lets nothing go. -/
theorem held_of_incomplete (hincomplete : p.complete = false) (hheld : held key h k = true) :
    held key (p :: h) k = true := by
  cases hasserts : p.asserts key k with
  | true => exact held_of_asserted hasserts
  | false =>
    obtain ⟨s, hs, hsheld⟩ := (Option.any_eq_true _ _).1 hheld
    rw [held, standing_of_unasserted hasserts, hs]
    simp [Pass.lapse, Pass.lapses, hincomplete, hsheld]

variable (hnodup : ((p :: h).map (·.id)).Nodup)

include hnodup

theorem lapses_of_standing (hs : standing key h k = some s) :
    p.lapses s = (p.complete && decide (s.line = p.line)) := by
  obtain ⟨q, hq, hid, -⟩ := standing_mem hs
  have hne : s.id ≠ p.id := fun heq =>
    (List.nodup_cons.1 hnodup).1 (List.mem_map.2 ⟨q, hq, hid.trans heq⟩)
  simp [Pass.lapses, hne]

/-- What a complete pass lets go: what it does not assert and its line asserted last. -/
theorem lets_go_iff : (held key h k = true ∧ held key (p :: h) k = false) ↔
    p.complete = true ∧ p.asserts key k = false ∧
      ∃ s, standing key h k = some s ∧ s.held = true ∧ s.line = p.line := by
  constructor
  · rintro ⟨hheld, hgone⟩
    cases hasserts : p.asserts key k with
    | true =>
      rw [held_of_asserted hasserts] at hgone
      cases hgone
    | false =>
      obtain ⟨s, hs, hsheld⟩ := (Option.any_eq_true _ _).1 hheld
      rw [held, standing_of_unasserted hasserts, hs] at hgone
      have hlapses : p.lapses s = true := by simpa [Pass.lapse, hsheld] using hgone
      rw [lapses_of_standing hnodup hs, Bool.and_eq_true, decide_eq_true_eq] at hlapses
      exact ⟨hlapses.1, rfl, s, hs, hsheld, hlapses.2⟩
  · rintro ⟨hcomplete, hasserts, s, hs, hsheld, hline⟩
    refine ⟨by simp [held, hs, hsheld], ?_⟩
    rw [held, standing_of_unasserted hasserts, hs]
    simp [Pass.lapse, lapses_of_standing hnodup hs, hcomplete, hline]

/-- After a complete pass, what its line holds is what it asserts. -/
theorem line_holds_iff (hcomplete : p.complete = true) :
    (∃ s, standing key (p :: h) k = some s ∧ s.held = true ∧ s.line = p.line) ↔
      p.asserts key k = true := by
  constructor
  · rintro ⟨s, hs, hheld, hline⟩
    by_contra hasserts
    rw [standing_of_unasserted (Bool.eq_false_iff.2 hasserts)] at hs
    obtain ⟨before, hbefore, rfl⟩ := Option.map_eq_some_iff.1 hs
    have hkept : (before.held && !p.lapses before) = true := hheld
    have hsame : before.line = p.line := hline
    rw [lapses_of_standing hnodup hbefore] at hkept
    simp [hcomplete, hsame] at hkept
  · intro hasserts
    obtain ⟨x, first, -, hstanding, -⟩ := standing_of_asserted (h := h) hasserts
    exact ⟨_, hstanding, rfl, rfl⟩

/-- Where all the passes are of one line, a complete pass leaves what it asserts. -/
theorem held_of_one_line (hcomplete : p.complete = true) (hline : ∀ q ∈ h, q.line = p.line) :
    held key (p :: h) k = p.asserts key k := by
  rw [Bool.eq_iff_iff, ← line_holds_iff hnodup hcomplete, held, Option.any_eq_true]
  constructor
  · rintro ⟨s, hs, hheld⟩
    obtain ⟨q, hq, -, hqline, -⟩ := standing_mem hs
    refine ⟨s, hs, hheld, hqline.symm.trans ?_⟩
    rcases List.mem_cons.1 hq with rfl | hq
    · rfl
    · exact hline q hq
  · rintro ⟨s, hs, hheld, -⟩
    exact ⟨s, hs, hheld⟩

omit hnodup in
/-- What a line holds: its last assertion was of the line, and no complete pass of the line came
after it. -/
theorem line_holds_iff_history {line : Line} (hnodup : (h.map (·.id)).Nodup) :
    (∃ s, standing key h k = some s ∧ s.held = true ∧ s.line = line) ↔
      ∃ newer q older, h = newer ++ q :: older ∧ q.asserts key k = true ∧ q.line = line ∧
        ∀ p ∈ newer, p.asserts key k = false ∧ (p.complete = true → p.line ≠ line) := by
  induction h with
  | nil =>
    constructor
    · rintro ⟨s, hs, -⟩
      cases hs
    · rintro ⟨newer, q, older, hsplit, -⟩
      simp at hsplit
  | cons p h ih =>
    have ih := ih (List.nodup_cons.1 hnodup).2
    cases hasserts : p.asserts key k with
    | true =>
      obtain ⟨x, first, -, hstanding, -⟩ := standing_of_asserted (h := h) hasserts
      constructor
      · rintro ⟨s, hs, -, hline⟩
        obtain rfl := Option.some.inj (hstanding.symm.trans hs)
        exact ⟨[], p, h, rfl, hasserts, hline, by simp⟩
      · rintro ⟨newer, q, older, hsplit, hq, hline, hnewer⟩
        cases newer with
        | nil =>
          obtain ⟨rfl, rfl⟩ := List.cons.inj hsplit
          exact ⟨_, hstanding, rfl, hline⟩
        | cons first newer =>
          obtain ⟨rfl, -⟩ := List.cons.inj hsplit
          rw [(hnewer p (List.mem_cons_self ..)).1] at hasserts
          cases hasserts
    | false =>
      rw [standing_of_unasserted hasserts]
      constructor
      · rintro ⟨s, hs, hheld, hline⟩
        obtain ⟨before, hbefore, rfl⟩ := Option.map_eq_some_iff.1 hs
        have hkept : (before.held && !p.lapses before) = true := hheld
        rw [lapses_of_standing hnodup hbefore, Bool.and_eq_true] at hkept
        obtain ⟨newer, q, older, rfl, hq, hqline, hnewer⟩ :=
          ih.1 ⟨before, hbefore, hkept.1, hline⟩
        refine ⟨p :: newer, q, older, rfl, hq, hqline, ?_⟩
        intro r hr
        rcases List.mem_cons.1 hr with rfl | hr
        · refine ⟨hasserts, fun hcomplete hsame => ?_⟩
          have hbeforeLine : before.line = r.line := Eq.trans hline hsame.symm
          simp [hcomplete, hbeforeLine] at hkept
        · exact hnewer r hr
      · rintro ⟨newer, q, older, hsplit, hq, hqline, hnewer⟩
        cases newer with
        | nil =>
          obtain ⟨rfl, -⟩ := List.cons.inj hsplit
          rw [hasserts] at hq
          cases hq
        | cons first newer =>
          obtain ⟨rfl, rfl⟩ := List.cons.inj hsplit
          obtain ⟨before, hbefore, hheld, hline⟩ := ih.2 ⟨newer, q, older, rfl, hq, hqline,
            fun r hr => hnewer r (List.mem_cons_of_mem _ hr)⟩
          refine ⟨p.lapse before, by rw [hbefore]; rfl, ?_, hline⟩
          have hother := (hnewer p (List.mem_cons_self ..)).2
          have hlapses : p.lapses before = false := by
            rw [lapses_of_standing hnodup hbefore, hline]
            cases hcomplete : p.complete with
            | false => rfl
            | true => simpa using (hother hcomplete).symm
          simp [Pass.lapse, hheld, hlapses]

end history

section table

/-- How the record of a kind tells who saw it last and whether it is held, and how it is let go. -/
structure Rows (Id Time Row : Type) where
  lastSeen : Row → Id
  active : Row → Bool
  retire : Time → Row → Row
  lastSeen_retire : ∀ time row, lastSeen (retire time row) = lastSeen row
  active_retire : ∀ time row, active (retire time row) = false

variable (rows : Rows Id Time Row)

def Rows.retireIf (prior : Id → Bool) (time : Time) (row : Row) : Row :=
  if rows.active row && prior (rows.lastSeen row) then rows.retire time row else row

def Rows.retireAll (prior : Id → Bool) (time : Time) (table : List (Key × Row)) :
    List (Key × Row) :=
  table.map fun entry => (entry.1, rows.retireIf prior time entry.2)

variable [DecidableEq Key]

def Rows.current (table : List (Key × Row)) (k : Key) : Option Row :=
  (Dict.get table k).filter rows.active

/-- The table has a row for what stands, and for nothing else. `shows` is what a row tells of the
items of the first and of the last assertion. -/
def Tracks (shows : Item → Item → Row → Prop) (table : List (Key × Row))
    (f : Key → Option (Standing Id Line Item)) : Prop :=
  ∀ k, Option.Rel (fun s row => rows.lastSeen row = s.id ∧ rows.active row = s.held ∧
    shows s.first s.last row) (f k) (Dict.get table k)

variable {rows} {shows shows' : Item → Item → Row → Prop} {table : List (Key × Row)}
variable {f : Key → Option (Standing Id Line Item)} {k : Key} {row : Row} {key : Item → Key}
variable {p : Pass Id Line Item} {prior : Id → Bool} {time : Time}

theorem tracks_empty : Tracks rows shows ([] : List (Key × Row))
    (fun _ => (none : Option (Standing Id Line Item))) := fun _ => .none

theorem Tracks.mono (h : Tracks rows shows table f)
    (himp : ∀ first last row, shows first last row → shows' first last row) :
    Tracks rows shows' table f := by
  intro k
  have hk := h k
  revert hk
  generalize f k = stands
  generalize Dict.get table k = found
  rintro (⟨hid, hheld, hshows⟩ | _)
  · exact .some ⟨hid, hheld, himp _ _ _ hshows⟩
  · exact .none

theorem Tracks.get_eq_none (h : Tracks rows shows table f) : Dict.get table k = none ↔ f k = none := by
  have hk := h k
  revert hk
  generalize f k = stands
  generalize Dict.get table k = found
  rintro (_ | _)
  · simp
  · simp

theorem Tracks.of_get (h : Tracks rows shows table f) (hget : Dict.get table k = some row) :
    ∃ s, f k = some s ∧ rows.lastSeen row = s.id ∧ rows.active row = s.held ∧
      shows s.first s.last row := by
  have hk := h k
  rw [hget] at hk
  revert hk
  generalize f k = stands
  rintro (⟨hid, hheld, hshows⟩ | _)
  exact ⟨_, rfl, hid, hheld, hshows⟩

theorem Tracks.of_standing {s : Standing Id Line Item} (h : Tracks rows shows table f)
    (hs : f k = some s) :
    ∃ row, Dict.get table k = some row ∧ rows.lastSeen row = s.id ∧ rows.active row = s.held ∧
      shows s.first s.last row := by
  have hk := h k
  rw [hs] at hk
  revert hk
  generalize Dict.get table k = found
  rintro (⟨hid, hheld, hshows⟩ | _)
  exact ⟨_, rfl, hid, hheld, hshows⟩

/-- A row is written for an asserted item. -/
theorem Tracks.note {x : Item} (h : Tracks rows shows table f) (hid : rows.lastSeen row = p.id)
    (hactive : rows.active row = true)
    (hshows : shows ((f (key x)).elim x (·.first)) x row) :
    Tracks rows shows (Dict.set table (key x) row) (p.note key f x) := by
  intro k
  by_cases hk : key x = k
  · subst hk
    rw [Dict.get_set, if_pos rfl, Pass.note, Function.update_self]
    exact .some ⟨hid, hactive, hshows⟩
  · rw [Dict.get_set, if_neg hk, Pass.note, Function.update_of_ne (Ne.symm hk)]
    exact h k

theorem get_retireAll : Dict.get (rows.retireAll prior time table) k =
    (Dict.get table k).map (rows.retireIf prior time) := by
  induction table with
  | nil => rfl
  | cons entry table ih =>
    rw [Rows.retireAll, List.map_cons, Dict.get_cons, Dict.get_cons]
    split
    · rfl
    · exact ih

theorem lastSeen_retireIf : rows.lastSeen (rows.retireIf prior time row) = rows.lastSeen row := by
  unfold Rows.retireIf
  split
  · exact rows.lastSeen_retire time row
  · rfl

theorem active_retireIf : rows.active (rows.retireIf prior time row) =
    (rows.active row && !prior (rows.lastSeen row)) := by
  unfold Rows.retireIf
  split
  · rename_i hboth
    obtain ⟨hactive, hprior⟩ := Bool.and_eq_true_iff.1 hboth
    rw [rows.active_retire, hactive, hprior]
    rfl
  · rename_i hnot
    cases hactive : rows.active row with
    | false => rfl
    | true =>
      have hprior : prior (rows.lastSeen row) = false := by simpa [hactive] using hnot
      rw [hprior]
      rfl

variable [DecidableEq Id] [DecidableEq Line]

/-- The rows that a complete pass lets go are retired. -/
theorem Tracks.retire (h : Tracks rows shows table f)
    (hprior : ∀ k s, f k = some s → prior s.id = p.lapses s)
    (hshows : ∀ first last row, shows first last row → shows first last (rows.retire time row)) :
    Tracks rows shows (rows.retireAll prior time table) (fun k => (f k).map p.lapse) := by
  intro k
  rw [get_retireAll]
  change Option.Rel _ ((f k).map p.lapse) _
  cases hs : f k with
  | none =>
    rw [h.get_eq_none.2 hs]
    exact .none
  | some s =>
    obtain ⟨row, hget, hid, hheld, hrow⟩ := h.of_standing hs
    rw [hget]
    refine .some ⟨lastSeen_retireIf.trans hid, ?_, ?_⟩
    · rw [active_retireIf, hid, hheld, hprior k s hs]
      rfl
    · unfold Rows.retireIf
      split
      · exact hshows _ _ _ hrow
      · exact hrow

theorem Tracks.incomplete (h : Tracks rows shows table f) (hincomplete : p.complete = false) :
    Tracks rows shows table (fun k => (f k).map p.lapse) := by
  have hsame : (fun k => (f k).map p.lapse) = f := by
    funext k
    cases f k with
    | none => rfl
    | some s => simp [Pass.lapse, Pass.lapses, hincomplete]
  rw [hsame]
  exact h

theorem Tracks.active_iff {h : List (Pass Id Line Item)}
    (ht : Tracks rows shows table (standing key h)) :
    (Dict.get table k).any rows.active = held key h k := by
  cases hs : standing key h k with
  | none => rw [ht.get_eq_none.2 hs, held, hs]; rfl
  | some s =>
    obtain ⟨row, hget, -, hheld, -⟩ := ht.of_standing hs
    rw [hget, held, hs]
    exact hheld

end table

end FounderOs.Retained
