import Mathlib.Logic.Function.Basic

namespace FounderOs.Expiring

/-- A counter of a store with expiry. Times are milliseconds. -/
structure Cell where
  value : Int
  expiresAt : Option Nat
  deriving DecidableEq, Repr

def Cell.live (cell : Cell) (now : Nat) : Bool := cell.expiresAt.all (fun at' => now ≤ at')

structure Store (K : Type) where
  cell : K → Option Cell

variable {K : Type}

namespace Store

def empty : Store K := ⟨fun _ => none⟩

def read (store : Store K) (now : Nat) (key : K) : Option Cell :=
  (store.cell key).filter (Cell.live · now)

def get (store : Store K) (now : Nat) (key : K) : Int := ((store.read now key).map Cell.value).getD 0

/-- The stored counter, its time over or not. -/
def raw (store : Store K) (key : K) : Option Int := (store.cell key).map Cell.value

/-- The key is there and its time is over. -/
def Lapsed (store : Store K) (now : Nat) (key : K) : Prop :=
  (store.cell key).any (fun cell => !cell.live now) = true

instance (store : Store K) (now : Nat) (key : K) : Decidable (store.Lapsed now key) :=
  inferInstanceAs (Decidable (_ = true))

@[simp] theorem get_empty {now : Nat} {key : K} : (empty : Store K).get now key = 0 := rfl

variable [DecidableEq K]

def set (store : Store K) (key : K) (cell : Option Cell) : Store K :=
  ⟨Function.update store.cell key cell⟩

/-- Adding keeps the expiry of a live key and gives a new one none. -/
def add (store : Store K) (now : Nat) (key : K) (amount : Int) : Store K :=
  match store.read now key with
  | none => store.set key (some ⟨amount, none⟩)
  | some cell => store.set key (some { cell with value := cell.value + amount })

def expire (store : Store K) (now : Nat) (key : K) (seconds : Nat) : Store K :=
  match store.read now key with
  | none => store
  | some cell => store.set key (some { cell with expiresAt := some (now + 1000 * seconds) })

def del (store : Store K) (key : K) : Store K := store.set key none

variable {store : Store K} {now now' : Nat} {key other : K} {amount : Int} {seconds : Nat}

theorem get_set {cell : Option Cell} :
    (store.set key cell).get now key = ((cell.filter (Cell.live · now)).map Cell.value).getD 0 := by
  simp [get, read, set]

theorem get_set_other {cell : Option Cell} (h : other ≠ key) :
    (store.set key cell).get now other = store.get now other := by
  simp [get, read, set, h]

omit [DecidableEq K] in
theorem get_of_read_none (h : store.read now key = none) : store.get now key = 0 := by
  simp [get, h]

omit [DecidableEq K] in
theorem get_of_read_some {cell : Cell} (h : store.read now key = some cell) :
    store.get now key = cell.value := by
  simp [get, h]

@[simp] theorem get_add : (store.add now key amount).get now key = store.get now key + amount := by
  unfold add
  cases hread : store.read now key with
  | none =>
    rw [get_of_read_none hread, get_set]
    simp [Option.filter_some, Cell.live]
  | some cell =>
    have hlive : cell.live now = true := (Option.filter_eq_some_iff.1 hread).2
    have hlive' : Cell.live { cell with value := cell.value + amount } now = true := hlive
    rw [get_of_read_some hread, get_set]
    simp [Option.filter_some, hlive']

theorem get_add_other (h : other ≠ key) :
    (store.add now key amount).get now other = store.get now other := by
  unfold add
  split <;> exact get_set_other h

@[simp] theorem get_expire : (store.expire now key seconds).get now key = store.get now key := by
  unfold expire
  cases hread : store.read now key with
  | none => rfl
  | some cell =>
    rw [get_of_read_some hread, get_set]
    simp [Option.filter_some, Cell.live]

theorem get_expire_other (h : other ≠ key) :
    (store.expire now key seconds).get now other = store.get now other := by
  unfold expire
  split
  · rfl
  · exact get_set_other h

@[simp] theorem get_del : (store.del key).get now key = 0 := by simp [del, get_set]

omit [DecidableEq K] in
theorem get_of_lapsed (h : store.Lapsed now key) : store.get now key = 0 := by
  cases hcell : store.cell key with
  | none => simp [get, read, hcell]
  | some cell =>
    have hover : cell.live now = false := by simpa [Lapsed, hcell] using h
    simp [get, read, hcell, Option.filter_some, hover]

omit [DecidableEq K] in
/-- Time alone changes a counter only by ending it. -/
theorem get_later (h : ¬store.Lapsed now' key) (hle : now ≤ now') :
    store.get now' key = store.get now key := by
  cases hcell : store.cell key with
  | none => simp [get, read, hcell]
  | some cell =>
    have hlive' : cell.live now' = true := by simpa [Lapsed, hcell] using h
    have hlive : cell.live now = true := by
      cases hat : cell.expiresAt with
      | none => simp [Cell.live, hat]
      | some at' =>
        simp only [Cell.live, hat, Option.all_some, decide_eq_true_eq] at hlive' ⊢
        omega
    simp [get, read, hcell, Option.filter_some, hlive, hlive']

omit [DecidableEq K] in
theorem get_nonneg (h : ∀ value, store.raw key = some value → 0 ≤ value) :
    0 ≤ store.get now key := by
  cases hread : store.read now key with
  | none => simp [get_of_read_none hread]
  | some cell =>
    rw [get_of_read_some hread]
    refine h cell.value ?_
    simp [raw, (Option.filter_eq_some_iff.1 hread).1]

theorem raw_set {cell : Option Cell} :
    (store.set key cell).raw other = if other = key then cell.map Cell.value else store.raw other := by
  by_cases h : other = key
  · subst h
    simp [raw, set]
  · simp [raw, set, h]

theorem raw_add :
    (store.add now key amount).raw other =
      if other = key then some (store.get now key + amount) else store.raw other := by
  unfold add
  cases hread : store.read now key with
  | none => simp [raw_set, get_of_read_none hread]
  | some cell => simp [raw_set, get_of_read_some hread]

@[simp] theorem raw_expire : (store.expire now key seconds).raw other = store.raw other := by
  unfold expire
  cases hread : store.read now key with
  | none => rfl
  | some cell =>
    have hcell : store.raw key = some cell.value := by
      simp [raw, (Option.filter_eq_some_iff.1 hread).1]
    by_cases h : other = key
    · subst h
      simp [raw_set, hcell]
    · simp [raw_set, h]

end Store

end FounderOs.Expiring
