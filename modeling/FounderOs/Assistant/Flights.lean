import FounderOs.Foundation.Dict
import FounderOs.Foundation.SlidingWindow
import FounderOs.Foundation.Str
import FounderOs.Foundation.Transition
import Mathlib.Algebra.Order.Ring.Rat
import Mathlib.Tactic.Linarith

namespace FounderOs.Assistant

open SlidingWindow Transition

abbrev WorkspaceId := Nat
abbrev UserId := Nat

structure AssistantFlightKey where
  workspaceId : WorkspaceId
  userId : UserId
  expectedSnapshotId : Str
  normalizedQuery : Str
  deriving DecidableEq, Repr

abbrev RateKey := UserId × WorkspaceId

def AssistantFlightKey.rateKey (key : AssistantFlightKey) : RateKey := (key.userId, key.workspaceId)

structure QuerySettings where
  windowSeconds : Nat
  perUserWorkspace : Nat
  windowSeconds_pos : 1 ≤ windowSeconds
  perUserWorkspace_pos : 1 ≤ perUserWorkspace

def QuerySettings.windowStart (settings : QuerySettings) (now : Rat) : Rat :=
  now - settings.windowSeconds

/-- `AssistantQueryController`. A flight is the number of its task; the instants are exact. -/
structure AssistantQueryController where
  attempts : List (RateKey × List Rat)
  inFlight : List (AssistantFlightKey × Nat)
  deriving DecidableEq, Repr

/-- `ceil(max(1.0, attempts[0] + window - now))`, which the error keeps at one at least. -/
def QuerySettings.retryAfter (settings : QuerySettings) (log : List Rat) (now : Rat) : Nat :=
  max 1 (max 1 (log.headD now + settings.windowSeconds - now)).ceil.toNat

namespace AssistantQueryController

variable (settings : QuerySettings) (controller : AssistantQueryController)

/-- `_admit`: the seconds to wait where it refuses, and the attempts it leaves. -/
def admits (rateKey : RateKey) (now : Rat) : Option Nat × List (RateKey × List Rat) :=
  let windowStart := settings.windowStart now
  let attempts := pruneAll windowStart controller.attempts
  let log := prune windowStart ((Dict.get attempts rateKey).getD [])
  if settings.perUserWorkspace ≤ log.length then
    (some (settings.retryAfter log now), Dict.set attempts rateKey log)
  else (none, Dict.set attempts rateKey (log ++ [now]))

/-- `_complete` -/
def complete (key : AssistantFlightKey) (task : Nat) : AssistantQueryController :=
  if Dict.get controller.inFlight key = some task then
    { controller with inFlight := Dict.erase controller.inFlight key }
  else controller

end AssistantQueryController

/-- A task of the event loop, its result once it is done, and whether its callback ran. -/
structure FlightTask (R : Type) where
  key : AssistantFlightKey
  result : Option R
  completed : Bool

inductive WaiterState (R : Type) where
  | waiting
  | received (result : R)
  | cancelled

structure Waiter (R : Type) where
  key : AssistantFlightKey
  task : Nat
  state : WaiterState R

/-- What the arriving caller gets: a task to wait for, or the seconds to wait. -/
inductive Response where
  | waits (task : Nat)
  | refused (retryAfterSeconds : Nat)
  deriving DecidableEq, Repr

/-- The process, where the clock is its last reading. What was admitted is kept beside it. -/
structure QueryProcess (R : Type) where
  controller : AssistantQueryController
  tasks : List (FlightTask R)
  waiters : List (Waiter R)
  clock : Rat
  admitted : List (RateKey × Rat)

/-- What may happen next; the operation of a task ends in a value or an error, and the callbacks
and the waiters of a done task run in any order. -/
inductive QueryAction (R : Type) where
  | arrive (key : AssistantFlightKey) (now : Rat)
  | finish (task : Nat) (result : R)
  | callback (task : Nat)
  | deliver (waiter : Nat)
  | cancel (waiter : Nat)

namespace QueryProcess

variable {R : Type}

def start (clock : Rat) : QueryProcess R := ⟨⟨[], []⟩, [], [], clock, []⟩

section steps

variable (settings : QuerySettings) (s : QueryProcess R)

def joined (key : AssistantFlightKey) (task : Nat) : QueryProcess R :=
  { s with waiters := s.waiters ++ [⟨key, task, .waiting⟩] }

/-- A new task, registered under its key, and its first waiter. -/
def created (key : AssistantFlightKey) (now : Rat) (attempts : List (RateKey × List Rat)) :
    QueryProcess R where
  controller := ⟨attempts, Dict.set s.controller.inFlight key s.tasks.length⟩
  tasks := s.tasks ++ [⟨key, none, false⟩]
  waiters := s.waiters ++ [⟨key, s.tasks.length, .waiting⟩]
  clock := now
  admitted := s.admitted ++ [(key.rateKey, now)]

def turnedAway (now : Rat) (attempts : List (RateKey × List Rat)) : QueryProcess R :=
  { s with controller := { s.controller with attempts := attempts }, clock := now }

/-- `run`, up to where the caller waits. -/
def run (key : AssistantFlightKey) (now : Rat) : Response × QueryProcess R :=
  match Dict.get s.controller.inFlight key with
  | some task => (.waits task, s.joined key task)
  | none =>
    match s.controller.admits settings key.rateKey now with
    | (some retryAfter, attempts) => (.refused retryAfter, s.turnedAway now attempts)
    | (none, attempts) => (.waits s.tasks.length, s.created key now attempts)

def setTask (task : Nat) (value : FlightTask R) : QueryProcess R :=
  { s with tasks := s.tasks.set task value }

def setWaiter (waiter : Nat) (value : Waiter R) : QueryProcess R :=
  { s with waiters := s.waiters.set waiter value }

/-- A waiter is shielded from the task: its cancellation leaves the task alone. -/
def step : QueryAction R → Option (QueryProcess R)
  | .arrive key now => if now < s.clock then none else some (s.run settings key now).2
  | .finish task result =>
    (s.tasks[task]?).bind fun found =>
      if found.result.isNone then some (s.setTask task { found with result := some result })
      else none
  | .callback task =>
    (s.tasks[task]?).bind fun found =>
      if found.result.isSome && !found.completed then
        some { s.setTask task { found with completed := true } with
          controller := s.controller.complete found.key task }
      else none
  | .deliver waiter =>
    (s.waiters[waiter]?).bind fun found =>
      match found.state, (s.tasks[found.task]?).bind (·.result) with
      | .waiting, some result => some (s.setWaiter waiter { found with state := .received result })
      | _, _ => none
  | .cancel waiter =>
    (s.waiters[waiter]?).bind fun found =>
      match found.state with
      | .waiting => some (s.setWaiter waiter { found with state := .cancelled })
      | _ => none

end steps

def timesOf (s : QueryProcess R) (rateKey : RateKey) : List Rat :=
  (s.admitted.filter (·.1 = rateKey)).map (·.2)

/-- What the attempts keep is what was admitted in the window that ends now. -/
structure Rated (settings : QuerySettings) (s : QueryProcess R) : Prop where
  ordered : ∀ rateKey, (s.timesOf rateKey).Pairwise (· ≤ ·)
  past : ∀ rateKey, ∀ instant ∈ s.timesOf rateKey, instant ≤ s.clock
  keys : (s.controller.attempts.map (·.1)).Nodup
  logs : ∀ rateKey, (Dict.get s.controller.attempts rateKey).getD [] =
    prune (settings.windowStart s.clock) (s.timesOf rateKey)
  limited : ∀ rateKey,
    Limited settings.windowStart settings.perUserWorkspace (s.timesOf rateKey)

/-- The flights in the air are the tasks whose callback has not run, each under its own key. -/
structure Shared (s : QueryProcess R) : Prop where
  flights : ∀ (key : AssistantFlightKey) (task : Nat),
    Dict.get s.controller.inFlight key = some task ↔ ∃ found : FlightTask R,
      s.tasks[task]? = some found ∧ found.key = key ∧ found.completed = false
  done : ∀ found ∈ s.tasks, found.completed = true → found.result ≠ none
  waits : ∀ found ∈ s.waiters, ∃ task : FlightTask R, s.tasks[found.task]? = some task ∧
    task.key = found.key ∧ ∀ result, found.state = .received result → task.result = some result

variable {settings : QuerySettings} {s t : QueryProcess R} {key : AssistantFlightKey} {now : Rat}
  {rateKey : RateKey}

theorem windowStart_lt (now : Rat) : settings.windowStart now < now := by
  have hpos : (0 : Rat) < settings.windowSeconds := by
    exact_mod_cast settings.windowSeconds_pos
  unfold QuerySettings.windowStart
  linarith

theorem windowStart_mono {earlier : Rat} (h : earlier ≤ now) :
    settings.windowStart earlier ≤ settings.windowStart now := by
  unfold QuerySettings.windowStart
  linarith

/-- As many as the limit were admitted in the window that ends at the moment. -/
def Reached (settings : QuerySettings) (s : QueryProcess R) (rateKey : RateKey) (now : Rat) :
    Prop :=
  settings.perUserWorkspace ≤ (s.timesOf rateKey).countP (settings.windowStart now < ·)

instance : Decidable (s.Reached settings rateKey now) := inferInstanceAs (Decidable (_ ≤ _))

/-- The attempts once the instants in the list were admitted. -/
def attemptsAfter (settings : QuerySettings) (s : QueryProcess R) (rateKey : RateKey) (now : Rat)
    (admitted : List Rat) : List (RateKey × List Rat) :=
  Dict.set (pruneAll (settings.windowStart now) s.controller.attempts) rateKey
    (prune (settings.windowStart now) (s.timesOf rateKey) ++ admitted)

theorem Rated.get_pruned (h : s.Rated settings) (hnow : s.clock ≤ now) (rateKey : RateKey) :
    (Dict.get (pruneAll (settings.windowStart now) s.controller.attempts) rateKey).getD [] =
      prune (settings.windowStart now) (s.timesOf rateKey) := by
  rw [get_pruneAll h.keys, h.logs, prune_prune (windowStart_mono hnow)]

theorem Rated.length_prune (h : s.Rated settings) (rateKey : RateKey) (now : Rat) :
    (prune (settings.windowStart now) (s.timesOf rateKey)).length =
      (s.timesOf rateKey).countP (settings.windowStart now < ·) := by
  rw [prune_eq_filter (h.ordered rateKey), List.countP_eq_length_filter]

/-- An arrival is refused exactly if the limit is reached. -/
theorem Rated.admits_spec (h : s.Rated settings) (hnow : s.clock ≤ now) (rateKey : RateKey) :
    s.controller.admits settings rateKey now =
      if s.Reached settings rateKey now then
        (some (settings.retryAfter (prune (settings.windowStart now) (s.timesOf rateKey)) now),
          s.attemptsAfter settings rateKey now [])
      else (none, s.attemptsAfter settings rateKey now [now]) := by
  unfold AssistantQueryController.admits Reached attemptsAfter
  simp only [h.get_pruned hnow, prune_prune le_rfl, h.length_prune, List.append_nil]

theorem Rated.turnedAway (h : s.Rated settings) (hnow : s.clock ≤ now) (rateKey : RateKey) :
    (s.turnedAway now (s.attemptsAfter settings rateKey now [])).Rated settings where
  ordered := h.ordered
  past other instant hmem := (h.past other instant hmem).trans hnow
  keys := Dict.nodup_keys_set (h.keys.sublist keys_pruneAll)
  logs other := by
    change (Dict.get (Dict.set _ _ _) other).getD [] =
      prune (settings.windowStart now) (s.timesOf other)
    rw [Dict.get_set]
    split
    · rename_i hsame
      rw [Option.getD_some, List.append_nil, hsame]
    · exact h.get_pruned hnow other
  limited := h.limited

theorem timesOf_created {attempts : List (RateKey × List Rat)} :
    (s.created key now attempts).timesOf rateKey =
      if key.rateKey = rateKey then s.timesOf rateKey ++ [now] else s.timesOf rateKey := by
  unfold timesOf created
  rw [List.filter_append]
  by_cases hsame : key.rateKey = rateKey
  · simp [hsame]
  · simp [hsame]

theorem Rated.created (h : s.Rated settings) (hnow : s.clock ≤ now)
    (hroom : ¬s.Reached settings key.rateKey now) :
    (s.created key now (s.attemptsAfter settings key.rateKey now [now])).Rated settings where
  ordered rateKey := by
    rw [timesOf_created]
    split
    · refine List.pairwise_append.2 ⟨h.ordered rateKey, List.pairwise_singleton _ _,
        fun instant hmem other hother => ?_⟩
      rw [List.mem_singleton.1 hother]
      exact (h.past rateKey instant hmem).trans hnow
    · exact h.ordered rateKey
  past rateKey instant hmem := by
    rw [timesOf_created] at hmem
    split at hmem
    · rcases List.mem_append.1 hmem with hmem | hmem
      · exact (h.past rateKey instant hmem).trans hnow
      · exact (List.mem_singleton.1 hmem).le
    · exact (h.past rateKey instant hmem).trans hnow
  keys := Dict.nodup_keys_set (h.keys.sublist keys_pruneAll)
  logs rateKey := by
    change (Dict.get (Dict.set _ _ _) rateKey).getD [] = prune (settings.windowStart now) _
    rw [Dict.get_set, timesOf_created]
    split
    · rename_i hsame
      rw [Option.getD_some, prune_concat (windowStart_lt now), hsame]
    · exact h.get_pruned hnow rateKey
  limited rateKey := by
    rw [timesOf_created]
    split
    · rename_i hsame
      rw [hsame, Reached, ← h.length_prune, not_le] at hroom
      exact limited_concat (h.limited rateKey) hroom
    · exact h.limited rateKey

section flights

variable {task waiter i : Nat} {found value : FlightTask R} {result : R}

theorem getElem?_concat_iff {α : Type} {l : List α} {x y : α} :
    (l ++ [x])[i]? = some y ↔ l[i]? = some y ∨ i = l.length ∧ y = x := by
  rcases Nat.lt_trichotomy i l.length with h | rfl | h
  · rw [List.getElem?_append_left h]
    exact ⟨.inl, fun hsome => hsome.resolve_right fun hlast => absurd hlast.1 h.ne⟩
  · rw [List.getElem?_concat_length, List.getElem?_eq_none le_rfl]
    simp [eq_comm]
  · have hbeyond : (l ++ [x]).length ≤ i := by simpa using Nat.succ_le_of_lt h
    rw [List.getElem?_eq_none hbeyond, List.getElem?_eq_none h.le]
    simp [h.ne']

theorem getElem?_set_iff {α : Type} {l : List α} {x y old : α} (hold : l[task]? = some old) :
    (l.set task x)[i]? = some y ↔ if task = i then x = y else l[i]? = some y := by
  obtain ⟨hlength, -⟩ := List.getElem?_eq_some_iff.1 hold
  rw [List.getElem?_set]
  split
  · rename_i hsame
    rw [Option.some.injEq]
  · rfl

theorem Shared.joined (h : s.Shared) (hflight : Dict.get s.controller.inFlight key = some task) :
    (s.joined key task).Shared where
  flights := h.flights
  done := h.done
  waits found hfound := by
    rcases List.mem_append.1 hfound with hfound | hfound
    · exact h.waits found hfound
    · obtain rfl := List.mem_singleton.1 hfound
      obtain ⟨flight, hflight, hkey, -⟩ := (h.flights key task).1 hflight
      exact ⟨flight, hflight, hkey, fun result hreceived => by cases hreceived⟩

theorem Shared.created (h : s.Shared) (hnone : Dict.get s.controller.inFlight key = none)
    (attempts : List (RateKey × List Rat)) : (s.created key now attempts).Shared where
  flights other task := by
    change Dict.get (Dict.set _ _ _) other = some task ↔
      ∃ found, (s.tasks ++ [_])[task]? = some found ∧ _
    simp only [Dict.get_set, getElem?_concat_iff]
    split
    · rename_i hsame
      constructor
      · intro htask
        exact ⟨_, .inr ⟨(Option.some.inj htask).symm, rfl⟩, hsame, rfl⟩
      · rintro ⟨found, hfound | ⟨rfl, -⟩, hkey, hcompleted⟩
        · have hflight := (h.flights key task).2 ⟨found, hfound, hkey.trans hsame.symm, hcompleted⟩
          rw [hnone] at hflight
          cases hflight
        · rfl
    · rename_i hother
      rw [h.flights]
      constructor
      · rintro ⟨found, hfound, hrest⟩
        exact ⟨found, .inl hfound, hrest⟩
      · rintro ⟨found, hfound | ⟨-, rfl⟩, hkey, hcompleted⟩
        · exact ⟨found, hfound, hkey, hcompleted⟩
        · exact absurd hkey hother
  done found hfound hcompleted := by
    rcases List.mem_append.1 hfound with hfound | hfound
    · exact h.done found hfound hcompleted
    · obtain rfl := List.mem_singleton.1 hfound
      cases hcompleted
  waits found hfound := by
    rcases List.mem_append.1 hfound with hfound | hfound
    · obtain ⟨task, htask, hrest⟩ := h.waits found hfound
      exact ⟨task, getElem?_concat_iff.2 (.inl htask), hrest⟩
    · obtain rfl := List.mem_singleton.1 hfound
      exact ⟨_, getElem?_concat_iff.2 (.inr ⟨rfl, rfl⟩), rfl, fun result hreceived => by
        cases hreceived⟩

/-- A task that moves on under its own key; a result it has is kept. -/
theorem Shared.waits_setTask (h : s.Shared) (hfound : s.tasks[task]? = some found)
    (hkey : value.key = found.key)
    (hresult : ∀ result, found.result = some result → value.result = some result) :
    ∀ waiter ∈ s.waiters, ∃ other : FlightTask R,
      (s.tasks.set task value)[waiter.task]? = some other ∧ other.key = waiter.key ∧
        ∀ result, waiter.state = .received result → other.result = some result := by
  intro waiter hwaiter
  obtain ⟨other, hother, hkeyed, hreceived⟩ := h.waits waiter hwaiter
  simp only [getElem?_set_iff hfound]
  split
  · rename_i hsame
    rw [← hsame, hfound, Option.some.injEq] at hother
    subst hother
    exact ⟨value, rfl, hkey.trans hkeyed, fun result hgot => hresult result (hreceived result hgot)⟩
  · exact ⟨other, hother, hkeyed, hreceived⟩

theorem Shared.finished (h : s.Shared) (hfound : s.tasks[task]? = some found)
    (hrunning : found.result = none) :
    (s.setTask task { found with result := some result }).Shared where
  flights key other := by
    change Dict.get s.controller.inFlight key = some other ↔
      ∃ value, (s.tasks.set task _)[other]? = some value ∧ _
    simp only [h.flights, getElem?_set_iff hfound]
    split
    · rename_i hsame
      subst hsame
      simp [hfound]
    · rfl
  done other hother hcompleted := by
    rcases List.mem_or_eq_of_mem_set hother with hother | rfl
    · exact h.done other hother hcompleted
    · exact Option.some_ne_none result
  waits := h.waits_setTask hfound rfl fun other hother => by
    rw [hrunning] at hother
    cases hother

/-- The callback finds its own task under the key. -/
theorem Shared.complete_eq (h : s.Shared) (hfound : s.tasks[task]? = some found)
    (hopen : found.completed = false) :
    s.controller.complete found.key task =
      { s.controller with inFlight := Dict.erase s.controller.inFlight found.key } :=
  if_pos ((h.flights found.key task).2 ⟨found, hfound, rfl, hopen⟩)

theorem Shared.called (h : s.Shared) (hfound : s.tasks[task]? = some found)
    (hdone : found.result ≠ none) (hopen : found.completed = false) :
    Shared { s.setTask task { found with completed := true } with
      controller := s.controller.complete found.key task } where
  flights key other := by
    rw [h.complete_eq hfound hopen]
    change Dict.get (Dict.erase s.controller.inFlight found.key) key = some other ↔
      ∃ value, (s.tasks.set task _)[other]? = some value ∧ _
    have hown := (h.flights found.key task).2 ⟨found, hfound, rfl, hopen⟩
    simp only [Dict.get_erase, getElem?_set_iff hfound]
    by_cases hother : task = other
    · subst hother
      simp only [if_pos, exists_eq_left', Bool.true_eq_false, and_false, iff_false]
      split
      · exact fun hnone => by cases hnone
      · rename_i hkey
        intro hflight
        obtain ⟨value, hvalue, hkeyed, -⟩ := (h.flights key task).1 hflight
        rw [hfound, Option.some.injEq] at hvalue
        exact hkey (hvalue ▸ hkeyed)
    · simp only [if_neg hother, ← h.flights]
      split
      · rename_i hkey
        refine ⟨(fun hnone => by cases hnone), fun hflight => ?_⟩
        rw [← hkey, hown, Option.some.injEq] at hflight
        exact absurd hflight hother
      · rfl
  done other hother hcompleted := by
    rcases List.mem_or_eq_of_mem_set hother with hother | rfl
    · exact h.done other hother hcompleted
    · exact hdone
  waits := h.waits_setTask hfound rfl fun _ hother => hother

theorem Shared.setWaiter (h : s.Shared) {old new : Waiter R} (hold : s.waiters[waiter]? = some old)
    (htask : new.task = old.task) (hkey : new.key = old.key)
    (hstate : ∀ result, new.state = .received result →
      (s.tasks[old.task]?).bind (·.result) = some result) : (s.setWaiter waiter new).Shared where
  flights := h.flights
  done := h.done
  waits other hother := by
    rcases List.mem_or_eq_of_mem_set hother with hother | rfl
    · exact h.waits other hother
    · obtain ⟨task, hfound, hkeyed, -⟩ := h.waits old (List.mem_of_getElem? hold)
      refine ⟨task, htask ▸ hfound, hkeyed.trans hkey.symm, fun result hreceived => ?_⟩
      have hresult := hstate result hreceived
      rwa [hfound, Option.bind_some] at hresult

end flights

structure Sound (settings : QuerySettings) (s : QueryProcess R) : Prop where
  rated : s.Rated settings
  shared : s.Shared

/-- An arrival shares the flight of its key, is turned away, or starts a flight. -/
theorem run_cases (h : s.Rated settings) (hnow : s.clock ≤ now) (key : AssistantFlightKey) :
    (∃ task, Dict.get s.controller.inFlight key = some task ∧
        s.run settings key now = (.waits task, s.joined key task)) ∨
      (Dict.get s.controller.inFlight key = none ∧ s.Reached settings key.rateKey now ∧
        s.run settings key now = (.refused (settings.retryAfter
            (prune (settings.windowStart now) (s.timesOf key.rateKey)) now),
          s.turnedAway now (s.attemptsAfter settings key.rateKey now []))) ∨
      (Dict.get s.controller.inFlight key = none ∧ ¬s.Reached settings key.rateKey now ∧
        s.run settings key now = (.waits s.tasks.length,
          s.created key now (s.attemptsAfter settings key.rateKey now [now]))) := by
  unfold run
  cases hflight : Dict.get s.controller.inFlight key with
  | some task => exact .inl ⟨task, rfl, rfl⟩
  | none =>
    rw [h.admits_spec hnow]
    by_cases hreached : s.Reached settings key.rateKey now
    · rw [if_pos hreached]
      exact .inr (.inl ⟨rfl, hreached, rfl⟩)
    · rw [if_neg hreached]
      exact .inr (.inr ⟨rfl, hreached, rfl⟩)

/-- What a step can do. -/
inductive Stepped (settings : QuerySettings) (s : QueryProcess R) : QueryProcess R → Prop
  | joined {key : AssistantFlightKey} {task : Nat} :
      Dict.get s.controller.inFlight key = some task → Stepped settings s (s.joined key task)
  | refused {rateKey : RateKey} {now : Rat} : s.clock ≤ now →
      Stepped settings s (s.turnedAway now (s.attemptsAfter settings rateKey now []))
  | created {key : AssistantFlightKey} {now : Rat} : s.clock ≤ now →
      Dict.get s.controller.inFlight key = none → ¬s.Reached settings key.rateKey now →
        Stepped settings s (s.created key now (s.attemptsAfter settings key.rateKey now [now]))
  | finished {task : Nat} {found : FlightTask R} {result : R} : s.tasks[task]? = some found →
      found.result = none →
        Stepped settings s (s.setTask task { found with result := some result })
  | called {task : Nat} {found : FlightTask R} : s.tasks[task]? = some found →
      found.result ≠ none → found.completed = false →
        Stepped settings s { s.setTask task { found with completed := true } with
          controller := s.controller.complete found.key task }
  | delivered {waiter : Nat} {found : Waiter R} {result : R} : s.waiters[waiter]? = some found →
      (s.tasks[found.task]?).bind (·.result) = some result →
        Stepped settings s (s.setWaiter waiter { found with state := .received result })
  | cancelled {waiter : Nat} {found : Waiter R} : s.waiters[waiter]? = some found →
      Stepped settings s (s.setWaiter waiter { found with state := .cancelled })

theorem stepped_of_step (hs : s.Rated settings) {a : QueryAction R}
    (h : s.step settings a = some t) : Stepped settings s t := by
  cases a with
  | arrive key now =>
    simp only [step] at h
    split at h
    · cases h
    · rename_i hclock
      have hnow : s.clock ≤ now := le_of_not_gt hclock
      rw [Option.some.injEq] at h
      subst h
      rcases run_cases hs hnow key with ⟨task, hflight, hrun⟩ | ⟨-, -, hrun⟩ | ⟨hnone, hroom, hrun⟩
      · rw [hrun]
        exact .joined hflight
      · rw [hrun]
        exact .refused hnow
      · rw [hrun]
        exact .created hnow hnone hroom
  | finish task result =>
    obtain ⟨found, hfound, h⟩ := Option.bind_eq_some_iff.1 h
    split at h
    · rename_i hrunning
      rw [← Option.some.inj h]
      exact .finished hfound (Option.isNone_iff_eq_none.1 hrunning)
    · cases h
  | callback task =>
    obtain ⟨found, hfound, h⟩ := Option.bind_eq_some_iff.1 h
    split at h
    · rename_i hready
      rw [Bool.and_eq_true, Bool.not_eq_true'] at hready
      rw [← Option.some.inj h]
      exact .called hfound (Option.isSome_iff_ne_none.1 hready.1) hready.2
    · cases h
  | deliver waiter =>
    obtain ⟨found, hfound, h⟩ := Option.bind_eq_some_iff.1 h
    split at h
    · rename_i hresult
      rw [← Option.some.inj h]
      exact .delivered hfound hresult
    · cases h
  | cancel waiter =>
    obtain ⟨found, hfound, h⟩ := Option.bind_eq_some_iff.1 h
    split at h
    · rw [← Option.some.inj h]
      exact .cancelled hfound
    · cases h

/-- Nothing but an arrival changes what was admitted. -/
theorem Rated.of_same (h : s.Rated settings) (hattempts : t.controller.attempts =
    s.controller.attempts) (hclock : t.clock = s.clock) (hadmitted : t.admitted = s.admitted) :
    t.Rated settings := by
  have htimes : ∀ rateKey, t.timesOf rateKey = s.timesOf rateKey := fun rateKey => by
    rw [timesOf, hadmitted, timesOf]
  constructor
  · simpa only [htimes] using h.ordered
  · simpa only [htimes, hclock] using h.past
  · simpa only [hattempts] using h.keys
  · simpa only [htimes, hclock, hattempts] using h.logs
  · simpa only [htimes] using h.limited

theorem attempts_complete (controller : AssistantQueryController) (key : AssistantFlightKey)
    (task : Nat) : (controller.complete key task).attempts = controller.attempts := by
  unfold AssistantQueryController.complete
  split <;> rfl

theorem sound_step (hs : s.Sound settings) {a : QueryAction R} (h : s.step settings a = some t) :
    t.Sound settings := by
  cases stepped_of_step hs.rated h with
  | joined hflight => exact ⟨hs.rated.of_same rfl rfl rfl, hs.shared.joined hflight⟩
  | refused hnow =>
    exact ⟨hs.rated.turnedAway hnow _, hs.shared.flights, hs.shared.done, hs.shared.waits⟩
  | created hnow hnone hroom =>
    exact ⟨hs.rated.created hnow hroom, hs.shared.created hnone _⟩
  | finished hfound hrunning =>
    exact ⟨hs.rated.of_same rfl rfl rfl, hs.shared.finished hfound hrunning⟩
  | called hfound hdone hopen =>
    exact ⟨hs.rated.of_same (attempts_complete _ _ _) rfl rfl, hs.shared.called hfound hdone hopen⟩
  | delivered hfound hresult =>
    refine ⟨hs.rated.of_same rfl rfl rfl, hs.shared.setWaiter hfound rfl rfl fun other hother => ?_⟩
    obtain rfl := WaiterState.received.inj hother
    exact hresult
  | cancelled hfound =>
    exact ⟨hs.rated.of_same rfl rfl rfl, hs.shared.setWaiter hfound rfl rfl fun other hother => by
      cases hother⟩

theorem sound_start (clock : Rat) : (start clock : QueryProcess R).Sound settings where
  rated :=
    { ordered := fun _ => .nil
      past := fun _ _ hmem => by cases hmem
      keys := .nil
      logs := fun _ => rfl
      limited := fun _ => limited_nil }
  shared :=
    { flights := fun key task => by simp [start, Dict.get]
      done := fun _ hmem => by cases hmem
      waits := fun _ hmem => by cases hmem }

theorem sound_of_reaches {clock : Rat}
    (h : Reaches (step settings) anyStep (start clock) s) : s.Sound settings :=
  h.invariant (P := fun s => s.Sound settings) (fun _ _ _ hs _ hstep => sound_step hs hstep)
    (sound_start clock)

/-- The half-open windows of the configured length that begin at an instant. -/
def windows (settings : QuerySettings) (begins : Rat) : List (Rat → Bool) :=
  [fun instant => begins < instant ∧ instant ≤ begins + settings.windowSeconds,
    fun instant => begins ≤ instant ∧ instant < begins + settings.windowSeconds]

theorem narrow_windows {begins : Rat} :
    ∀ window ∈ windows settings begins, Narrow settings.windowStart window := by
  simp only [windows, List.forall_mem_cons, Narrow, QuerySettings.windowStart, decide_eq_true_eq]
  refine ⟨?_, ?_, fun _ hmem => absurd hmem List.not_mem_nil⟩
  · rintro first second ⟨hfirst, -⟩ ⟨-, hsecond⟩
    linarith
  · rintro first second ⟨hfirst, -⟩ ⟨-, hsecond⟩
    linarith

/-- The log never has more than the limit. -/
theorem Rated.length_log (h : s.Rated settings) (hnow : s.clock ≤ now) (rateKey : RateKey) :
    (prune (settings.windowStart now) (s.timesOf rateKey)).length ≤ settings.perUserWorkspace := by
  have hcount : (s.timesOf rateKey).countP (settings.windowStart now < ·) =
      (s.timesOf rateKey).countP fun instant =>
        settings.windowStart now < instant ∧
          instant ≤ settings.windowStart now + settings.windowSeconds := by
    refine List.countP_congr fun instant hmem => ?_
    have hpast := (h.past rateKey instant hmem).trans hnow
    have hend : settings.windowStart now + settings.windowSeconds = now :=
      sub_add_cancel now (settings.windowSeconds : Rat)
    simp [hend, hpast]
  rw [h.length_prune, hcount]
  exact h.limited rateKey _ (narrow_windows _ List.mem_cons_self)

theorem le_retryAfter (settings : QuerySettings) (log : List Rat) (now : Rat) :
    log.headD now + settings.windowSeconds - now ≤ settings.retryAfter log now := by
  have hceil := Rat.le_ceil (x := max 1 (log.headD now + settings.windowSeconds - now))
  have hnat : ((max 1 (log.headD now + settings.windowSeconds - now)).ceil : Rat) ≤
      ((max 1 (log.headD now + settings.windowSeconds - now)).ceil.toNat : Rat) := by
    exact_mod_cast Int.self_le_toNat _
  have hmax : ((max 1 (log.headD now + settings.windowSeconds - now)).ceil.toNat : Rat) ≤
      settings.retryAfter log now := by
    exact_mod_cast Nat.le_max_right 1 _
  exact (le_max_right 1 _).trans (hceil.trans (hnat.trans hmax))

/-- Once the oldest admission of a full log left the window there is room. -/
theorem Rated.room_later (h : s.Rated settings) (hnow : s.clock ≤ now)
    (hreached : s.Reached settings rateKey now) {u : QueryProcess R} (hu : u.Rated settings)
    (htimes : u.timesOf rateKey = s.timesOf rateKey) {later : Rat}
    (hlater : now + settings.retryAfter (prune (settings.windowStart now) (s.timesOf rateKey)) now ≤
      later) : ¬u.Reached settings rateKey later := by
  rw [Reached, ← hu.length_prune, htimes, not_le]
  have hlength := h.length_log hnow rateKey
  have hretry := le_retryAfter settings
    (prune (settings.windowStart now) (s.timesOf rateKey)) now
  rw [Reached, ← h.length_prune] at hreached
  have hmono : settings.windowStart now ≤ settings.windowStart later := by
    have hpos : (0 : Rat) ≤ settings.retryAfter
        (prune (settings.windowStart now) (s.timesOf rateKey)) now := Nat.cast_nonneg _
    exact windowStart_mono (by linarith)
  rw [← prune_prune hmono]
  cases hlog : prune (settings.windowStart now) (s.timesOf rateKey) with
  | nil =>
    have hpos := settings.perUserWorkspace_pos
    rw [hlog, List.length_nil] at hreached
    omega
  | cons first rest =>
    rw [hlog] at hlength hretry hlater
    have hfirst : first ≤ settings.windowStart later := by
      unfold QuerySettings.windowStart
      rw [List.headD_cons] at hretry
      linarith
    have hrest : (prune (settings.windowStart later) rest).length ≤ rest.length :=
      (List.dropWhile_sublist _).length_le
    rw [prune_cons_of_le hfirst]
    rw [List.length_cons] at hlength
    omega

/-- Without an admission of its caller a key that has no flight gets none. -/
theorem no_flight_of_reaches {u : QueryProcess R} (hs : s.Sound settings)
    (hnone : Dict.get s.controller.inFlight key = none)
    (hrun : Reaches (step settings) anyStep s u) :
    (s.timesOf key.rateKey).length ≤ (u.timesOf key.rateKey).length ∧
      ((u.timesOf key.rateKey).length = (s.timesOf key.rateKey).length →
        Dict.get u.controller.inFlight key = none) := by
  refine hrun.invariant_of (I := fun x => x.Sound settings)
    (P := fun x => (s.timesOf key.rateKey).length ≤ (x.timesOf key.rateKey).length ∧
      ((x.timesOf key.rateKey).length = (s.timesOf key.rateKey).length →
        Dict.get x.controller.inFlight key = none))
    (fun _ _ _ hx _ hstep => sound_step hx hstep) (fun x a y hx hp _ hstep => ?_) hs
    ⟨le_rfl, fun _ => hnone⟩
  cases stepped_of_step hx.rated hstep with
  | joined => exact hp
  | refused => exact hp
  | @created other now hnow hother hroom =>
    rw [timesOf_created]
    split
    · rw [List.length_append, List.length_singleton]
      exact ⟨Nat.le_succ_of_le hp.1, fun hsame => by omega⟩
    · rename_i hkey
      refine ⟨hp.1, fun hsame => ?_⟩
      have hne : other ≠ key := fun heq => hkey (congrArg AssistantFlightKey.rateKey heq)
      change Dict.get (Dict.set _ _ _) key = none
      rw [Dict.get_set, if_neg hne]
      exact hp.2 hsame
  | finished => exact hp
  | called hfound hdone hopen =>
    refine ⟨hp.1, fun hsame => ?_⟩
    rw [hx.shared.complete_eq hfound hopen]
    change Dict.get (Dict.erase _ _) key = none
    rw [Dict.get_erase, hp.2 hsame, ite_self]
  | delivered => exact hp
  | cancelled => exact hp

/-- A task keeps its key, and the result it has. -/
theorem result_kept {u : QueryProcess R} {task : Nat} {found : FlightTask R} {result : R}
    (hs : s.Sound settings) (hfound : s.tasks[task]? = some found)
    (hresult : found.result = some result) (hrun : Reaches (step settings) anyStep s u) :
    ∃ kept : FlightTask R, u.tasks[task]? = some kept ∧ kept.key = found.key ∧
      kept.result = some result := by
  refine hrun.invariant_of (I := fun x => x.Sound settings)
    (P := fun x => ∃ kept : FlightTask R, x.tasks[task]? = some kept ∧ kept.key = found.key ∧
      kept.result = some result)
    (fun _ _ _ hx _ hstep => sound_step hx hstep) (fun x a y hx hp _ hstep => ?_) hs
    ⟨found, hfound, rfl, hresult⟩
  obtain ⟨kept, hkept, hkey, hsame⟩ := hp
  cases stepped_of_step hx.rated hstep with
  | created => exact ⟨kept, getElem?_concat_iff.2 (.inl hkept), hkey, hsame⟩
  | @finished other moved _ hmoved hrunning =>
    refine ⟨kept, (getElem?_set_iff hmoved).2 ?_, hkey, hsame⟩
    split
    · rename_i hother
      rw [hother, hkept, Option.some.injEq] at hmoved
      rw [← hmoved, hsame] at hrunning
      cases hrunning
    · exact hkept
  | @called other moved hmoved _ _ =>
    simp only [setTask, getElem?_set_iff hmoved]
    split
    · rename_i hother
      rw [hother, hkept, Option.some.injEq] at hmoved
      exact ⟨_, rfl, hmoved ▸ hkey, hmoved ▸ hsame⟩
    · exact ⟨kept, hkept, hkey, hsame⟩
  | joined | refused | delivered | cancelled => exact ⟨kept, hkept, hkey, hsame⟩

/-- What the controller promises of a process. -/
structure Lawful (settings : QuerySettings) (s : QueryProcess R) : Prop where
  oneFlight : ∀ (i j : Nat) (first second : FlightTask R), s.tasks[i]? = some first →
    s.tasks[j]? = some second → first.key = second.key → first.result = none →
      second.result = none → i = j
  joins : ∀ (task : Nat) (found : FlightTask R) (now : Rat), s.tasks[task]? = some found →
    found.result = none → s.run settings found.key now = (.waits task, s.joined found.key task)
  oneResult : ∀ waiter ∈ s.waiters, ∃ task : FlightTask R, s.tasks[waiter.task]? = some task ∧
    task.key = waiter.key ∧ ∀ result, waiter.state = .received result → task.result = some result
  receives : ∀ (i : Nat) (waiter : Waiter R) (task : FlightTask R) (result : R),
    s.waiters[i]? = some waiter → waiter.state = .waiting → s.tasks[waiter.task]? = some task →
      task.result = some result → s.step settings (.deliver i) =
        some (s.setWaiter i { waiter with state := .received result })
  resultKept : ∀ (t : QueryProcess R) (i : Nat) (task : FlightTask R) (result : R),
    s.tasks[i]? = some task → task.result = some result → Reaches (step settings) anyStep s t →
      ∃ kept : FlightTask R, t.tasks[i]? = some kept ∧ kept.key = task.key ∧
        kept.result = some result
  perWindow : ∀ begins, ∀ window ∈ windows settings begins, ∀ rateKey,
    (s.timesOf rateKey).countP window ≤ settings.perUserWorkspace
  refused : ∀ key now retryAfter, s.clock ≤ now →
    (s.run settings key now).1 = .refused retryAfter → s.Reached settings key.rateKey now
  retried : ∀ key now retryAfter, s.clock ≤ now →
    (s.run settings key now).1 = .refused retryAfter → ∀ u : QueryProcess R,
      Reaches (step settings) anyStep (s.run settings key now).2 u →
        u.timesOf key.rateKey = s.timesOf key.rateKey → ∀ later, u.clock ≤ later →
          now + retryAfter ≤ later → (u.run settings key later).1 = .waits u.tasks.length ∧
            (u.run settings key later).2.timesOf key.rateKey = u.timesOf key.rateKey ++ [later]

theorem Shared.result_of_open (h : s.Shared) {task : Nat} {found : FlightTask R}
    (hfound : s.tasks[task]? = some found) (hrunning : found.result = none) :
    Dict.get s.controller.inFlight found.key = some task := by
  refine (h.flights found.key task).2 ⟨found, hfound, rfl, Bool.eq_false_iff.2 fun hcompleted => ?_⟩
  exact h.done found (List.mem_of_getElem? hfound) hcompleted hrunning

theorem Sound.retried (hs : s.Sound settings) {retryAfter : Nat} (hnow : s.clock ≤ now)
    (hrefused : (s.run settings key now).1 = .refused retryAfter) {u : QueryProcess R}
    (hrun : Reaches (step settings) anyStep (s.run settings key now).2 u)
    (htimes : u.timesOf key.rateKey = s.timesOf key.rateKey) {later : Rat}
    (hclock : u.clock ≤ later) (hlater : now + retryAfter ≤ later) :
    (u.run settings key later).1 = .waits u.tasks.length ∧
      (u.run settings key later).2.timesOf key.rateKey = u.timesOf key.rateKey ++ [later] := by
  rcases run_cases hs.rated hnow key with ⟨task, -, hcase⟩ | ⟨hnone, hreached, hcase⟩ |
    ⟨-, -, hcase⟩
  · rw [hcase] at hrefused
    cases hrefused
  · rw [hcase] at hrefused hrun
    obtain rfl := Response.refused.inj hrefused
    have hstep : (s.turnedAway now (s.attemptsAfter settings key.rateKey now [])).Sound settings :=
      ⟨hs.rated.turnedAway hnow _, hs.shared.flights, hs.shared.done, hs.shared.waits⟩
    have hu : u.Sound settings := hrun.invariant (P := fun x => x.Sound settings)
      (fun _ _ _ hx _ hx' => sound_step hx hx') hstep
    have hflight := (no_flight_of_reaches hstep hnone hrun).2 (congrArg List.length htimes)
    have hroom := hs.rated.room_later hnow hreached hu.rated htimes hlater
    rcases run_cases hu.rated hclock key with ⟨task, hfound, -⟩ | ⟨-, hfull, -⟩ | ⟨-, -, hagain⟩
    · rw [hflight] at hfound
      cases hfound
    · exact absurd hfull hroom
    · rw [hagain]
      exact ⟨rfl, by rw [timesOf_created, if_pos rfl]⟩
  · rw [hcase] at hrefused
    cases hrefused

end QueryProcess

/-- One query in a window. -/
def tightQueries : QuerySettings := ⟨50, 1, (by decide : 0 < 50), Nat.one_pos⟩

def sampleKey (query : Str) : AssistantFlightKey := ⟨1, 2, [], query⟩

/-- Two callers share a flight, one of them goes, and another query is refused until the window of
the first is over. -/
def sharedFlight : List (QueryAction Nat) :=
  [.arrive (sampleKey [97]) 5, .arrive (sampleKey [97]) 6, .cancel 0, .arrive (sampleKey [98]) 10,
    .finish 0 7, .arrive (sampleKey [97]) 11, .callback 0, .deliver 1, .deliver 2,
    .arrive (sampleKey [98]) 55]

end FounderOs.Assistant
