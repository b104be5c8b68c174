import FounderOs.Foundation.Expiring
import FounderOs.Foundation.Transition

namespace FounderOs.Auth

open Expiring Transition

structure AdmissionSettings where
  windowSeconds : Nat
  perIp : Nat
  global : Nat
  maxConcurrentAttempts : Nat
  windowSeconds_pos : 1 ≤ windowSeconds
  perIp_pos : 1 ≤ perIp
  global_pos : 1 ≤ global
  maxConcurrentAttempts_pos : 1 ≤ maxConcurrentAttempts

def AdmissionSettings.defaults : AdmissionSettings :=
  ⟨60, 20, 100, 4, by decide, by decide, by decide, by decide⟩

def AdmissionSettings.leaseTtlSeconds (settings : AdmissionSettings) : Nat :=
  max settings.windowSeconds 60

/-- The keys of the admission store; a client is named by its bucket. -/
inductive AdmissionKey (Client : Type) where
  | global
  | client (bucket : Client)
  | inFlight
  deriving DecidableEq, Repr

abbrev AdmissionStore (Client : Type) := Store (AdmissionKey Client)

variable {Client : Type} [DecidableEq Client]

/-- `INCR` and, on the first count, `EXPIRE`. -/
def count (store : AdmissionStore Client) (now : Nat) (key : AdmissionKey Client) (seconds : Nat) :
    AdmissionStore Client :=
  let store := store.add now key 1
  if store.get now key = 1 then store.expire now key seconds else store

/-- `_ACQUIRE_SCRIPT`. -/
def acquireScript (settings : AdmissionSettings) (store : AdmissionStore Client) (now : Nat)
    (bucket : Client) : Option (AdmissionStore Client) :=
  if store.get now .global ≥ settings.global ∨ store.get now (.client bucket) ≥ settings.perIp ∨
      store.get now .inFlight ≥ settings.maxConcurrentAttempts then none
  else
    let store := count store now .global settings.windowSeconds
    let store := count store now (.client bucket) settings.windowSeconds
    some (count store now .inFlight settings.leaseTtlSeconds)

/-- `_RELEASE_SCRIPT`. -/
def releaseScript (store : AdmissionStore Client) (now : Nat) : AdmissionStore Client :=
  if store.get now .inFlight ≤ 1 then store.del .inFlight else store.add now .inFlight (-1)

abbrev LeaseId := Nat

structure Lease where
  id : LeaseId
  acquiredAt : Nat
  deriving DecidableEq, Repr

/-- The shared store, its clock, and the leases that were admitted and not released, over all
processes. -/
structure AdmissionWorld (Client : Type) where
  store : AdmissionStore Client
  now : Nat
  held : List Lease

def noAdmissions : AdmissionWorld Client := ⟨.empty, 0, []⟩

/-- `answered` and `delivered` tell whether the reply of an acquisition and the script of a release
get through; a script that fails on its way leaves the store as it was. -/
inductive AdmissionAction (Client : Type) where
  | acquire (lease : LeaseId) (bucket : Client) (answered : Bool) (now : Nat)
  | release (lease : LeaseId) (delivered : Bool) (now : Nat)
  deriving DecidableEq, Repr

def AdmissionAction.now : AdmissionAction Client → Nat
  | .acquire _ _ _ now | .release _ _ now => now

variable (settings : AdmissionSettings)

def acquireStep (s : AdmissionWorld Client) (lease : LeaseId) (bucket : Client) (answered : Bool)
    (now : Nat) : AdmissionWorld Client :=
  match acquireScript settings s.store now bucket with
  | none => { s with now := now }
  | some store =>
    { store := store
      now := now
      held := if answered then s.held ++ [⟨lease, now⟩] else s.held }

def releaseStep (s : AdmissionWorld Client) (lease : LeaseId) (delivered : Bool) (now : Nat) :
    Option (AdmissionWorld Client) :=
  if s.held.any (·.id = lease) then
    some {
      store := if delivered then releaseScript s.store now else s.store
      now := now
      held := s.held.eraseP (·.id = lease) }
  else none

def admissionStep (s : AdmissionWorld Client) (a : AdmissionAction Client) :
    Option (AdmissionWorld Client) :=
  if a.now < s.now then none
  else
    match a with
    | .acquire lease bucket answered now => some (acquireStep settings s lease bucket answered now)
    | .release lease delivered now => releaseStep s lease delivered now

def WithinTtl (s : AdmissionWorld Client) (a : AdmissionAction Client) : Prop :=
  ∀ lease ∈ s.held, a.now < lease.acquiredAt + 1000 * settings.leaseTtlSeconds

instance (s : AdmissionWorld Client) (a : AdmissionAction Client) :
    Decidable (WithinTtl settings s a) :=
  inferInstanceAs (Decidable (∀ _ ∈ _, _))

/-- The in-flight key has not lapsed under a lease. -/
def KeyOutlivesLeases (s : AdmissionWorld Client) (a : AdmissionAction Client) : Prop :=
  s.store.Lapsed a.now .inFlight → s.held = []

instance (s : AdmissionWorld Client) (a : AdmissionAction Client) :
    Decidable (KeyOutlivesLeases s a) :=
  inferInstanceAs (Decidable (_ → _))

structure Bounded (s : AdmissionWorld Client) : Prop where
  held : (s.held.length : Int) ≤ s.store.get s.now .inFlight
  counted : s.store.get s.now .inFlight ≤ settings.maxConcurrentAttempts

variable {settings} {s t : AdmissionWorld Client} {a : AdmissionAction Client}
  {store store' : AdmissionStore Client} {now : Nat} {bucket : Client}

theorem get_count (key : AdmissionKey Client) (seconds : Nat) :
    (count store now key seconds).get now key = store.get now key + 1 := by
  unfold count
  dsimp only
  split <;> simp

theorem get_count_other {key other : AdmissionKey Client} (seconds : Nat) (h : other ≠ key) :
    (count store now key seconds).get now other = store.get now other := by
  unfold count
  dsimp only
  split
  · rw [Store.get_expire_other h, Store.get_add_other h]
  · rw [Store.get_add_other h]

theorem acquireScript_some (h : acquireScript settings store now bucket = some store') :
    store.get now .inFlight < settings.maxConcurrentAttempts ∧
      store'.get now .inFlight = store.get now .inFlight + 1 := by
  unfold acquireScript at h
  split at h
  · cases h
  · rename_i hfree
    obtain rfl := Option.some.inj h
    refine ⟨by omega, ?_⟩
    rw [get_count, get_count_other _ (by simp), get_count_other _ (by simp)]

theorem get_releaseScript (h : 1 ≤ store.get now .inFlight) :
    (releaseScript store now).get now .inFlight = store.get now .inFlight - 1 := by
  unfold releaseScript
  split
  · rw [Store.get_del]
    omega
  · rw [Store.get_add]
    omega

omit [DecidableEq Client] in
/-- What the clock does before a step. -/
theorem bounded_later (h : Bounded settings s) (hnow : s.now ≤ a.now)
    (hkey : KeyOutlivesLeases s a) :
    (s.held.length : Int) ≤ s.store.get a.now .inFlight ∧
      s.store.get a.now .inFlight ≤ settings.maxConcurrentAttempts := by
  by_cases hlapsed : s.store.Lapsed a.now .inFlight
  · have hnothing : s.store.get a.now .inFlight = 0 := Store.get_of_lapsed hlapsed
    rw [hkey hlapsed, hnothing]
    simp
  · rw [Store.get_later hlapsed hnow]
    exact ⟨h.held, h.counted⟩

theorem bounded_acquire {lease : LeaseId} {answered : Bool}
    (hheld : (s.held.length : Int) ≤ s.store.get now .inFlight)
    (hcounted : s.store.get now .inFlight ≤ settings.maxConcurrentAttempts) :
    Bounded settings (acquireStep settings s lease bucket answered now) := by
  unfold acquireStep
  cases hscript : acquireScript settings s.store now bucket with
  | none => exact ⟨hheld, hcounted⟩
  | some store =>
    obtain ⟨hfree, hstore⟩ := acquireScript_some hscript
    have hlength : ((if answered then s.held ++ [⟨lease, now⟩] else s.held).length : Int) ≤
        s.held.length + 1 := by
      split
      · simp
      · omega
    constructor
    · dsimp only
      omega
    · dsimp only
      omega

theorem bounded_release {lease : LeaseId} {delivered : Bool}
    (hheld : (s.held.length : Int) ≤ s.store.get now .inFlight)
    (hcounted : s.store.get now .inFlight ≤ settings.maxConcurrentAttempts)
    (hstep : releaseStep s lease delivered now = some t) : Bounded settings t := by
  unfold releaseStep at hstep
  split at hstep
  · rename_i hown
    obtain rfl := Option.some.inj hstep
    obtain ⟨l, hl, hid⟩ := List.any_eq_true.1 hown
    have hlength := List.length_eraseP_of_mem (p := fun l => decide (l.id = lease)) hl hid
    have hpos := List.length_pos_of_mem hl
    constructor
    · simp only [hlength]
      split
      · rw [get_releaseScript (by omega)]
        omega
      · omega
    · simp only
      split
      · rw [get_releaseScript (by omega)]
        omega
      · exact hcounted
  · cases hstep

theorem raw_count {key other : AdmissionKey Client} (seconds : Nat) :
    (count store now key seconds).raw other =
      if other = key then some (store.get now key + 1) else store.raw other := by
  unfold count
  dsimp only
  split <;> simp [Store.raw_add]

def NeverNegative (store : AdmissionStore Client) : Prop :=
  ∀ value, store.raw .inFlight = some value → 0 ≤ value

theorem neverNegative_acquire (h : NeverNegative store)
    (hscript : acquireScript settings store now bucket = some store') : NeverNegative store' := by
  have hcount : 0 ≤ store.get now .inFlight := Store.get_nonneg h
  unfold acquireScript at hscript
  split at hscript
  · cases hscript
  · obtain rfl := Option.some.inj hscript
    intro value hvalue
    rw [raw_count, if_pos rfl, get_count_other _ (by simp), get_count_other _ (by simp)] at hvalue
    obtain rfl := Option.some.inj hvalue
    omega

theorem neverNegative_release : NeverNegative (releaseScript store now) := by
  unfold releaseScript
  split
  · intro value hvalue
    rw [Store.del, Store.raw_set, if_pos rfl] at hvalue
    cases hvalue
  · intro value hvalue
    rw [Store.raw_add, if_pos rfl] at hvalue
    obtain rfl := Option.some.inj hvalue
    omega

theorem neverNegative_step (h : NeverNegative s.store) (hstep : admissionStep settings s a = some t) :
    NeverNegative t.store := by
  unfold admissionStep at hstep
  split at hstep
  · cases hstep
  · cases a with
    | acquire lease bucket answered now =>
      obtain rfl := Option.some.inj hstep
      unfold acquireStep
      cases hscript : acquireScript settings s.store now bucket with
      | none => exact h
      | some store => exact neverNegative_acquire h hscript
    | release lease delivered now =>
      simp only [releaseStep] at hstep
      split at hstep
      · obtain rfl := Option.some.inj hstep
        dsimp only
        split
        · exact neverNegative_release
        · exact h
      · cases hstep

theorem bounded_step (h : Bounded settings s) (hkey : KeyOutlivesLeases s a)
    (hstep : admissionStep settings s a = some t) : Bounded settings t := by
  unfold admissionStep at hstep
  split at hstep
  · cases hstep
  · rename_i hnow
    obtain ⟨hheld, hcounted⟩ := bounded_later h (Nat.le_of_not_lt hnow) hkey
    cases a with
    | acquire lease bucket answered now =>
      obtain rfl := Option.some.inj hstep
      exact bounded_acquire hheld hcounted
    | release lease delivered now => exact bounded_release hheld hcounted hstep

theorem neverNegative_reaches {ok : AdmissionWorld Client → AdmissionAction Client → Prop}
    (h : Reaches (admissionStep settings) ok noAdmissions s) : NeverNegative s.store :=
  h.invariant (P := fun s => NeverNegative s.store)
    (fun _ _ _ hs _ hstep => neverNegative_step hs hstep) (fun _ hvalue => by cases hvalue)

theorem admitted_within_bound
    (h : Reaches (admissionStep settings) KeyOutlivesLeases (noAdmissions : AdmissionWorld Client) s) :
    s.held.length ≤ settings.maxConcurrentAttempts ∧
      ∀ value, s.store.raw .inFlight = some value → 0 ≤ value := by
  have hbounded : Bounded settings s :=
    h.invariant (fun _ _ _ hs hkey hstep => bounded_step hs hkey hstep) ⟨by simp [noAdmissions],
      by simp [noAdmissions]⟩
  refine ⟨?_, neverNegative_reaches h⟩
  have hheld := hbounded.held
  have hcounted := hbounded.counted
  omega

/-- Two overlapping leases, both over before the key of the first one lapses. -/
def shortAttempts : List (AdmissionAction Unit) :=
  [.acquire 0 () true 0, .acquire 1 () true 20000, .release 0 true 30000, .release 1 true 50000,
    .acquire 2 () true 90000]

theorem admitted_within_bound_short_attempts :
    ∃ s, exec (restrict (admissionStep .defaults) KeyOutlivesLeases) noAdmissions shortAttempts =
      some s ∧ s.held.length = 1 ∧ s.held.length ≤ 4 := by
  have hrun : (exec (restrict (admissionStep .defaults) KeyOutlivesLeases) noAdmissions
      shortAttempts).any (fun s => s.held.length = 1) = true := by
    decide +kernel
  obtain ⟨s, hs, hlength⟩ := (Option.any_eq_true _ _).1 hrun
  have hbound := (admitted_within_bound (reaches_of_exec_restrict hs)).1
  exact ⟨s, hs, of_decide_eq_true hlength, hbound⟩

/-- The key of the first lease lapses at 60 s, under three others taken 30 s before. -/
def overlappingAttempts : List (AdmissionAction Unit) :=
  [.acquire 0 () true 0, .acquire 1 () true 30000, .acquire 2 () true 30000,
    .acquire 3 () true 30000, .release 0 true 50000, .acquire 4 () true 60001,
    .acquire 5 () true 60001, .acquire 6 () true 60001, .acquire 7 () true 60001]

theorem overlapping_attempts_exceed_bound :
    ¬∀ s : AdmissionWorld Unit,
      Reaches (admissionStep .defaults) (WithinTtl .defaults) noAdmissions s →
        s.held.length ≤ AdmissionSettings.defaults.maxConcurrentAttempts := by
  intro hall
  have hrun : (exec (restrict (admissionStep .defaults) (WithinTtl .defaults)) noAdmissions
      overlappingAttempts).any (fun s => s.held.length = 7) = true := by
    decide +kernel
  obtain ⟨s, hs, hlength⟩ := (Option.any_eq_true _ _).1 hrun
  have hbound := hall s (reaches_of_exec_restrict hs)
  rw [of_decide_eq_true hlength] at hbound
  revert hbound
  decide

end FounderOs.Auth
