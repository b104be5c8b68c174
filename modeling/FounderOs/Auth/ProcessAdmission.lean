import FounderOs.Auth.Admission
import FounderOs.Foundation.Dict
import FounderOs.Foundation.SlidingWindow
import FounderOs.Foundation.Str
import Mathlib.Algebra.Order.Ring.Rat
import Mathlib.Tactic.Linarith

namespace FounderOs.Auth

open SlidingWindow Transition

/-- `LoginAdmissionController`. The instants of its clock are exact. -/
structure LoginAdmissionController where
  attemptsByClient : List (Str × List Rat)
  globalAttempts : List Rat
  inFlight : Nat
  deriving DecidableEq, Repr

/-- `client_key or "unknown-client"`. -/
def clientOf : Option Str → Str
  | none | some [] => Str.of "unknown-client"
  | some (c :: key) => c :: key

def AdmissionSettings.windowStart (settings : AdmissionSettings) (now : Rat) : Rat :=
  now - settings.windowSeconds

/-- The loop over the clients. -/
def pruneClients (start : Rat) (attempts : List (Str × List Rat)) : List (Str × List Rat) :=
  (attempts.map fun entry => (entry.1, prune start entry.2)).filter fun entry => !entry.2.isEmpty

namespace LoginAdmissionController

variable (settings : AdmissionSettings) (controller : LoginAdmissionController)

/-- Whether the attempt is admitted, and what the controller has then. -/
def acquire (clientKey : Option Str) (now : Rat) : Bool × LoginAdmissionController :=
  let windowStart := settings.windowStart now
  let key := clientOf clientKey
  let global := prune windowStart controller.globalAttempts
  let clients := pruneClients windowStart controller.attemptsByClient
  let attempts := prune windowStart ((Dict.get clients key).getD [])
  if settings.perIp ≤ attempts.length ∨ settings.global ≤ global.length ∨
      settings.maxConcurrentAttempts ≤ controller.inFlight then
    (false, ⟨Dict.set clients key attempts, global, controller.inFlight⟩)
  else
    (true, ⟨Dict.set clients key (attempts ++ [now]), global ++ [now], controller.inFlight + 1⟩)

def release : LoginAdmissionController := { controller with inFlight := controller.inFlight - 1 }

end LoginAdmissionController

/-- The controller of one process and the leases that it has given out, each with whether it is
released. What it has admitted is kept beside it, with the clients and the times. -/
structure AdmissionProcess where
  controller : LoginAdmissionController
  leases : List Bool
  clock : Rat
  admitted : List (Str × Rat)
  deriving DecidableEq, Repr

inductive ProcessAction where
  | acquire (clientKey : Option Str) (now : Rat)
  | release (lease : Nat)

namespace AdmissionProcess

def start (clock : Rat) : AdmissionProcess := ⟨⟨[], [], 0⟩, [], clock, []⟩

def outstanding (s : AdmissionProcess) : Nat := s.leases.count false

def acquired (s : AdmissionProcess) (clientKey : Option Str) (now : Rat)
    (result : Bool × LoginAdmissionController) : AdmissionProcess where
  controller := result.2
  leases := if result.1 then s.leases ++ [false] else s.leases
  clock := now
  admitted := if result.1 then s.admitted ++ [(clientOf clientKey, now)] else s.admitted

variable (settings : AdmissionSettings)

/-- A lease that is released before changes nothing. -/
def step (s : AdmissionProcess) : ProcessAction → Option AdmissionProcess
  | .acquire clientKey now =>
    if now < s.clock then none
    else some (s.acquired clientKey now (s.controller.acquire settings clientKey now))
  | .release lease =>
    (s.leases[lease]?).map fun released =>
      if released then s
      else { s with leases := s.leases.set lease true, controller := s.controller.release }

/-- When attempts were admitted. -/
def times (s : AdmissionProcess) : List Rat := s.admitted.map (·.2)

def timesOf (s : AdmissionProcess) (client : Str) : List Rat :=
  (s.admitted.filter (·.1 = client)).map (·.2)

/-- What is kept in the logs is what was admitted in the window that ends now. -/
structure Sound (s : AdmissionProcess) : Prop where
  ordered : s.times.Pairwise (· ≤ ·)
  past : ∀ instant ∈ s.times, instant ≤ s.clock
  keys : (s.controller.attemptsByClient.map (·.1)).Nodup
  clients : ∀ client, (Dict.get s.controller.attemptsByClient client).getD [] =
    prune (settings.windowStart s.clock) (s.timesOf client)
  global : s.controller.globalAttempts = prune (settings.windowStart s.clock) s.times
  inFlight : s.controller.inFlight = s.outstanding
  limitedClients : ∀ client,
    Limited settings.windowStart settings.perIp (s.timesOf client)
  limitedGlobal : Limited settings.windowStart settings.global s.times
  concurrent : s.outstanding ≤ settings.maxConcurrentAttempts

end AdmissionProcess

section prunes

variable {start : Rat} {attempts : List (Str × List Rat)} {client : Str}

theorem keys_pruneClients :
    ((pruneClients start attempts).map (·.1)).Sublist (attempts.map (·.1)) :=
  keys_pruneAll

/-- A client whose attempts are all dropped reads as one that has none. -/
theorem get_pruneClients (hkeys : (attempts.map (·.1)).Nodup) :
    (Dict.get (pruneClients start attempts) client).getD [] =
      prune start ((Dict.get attempts client).getD []) :=
  get_pruneAll hkeys

end prunes

section steps

variable {settings : AdmissionSettings} {s t : AdmissionProcess} {clientKey : Option Str}
variable {now : Rat} {client : Str}

theorem windowStart_lt (now : Rat) : settings.windowStart now < now := by
  have hpos : (0 : Rat) < settings.windowSeconds := by
    exact_mod_cast settings.windowSeconds_pos
  unfold AdmissionSettings.windowStart
  linarith

theorem windowStart_mono {earlier : Rat} (h : earlier ≤ now) :
    settings.windowStart earlier ≤ settings.windowStart now := by
  unfold AdmissionSettings.windowStart
  linarith

namespace AdmissionProcess

/-- One of the three limits is reached at the moment. -/
def Reached (settings : AdmissionSettings) (s : AdmissionProcess) (client : Str) (now : Rat) :
    Prop :=
  settings.perIp ≤ (s.timesOf client).countP (settings.windowStart now < ·) ∨
    settings.global ≤ s.times.countP (settings.windowStart now < ·) ∨
      settings.maxConcurrentAttempts ≤ s.outstanding

instance : Decidable (s.Reached settings client now) := inferInstanceAs (Decidable (_ ∨ _ ∨ _))

theorem Sound.orderedOf (h : s.Sound settings) (client : Str) :
    (s.timesOf client).Pairwise (· ≤ ·) := by
  have hsub : (s.admitted.filter (·.1 = client)).Sublist s.admitted := List.filter_sublist
  exact h.ordered.sublist (hsub.map Prod.snd)

theorem length_prune {log : List Rat} (h : log.Pairwise (· ≤ ·)) :
    (prune (settings.windowStart now) log).length = log.countP (settings.windowStart now < ·) := by
  rw [prune_eq_filter h, List.countP_eq_length_filter]

/-- What is in the logs when an attempt is looked at. -/
theorem Sound.logs (h : s.Sound settings) (hnow : s.clock ≤ now) :
    prune (settings.windowStart now) s.controller.globalAttempts =
        prune (settings.windowStart now) s.times ∧
      ∀ client, (Dict.get (pruneClients (settings.windowStart now)
          s.controller.attemptsByClient) client).getD [] =
        prune (settings.windowStart now) (s.timesOf client) := by
  have hstart : settings.windowStart s.clock ≤ settings.windowStart now := windowStart_mono hnow
  refine ⟨by rw [h.global, prune_prune hstart], fun client => ?_⟩
  rw [get_pruneClients h.keys, h.clients, prune_prune hstart]

/-- What the controller has once an attempt was admitted at the times in the list. -/
def after (settings : AdmissionSettings) (s : AdmissionProcess) (clientKey : Option Str) (now : Rat)
    (admitted : List Rat) : LoginAdmissionController where
  attemptsByClient := Dict.set
    (pruneClients (settings.windowStart now) s.controller.attemptsByClient) (clientOf clientKey)
    (prune (settings.windowStart now) (s.timesOf (clientOf clientKey)) ++ admitted)
  globalAttempts := prune (settings.windowStart now) s.times ++ admitted
  inFlight := s.outstanding + admitted.length

/-- An attempt is refused exactly if a limit is reached. -/
theorem acquire_spec (h : s.Sound settings) (hnow : s.clock ≤ now) :
    s.controller.acquire settings clientKey now =
      if s.Reached settings (clientOf clientKey) now then
        (false, s.after settings clientKey now [])
      else (true, s.after settings clientKey now [now]) := by
  obtain ⟨hglobal, hclients⟩ := h.logs hnow
  unfold LoginAdmissionController.acquire Reached after
  simp only [hglobal, hclients, prune_prune le_rfl, length_prune h.ordered,
    length_prune (h.orderedOf _), h.inFlight, List.append_nil, List.length_nil,
    List.length_singleton, Nat.add_zero]

theorem Sound.refused (h : s.Sound settings) (hnow : s.clock ≤ now) :
    Sound settings
      { s with controller := s.after settings clientKey now [], clock := now } where
  ordered := h.ordered
  past instant hmem := (h.past instant hmem).trans hnow
  keys := Dict.nodup_keys_set (h.keys.sublist keys_pruneClients)
  clients client := by
    change (Dict.get (Dict.set _ _ _) client).getD [] = prune _ (s.timesOf client)
    rw [Dict.get_set]
    split
    · rename_i hsame
      rw [Option.getD_some, List.append_nil, hsame]
    · exact (h.logs hnow).2 client
  global := List.append_nil _
  inFlight := rfl
  limitedClients := h.limitedClients
  limitedGlobal := h.limitedGlobal
  concurrent := h.concurrent

theorem Sound.room (h : s.Sound settings) (hroom : ¬s.Reached settings client now) :
    (prune (settings.windowStart now) (s.timesOf client)).length < settings.perIp ∧
      (prune (settings.windowStart now) s.times).length < settings.global ∧
        s.outstanding < settings.maxConcurrentAttempts := by
  rw [length_prune (h.orderedOf _), length_prune h.ordered]
  unfold Reached at hroom
  omega

/-- The attempt is admitted, with a lease of its own. -/
def admitAt (settings : AdmissionSettings) (s : AdmissionProcess) (clientKey : Option Str)
    (now : Rat) : AdmissionProcess where
  controller := s.after settings clientKey now [now]
  leases := s.leases ++ [false]
  clock := now
  admitted := s.admitted ++ [(clientOf clientKey, now)]

theorem times_admitAt : (s.admitAt settings clientKey now).times = s.times ++ [now] :=
  List.map_append

theorem timesOf_admitAt : (s.admitAt settings clientKey now).timesOf client =
    if clientOf clientKey = client then s.timesOf client ++ [now] else s.timesOf client := by
  unfold timesOf admitAt
  rw [List.filter_append]
  by_cases hsame : clientOf clientKey = client
  · simp [hsame]
  · simp [hsame]

theorem outstanding_admitAt :
    (s.admitAt settings clientKey now).outstanding = s.outstanding + 1 := by
  unfold outstanding admitAt
  rw [List.count_append]
  rfl

theorem Sound.admitted (h : s.Sound settings) (hnow : s.clock ≤ now)
    (hroom : ¬s.Reached settings (clientOf clientKey) now) :
    (s.admitAt settings clientKey now).Sound settings where
  ordered := by
    rw [times_admitAt, List.pairwise_append]
    refine ⟨h.ordered, List.pairwise_singleton _ _, fun instant hmem other hother => ?_⟩
    rw [List.mem_singleton.1 hother]
    exact (h.past instant hmem).trans hnow
  past instant hmem := by
    rw [times_admitAt, List.mem_append, List.mem_singleton] at hmem
    rcases hmem with hmem | rfl
    · exact (h.past instant hmem).trans hnow
    · exact le_rfl
  keys := Dict.nodup_keys_set (h.keys.sublist keys_pruneClients)
  clients client := by
    change (Dict.get (Dict.set _ _ _) client).getD [] = prune (settings.windowStart now) _
    rw [Dict.get_set, timesOf_admitAt]
    split
    · rename_i hsame
      rw [Option.getD_some, prune_concat (windowStart_lt now), hsame]
    · exact (h.logs hnow).2 client
  global := by
    rw [times_admitAt]
    exact (prune_concat (windowStart_lt now)).symm
  inFlight := outstanding_admitAt.symm
  limitedClients client := by
    rw [timesOf_admitAt]
    split
    · rename_i hsame
      rw [hsame] at hroom
      exact limited_concat (h.limitedClients client) (h.room hroom).1
    · exact h.limitedClients client
  limitedGlobal := by
    rw [times_admitAt]
    exact limited_concat h.limitedGlobal (h.room hroom).2.1
  concurrent := by
    rw [outstanding_admitAt]
    exact (h.room hroom).2.2

theorem count_release {leases : List Bool} {lease : Nat} (h : leases[lease]? = some false) :
    (leases.set lease true).count false = leases.count false - 1 := by
  obtain ⟨hlease, hheld⟩ := List.getElem?_eq_some_iff.1 h
  rw [List.count_set hlease, hheld]
  rfl

theorem Sound.released (h : s.Sound settings) {lease : Nat}
    (hheld : s.leases[lease]? = some false) :
    Sound settings
      { s with leases := s.leases.set lease true, controller := s.controller.release } where
  ordered := h.ordered
  past := h.past
  keys := h.keys
  clients := h.clients
  global := h.global
  inFlight := by
    change s.controller.inFlight - 1 = (s.leases.set lease true).count false
    rw [count_release hheld, h.inFlight, outstanding]
  limitedClients := h.limitedClients
  limitedGlobal := h.limitedGlobal
  concurrent := by
    change (s.leases.set lease true).count false ≤ _
    rw [count_release hheld]
    exact (Nat.sub_le _ _).trans h.concurrent

/-- What a step can do. -/
inductive Stepped (settings : AdmissionSettings) (s : AdmissionProcess) : AdmissionProcess → Prop
  | refused {clientKey : Option Str} {now : Rat} : s.clock ≤ now →
      Stepped settings s { s with controller := s.after settings clientKey now [], clock := now }
  | admitted {clientKey : Option Str} {now : Rat} : s.clock ≤ now →
      ¬s.Reached settings (clientOf clientKey) now →
        Stepped settings s (s.admitAt settings clientKey now)
  | released {lease : Nat} : s.leases[lease]? = some false →
      Stepped settings s
        { s with leases := s.leases.set lease true, controller := s.controller.release }
  | stayed : Stepped settings s s

theorem stepped_of_step (hs : s.Sound settings) {a : ProcessAction}
    (h : s.step settings a = some t) :
    Stepped settings s t := by
  cases a with
  | acquire clientKey now =>
    simp only [step] at h
    split at h
    · cases h
    · rename_i hclock
      have hnow : s.clock ≤ now := le_of_not_gt hclock
      rw [acquire_spec hs hnow, Option.some.injEq] at h
      split at h
      · subst h
        exact .refused hnow
      · rename_i hroom
        subst h
        exact .admitted hnow hroom
  | release lease =>
    obtain ⟨released, hlease, rfl⟩ := Option.map_eq_some_iff.1 h
    cases released with
    | true => exact .stayed
    | false => exact .released hlease

theorem sound_step (hs : s.Sound settings) {a : ProcessAction} (h : s.step settings a = some t) :
    t.Sound settings := by
  cases stepped_of_step hs h with
  | refused hnow => exact hs.refused hnow
  | admitted hnow hroom => exact hs.admitted hnow hroom
  | released hheld => exact hs.released hheld
  | stayed => exact hs

theorem sound_start (clock : Rat) : (start clock).Sound settings where
  ordered := .nil
  past _ hmem := by cases hmem
  keys := .nil
  clients _ := rfl
  global := rfl
  inFlight := rfl
  limitedClients _ := limited_nil
  limitedGlobal := limited_nil
  concurrent := Nat.zero_le _

theorem sound_of_reaches {clock : Rat}
    (h : Reaches (step settings) anyStep (start clock) s) : s.Sound settings :=
  h.invariant (P := fun s => s.Sound settings) (fun _ _ _ hs _ hstep => sound_step hs hstep)
    (sound_start clock)

theorem released_of_step (hs : s.Sound settings) {a : ProcessAction} {lease : Nat}
    (hreleased : s.leases[lease]? = some true) (h : s.step settings a = some t) :
    t.leases[lease]? = some true := by
  cases stepped_of_step hs h with
  | refused => exact hreleased
  | admitted =>
    obtain ⟨hlease, -⟩ := List.getElem?_eq_some_iff.1 hreleased
    exact (List.getElem?_append_left hlease).trans hreleased
  | released =>
    change (s.leases.set _ true)[lease]? = some true
    rw [List.getElem?_set]
    obtain ⟨hlease, -⟩ := List.getElem?_eq_some_iff.1 hreleased
    split
    · rename_i hsame
      rw [hsame, if_pos hlease]
    · exact hreleased
  | stayed => exact hreleased

/-- A lease that was released stays so, and its release does nothing any more. -/
theorem release_again {lease : Nat} {u : AdmissionProcess} (hs : s.Sound settings)
    (h : s.step settings (.release lease) = some t) (hrun : Reaches (step settings) anyStep t u) :
    u.step settings (.release lease) = some u := by
  have hfirst : t.leases[lease]? = some true := by
    obtain ⟨released, hlease, rfl⟩ := Option.map_eq_some_iff.1 h
    cases released with
    | true => exact hlease
    | false =>
      obtain ⟨hlength, -⟩ := List.getElem?_eq_some_iff.1 hlease
      change (s.leases.set lease true)[lease]? = some true
      rw [List.getElem?_set_self hlength]
  have hlater : u.leases[lease]? = some true :=
    hrun.invariant_of (I := fun s => s.Sound settings)
      (P := fun s => s.leases[lease]? = some true) (fun _ _ _ hs _ hstep => sound_step hs hstep)
      (fun _ _ _ hs hreleased _ hstep => released_of_step hs hreleased hstep) (sound_step hs h)
      hfirst
  change (u.leases[lease]?).map _ = some u
  rw [hlater]
  rfl

/-- The half-open windows of the configured length that begin at an instant. -/
def windows (settings : AdmissionSettings) (begins : Rat) : List (Rat → Bool) :=
  [fun instant => begins < instant ∧ instant ≤ begins + settings.windowSeconds,
    fun instant => begins ≤ instant ∧ instant < begins + settings.windowSeconds]

theorem narrow_windows {begins : Rat} :
    ∀ window ∈ windows settings begins, Narrow settings.windowStart window := by
  simp only [windows, List.forall_mem_cons, Narrow, AdmissionSettings.windowStart,
    decide_eq_true_eq]
  refine ⟨?_, ?_, fun _ hmem => absurd hmem List.not_mem_nil⟩
  · rintro first second ⟨hfirst, -⟩ ⟨-, hsecond⟩
    linarith
  · rintro first second ⟨hfirst, -⟩ ⟨-, hsecond⟩
    linarith

/-- What the limits promise of a process. -/
structure Lawful (settings : AdmissionSettings) (s : AdmissionProcess) : Prop where
  perClient : ∀ begins, ∀ window ∈ windows settings begins, ∀ client,
    (s.timesOf client).countP window ≤ settings.perIp
  overall : ∀ begins, ∀ window ∈ windows settings begins, s.times.countP window ≤ settings.global
  inFlight : s.controller.inFlight = s.outstanding
  concurrent : s.outstanding ≤ settings.maxConcurrentAttempts
  refused : ∀ clientKey now, s.clock ≤ now →
    ((s.controller.acquire settings clientKey now).1 = false ↔
      s.Reached settings (clientOf clientKey) now)
  releasedOnce : ∀ lease t u, s.step settings (.release lease) = some t →
    Reaches (step settings) anyStep t u → u.step settings (.release lease) = some u

theorem admission_window_law {clock : Rat}
    (h : Reaches (step settings) anyStep (start clock) s) : s.Lawful settings := by
  have hs := sound_of_reaches h
  refine ⟨?_, ?_, hs.inFlight, hs.concurrent, ?_, ?_⟩
  · intro begins window hwindow client
    exact hs.limitedClients client window (narrow_windows window hwindow)
  · intro begins window hwindow
    exact hs.limitedGlobal window (narrow_windows window hwindow)
  · intro clientKey now hnow
    rw [acquire_spec hs hnow]
    split
    · rename_i hreached
      exact ⟨fun _ => hreached, fun _ => rfl⟩
    · rename_i hroom
      exact ⟨(fun hgranted => by cases hgranted), fun hreached => absurd hreached hroom⟩
  · intro lease t u hstep hrun
    exact release_again hs hstep hrun

end AdmissionProcess

end steps

/-- One attempt in a window, one at a time. -/
def tightSettings : AdmissionSettings :=
  ⟨50, 1, 2, 1, by decide, by decide, by decide, by decide⟩

/-- The second attempt comes while the first one is in flight, and the third one a window later. -/
def threeAttempts : List ProcessAction :=
  [.acquire none 5, .acquire (some (Str.of "unknown-client")) 6, .release 0, .release 0,
    .acquire none 65]

theorem admission_window_law_attempts : ∃ s,
    Reaches (AdmissionProcess.step tightSettings) anyStep (AdmissionProcess.start 0) s ∧
      s.leases = [true, false] ∧ s.Lawful tightSettings := by
  have hrun : (exec (AdmissionProcess.step tightSettings) (AdmissionProcess.start 0)
      threeAttempts).any (fun s => s.leases == [true, false]) = true := by
    decide +kernel
  obtain ⟨s, hs, hleases⟩ := (Option.any_eq_true _ _).1 hrun
  exact ⟨s, reaches_of_exec hs, eq_of_beq hleases,
    AdmissionProcess.admission_window_law (reaches_of_exec hs)⟩

end FounderOs.Auth
