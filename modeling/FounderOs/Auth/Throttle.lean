import FounderOs.Foundation.Transition
import Mathlib.Logic.Function.Basic

namespace FounderOs.Auth

open Transition

structure ThrottleSettings where
  maxFailedAttempts : Int
  lockoutMinutes : Int
  attemptRetentionHours : Int
  attemptRetentionHours_pos : 1 ≤ attemptRetentionHours

/-- Instants and durations are microseconds. -/
def ThrottleSettings.lockout (settings : ThrottleSettings) : Int := 60000000 * settings.lockoutMinutes

def ThrottleSettings.retention (settings : ThrottleSettings) : Int :=
  3600000000 * settings.attemptRetentionHours

abbrev Email := String

/-- A row of `login_attempts`. -/
structure LoginAttempt where
  failedCount : Int
  lockedUntil : Option Int
  lastAttemptAt : Int
  updatedAt : Int
  deriving DecidableEq, Repr

/-- The rows by their normalized email. -/
abbrev LoginAttempts := Email → Option LoginAttempt

def lockedUntil (attempts : LoginAttempts) (email : Email) (now : Int) : Option Int :=
  ((attempts email).bind LoginAttempt.lockedUntil).filter (now < ·)

variable (settings : ThrottleSettings)

def firstFailure (now : Int) : LoginAttempt where
  failedCount := 1
  lockedUntil := if settings.maxFailedAttempts ≤ 1 then some (now + settings.lockout) else none
  lastAttemptAt := now
  updatedAt := now

def nextFailedCount (row : LoginAttempt) (now : Int) : Int :=
  if row.lockedUntil.any (· ≤ now) then 1 else row.failedCount + 1

def nextLockedUntil (row : LoginAttempt) (now : Int) : Option Int :=
  if row.lockedUntil.any (now < ·) then row.lockedUntil
  else if settings.maxFailedAttempts ≤ nextFailedCount row now then some (now + settings.lockout)
  else none

def failedAgain (row : LoginAttempt) (now : Int) : LoginAttempt where
  failedCount := nextFailedCount row now
  lockedUntil := nextLockedUntil settings row now
  lastAttemptAt := now
  updatedAt := now

def deleteStale (attempts : LoginAttempts) (now : Int) : LoginAttempts := fun email =>
  (attempts email).filter (fun row => !decide (row.updatedAt < now - settings.retention))

/-- `cleanupClaimed` is the answer of `_claim_stale_cleanup`. -/
def recordFailure (attempts : LoginAttempts) (email : Email) (cleanupClaimed : Bool) (now : Int) :
    LoginAttempts :=
  let attempts := if cleanupClaimed then deleteStale settings attempts now else attempts
  Function.update attempts email (some
    (match attempts email with
    | none => firstFailure settings now
    | some row => failedAgain settings row now))

def reset (attempts : LoginAttempts) (email : Email) (now : Int) : LoginAttempts :=
  Function.update attempts email ((attempts email).map fun row =>
    { row with failedCount := 0, lockedUntil := none, updatedAt := now })

/-- History of one email: its failures since the last reset or the last lock that ran out, and the
lock that its last failure left. -/
structure Tally where
  failures : Nat
  lock : Option Int
  deriving DecidableEq, Repr

def Tally.fail (tally : Tally) (now : Int) (lock : Option Int) : Tally :=
  ⟨if tally.lock.any (· ≤ now) then 1 else tally.failures + 1, lock⟩

structure ThrottleWorld where
  attempts : LoginAttempts
  now : Int
  tallies : Email → Tally

def noAttempts (start : Int) : ThrottleWorld := ⟨fun _ => none, start, fun _ => ⟨0, none⟩⟩

/-- `cleanupAuthArtifacts` deletes sessions, setup tokens and invites only. -/
inductive ThrottleAction where
  | recordFailure (email : Email) (cleanupClaimed : Bool) (now : Int)
  | reset (email : Email) (now : Int)
  | cleanupAuthArtifacts (now : Int)
  deriving DecidableEq, Repr

def ThrottleAction.now : ThrottleAction → Int
  | .recordFailure _ _ now | .reset _ now | .cleanupAuthArtifacts now => now

def throttleStep (s : ThrottleWorld) (a : ThrottleAction) : Option ThrottleWorld :=
  if a.now < s.now then none
  else
    match a with
    | .recordFailure email cleanupClaimed now =>
      let attempts := recordFailure settings s.attempts email cleanupClaimed now
      some {
        attempts := attempts
        now := now
        tallies := Function.update s.tallies email
          ((s.tallies email).fail now ((attempts email).bind LoginAttempt.lockedUntil)) }
    | .reset email now =>
      some {
        attempts := reset s.attempts email now
        now := now
        tallies := Function.update s.tallies email ⟨0, none⟩ }
    | .cleanupAuthArtifacts now => some { s with now := now }

abbrev ThrottleRun (s : ThrottleWorld) : Prop :=
  ∃ start, Reaches (throttleStep settings) anyStep (noAttempts start) s

structure ThrottleLaw : Prop where
  locked_after_threshold : ∀ s, ThrottleRun settings s → ∀ email until',
    (s.attempts email).bind LoginAttempt.lockedUntil = some until' →
      settings.maxFailedAttempts ≤ (s.tallies email).failures
  active_lock_kept : ∀ s a t, ThrottleRun settings s → throttleStep settings s a = some t →
    ∀ email until', lockedUntil s.attempts email a.now = some until' →
      (∀ now, a ≠ .reset email now) → lockedUntil t.attempts email a.now = some until'
  afresh_after_expiry : ∀ s email cleanupClaimed now t until', ThrottleRun settings s →
    throttleStep settings s (.recordFailure email cleanupClaimed now) = some t →
      (s.tallies email).lock = some until' → until' ≤ now →
        (t.attempts email).map LoginAttempt.failedCount = some 1

structure LoginAttempt.Agrees (row : LoginAttempt) (tally : Tally) : Prop where
  counted : row.failedCount ≤ tally.failures
  lock : row.lockedUntil = tally.lock
  threshold : row.lockedUntil.isSome = true → settings.maxFailedAttempts ≤ row.failedCount

def Tallied (s : ThrottleWorld) : Prop :=
  ∀ email row, s.attempts email = some row → row.Agrees settings (s.tallies email)

/-- How long a lock can run after the last write of its row. -/
def Spanned (s : ThrottleWorld) : Prop :=
  ∀ email row, s.attempts email = some row →
    row.updatedAt ≤ s.now ∧
      ∀ until', row.lockedUntil = some until' → until' ≤ row.updatedAt + settings.lockout

variable {settings} {s t : ThrottleWorld} {a : ThrottleAction} {attempts : LoginAttempts}
  {row : LoginAttempt} {tally : Tally} {email other : Email} {cleanupClaimed : Bool}
  {now until' : Int}

theorem deleteStale_some (h : deleteStale settings attempts now email = some row) :
    attempts email = some row := (Option.filter_eq_some_iff.1 h).1

theorem claimed_some
    (h : (if cleanupClaimed then deleteStale settings attempts now else attempts) email = some row) :
    attempts email = some row := by
  split at h
  · exact deleteStale_some h
  · exact h

theorem agrees_firstFailure :
    (firstFailure settings now).Agrees settings
      (tally.fail now (firstFailure settings now).lockedUntil) where
  counted := by
    simp only [firstFailure, Tally.fail]
    split <;> omega
  lock := rfl
  threshold h := by
    simp only [firstFailure] at h ⊢
    split at h
    · assumption
    · cases h

theorem agrees_failedAgain (h : row.Agrees settings tally) :
    (failedAgain settings row now).Agrees settings
      (tally.fail now (failedAgain settings row now).lockedUntil) where
  counted := by
    simp only [failedAgain, nextFailedCount, Tally.fail, ← h.lock]
    have hcounted := h.counted
    split <;> omega
  lock := rfl
  threshold hlocked := by
    simp only [failedAgain, nextLockedUntil] at hlocked ⊢
    split at hlocked
    · rename_i hactive
      have hthreshold := h.threshold hlocked
      have hrunning : row.lockedUntil.any (· ≤ now) = false := by
        cases hlock : row.lockedUntil with
        | none => rfl
        | some until' => simpa [hlock] using hactive
      rw [nextFailedCount, if_neg (by simp [hrunning])]
      omega
    · split at hlocked
      · assumption
      · cases hlocked

theorem tallied_step (h : Tallied settings s) (hstep : throttleStep settings s a = some t) :
    Tallied settings t := by
  unfold throttleStep at hstep
  split at hstep
  · cases hstep
  cases a with
  | recordFailure email cleanupClaimed now =>
    obtain rfl := Option.some.inj hstep
    intro other row hrow
    by_cases hother : other = email
    · subst hother
      simp only [recordFailure, Function.update_self, Option.bind_some,
        Option.some.injEq] at hrow ⊢
      subst hrow
      split
      · exact agrees_firstFailure
      · rename_i before hbefore
        exact agrees_failedAgain (h other before (claimed_some hbefore))
    · simp only [recordFailure, Function.update_of_ne hother] at hrow ⊢
      exact h other row (claimed_some hrow)
  | reset email now =>
    obtain rfl := Option.some.inj hstep
    intro other row hrow
    by_cases hother : other = email
    · subst hother
      simp only [reset, Function.update_self, Option.map_eq_some_iff] at hrow ⊢
      obtain ⟨before, -, rfl⟩ := hrow
      exact ⟨by simp, rfl, by simp⟩
    · simp only [reset, Function.update_of_ne hother] at hrow ⊢
      exact h other row hrow
  | cleanupAuthArtifacts now =>
    obtain rfl := Option.some.inj hstep
    exact h

theorem spanned_failedAgain
    (h : ∀ until', row.lockedUntil = some until' → until' ≤ row.updatedAt + settings.lockout)
    (hnow : row.updatedAt ≤ now) (hlock : (failedAgain settings row now).lockedUntil = some until') :
    until' ≤ now + settings.lockout := by
  simp only [failedAgain, nextLockedUntil] at hlock
  split at hlock
  · have huntil := h until' hlock
    omega
  · split at hlock
    · obtain rfl := Option.some.inj hlock
      exact Int.le_refl _
    · cases hlock

theorem spanned_step (h : Spanned settings s) (hstep : throttleStep settings s a = some t) :
    Spanned settings t := by
  unfold throttleStep at hstep
  split at hstep
  · cases hstep
  rename_i hnow
  cases a with
  | recordFailure email cleanupClaimed now =>
    obtain rfl := Option.some.inj hstep
    simp only [ThrottleAction.now] at hnow
    intro other row hrow
    by_cases hother : other = email
    · subst hother
      simp only [recordFailure, Function.update_self, Option.some.injEq] at hrow ⊢
      subst hrow
      split
      · refine ⟨Int.le_refl now, fun until' hlock => ?_⟩
        simp only [firstFailure] at hlock ⊢
        split at hlock
        · exact Int.le_of_eq (Option.some.inj hlock).symm
        · cases hlock
      · rename_i before hbefore
        obtain ⟨hupdated, hspan⟩ := h other before (claimed_some hbefore)
        have hbefore : before.updatedAt ≤ now := by omega
        exact ⟨Int.le_refl now, fun until' hlock => spanned_failedAgain hspan hbefore hlock⟩
    · simp only [recordFailure, Function.update_of_ne hother] at hrow ⊢
      obtain ⟨hupdated, hspan⟩ := h other row (claimed_some hrow)
      exact ⟨by omega, hspan⟩
  | reset email now =>
    obtain rfl := Option.some.inj hstep
    simp only [ThrottleAction.now] at hnow
    intro other row hrow
    by_cases hother : other = email
    · subst hother
      simp only [reset, Function.update_self, Option.map_eq_some_iff] at hrow ⊢
      obtain ⟨before, -, rfl⟩ := hrow
      exact ⟨Int.le_refl now, by simp⟩
    · simp only [reset, Function.update_of_ne hother] at hrow ⊢
      obtain ⟨hupdated, hspan⟩ := h other row hrow
      exact ⟨by omega, hspan⟩
  | cleanupAuthArtifacts now =>
    obtain rfl := Option.some.inj hstep
    simp only [ThrottleAction.now] at hnow
    intro other row hrow
    obtain ⟨hupdated, hspan⟩ := h other row hrow
    exact ⟨by dsimp only; omega, hspan⟩

theorem tallied_run (h : ThrottleRun settings s) : Tallied settings s := by
  obtain ⟨start, hreaches⟩ := h
  exact hreaches.invariant (fun _ _ _ hs _ hstep => tallied_step hs hstep)
    (fun _ _ hrow => by cases hrow)

theorem spanned_run (h : ThrottleRun settings s) : Spanned settings s := by
  obtain ⟨start, hreaches⟩ := h
  exact hreaches.invariant (fun _ _ _ hs _ hstep => spanned_step hs hstep)
    (fun _ _ hrow => by cases hrow)

theorem lockedUntil_eq_some : lockedUntil attempts email now = some until' ↔
    ∃ row, attempts email = some row ∧ row.lockedUntil = some until' ∧ now < until' := by
  simp only [lockedUntil, Option.filter_eq_some_iff, Option.bind_eq_some_iff, decide_eq_true_eq]
  constructor
  · rintro ⟨⟨row, hrow, hlock⟩, hlater⟩
    exact ⟨row, hrow, hlock, hlater⟩
  · rintro ⟨row, hrow, hlock, hlater⟩
    exact ⟨⟨row, hrow, hlock⟩, hlater⟩

/-- A row whose lock still runs is not old enough for the retention cleanup. -/
theorem deleteStale_active (hretention : settings.lockout ≤ settings.retention)
    (hrow : attempts email = some row) (hspan : until' ≤ row.updatedAt + settings.lockout)
    (hactive : now < until') : deleteStale settings attempts now email = some row := by
  have hfresh : ¬row.updatedAt < now - settings.retention := by omega
  simp [deleteStale, hrow, Option.filter_some, hfresh]

theorem active_lock_recordFailure (hretention : settings.lockout ≤ settings.retention)
    (hspan : ∀ row, attempts email = some row →
      ∀ until', row.lockedUntil = some until' → until' ≤ row.updatedAt + settings.lockout)
    (hactive : lockedUntil attempts email now = some until') :
    lockedUntil (recordFailure settings attempts other cleanupClaimed now) email now =
      some until' := by
  obtain ⟨row, hrow, hlock, hlater⟩ := lockedUntil_eq_some.1 hactive
  have hkept : (if cleanupClaimed then deleteStale settings attempts now else attempts) email =
      some row := by
    split
    · exact deleteStale_active hretention hrow (hspan row hrow until' hlock) hlater
    · exact hrow
  rw [lockedUntil_eq_some]
  by_cases hother : email = other
  · subst hother
    refine ⟨failedAgain settings row now, ?_, ?_, hlater⟩
    · simp only [recordFailure, Function.update_self, hkept]
    · simp [failedAgain, nextLockedUntil, hlock, hlater]
  · refine ⟨row, ?_, hlock, hlater⟩
    simp only [recordFailure, Function.update_of_ne hother, hkept]

theorem lockedUntil_reset (hother : email ≠ other) :
    lockedUntil (reset attempts other now) email now = lockedUntil attempts email now := by
  simp [lockedUntil, reset, Function.update_of_ne hother]

/-- Whatever the settings, a lock takes its failures and leaves a fresh counter. -/
theorem failedCount_after_expiry (h : Tallied settings s)
    (hstep : throttleStep settings s (.recordFailure email cleanupClaimed now) = some t)
    (hlock : (s.tallies email).lock = some until') (hexpired : until' ≤ now) :
    (t.attempts email).map LoginAttempt.failedCount = some 1 := by
  unfold throttleStep at hstep
  split at hstep
  · cases hstep
  obtain rfl := Option.some.inj hstep
  simp only [recordFailure, Function.update_self, Option.map_some, Option.some.injEq]
  split
  · rfl
  · rename_i row hrow
    have hrowLock := (h email row (claimed_some hrow)).lock
    simp [failedAgain, nextFailedCount, hrowLock, hlock, hexpired]

theorem active_lock_step (hretention : settings.lockout ≤ settings.retention)
    (h : Spanned settings s) (hstep : throttleStep settings s a = some t)
    (hactive : lockedUntil s.attempts email a.now = some until')
    (hreset : ∀ now, a ≠ .reset email now) : lockedUntil t.attempts email a.now = some until' := by
  unfold throttleStep at hstep
  split at hstep
  · cases hstep
  cases a with
  | recordFailure other cleanupClaimed now =>
    obtain rfl := Option.some.inj hstep
    exact active_lock_recordFailure hretention (fun row hrow => (h email row hrow).2) hactive
  | reset other now =>
    obtain rfl := Option.some.inj hstep
    have hother : email ≠ other := by
      rintro rfl
      exact hreset now rfl
    rwa [← lockedUntil_reset hother] at hactive
  | cleanupAuthArtifacts now =>
    obtain rfl := Option.some.inj hstep
    exact hactive

theorem throttleLaw_of_le (hretention : settings.lockout ≤ settings.retention) :
    ThrottleLaw settings where
  locked_after_threshold s hs email until' hlocked := by
    obtain ⟨row, hrow, hlock⟩ := Option.bind_eq_some_iff.1 hlocked
    have hagrees := tallied_run hs email row hrow
    exact Int.le_trans (hagrees.threshold (by simp [hlock])) hagrees.counted
  active_lock_kept s a t hs hstep email until' hactive hreset :=
    active_lock_step hretention (spanned_run hs) hstep hactive hreset
  afresh_after_expiry s email cleanupClaimed now t until' hs hstep hlock hexpired :=
    failedCount_after_expiry (tallied_run hs) hstep hlock hexpired

theorem ThrottleRun.step (h : ThrottleRun settings s) (hstep : throttleStep settings s a = some t) :
    ThrottleRun settings t := by
  obtain ⟨start, hreaches⟩ := h
  exact ⟨start, hreaches.tail trivial hstep⟩

theorem throttleStep_recordFailure (settings : ThrottleSettings) (email : Email)
    (cleanupClaimed : Bool) (hnow : s.now ≤ now) :
    ∃ t, throttleStep settings s (.recordFailure email cleanupClaimed now) = some t ∧ t.now = now ∧
      t.attempts = recordFailure settings s.attempts email cleanupClaimed now := by
  exact ⟨_, if_neg (Int.not_lt.2 hnow), rfl, rfl⟩

theorem failedAgain_same_instant {n : Nat} (hlockout : 0 < settings.lockout) :
    failedAgain settings ⟨n, if settings.maxFailedAttempts ≤ n then some settings.lockout else none,
      0, 0⟩ 0 = ⟨(n + 1 : Nat), if settings.maxFailedAttempts ≤ (n + 1 : Nat) then
        some settings.lockout else none, 0, 0⟩ := by
  by_cases hlocked : settings.maxFailedAttempts ≤ n
  · have hmore : settings.maxFailedAttempts ≤ (n + 1 : Nat) := by omega
    have hrunning : ¬settings.lockout ≤ 0 := by omega
    simp only [failedAgain, nextFailedCount, nextLockedUntil, if_pos hlocked, if_pos hmore]
    simp [hlockout, hrunning]
  · simp [failedAgain, nextFailedCount, nextLockedUntil, hlocked]

/-- Failures of one email at one instant, counted up to the threshold and past it. -/
theorem failures_at_once (hlockout : 0 < settings.lockout) (n : Nat) :
    ∃ s, ThrottleRun settings s ∧ s.now = 0 ∧ s.attempts "a" = some
      ⟨(n + 1 : Nat), if settings.maxFailedAttempts ≤ (n + 1 : Nat) then some settings.lockout
        else none, 0, 0⟩ := by
  induction n with
  | zero =>
    have hstart : ThrottleRun settings (noAttempts 0) := ⟨0, .refl _⟩
    have hnow : (noAttempts 0).now ≤ 0 := Int.le_refl 0
    obtain ⟨t, hstep, htnow, hattempts⟩ := throttleStep_recordFailure settings "a" false hnow
    refine ⟨t, hstart.step hstep, htnow, ?_⟩
    simp [hattempts, recordFailure, noAttempts, firstFailure]
  | succ n ih =>
    obtain ⟨s, hs, hnow, hrow⟩ := ih
    obtain ⟨t, hstep, htnow, hattempts⟩ :=
      throttleStep_recordFailure settings "a" false (Int.le_of_eq hnow)
    refine ⟨t, hs.step hstep, htnow, ?_⟩
    simp only [hattempts, recordFailure, Function.update_self, Bool.false_eq_true, if_false, hrow]
    rw [failedAgain_same_instant hlockout]

theorem le_of_throttleLaw (h : ThrottleLaw settings) : settings.lockout ≤ settings.retention := by
  by_contra hlong
  have hhours := settings.attemptRetentionHours_pos
  have hgap : settings.retention + 1 < settings.lockout := by
    simp only [ThrottleSettings.retention, ThrottleSettings.lockout] at hlong ⊢
    omega
  have hretention : 0 < settings.retention := by
    simp only [ThrottleSettings.retention]
    omega
  have hpos : 0 < settings.lockout := by omega
  obtain ⟨s, hs, hnow, hrow⟩ := failures_at_once hpos settings.maxFailedAttempts.toNat
  rw [if_pos (by omega)] at hrow
  have hactive : lockedUntil s.attempts "a" (settings.retention + 1) = some settings.lockout :=
    lockedUntil_eq_some.2 ⟨_, hrow, rfl, hgap⟩
  have hlater : s.now ≤ settings.retention + 1 := by omega
  obtain ⟨t, hstep, -, hattempts⟩ := throttleStep_recordFailure settings "b" true hlater
  have hkept := h.active_lock_kept s _ t hs hstep "a" settings.lockout hactive (by simp)
  have hstale : settings.retention < settings.retention + 1 := by omega
  have hdeleted : t.attempts "a" = none := by
    simp [hattempts, recordFailure, deleteStale, hrow, Option.filter_some, hstale]
  simp [lockedUntil, hdeleted] at hkept

theorem login_throttle_law_iff (settings : ThrottleSettings) :
    ThrottleLaw settings ↔ settings.lockoutMinutes ≤ 60 * settings.attemptRetentionHours := by
  have hsame : settings.lockout ≤ settings.retention ↔
      settings.lockoutMinutes ≤ 60 * settings.attemptRetentionHours := by
    simp only [ThrottleSettings.lockout, ThrottleSettings.retention]
    omega
  rw [← hsame]
  exact ⟨le_of_throttleLaw, throttleLaw_of_le⟩

/-- A lock of 25 hours and a retention of 24. -/
def longLockout : ThrottleSettings := ⟨5, 1500, 24, by decide⟩

def lockedOut : List ThrottleAction := List.replicate 5 (.recordFailure "a" false 0)

/-- The first failure after 24 hours, of any email, deletes the row of the lock. -/
def otherFailure : ThrottleAction := .recordFailure "b" true 86400000001

theorem retention_removes_active_lock : ¬ThrottleLaw longLockout := by
  intro h
  have hrun : (exec (throttleStep longLockout) (noAttempts 0) lockedOut).any (fun s =>
      lockedUntil s.attempts "a" otherFailure.now = some 90000000000 ∧
        ((throttleStep longLockout s otherFailure).map
          (lockedUntil ·.attempts "a" otherFailure.now)) = some none) = true := by
    decide +kernel
  obtain ⟨s, hs, hlocked⟩ := (Option.any_eq_true _ _).1 hrun
  obtain ⟨hactive, hremoved⟩ := of_decide_eq_true hlocked
  obtain ⟨t, ht, hnone⟩ := Option.map_eq_some_iff.1 hremoved
  have hkept := h.active_lock_kept s otherFailure t ⟨0, reaches_of_exec hs⟩ ht "a" 90000000000
    hactive (by simp [otherFailure])
  rw [hnone] at hkept
  cases hkept

end FounderOs.Auth
