import FounderOs.Foundation.Calendar
import FounderOs.Foundation.SortedSet

namespace FounderOs.Recovery

open Calendar SortedSet

/-- The counts of a policy, none of them zero. -/
structure RetentionPolicy where
  daily : Nat
  weekly : Nat
  monthly : Nat
  daily_pos : 0 < daily
  weekly_pos : 0 < weekly
  monthly_pos : 0 < monthly

/-- An artifact with its receipt; the time is in microseconds, in UTC. -/
structure OffsiteBackup where
  name : Str
  createdAt : Nat
  deriving DecidableEq

def dayLength : Nat := 24 * 60 * 60 * 1000000

def OffsiteBackup.day (backup : OffsiteBackup) : Nat := backup.createdAt / dayLength

/-- The order of the keys `(created_at, artifact.name)`, the greatest first. -/
def newestFirst (a b : OffsiteBackup) : Bool :=
  lex (fun s t => decide (s ≤ t)) Str.le (b.createdAt, b.name) (a.createdAt, a.name)

/-- The days, weeks and months that have a backup. -/
structure Slots where
  daily : List Nat
  weekly : List Nat
  monthly : List Nat

section retained

variable (policy : RetentionPolicy) (now : Nat)

def inDailyWindow (backup : OffsiteBackup) : Bool :=
  now - backup.createdAt ≤ max policy.daily 1 * dayLength

def inWeeklyWindow (backup : OffsiteBackup) : Bool :=
  now - backup.createdAt ≤ max (policy.daily + policy.weekly * 7) 1 * dayLength

def retainLoop : Slots → List OffsiteBackup → List Str
  | _, [] => []
  | slots, item :: rest =>
    if now < item.createdAt then item.name :: retainLoop slots rest
    else if inDailyWindow policy now item = true ∧
        (item.day ∈ slots.daily ∨ slots.daily.length < policy.daily) then
      if item.day ∉ slots.daily ∧ slots.daily.length < policy.daily then
        item.name :: retainLoop { slots with daily := item.day :: slots.daily } rest
      else retainLoop slots rest
    else if inWeeklyWindow policy now item = true then
      if weekOf item.day ∉ slots.weekly ∧ slots.weekly.length < policy.weekly then
        item.name :: retainLoop { slots with weekly := weekOf item.day :: slots.weekly } rest
      else retainLoop slots rest
    else if monthOf item.day ∉ slots.monthly ∧ slots.monthly.length < policy.monthly then
      item.name :: retainLoop { slots with monthly := monthOf item.day :: slots.monthly } rest
    else retainLoop slots rest

def retainedBackupPaths (backups : List OffsiteBackup) : List Str :=
  let ordered := backups.mergeSort newestFirst
  (ordered.head?.map (·.name)).toList ++ retainLoop policy now ⟨[], [], []⟩ ordered

/-- What is left after `prune_offsite_backups` with `apply`. -/
def pruneOffsiteBackups (backups : List OffsiteBackup) : List OffsiteBackup :=
  backups.filter fun backup => (retainedBackupPaths policy now backups).contains backup.name

end retained

section runs

/-- From its first day on, a run has some exports every day, at times before the prune of that day. An
export does not take the name of another one. -/
structure BackupRun where
  start : Nat
  pruneAt : Nat
  exports : Nat → List OffsiteBackup
  pruneAt_lt : pruneAt < dayLength
  exports_ne_nil : ∀ day, exports day ≠ []
  exports_nodup : ∀ day, (exports day).Nodup
  exported : ∀ day, ∀ backup ∈ exports day,
    day * dayLength ≤ backup.createdAt ∧ backup.createdAt < day * dayLength + pruneAt
  names : ∀ day day', ∀ backup ∈ exports day, ∀ backup' ∈ exports day',
    backup.name = backup'.name → backup = backup'

namespace BackupRun

variable (run : BackupRun) (policy : RetentionPolicy)

def pruneTime (day : Nat) : Nat := day * dayLength + run.pruneAt

/-- What there is after so many days. -/
def after : Nat → List OffsiteBackup
  | 0 => []
  | days + 1 =>
    pruneOffsiteBackups policy (run.pruneTime (run.start + days))
      (after days ++ run.exports (run.start + days))

def beforePrune (days : Nat) : List OffsiteBackup :=
  run.after policy days ++ run.exports (run.start + days)

end BackupRun

/-- Of the numbers that are so, the `count` greatest. -/
def MostRecent (count : Nat) (P : Nat → Prop) (number : Nat) : Prop :=
  P number ∧ ∀ later : List Nat, later.Nodup → (∀ other ∈ later, P other ∧ number < other) →
    later.length < count

section kept

variable (run : BackupRun) (policy : RetentionPolicy) (days : Nat)

/-- A day of the run so far. -/
def BackupRun.HasDay (day : Nat) : Prop := run.start ≤ day ∧ day ≤ run.start + days

def BackupRun.Older (window day : Nat) : Prop :=
  ∀ backup ∈ run.exports day,
    window * dayLength < run.pruneTime (run.start + days) - backup.createdAt

/-- The month has ended before the weekly window begins. -/
def BackupRun.BeforeWeekly (month : Nat) : Prop :=
  firstOfMonth (month + 1) * dayLength + (policy.daily + 7 * policy.weekly) * dayLength ≤
    run.pruneTime (run.start + days)

/-- What is to be there after the prune of the last day. -/
structure BackupRun.Keeps : Prop where
  newest : ∃ backup ∈ run.after policy (days + 1), ∀ other ∈ run.beforePrune policy days,
    newestFirst backup other = true
  daily : ∀ day, run.HasDay days day → run.start + days < day + policy.daily →
    ∃ backup ∈ run.after policy (days + 1), backup.day = day
  weekly : ∀ week, MostRecent policy.weekly (fun week => ∃ day, run.HasDay days day ∧
      weekOf day = week ∧ run.Older days policy.daily day ∧
        ¬run.Older days (policy.daily + 7 * policy.weekly) day) week →
    ∃ backup ∈ run.after policy (days + 1), weekOf backup.day = week
  monthly : ∀ month, MostRecent policy.monthly (fun month =>
      (∃ day, run.HasDay days day ∧ monthOf day = month) ∧ run.BeforeWeekly policy days month)
      month →
    ∃ backup ∈ run.after policy (days + 1), monthOf backup.day = month
  settled : pruneOffsiteBackups policy (run.pruneTime (run.start + days))
    (run.after policy (days + 1)) = run.after policy (days + 1)

end kept

end runs

end FounderOs.Recovery
