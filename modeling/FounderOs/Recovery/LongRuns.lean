import FounderOs.Recovery.Tiers
import Mathlib.Data.Nat.Digits.Defs

namespace FounderOs.Recovery

open Calendar

section stock

variable {run : BackupRun} {policy : RetentionPolicy} {today day : Nat}
  {backups : List OffsiteBackup} {b : OffsiteBackup}

theorem day_of_export (h : b ∈ run.exports day) : b.day = day := by
  obtain ⟨hbegin, hend⟩ := run.exported day b h
  have hlt := run.pruneAt_lt
  refine Nat.div_eq_of_lt_le hbegin ?_
  rw [Nat.succ_mul]
  omega

/-- The age of a backup in whole days tells in which window it is. -/
theorem age_iff (h : b ∈ run.exports b.day) (today window : Nat) :
    run.pruneTime today - b.createdAt ≤ window * dayLength ↔ today < b.day + window := by
  obtain ⟨hbegin, hend⟩ := run.exported b.day b h
  have hlt := run.pruneAt_lt
  simp only [BackupRun.pruneTime, dayLength] at hbegin hend hlt ⊢
  omega

theorem stock_of (hown : ∀ b ∈ backups, b ∈ run.exports b.day) (hle : ∀ b ∈ backups, b.day ≤ today)
    (hnodup : backups.Nodup)
    (hyoung : ∀ b ∈ backups, today < b.day + (policy.daily + policy.weekly * 7))
    (hunbroken : ∀ b ∈ backups, b.day + policy.daily ≤ today → ∀ week, weekOf b.day < week →
      week ≤ weekOf (today - policy.daily) → weekOf (today - policy.daily) < week + policy.weekly →
        ∃ other ∈ backups, other.day + policy.daily ≤ today ∧ weekOf other.day = week) :
    Stock policy today (run.pruneTime today) backups where
  nodup := hnodup
  names b hb b' hb' := run.names b.day b'.day b (hown b hb) b' (hown b' hb')
  past b hb := by
    obtain ⟨-, hend⟩ := run.exported b.day b (hown b hb)
    have hmul := Nat.mul_le_mul_right dayLength (hle b hb)
    unfold BackupRun.pruneTime
    omega
  day_le := hle
  age_iff b hb := age_iff (hown b hb) today
  young := hyoung
  unbroken := hunbroken

end stock

/-- The days whose backup is there before the next day comes: the last ones, then the last of each
week, with the day that has just left the daily tier. -/
def BackupRun.Held (run : BackupRun) (policy : RetentionPolicy) (next day : Nat) : Prop :=
  run.start ≤ day ∧ day < next ∧ (next ≤ day + policy.daily ∨
    (day + policy.daily < next ∧ (day + policy.daily + 1 = next ∨ day % 7 = 6) ∧
      weekOf (next - 1 - policy.daily) < weekOf day + policy.weekly))

structure BackupRun.Stored (run : BackupRun) (policy : RetentionPolicy) (days : Nat) : Prop where
  held : ∀ b ∈ run.after policy days, run.Held policy (run.start + days) b.day
  present : ∀ day, run.Held policy (run.start + days) day → ∃ b ∈ run.after policy days, b.day = day
  once : ∀ b ∈ run.after policy days, ∀ b' ∈ run.after policy days, b.day = b'.day → b = b'
  own : ∀ b ∈ run.after policy days, b ∈ run.exports b.day
  nodup : (run.after policy days).Nodup

section step

variable {run : BackupRun} {policy : RetentionPolicy} {days : Nat} {b : OffsiteBackup}

theorem held_young {next day : Nat} (h : run.Held policy next day) :
    next < day + (policy.daily + policy.weekly * 7) := by
  obtain ⟨-, -, hday | ⟨hold, hlast, hweek⟩⟩ := h
  · have hpos := policy.weekly_pos
    omega
  · have hpos := policy.weekly_pos
    unfold weekOf at hweek
    omega

/-- Each week between one that is held and the newest of the tier has its last day held. -/
theorem held_unbroken {today day week : Nat} (hstart : run.start ≤ day) (hweek : weekOf day < week)
    (hlast : week ≤ weekOf (today - policy.daily))
    (hroom : weekOf (today - policy.daily) < week + policy.weekly) :
    ∃ other, run.Held policy today other ∧ run.Held policy (today + 1) other ∧
      other + policy.daily ≤ today ∧ weekOf other = week := by
  have hpos := policy.daily_pos
  unfold weekOf at hweek hlast hroom
  have hother : weekOf (min (7 * week + 6) (today - policy.daily)) = week := by
    unfold weekOf
    omega
  refine ⟨min (7 * week + 6) (today - policy.daily), ⟨by omega, by omega, ?_⟩,
    ⟨by omega, by omega, .inr ⟨by omega, by omega, ?_⟩⟩, by omega, hother⟩
  · by_cases hlate : today - policy.daily ≤ 7 * week + 6
    · exact .inl (by omega)
    · refine .inr ⟨by omega, .inr (by omega), ?_⟩
      rw [hother]
      unfold weekOf
      omega
  · rw [hother]
    unfold weekOf
    omega

theorem before_mem {today : Nat} (htoday : run.start + days = today) :
    b ∈ run.beforePrune policy days ↔ b ∈ run.after policy days ∨ b ∈ run.exports today := by
  rw [BackupRun.beforePrune, List.mem_append, htoday]

theorem before_own (hstored : run.Stored policy days) (hb : b ∈ run.beforePrune policy days) :
    b ∈ run.exports b.day ∧ b.day ≤ run.start + days := by
  rcases (before_mem rfl).1 hb with hb | hb
  · exact ⟨hstored.own b hb, Nat.le_of_lt (hstored.held b hb).2.1⟩
  · rw [day_of_export hb]
    exact ⟨hb, Nat.le_refl _⟩

theorem after_of_lt (hb : b ∈ run.beforePrune policy days) (hlt : b.day < run.start + days) :
    b ∈ run.after policy days := by
  rcases (before_mem rfl).1 hb with hb | hb
  · exact hb
  · exact absurd (day_of_export hb) (Nat.ne_of_lt hlt)

theorem stock_before (hstored : run.Stored policy days) :
    Stock policy (run.start + days) (run.pruneTime (run.start + days))
      (run.beforePrune policy days) := by
  refine stock_of (fun b hb => (before_own hstored hb).1) (fun b hb => (before_own hstored hb).2)
    ?_ ?_ ?_
  · refine List.nodup_append.2 ⟨hstored.nodup, run.exports_nodup _, fun b hb c hc hsame => ?_⟩
    have hlt := (hstored.held b hb).2.1
    rw [hsame, day_of_export hc] at hlt
    exact absurd hlt (Nat.lt_irrefl _)
  · intro b hb
    rcases (before_mem rfl).1 hb with hb | hb
    · exact held_young (hstored.held b hb)
    · rw [day_of_export hb]
      have hpos := policy.daily_pos
      omega
  · intro b hb hold week hweek hlast hroom
    have hpos := policy.daily_pos
    have hheld := hstored.held b (after_of_lt hb (by omega))
    obtain ⟨other, hother, -, hotherOld, rfl⟩ := held_unbroken hheld.1 hweek hlast hroom
    obtain ⟨c, hc, rfl⟩ := hstored.present other hother
    exact ⟨c, (before_mem rfl).2 (.inl hc), hotherOld, rfl⟩

theorem before_once (hstored : run.Stored policy days) {c : OffsiteBackup}
    (hb : b ∈ run.beforePrune policy days) (hc : c ∈ run.beforePrune policy days)
    (hsame : b.day = c.day) (hlt : b.day < run.start + days) : b = c :=
  hstored.once b (after_of_lt hb hlt) c (after_of_lt hc (hsame ▸ hlt)) hsame

theorem today_before (run : BackupRun) (policy : RetentionPolicy) (days : Nat) :
    ∃ b ∈ run.beforePrune policy days, b.day = run.start + days := by
  obtain ⟨b, hb⟩ := List.exists_mem_of_ne_nil _ (run.exports_ne_nil (run.start + days))
  exact ⟨b, (before_mem rfl).2 (.inr hb), day_of_export hb⟩

/-- The backups that the prune keeps are those of the days that are to be held. -/
theorem held_of_chosen (hstored : run.Stored policy days) (hb : b ∈ run.beforePrune policy days)
    (hchosen : Chosen policy (run.start + days) (run.beforePrune policy days) b) :
    run.Held policy (run.start + days + 1) b.day := by
  have hpos := policy.daily_pos
  obtain ⟨hown, hle⟩ := before_own hstored hb
  rcases hchosen with ⟨hday, -⟩ | ⟨hold, hnewest, hweek⟩
  · refine ⟨?_, by omega, .inl (by omega)⟩
    rcases (before_mem rfl).1 hb with hb | hb
    · exact (hstored.held b hb).1
    · rw [day_of_export hb]
      exact Nat.le_add_right _ _
  · have hheld := hstored.held b (after_of_lt hb (by omega))
    refine ⟨hheld.1, by omega, .inr ⟨by omega, ?_, ?_⟩⟩
    · by_contra hmiddle
      -- the next day's backup is there too, in the same week
      have hnext : run.Held policy (run.start + days) (b.day + 1) := by
        obtain ⟨hstart, -, hday | ⟨-, hlast, -⟩⟩ := hheld
        · omega
        · exact ⟨by omega, by omega, .inl (by omega)⟩
      obtain ⟨c, hc, hcday⟩ := hstored.present _ hnext
      have hmem : c ∈ run.beforePrune policy days := (before_mem rfl).2 (.inl hc)
      have hnewer := hnewest c hmem (by omega) (by unfold weekOf; omega)
      have hle := day_le_of_newestFirst hnewer
      omega
    · rw [Nat.add_sub_cancel]
      exact hweek

theorem chosen_of_held (hstored : run.Stored policy days) {day : Nat}
    (hheld : run.Held policy (run.start + days + 1) day) :
    ∃ b ∈ run.beforePrune policy days, b.day = day ∧
      Chosen policy (run.start + days) (run.beforePrune policy days) b := by
  have hpos := policy.daily_pos
  obtain ⟨hstart, hlt, hcases⟩ := hheld
  rcases Nat.lt_or_ge day (run.start + days) with hbefore | htoday
  · rcases hcases with hday | ⟨hold, hlast, hweek⟩
    · obtain ⟨b, hb, rfl⟩ := hstored.present day ⟨hstart, hbefore, .inl (by omega)⟩
      have hb : b ∈ run.beforePrune policy days := (before_mem rfl).2 (.inl hb)
      refine ⟨b, hb, rfl, .inl ⟨by omega, fun other hother hsame => ?_⟩⟩
      rw [before_once hstored hb hother hsame.symm hbefore]
      exact newestFirst_refl other
    · rw [Nat.add_sub_cancel] at hweek
      have hthere : run.Held policy (run.start + days) day := by
        refine ⟨hstart, hbefore, ?_⟩
        by_cases hdue : day + policy.daily = run.start + days
        · exact .inl (by omega)
        · refine .inr ⟨by omega, .inr (by omega), ?_⟩
          unfold weekOf at hweek ⊢
          omega
      obtain ⟨b, hb, rfl⟩ := hstored.present day hthere
      have hb : b ∈ run.beforePrune policy days := (before_mem rfl).2 (.inl hb)
      refine ⟨b, hb, rfl, .inr ⟨by omega, fun other hother hotherOld hsame => ?_, hweek⟩⟩
      rcases Nat.lt_or_ge other.day b.day with hearlier | hlater
      · exact newestFirst_of_day_lt hearlier
      · have hday : b.day = other.day := by
          unfold weekOf at hsame
          omega
        rw [before_once hstored hb hother hday hbefore]
        exact newestFirst_refl other
  · obtain rfl : day = run.start + days := by omega
    obtain ⟨b, hb, hday, hnewest⟩ := exists_newest (P := fun b => b.day = run.start + days)
      (today_before run policy days)
    refine ⟨b, hb, hday, .inl ⟨by omega, fun other hother hsame => ?_⟩⟩
    exact hnewest other hother (hsame.trans hday)

theorem mem_after_succ (hstored : run.Stored policy days) :
    b ∈ run.after policy (days + 1) ↔ b ∈ run.beforePrune policy days ∧
      Chosen policy (run.start + days) (run.beforePrune policy days) b :=
  mem_prune (stock_before hstored) (today_before run policy days)

theorem chosen_once (hstored : run.Stored policy days) {c : OffsiteBackup}
    (hb : b ∈ run.after policy (days + 1)) (hc : c ∈ run.after policy (days + 1))
    (hsame : b.day = c.day) : b = c := by
  obtain ⟨hb, hbchosen⟩ := (mem_after_succ hstored).1 hb
  obtain ⟨hc, hcchosen⟩ := (mem_after_succ hstored).1 hc
  rcases Nat.lt_or_ge b.day (run.start + days) with hlt | hge
  · exact before_once hstored hb hc hsame hlt
  · have hpos := policy.daily_pos
    rcases hbchosen with ⟨-, hbnewest⟩ | ⟨hold, -⟩
    · rcases hcchosen with ⟨-, hcnewest⟩ | ⟨hold, -⟩
      · exact newestFirst_antisymm (hbnewest c hc hsame.symm) (hcnewest b hb hsame)
      · omega
    · omega

theorem stored_step (hstored : run.Stored policy days) : run.Stored policy (days + 1) where
  held b hb := by
    obtain ⟨hbefore, hchosen⟩ := (mem_after_succ hstored).1 hb
    exact held_of_chosen hstored hbefore hchosen
  present day hheld := by
    obtain ⟨b, hbefore, hday, hchosen⟩ := chosen_of_held hstored hheld
    exact ⟨b, (mem_after_succ hstored).2 ⟨hbefore, hchosen⟩, hday⟩
  once b hb c hc hsame := chosen_once hstored hb hc hsame
  own b hb := (before_own hstored ((mem_after_succ hstored).1 hb).1).1
  nodup := (stock_before hstored).nodup.filter _

theorem stored_after (run : BackupRun) (policy : RetentionPolicy) (days : Nat) :
    run.Stored policy days := by
  induction days with
  | zero =>
    refine ⟨fun b hb => absurd hb List.not_mem_nil, fun day hheld => ?_,
      fun b hb => absurd hb List.not_mem_nil, fun b hb => absurd hb List.not_mem_nil,
      List.nodup_nil⟩
    exact absurd hheld.2.1 (Nat.not_lt_of_le hheld.1)
  | succ days ih => exact stored_step ih

/-- A second prune at the same moment finds the same stock. -/
theorem prune_settled (run : BackupRun) (policy : RetentionPolicy) (days : Nat) :
    pruneOffsiteBackups policy (run.pruneTime (run.start + days)) (run.after policy (days + 1)) =
      run.after policy (days + 1) := by
  have hstored := stored_after run policy (days + 1)
  have hbefore := stored_after run policy days
  have hheld (b : OffsiteBackup) (hb : b ∈ run.after policy (days + 1)) :
      run.Held policy (run.start + days + 1) b.day := hstored.held b hb
  have hstock : Stock policy (run.start + days) (run.pruneTime (run.start + days))
      (run.after policy (days + 1)) := by
    refine stock_of hstored.own (fun b hb => Nat.le_of_lt_succ (hheld b hb).2.1) hstored.nodup
      (fun b hb => Nat.lt_of_succ_lt (held_young (hheld b hb))) ?_
    intro b hb hold week hweek hlast hroom
    obtain ⟨other, -, hother, hotherOld, rfl⟩ :=
      held_unbroken (hheld b hb).1 hweek hlast hroom
    obtain ⟨c, hc, rfl⟩ := hstored.present other hother
    exact ⟨c, hc, hotherOld, rfl⟩
  have hpos := policy.daily_pos
  obtain ⟨last, hlast, hlastDay⟩ := hstored.present (run.start + days)
    ⟨Nat.le_add_right _ _, Nat.lt_succ_self _, .inl (by omega)⟩
  refine List.filter_eq_self.2 fun b hb => ?_
  have hkept : b ∈ pruneOffsiteBackups policy (run.pruneTime (run.start + days))
      (run.after policy (days + 1)) := by
    refine (mem_prune hstock ⟨last, hlast, hlastDay⟩).2 ⟨hb, ?_⟩
    rcases ((mem_after_succ hbefore).1 hb).2 with ⟨hday, hnewest⟩ | ⟨hold, hnewest, hweek⟩
    · exact .inl ⟨hday, fun other hother =>
        hnewest other ((mem_after_succ hbefore).1 hother).1⟩
    · exact .inr ⟨hold, fun other hother =>
        hnewest other ((mem_after_succ hbefore).1 hother).1, hweek⟩
  exact (List.mem_filter.1 hkept).2

end step

section keeps

variable {run : BackupRun} {policy : RetentionPolicy} {days : Nat}

theorem older_iff {window day : Nat} :
    run.Older days window day ↔ day + window ≤ run.start + days := by
  have hage (b : OffsiteBackup) (hb : b ∈ run.exports day) :
      window * dayLength < run.pruneTime (run.start + days) - b.createdAt ↔
        day + window ≤ run.start + days := by
    have hown := day_of_export hb
    rw [← Nat.not_le, age_iff (hown.symm ▸ hb), hown, Nat.not_lt]
  constructor
  · intro holder
    obtain ⟨b, hb⟩ := List.exists_mem_of_ne_nil _ (run.exports_ne_nil day)
    exact (hage b hb).1 (holder b hb)
  · exact fun hle b hb => (hage b hb).2 hle

theorem exists_held {day : Nat} (hheld : run.Held policy (run.start + days + 1) day) :
    ∃ b ∈ run.after policy (days + 1), b.day = day :=
  (stored_after run policy (days + 1)).present day hheld

theorem keeps_newest (run : BackupRun) (policy : RetentionPolicy) (days : Nat) :
    ∃ b ∈ run.after policy (days + 1), ∀ other ∈ run.beforePrune policy days,
      newestFirst b other = true := by
  have hstored := stored_after run policy days
  obtain ⟨last, hlast, hlastDay⟩ := today_before run policy days
  obtain ⟨b, hb, -, hnewest⟩ := exists_newest (P := fun _ => True) ⟨last, hlast, trivial⟩
  have hday : run.start + days ≤ b.day :=
    hlastDay ▸ day_le_of_newestFirst (hnewest last hlast trivial)
  have hpos := policy.daily_pos
  exact ⟨b, (mem_after_succ hstored).2 ⟨hb, .inl ⟨by omega, fun other hother _ =>
    hnewest other hother trivial⟩⟩, fun other hother => hnewest other hother trivial⟩

/-- The newer weeks of the tier: each has the day on which it ends, or the last one of the tier. -/
theorem week_in_tier {week day : Nat} (hhas : run.HasDay days day) (hweek : weekOf day = week)
    (hold : day + policy.daily ≤ run.start + days)
    (hyoung : run.start + days < day + (policy.daily + 7 * policy.weekly))
    (hrecent : ∀ later : List Nat, later.Nodup → (∀ other ∈ later, (∃ day, run.HasDay days day ∧
      weekOf day = other ∧ run.Older days policy.daily day ∧
        ¬run.Older days (policy.daily + 7 * policy.weekly) day) ∧ week < other) →
      later.length < policy.weekly) :
    weekOf (run.start + days - policy.daily) < week + policy.weekly := by
  by_contra hfar
  refine absurd (hrecent (List.range' (week + 1) policy.weekly) (List.nodup_range' ..) ?_)
    (by rw [List.length_range']; exact Nat.lt_irrefl _)
  intro other hother
  obtain ⟨hnewer, hbound⟩ := List.mem_range'_1.1 hother
  obtain ⟨hstart, -⟩ := hhas
  have hpos := policy.daily_pos
  unfold weekOf at hweek hfar
  have hinside : min (7 * other + 6) (run.start + days - policy.daily) ≤ run.start + days := by
    omega
  refine ⟨⟨min (7 * other + 6) (run.start + days - policy.daily), ⟨by omega, hinside⟩, ?_, ?_, ?_⟩,
    hnewer⟩
  · unfold weekOf
    omega
  · rw [older_iff]
    omega
  · rw [older_iff]
    omega

theorem keeps_weekly {week : Nat} (hrecent : MostRecent policy.weekly (fun week =>
      ∃ day, run.HasDay days day ∧ weekOf day = week ∧ run.Older days policy.daily day ∧
        ¬run.Older days (policy.daily + 7 * policy.weekly) day) week) :
    ∃ b ∈ run.after policy (days + 1), weekOf b.day = week := by
  obtain ⟨⟨day, hhas, hweek, hold, hyoung⟩, hlater⟩ := hrecent
  rw [older_iff] at hold hyoung
  have htier := week_in_tier hhas hweek hold (Nat.lt_of_not_le hyoung) hlater
  have hpos := policy.daily_pos
  -- the last day of the week that has left the daily tier
  have hlast : weekOf (min (7 * week + 6) (run.start + days - policy.daily)) = week := by
    unfold weekOf at hweek ⊢
    omega
  have hstart := hhas.1
  have hheld : run.Held policy (run.start + days + 1)
      (min (7 * week + 6) (run.start + days - policy.daily)) := by
    refine ⟨?_, by omega, .inr ⟨by omega, by omega, ?_⟩⟩
    · unfold weekOf at hweek
      omega
    · rw [hlast, Nat.add_sub_cancel]
      exact htier
  obtain ⟨b, hb, hday⟩ := exists_held hheld
  exact ⟨b, hb, hday ▸ hlast⟩

theorem beforeWeekly_iff {month : Nat} : run.BeforeWeekly policy days month ↔
    firstOfMonth (month + 1) + (policy.daily + 7 * policy.weekly) ≤ run.start + days := by
  have hlt := run.pruneAt_lt
  unfold BackupRun.BeforeWeekly BackupRun.pruneTime
  rw [← Nat.add_mul]
  unfold dayLength at hlt ⊢
  omega

/-- No backup is as old as the months before the weekly window. -/
theorem no_monthly {month : Nat} (hbefore : run.BeforeWeekly policy days month) :
    ¬∃ b ∈ run.after policy (days + 1), monthOf b.day = month := by
  rintro ⟨b, hb, rfl⟩
  have hyoung := held_young ((stored_after run policy (days + 1)).held b hb)
  have hend := lt_firstOfMonth b.day
  rw [beforeWeekly_iff] at hbefore
  omega

theorem beforeWeekly_of_le {month month' : Nat} (hle : month ≤ month')
    (hbefore : run.BeforeWeekly policy days month') : run.BeforeWeekly policy days month := by
  rw [beforeWeekly_iff] at hbefore ⊢
  have hmono := firstOfMonth_strictMono.monotone (Nat.add_le_add_right hle 1)
  omega

theorem hasDay_of_beforeWeekly {month : Nat} (hle : monthOf run.start ≤ month)
    (hbefore : run.BeforeWeekly policy days month) :
    ∃ day, run.HasDay days day ∧ monthOf day = month := by
  rw [beforeWeekly_iff] at hbefore
  have hnext := firstOfMonth_lt_succ month
  rcases Nat.eq_or_lt_of_le hle with rfl | hlt
  · exact ⟨run.start, ⟨Nat.le_refl _, Nat.le_add_right _ _⟩, rfl⟩
  · have hfirst : firstOfMonth (monthOf run.start + 1) ≤ firstOfMonth month :=
      firstOfMonth_strictMono.monotone hlt
    have hstart := lt_firstOfMonth run.start
    exact ⟨firstOfMonth month, ⟨by omega, by omega⟩, monthOf_eq (Nat.le_refl _) hnext⟩

/-- As soon as a month of the run lies before the weekly window, the tier of months should have one,
and has none. -/
theorem not_keeps_of_month (hbefore : run.BeforeWeekly policy days (monthOf run.start)) :
    ¬run.Keeps policy days := by
  intro hkeeps
  have hbound (month : Nat) (h : run.BeforeWeekly policy days month) : month ≤ run.start + days := by
    rw [beforeWeekly_iff] at h
    have hself := firstOfMonth_strictMono.le_apply (x := month + 1)
    omega
  -- the last month that lies before the window
  classical
  have hgreatest := Nat.findGreatest_spec (P := run.BeforeWeekly policy days)
    (hbound _ hbefore) hbefore
  have hle := Nat.le_findGreatest (P := run.BeforeWeekly policy days) (hbound _ hbefore) hbefore
  refine no_monthly hgreatest (hkeeps.monthly _
    ⟨⟨hasDay_of_beforeWeekly hle hgreatest, hgreatest⟩, fun later _ hlater => ?_⟩)
  cases later with
  | nil => exact policy.monthly_pos
  | cons month later =>
    obtain ⟨⟨-, hmonth⟩, hnewer⟩ := hlater month List.mem_cons_self
    exact absurd (Nat.le_findGreatest (hbound _ hmonth) hmonth) (Nat.not_le_of_lt hnewer)

/-- The backups are kept as they are to be until the first month of the run lies before the weekly
window. -/
theorem keeps_iff (run : BackupRun) (policy : RetentionPolicy) (days : Nat) :
    run.Keeps policy days ↔ ¬run.BeforeWeekly policy days (monthOf run.start) := by
  constructor
  · exact fun hkeeps hbefore => not_keeps_of_month hbefore hkeeps
  · intro hnone
    refine ⟨keeps_newest run policy days, fun day hhas hday => ?_, fun week hrecent =>
      keeps_weekly hrecent, ?_, prune_settled run policy days⟩
    · exact exists_held ⟨hhas.1, Nat.lt_succ_of_le hhas.2, .inl hday⟩
    · rintro month ⟨⟨⟨day, hhas, rfl⟩, hbefore⟩, -⟩
      exact absurd (beforeWeekly_of_le (monthOf_mono hhas.1) hbefore) hnone

/-- The policy of the command line when nothing else is given. -/
def defaultPolicy : RetentionPolicy := ⟨7, 4, 12, by decide, by decide, by decide⟩

/-- The backup of a day, taken at midnight. -/
def dailyBackup (day : Nat) : OffsiteBackup where
  name := Str.of "founderos-offsite-" ++ (Nat.digits 10 day).map (48 + ·) ++ Str.of ".fosbak"
  createdAt := day * dayLength

theorem dailyBackup_inj {day day' : Nat} (h : (dailyBackup day).name = (dailyBackup day').name) :
    day = day' := by
  have hdigits := List.append_cancel_left (List.append_cancel_right h)
  exact Nat.digits_inj_iff.1 (List.map_injective_iff.2 (fun _ _ => Nat.add_left_cancel) hdigits)

/-- One backup a day from 2024-01-31 on, and the prune an hour later. -/
def dailyRun : BackupRun where
  start := 738915
  pruneAt := 60 * 60 * 1000000
  exports day := [dailyBackup day]
  pruneAt_lt := by decide
  exports_ne_nil day := List.cons_ne_nil _ _
  exports_nodup day := List.nodup_singleton _
  exported day backup hbackup := by
    rw [List.mem_singleton.1 hbackup]
    exact ⟨Nat.le_refl _, Nat.lt_add_of_pos_right (by decide)⟩
  names day day' backup hbackup backup' hbackup' hname := by
    rw [List.mem_singleton.1 hbackup, List.mem_singleton.1 hbackup'] at hname ⊢
    rw [dailyBackup_inj hname]

/-- On 2024-03-07 January lies before the weekly window, and its last backup has gone. -/
theorem january_lost : ¬dailyRun.Keeps defaultPolicy 36 := by
  have hmonth : monthOf dailyRun.start = 24276 := monthOf_eq (by decide) (by decide)
  refine not_keeps_of_month (beforeWeekly_iff.2 ?_)
  rw [hmonth]
  decide

end keeps

end FounderOs.Recovery
