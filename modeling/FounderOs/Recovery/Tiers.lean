import FounderOs.Recovery.Retention
import Mathlib.Order.Interval.Finset.Nat
import Mathlib.Tactic.SplitIfs

namespace FounderOs.Recovery

open Calendar SortedSet

section order

theorem orders_nat : Orders fun s t : Nat => decide (s ≤ t) where
  trans a b c hab hbc :=
    decide_eq_true (Nat.le_trans (of_decide_eq_true hab) (of_decide_eq_true hbc))
  total a b := by
    rw [Bool.or_eq_true, decide_eq_true_eq, decide_eq_true_eq]
    exact Nat.le_total a b
  antisymm a b hab hba := Nat.le_antisymm (of_decide_eq_true hab) (of_decide_eq_true hba)

theorem orders_key : Orders (lex (fun s t : Nat => decide (s ≤ t)) Str.le) :=
  Orders.lex orders_nat orders_text

variable {a b c : OffsiteBackup}

theorem newestFirst_trans (hab : newestFirst a b = true) (hbc : newestFirst b c = true) :
    newestFirst a c = true :=
  Orders.trans orders_key _ _ _ hbc hab

theorem newestFirst_total (a b : OffsiteBackup) : (newestFirst a b || newestFirst b a) = true :=
  Orders.total orders_key _ _

theorem newestFirst_refl (a : OffsiteBackup) : newestFirst a a = true := by
  simpa using newestFirst_total a a

theorem newestFirst_antisymm (hab : newestFirst a b = true) (hba : newestFirst b a = true) :
    a = b := by
  have hkey := Orders.antisymm orders_key _ _ hba hab
  obtain ⟨hcreated, hname⟩ := Prod.mk.inj hkey
  cases a
  cases b
  exact (OffsiteBackup.mk.injEq ..).mpr ⟨hname, hcreated⟩

theorem newestFirst_of_lt (h : b.createdAt < a.createdAt) : newestFirst a b = true := by
  rw [newestFirst, lex, if_neg (Nat.ne_of_lt h)]
  exact decide_eq_true (Nat.le_of_lt h)

theorem day_le_of_newestFirst (h : newestFirst a b = true) : b.day ≤ a.day := by
  refine Nat.div_le_div_right ?_
  unfold newestFirst lex at h
  split at h
  · rename_i hcreated
    exact Nat.le_of_eq hcreated
  · exact of_decide_eq_true h

theorem newestFirst_of_day_lt (h : b.day < a.day) : newestFirst a b = true := by
  refine newestFirst_of_lt ?_
  by_contra hle
  exact absurd (Nat.div_le_div_right (Nat.le_of_not_lt hle)) (Nat.not_le_of_lt h)

/-- Some backup comes before all others. -/
theorem exists_newest {P : OffsiteBackup → Prop} {l : List OffsiteBackup} (h : ∃ b ∈ l, P b) :
    ∃ b ∈ l, P b ∧ ∀ other ∈ l, P other → newestFirst b other = true := by
  induction l with
  | nil =>
    obtain ⟨b, hb, -⟩ := h
    cases hb
  | cons a l ih =>
    by_cases hrest : ∃ b ∈ l, P b
    · obtain ⟨b, hb, hp, hall⟩ := ih hrest
      by_cases ha : P a ∧ newestFirst a b = true
      · refine ⟨a, List.mem_cons_self, ha.1, List.forall_mem_cons.2 ⟨fun _ => newestFirst_refl a, ?_⟩⟩
        exact fun other hother hpo => newestFirst_trans ha.2 (hall other hother hpo)
      · refine ⟨b, List.mem_cons_of_mem a hb, hp, List.forall_mem_cons.2 ⟨fun hpa => ?_, hall⟩⟩
        have htotal := newestFirst_total a b
        rw [Bool.or_eq_true] at htotal
        exact htotal.resolve_left fun hab => ha ⟨hpa, hab⟩
    · obtain ⟨b, hb, hp⟩ := h
      rcases List.mem_cons.1 hb with rfl | hb
      · refine ⟨b, List.mem_cons_self, hp, List.forall_mem_cons.2 ⟨fun _ => newestFirst_refl b, ?_⟩⟩
        exact fun other hother hpo => absurd ⟨other, hother, hpo⟩ hrest
      · exact absurd ⟨b, hb, hp⟩ hrest

end order

section windows

variable {l : List Nat} {last width : Nat}

theorem length_le_of_window (hnodup : l.Nodup) (h : ∀ v ∈ l, v ≤ last ∧ last < v + width) :
    l.length ≤ width := by
  have hsubset : l.toFinset ⊆ Finset.Icc (last + 1 - width) last := by
    intro v hv
    obtain ⟨hle, hlt⟩ := h v (List.mem_toFinset.1 hv)
    rw [Finset.mem_Icc]
    omega
  have hcard := Finset.card_le_card hsubset
  rw [List.toFinset_card_of_nodup hnodup, Nat.card_Icc] at hcard
  omega

theorem le_length_of_window (hwidth : width ≤ last + 1)
    (h : ∀ v, v ≤ last → last < v + width → v ∈ l) : width ≤ l.length := by
  have hsubset : Finset.Icc (last + 1 - width) last ⊆ l.toFinset := by
    intro v hv
    rw [Finset.mem_Icc] at hv
    exact List.mem_toFinset.2 (h v hv.2 (by omega))
  have hcard := Nat.le_trans (Finset.card_le_card hsubset) (List.toFinset_card_le l)
  rw [Nat.card_Icc] at hcard
  omega

end windows

/-- The backups that a prune finds when no backup is older than the weekly window, and between a
backup of the weekly tier and the newest week of the tier no week is missing. -/
structure Stock (policy : RetentionPolicy) (today now : Nat) (backups : List OffsiteBackup) :
    Prop where
  nodup : backups.Nodup
  names : ∀ b ∈ backups, ∀ b' ∈ backups, b.name = b'.name → b = b'
  past : ∀ b ∈ backups, b.createdAt < now
  day_le : ∀ b ∈ backups, b.day ≤ today
  age_iff : ∀ b ∈ backups, ∀ window, now - b.createdAt ≤ window * dayLength ↔ today < b.day + window
  young : ∀ b ∈ backups, today < b.day + (policy.daily + policy.weekly * 7)
  unbroken : ∀ b ∈ backups, b.day + policy.daily ≤ today → ∀ week, weekOf b.day < week →
    week ≤ weekOf (today - policy.daily) → weekOf (today - policy.daily) < week + policy.weekly →
      ∃ other ∈ backups, other.day + policy.daily ≤ today ∧ weekOf other.day = week

/-- What a prune keeps: the newest backup of a day, and in the weekly tier the newest of a week, of the
newest weeks. -/
def Chosen (policy : RetentionPolicy) (today : Nat) (backups : List OffsiteBackup)
    (b : OffsiteBackup) : Prop :=
  (today < b.day + policy.daily ∧
    ∀ other ∈ backups, other.day = b.day → newestFirst b other = true) ∨
  (b.day + policy.daily ≤ today ∧
    (∀ other ∈ backups, other.day + policy.daily ≤ today → weekOf other.day = weekOf b.day →
      newestFirst b other = true) ∧
    weekOf (today - policy.daily) < weekOf b.day + policy.weekly)

section loop

variable {policy : RetentionPolicy} {today now : Nat} {backups before rest : List OffsiteBackup}
  {slots : Slots} {item : OffsiteBackup}

/-- What the slots hold after the backups that the loop has been through. -/
structure Slots.Holds (slots : Slots) (policy : RetentionPolicy) (today : Nat)
    (backups before : List OffsiteBackup) : Prop where
  daily_nodup : slots.daily.Nodup
  daily_iff : ∀ day, day ∈ slots.daily ↔
    ∃ p ∈ before, today < p.day + policy.daily ∧ p.day = day
  weekly_nodup : slots.weekly.Nodup
  weekly_iff : ∀ week, week ∈ slots.weekly ↔
    ∃ p ∈ before, p.day + policy.daily ≤ today ∧ Chosen policy today backups p ∧
      weekOf p.day = week

/-- The backups in their order, those that the loop has been through and the rest. -/
structure Ordered (backups before rest : List OffsiteBackup) : Prop where
  mem_iff : ∀ b, b ∈ backups ↔ b ∈ before ++ rest
  nodup : (before ++ rest).Nodup
  pairwise : (before ++ rest).Pairwise fun a b => newestFirst a b = true

theorem Ordered.mem (h : Ordered backups before (item :: rest)) : item ∈ backups :=
  (h.mem_iff item).2 (List.mem_append_right _ List.mem_cons_self)

theorem Ordered.before_mem (h : Ordered backups before (item :: rest)) {p : OffsiteBackup}
    (hp : p ∈ before) : p ∈ backups :=
  (h.mem_iff p).2 (List.mem_append_left _ hp)

theorem Ordered.newest_before (h : Ordered backups before (item :: rest)) {p : OffsiteBackup}
    (hp : p ∈ before) : newestFirst p item = true :=
  (List.pairwise_append.1 h.pairwise).2.2 p hp item List.mem_cons_self

theorem Ordered.ne_before (h : Ordered backups before (item :: rest)) {p : OffsiteBackup}
    (hp : p ∈ before) : p ≠ item :=
  (List.nodup_append.1 h.nodup).2.2 p hp item List.mem_cons_self

/-- What does not come after the item stands before it. -/
theorem Ordered.before_of_not (h : Ordered backups before (item :: rest)) {other : OffsiteBackup}
    (hother : other ∈ backups) (hnot : ¬newestFirst item other = true) : other ∈ before := by
  rcases List.mem_append.1 ((h.mem_iff other).1 hother) with hmem | hmem
  · exact hmem
  · have hrest := List.pairwise_cons.1 (List.pairwise_append.1 h.pairwise).2.1
    rcases List.mem_cons.1 hmem with rfl | hmem
    · exact absurd (newestFirst_refl other) hnot
    · exact absurd (hrest.1 other hmem) hnot

theorem chosen_daily_iff (hordered : Ordered backups before (item :: rest))
    (hslots : slots.Holds policy today backups before) (hday : today < item.day + policy.daily) :
    item.day ∉ slots.daily ↔ Chosen policy today backups item := by
  rw [hslots.daily_iff]
  constructor
  · intro hnone
    refine .inl ⟨hday, fun other hother hsame => ?_⟩
    by_contra hnot
    exact hnone ⟨other, hordered.before_of_not hother hnot, hsame ▸ hday, hsame⟩
  · rintro hchosen ⟨p, hp, -, hsame⟩
    rcases hchosen with ⟨-, hnewest⟩ | ⟨hold, -⟩
    · exact hordered.ne_before hp (newestFirst_antisymm (hordered.newest_before hp)
        (hnewest p (hordered.before_mem hp) hsame))
    · exact absurd hday (Nat.not_lt_of_le hold)

theorem room_daily (hstock : Stock policy today now backups)
    (hordered : Ordered backups before (item :: rest))
    (hslots : slots.Holds policy today backups before) (hday : today < item.day + policy.daily)
    (hnew : item.day ∉ slots.daily) :
    slots.daily.length < policy.daily := by
  have hlength := length_le_of_window (List.nodup_cons.2 ⟨hnew, hslots.daily_nodup⟩)
    (List.forall_mem_cons.2 ⟨⟨hstock.day_le item hordered.mem, hday⟩, fun v hv => by
      obtain ⟨p, hp, hpday, rfl⟩ := (hslots.daily_iff v).1 hv
      exact ⟨hstock.day_le p (hordered.before_mem hp), hpday⟩⟩)
  exact hlength

theorem room_weekly (hordered : Ordered backups before (item :: rest))
    (hslots : slots.Holds policy today backups before)
    (hweek : weekOf (today - policy.daily) < weekOf item.day + policy.weekly)
    (hold : item.day + policy.daily ≤ today) (hnew : weekOf item.day ∉ slots.weekly) :
    slots.weekly.length < policy.weekly := by
  have hlast {b : OffsiteBackup} (hb : b.day + policy.daily ≤ today) :
      weekOf b.day ≤ weekOf (today - policy.daily) := Nat.div_le_div_right (by omega)
  have hlength := length_le_of_window (List.nodup_cons.2 ⟨hnew, hslots.weekly_nodup⟩)
    (List.forall_mem_cons.2 ⟨⟨hlast hold, hweek⟩, fun v hv => by
      obtain ⟨p, hp, hpold, -, rfl⟩ := (hslots.weekly_iff v).1 hv
      have hle : weekOf item.day ≤ weekOf p.day :=
        Nat.div_le_div_right (day_le_of_newestFirst (hordered.newest_before hp))
      exact ⟨hlast hpold, by omega⟩⟩)
  exact hlength

/-- The newest backup of a week has its slot before an older one comes. -/
theorem week_taken (hordered : Ordered backups before (item :: rest))
    (hslots : slots.Holds policy today backups before) {other : OffsiteBackup}
    (hother : other ∈ backups) (hold : other.day + policy.daily ≤ today)
    (hweek : weekOf (today - policy.daily) < weekOf other.day + policy.weekly)
    (hnot : ¬newestFirst item other = true) : weekOf other.day ∈ slots.weekly := by
  obtain ⟨b, hb, ⟨hbold, hbweek⟩, hnewest⟩ := exists_newest
    (P := fun b => b.day + policy.daily ≤ today ∧ weekOf b.day = weekOf other.day)
    ⟨other, hother, hold, rfl⟩
  refine (hslots.weekly_iff _).2 ⟨b, hordered.before_of_not hb fun hitem => ?_, hbold, ?_, hbweek⟩
  · exact hnot (newestFirst_trans hitem (hnewest other hother ⟨hold, rfl⟩))
  · refine .inr ⟨hbold, fun c hc hcold hcweek => hnewest c hc ⟨hcold, hcweek.trans hbweek⟩, ?_⟩
    rw [hbweek]
    exact hweek

theorem chosen_weekly_iff (hstock : Stock policy today now backups)
    (hordered : Ordered backups before (item :: rest))
    (hslots : slots.Holds policy today backups before) (hold : item.day + policy.daily ≤ today) :
    weekOf item.day ∉ slots.weekly ∧ slots.weekly.length < policy.weekly ↔
      Chosen policy today backups item := by
  constructor
  · rintro ⟨hnew, hroom⟩
    have hweek : weekOf (today - policy.daily) < weekOf item.day + policy.weekly := by
      by_contra hfar
      -- the weeks in between all have their slots, and there is no more
      have hcount : policy.weekly ≤ weekOf (today - policy.daily) + 1 := by omega
      refine absurd (le_length_of_window hcount fun week hlast hwidth => ?_)
        (Nat.not_le_of_lt hroom)
      obtain ⟨other, hother, hotherOld, rfl⟩ := hstock.unbroken item hordered.mem hold week
        (by omega) hlast hwidth
      refine week_taken hordered hslots hother hotherOld hwidth fun hitem => ?_
      have hle : weekOf other.day ≤ weekOf item.day :=
        Nat.div_le_div_right (day_le_of_newestFirst hitem)
      omega
    refine .inr ⟨hold, fun other hother hotherOld hsame => ?_, hweek⟩
    by_contra hnot
    refine hnew (hsame ▸ week_taken hordered hslots hother hotherOld ?_ hnot)
    rw [hsame]
    exact hweek
  · rintro (⟨hday, -⟩ | ⟨-, hnewest, hweek⟩)
    · exact absurd hday (Nat.not_lt_of_le hold)
    · have hnew : weekOf item.day ∉ slots.weekly := by
        intro hmem
        obtain ⟨p, hp, hpold, -, hsame⟩ := (hslots.weekly_iff _).1 hmem
        exact hordered.ne_before hp (newestFirst_antisymm (hordered.newest_before hp)
          (hnewest p (hordered.before_mem hp) hpold hsame))
      exact ⟨hnew, room_weekly hordered hslots hweek hold hnew⟩

theorem Slots.Holds.daily_step (hslots : slots.Holds policy today backups before)
    (hday : today < item.day + policy.daily) (hnew : item.day ∉ slots.daily) :
    Slots.Holds { slots with daily := item.day :: slots.daily } policy today backups
      (before ++ [item]) where
  daily_nodup := List.nodup_cons.2 ⟨hnew, hslots.daily_nodup⟩
  daily_iff day := by
    rw [List.mem_cons, hslots.daily_iff]
    constructor
    · rintro (rfl | ⟨p, hp, hpday⟩)
      · exact ⟨item, by simp, hday, rfl⟩
      · exact ⟨p, List.mem_append_left _ hp, hpday⟩
    · rintro ⟨p, hp, hpday, rfl⟩
      rcases List.mem_append.1 hp with hp | hp
      · exact .inr ⟨p, hp, hpday, rfl⟩
      · exact .inl (congrArg OffsiteBackup.day (List.mem_singleton.1 hp))
  weekly_nodup := hslots.weekly_nodup
  weekly_iff week := by
    rw [hslots.weekly_iff]
    constructor
    · rintro ⟨p, hp, hpold⟩
      exact ⟨p, List.mem_append_left _ hp, hpold⟩
    · rintro ⟨p, hp, hpold, hrest⟩
      rcases List.mem_append.1 hp with hp | hp
      · exact ⟨p, hp, hpold, hrest⟩
      · rw [List.mem_singleton.1 hp] at hpold
        exact absurd hday (Nat.not_lt_of_le hpold)

/-- A backup that takes no slot changes nothing, when its day has one or it is not chosen. -/
theorem Slots.Holds.skip (hslots : slots.Holds policy today backups before)
    (hdaily : today < item.day + policy.daily → item.day ∈ slots.daily)
    (hweekly : item.day + policy.daily ≤ today → ¬Chosen policy today backups item) :
    slots.Holds policy today backups (before ++ [item]) where
  daily_nodup := hslots.daily_nodup
  daily_iff day := by
    rw [hslots.daily_iff]
    constructor
    · rintro ⟨p, hp, hpday⟩
      exact ⟨p, List.mem_append_left _ hp, hpday⟩
    · rintro ⟨p, hp, hpday, rfl⟩
      rcases List.mem_append.1 hp with hp | hp
      · exact ⟨p, hp, hpday, rfl⟩
      · rw [List.mem_singleton.1 hp] at hpday ⊢
        exact (hslots.daily_iff _).1 (hdaily hpday)
  weekly_nodup := hslots.weekly_nodup
  weekly_iff week := by
    rw [hslots.weekly_iff]
    constructor
    · rintro ⟨p, hp, hpold⟩
      exact ⟨p, List.mem_append_left _ hp, hpold⟩
    · rintro ⟨p, hp, hpold, hchosen, hweek⟩
      rcases List.mem_append.1 hp with hp | hp
      · exact ⟨p, hp, hpold, hchosen, hweek⟩
      · rw [List.mem_singleton.1 hp] at hpold hchosen
        exact absurd hchosen (hweekly hpold)

theorem Slots.Holds.weekly_step (hslots : slots.Holds policy today backups before)
    (hold : item.day + policy.daily ≤ today) (hchosen : Chosen policy today backups item)
    (hnew : weekOf item.day ∉ slots.weekly) :
    Slots.Holds { slots with weekly := weekOf item.day :: slots.weekly } policy today backups
      (before ++ [item]) where
  daily_nodup := hslots.daily_nodup
  daily_iff day := by
    rw [hslots.daily_iff]
    constructor
    · rintro ⟨p, hp, hpday⟩
      exact ⟨p, List.mem_append_left _ hp, hpday⟩
    · rintro ⟨p, hp, hpday, hsame⟩
      rcases List.mem_append.1 hp with hp | hp
      · exact ⟨p, hp, hpday, hsame⟩
      · rw [List.mem_singleton.1 hp] at hpday
        exact absurd hpday (Nat.not_lt_of_le hold)
  weekly_nodup := List.nodup_cons.2 ⟨hnew, hslots.weekly_nodup⟩
  weekly_iff week := by
    rw [List.mem_cons, hslots.weekly_iff]
    constructor
    · rintro (rfl | ⟨p, hp, hpold⟩)
      · exact ⟨item, by simp, hold, hchosen, rfl⟩
      · exact ⟨p, List.mem_append_left _ hp, hpold⟩
    · rintro ⟨p, hp, hpold, hpchosen, rfl⟩
      rcases List.mem_append.1 hp with hp | hp
      · exact .inr ⟨p, hp, hpold, hpchosen, rfl⟩
      · exact .inl (congrArg (fun b => weekOf b.day) (List.mem_singleton.1 hp))

theorem Ordered.next (h : Ordered backups before (item :: rest)) :
    Ordered backups (before ++ [item]) rest := by
  have hsame : before ++ [item] ++ rest = before ++ item :: rest := by simp
  exact ⟨hsame ▸ h.mem_iff, hsame ▸ h.nodup, hsame ▸ h.pairwise⟩

theorem mem_retainLoop (hstock : Stock policy today now backups) {name : Str}
    (hordered : Ordered backups before rest)
    (hslots : slots.Holds policy today backups before) :
    name ∈ retainLoop policy now slots rest ↔
      ∃ b ∈ rest, b.name = name ∧ Chosen policy today backups b := by
  induction rest generalizing before slots with
  | nil => simp [retainLoop]
  | cons item rest ih =>
    have hpast : ¬now < item.createdAt := Nat.not_lt_of_lt (hstock.past item hordered.mem)
    have hdaily : inDailyWindow policy now item = true ↔ today < item.day + policy.daily := by
      rw [inDailyWindow, decide_eq_true_eq, Nat.max_eq_left policy.daily_pos]
      exact hstock.age_iff item hordered.mem _
    rw [retainLoop, if_neg hpast, List.exists_mem_cons_iff]
    rcases Nat.lt_or_ge today (item.day + policy.daily) with hday | hold
    · by_cases hnew : item.day ∈ slots.daily
      · have hnot : ¬Chosen policy today backups item := fun hchosen =>
          (chosen_daily_iff hordered hslots hday).2 hchosen hnew
        have hskip := hslots.skip (fun _ => hnew) fun hold => absurd hday (Nat.not_lt_of_le hold)
        rw [if_pos ⟨hdaily.2 hday, .inl hnew⟩, if_neg fun h => h.1 hnew, ih hordered.next hskip]
        exact ⟨.inr, fun h => h.resolve_left fun hitem => hnot hitem.2⟩
      · have hroom := room_daily hstock hordered hslots hday hnew
        have hchosen := (chosen_daily_iff hordered hslots hday).1 hnew
        rw [if_pos ⟨hdaily.2 hday, .inr hroom⟩, if_pos ⟨hnew, hroom⟩, List.mem_cons,
          ih hordered.next (hslots.daily_step hday hnew), @eq_comm _ name]
        exact or_congr_left (and_iff_left hchosen).symm
    · have hweekly : inWeeklyWindow policy now item = true := by
        rw [inWeeklyWindow, decide_eq_true_eq, Nat.max_eq_left (Nat.le_add_right_of_le policy.daily_pos)]
        exact (hstock.age_iff item hordered.mem _).2 (hstock.young item hordered.mem)
      rw [if_neg fun h => absurd (hdaily.1 h.1) (Nat.not_lt_of_le hold), if_pos hweekly]
      by_cases hchosen : Chosen policy today backups item
      · have hroom := (chosen_weekly_iff hstock hordered hslots hold).2 hchosen
        rw [if_pos hroom, List.mem_cons,
          ih hordered.next (hslots.weekly_step hold hchosen hroom.1), @eq_comm _ name]
        exact or_congr_left (and_iff_left hchosen).symm
      · have hfull := mt (chosen_weekly_iff hstock hordered hslots hold).1 hchosen
        have hskip := hslots.skip (fun hday => absurd hday (Nat.not_lt_of_le hold))
          fun _ => hchosen
        rw [if_neg hfull, ih hordered.next hskip]
        exact ⟨.inr, fun h => h.resolve_left fun hitem => hchosen hitem.2⟩

theorem ordered_sorted (hstock : Stock policy today now backups) :
    Ordered backups [] (backups.mergeSort newestFirst) where
  mem_iff b := (List.mergeSort_perm backups newestFirst).mem_iff.symm
  nodup := (List.mergeSort_perm backups newestFirst).nodup_iff.2 hstock.nodup
  pairwise := by
    have htrans : ∀ a b c, newestFirst a b = true → newestFirst b c = true →
        newestFirst a c = true := fun _ _ _ => newestFirst_trans
    exact List.pairwise_mergeSort htrans newestFirst_total backups

theorem holds_empty : Slots.Holds ⟨[], [], []⟩ policy today backups [] :=
  ⟨List.nodup_nil, by simp, List.nodup_nil, by simp⟩

/-- What a prune leaves, when today has a backup. -/
theorem mem_prune (hstock : Stock policy today now backups) (htoday : ∃ b ∈ backups, b.day = today)
    {b : OffsiteBackup} : b ∈ pruneOffsiteBackups policy now backups ↔
      b ∈ backups ∧ Chosen policy today backups b := by
  have hordered := ordered_sorted hstock
  have hloop : b.name ∈ retainLoop policy now ⟨[], [], []⟩ (backups.mergeSort newestFirst) ↔
      ∃ c ∈ backups.mergeSort newestFirst, c.name = b.name ∧ Chosen policy today backups c :=
    mem_retainLoop hstock hordered holds_empty
  have hfirst : ∀ first ∈ (backups.mergeSort newestFirst).head?,
      first ∈ backups ∧ Chosen policy today backups first := by
    intro first hfirst
    obtain ⟨rest, hsorted⟩ := List.head?_eq_some_iff.1 hfirst
    rw [hsorted] at hordered
    have hnewest : ∀ other ∈ backups, newestFirst first other = true := by
      intro other hother
      rcases List.mem_cons.1 ((hordered.mem_iff other).1 hother) with rfl | hrest
      · exact newestFirst_refl other
      · exact (List.pairwise_cons.1 hordered.pairwise).1 other hrest
    obtain ⟨last, hlast, hday⟩ := htoday
    have hle := day_le_of_newestFirst (hnewest last hlast)
    have hpos := policy.daily_pos
    exact ⟨hordered.mem, .inl ⟨by omega, fun other hother _ => hnewest other hother⟩⟩
  rw [pruneOffsiteBackups, List.mem_filter, List.contains_iff_mem, retainedBackupPaths,
    List.mem_append, hloop, Option.mem_toList, Option.map_eq_some_iff]
  refine and_congr_right fun hb => ⟨?_, fun hchosen => .inr ⟨b, ?_, rfl, hchosen⟩⟩
  · rintro (⟨first, hmem, hname⟩ | ⟨c, hc, hname, hchosen⟩)
    · obtain ⟨hfirst, hchosen⟩ := hfirst first hmem
      exact hstock.names first hfirst b hb hname ▸ hchosen
    · exact hstock.names c ((hordered.mem_iff c).2 hc) b hb hname ▸ hchosen
  · exact (hordered.mem_iff b).1 hb

end loop

end FounderOs.Recovery
