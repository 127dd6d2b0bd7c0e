import CasualDate.Proofs.Expr.WeeksOn

/-!
# Whole weeks on from a leap second

Counted from a leap second, weeks end at an ordinary second: the one before it forward, and the one
after it back. A moment moves along with them exactly if it is counted from the current time on the
same side, and if the day that it is counted from moves along where the second after it is in the next
day (`MomentExpr.evaluate_weeksOn_iff`).
-/

namespace CasualDate

namespace Instant

variable {t t' u u' : Instant} {n k m : Int} {steps : List Int}

theorem IsDaysFrom.iff_eq (h : u.IsDaysFrom t n) : u.IsDaysFrom t k ↔ k = n := by
  constructor
  · intro hk
    have hdate := h.date
    have hdate' := hk.date
    unfold Date.IsDaysFrom at hdate hdate'
    omega
  · rintro rfl
    exact h

/-- Counted from a leap second, minutes end at the second before it or at the one after it. -/
theorem addMinutes?_eq_some_iff_of_leap (h : t.time.second = 60) (hm : m ≠ 0) :
    t.addMinutes? m = some u ↔ u.minutes = t.minutes + m + (if 0 < m then 0 else 1) ∧
      u.time.second = (if 0 < m then 59 else 0) ∧ u.time.nanosecond = t.time.nanosecond := by
  have hcond : ¬(t.time.second < 60 ∨ m = 0) := by omega
  simp only [addMinutes?, hcond, if_false]
  split
  · rw [inMinute?_eq_some_iff, Int.add_zero]
  · rw [inMinute?_eq_some_iff, Int.add_right_comm]

theorem second_lt_of_addMinutes? (hm : m ≠ 0) (h : t.addMinutes? m = some u) : u.time.second < 60 := by
  rw [time_of_addMinutes? h]
  exact TimeOfDay.second_addMinutes_lt hm

theorem eq_of_addDays? (hn : t.addDays? n = some u) (hk : t.addDays? k = some u) : k = n := by
  have hminutes := minutes_of_addMinutes? hn
  have hminutes' := minutes_of_addMinutes? hk
  split at hminutes <;> split at hminutes' <;> omega

/-- Days back from a leap second that ends a day lead to the day after it. -/
theorem isDaysFrom_of_addDays?_leap (h : t.time.second = 60) (hn : n ≠ 0) (hu : t.addDays? n = some u) :
    u.date.IsDaysFrom t.date
      (n + if n < 0 ∧ t.time.hour = 23 ∧ t.time.minute = 59 then 1 else 0) := by
  obtain ⟨hminutes, -, -⟩ := (addMinutes?_eq_some_iff_of_leap h (by omega)).1 hu
  have ht := t.minutes_eq
  have hu := u.minutes_eq
  have hhour := t.time.hour_lt
  have hminute := t.time.minute_lt
  have hhour' := u.time.hour_lt
  have hminute' := u.time.minute_lt
  unfold Date.IsDaysFrom
  split <;> split at hminutes <;> omega

/-- The first minutes that are not zero lead the same way in time as `n`. -/
def SameWay (steps : List Int) (n : Int) : Prop :=
  ∀ m, steps.find? (· ≠ 0) = some m → (0 < m ↔ 0 < n)

theorem IsDaysFrom.foldlM_addMinutes? (h : t'.IsDaysFrom t n)
    (hu : steps.foldlM Instant.addMinutes? t = some u)
    (hu' : steps.foldlM Instant.addMinutes? t' = some u') : u'.IsDaysFrom u n := by
  induction steps generalizing t t' with
  | nil =>
    cases hu
    cases hu'
    exact h
  | cons m steps ih =>
    obtain ⟨v, hv, hu⟩ := Option.bind_eq_some_iff.1 hu
    obtain ⟨v', hv', hu'⟩ := Option.bind_eq_some_iff.1 hu'
    exact ih (h.addMinutes? hv hv') hu hu'

theorem second_of_foldlM_addMinutes? (h : t.time.second < 60)
    (hu : steps.foldlM addMinutes? t = some u) : u.time.second = t.time.second := by
  induction steps generalizing t with
  | nil =>
    cases hu
    rfl
  | cons m steps ih =>
    obtain ⟨v, hv, hu⟩ := Option.bind_eq_some_iff.1 hu
    have hsecond := ((addMinutes?_eq_some_iff_of_lt h).1 hv).second_eq
    exact (ih (hsecond ▸ h) hu).trans hsecond

/-- From a leap second and from `n` days on, the same minutes lead to instants `k` days apart exactly
if these are as many days, and the minutes first lead the same way. -/
theorem addDays?_foldlM_iff (h : t.time.second = 60) (hn : n ≠ 0) (hway : 0 < k ↔ 0 < n)
    (ht' : t.addDays? n = some t') (hu : steps.foldlM addMinutes? t = some u)
    (hu' : steps.foldlM addMinutes? t' = some u') :
    u.addDays? k = some u' ↔ k = n ∧ SameWay steps k := by
  induction steps with
  | nil =>
    cases hu
    cases hu'
    constructor
    · intro hdays
      exact ⟨eq_of_addDays? ht' hdays, fun _ hm => nomatch hm⟩
    · rintro ⟨rfl, -⟩
      exact ht'
  | cons m steps ih =>
    obtain ⟨v, hv, hu⟩ := Option.bind_eq_some_iff.1 hu
    obtain ⟨v', hv', hu'⟩ := Option.bind_eq_some_iff.1 hu'
    by_cases hm : m = 0
    · subst hm
      cases t.addMinutes?_zero.symm.trans hv
      cases t'.addMinutes?_zero.symm.trans hv'
      exact ih hu hu'
    have hfind : (m :: steps).find? (· ≠ 0) = some m := List.find?_cons_of_pos (by simpa using hm)
    have hsameWay : SameWay (m :: steps) k ↔ (0 < m ↔ 0 < k) := by
      rw [SameWay, hfind]
      exact ⟨fun hall => hall m rfl, fun hm _ heq => Option.some.inj heq ▸ hm⟩
    have hlt' : t'.time.second < 60 := second_lt_of_addMinutes? (by omega) ht'
    have hlt : v.time.second < 60 := second_lt_of_addMinutes? hm hv
    have hfold := second_of_foldlM_addMinutes? hlt hu
    obtain ⟨hminutes', hsecond', hnano'⟩ := (addMinutes?_eq_some_iff_of_leap h (by omega)).1 ht'
    obtain ⟨hminutes, hsecond, hnano⟩ := (addMinutes?_eq_some_iff_of_leap h hm).1 hv
    have hv' := (addMinutes?_eq_some_iff_of_lt hlt').1 hv'
    rw [addDays?_eq_some_iff (hfold ▸ hlt), hsameWay]
    by_cases hsame : 0 < m ↔ 0 < k
    · -- Both have come to the same side of the leap second.
      have hdays : v'.IsDaysFrom v n := by
        have hside : 0 < m ↔ 0 < n * 1440 := by omega
        simp only [← hside] at hminutes' hsecond'
        have hmin := hv'.minutes_eq
        rw [isDaysFrom_iff]
        exact ⟨by omega, hv'.second_eq.trans (hsecond'.trans hsecond.symm),
          hv'.nanosecond_eq.trans (hnano'.trans hnano.symm)⟩
      rw [(hdays.foldlM_addMinutes? hu hu').iff_eq]
      exact (and_iff_left hsame).symm
    · -- The seconds differ from now on.
      have hfold' := second_of_foldlM_addMinutes? (hv'.second_eq ▸ hlt') hu'
      refine iff_of_false (fun hdays => ?_) fun hboth => hsame hboth.2
      have htime := congrArg TimeOfDay.second hdays.time_eq
      rw [hfold, hfold', hv'.second_eq, hsecond, hsecond'] at htime
      split at htime <;> split at htime <;> omega

end Instant

theorem Duration.foldlM_addMinutes?_of_step {dir : Direction} {parts : List (Nat × TimeUnit)}
    {t u : Instant} (hfixed : ∀ part ∈ parts, part.2.isFixed = true)
    (h : parts.foldlM (step dir) t = .ok u) :
    (parts.map fun part => dir.apply (minutesOf part)).foldlM Instant.addMinutes? t = some u := by
  induction parts generalizing t with
  | nil =>
    cases h
    rfl
  | cons part parts ih =>
    rw [List.forall_mem_cons] at hfixed
    rw [List.foldlM_cons, bind_eq_ok_iff] at h
    obtain ⟨v, hv, h⟩ := h
    rw [step_eq_ok_iff_of_isFixed hfixed.1] at hv
    rw [List.map_cons, List.foldlM_cons, hv]
    exact ih hfixed.2 h

namespace DateExpr

variable {today tomorrow : Weekday}

/-- The weekday that the date is counted from, if there is one. -/
def namedWeekday? : DateExpr → Option Weekday
  | weekday day | relativeWeekday _ day => some day
  | before _ e | after _ e => e.namedWeekday?
  | _ => none

/-- A day later the weekday is a day less ahead, and a week if it was that day itself. -/
theorem lead_of_next (h : tomorrow.index = (today.index + 1) % 7) (e : DateExpr) :
    e.lead tomorrow - e.lead today =
      match e.namedWeekday? with
      | none => 0
      | some day => if day = today then 6 else -1 := by
  have hnext (day : Weekday) : (tomorrow.daysUntil day : Int) - today.daysUntil day =
      if day = today then 6 else -1 := by
    have hlt := today.index_lt
    have hday := day.index_lt
    simp only [Weekday.daysUntil, h, ← Weekday.index_inj]
    split <;> omega
  induction e with
  | weekday day => exact hnext day
  | relativeWeekday r day =>
    simp only [lead, namedWeekday?, weekdayOffset_eq, ← hnext]
    omega
  | before d e ih | after d e ih => exact ih
  | _ => rfl

end DateExpr

namespace MomentExpr

variable {reference reference' u u' v v' : Instant} {k : Int} {e : MomentExpr}
  {today tomorrow : Weekday} {n : Int}

/-- The moment that all durations are counted from. -/
def base : MomentExpr → MomentExpr
  | now => now
  | dateTime date time => dateTime date time
  | timeDate time date => timeDate time date
  | after _ m | before _ m => m.base

/-- Whether a time of day is named that the durations are counted from. -/
def namesTime : MomentExpr → Bool
  | now => false
  | dateTime _ time | timeDate time _ => time ≠ .unstated
  | after _ m | before _ m => m.namesTime

/-- How many days ahead the weekday is that the moment is counted from, if there is one. -/
def lead (today : Weekday) : MomentExpr → Int
  | now => 0
  | dateTime date _ | timeDate _ date => date.lead today
  | after _ m | before _ m => m.lead today

/-- Whether the moment that the durations are counted from is the same, seen from the end of `today`
and from the beginning of the next day. It is not if it has a time of its own on a day that is counted
from the current one, or the current time on a day that is counted from a weekday; and `today` is a week
later the next day. -/
def isSameAtMidnight (today : Weekday) : MomentExpr → Bool
  | now => true
  | dateTime date time | timeDate time date =>
    match date.namedWeekday? with
    | none => time = .unstated
    | some day => time ≠ .unstated && day ≠ today
  | after _ m | before _ m => m.isSameAtMidnight today

/-- Whether the moment moves along with a leap second that it is evaluated in, by `k` weeks: the current
time is first counted from the same way in time, and weeks back from a leap second that ends a day, which
lead to the day after it, do not change the day. -/
structure KeepsPace (e : MomentExpr) (reference : Instant) (k : Int) : Prop where
  sameWay : e.namesTime = false → Instant.SameWay e.minuteSteps k
  midnight : k < 0 → reference.time.hour = 23 → reference.time.minute = 59 →
    e.isSameAtMidnight reference.date.weekday = true

theorem isSameAtMidnight_iff (h : tomorrow.index = (today.index + 1) % 7) :
    e.isSameAtMidnight today = true ↔
      e.lead tomorrow - e.lead today = if e.namesTime = true then -1 else 0 := by
  induction e with
  | now => exact iff_of_true rfl rfl
  | dateTime date time | timeDate time date =>
    rw [lead, lead, date.lead_of_next h, isSameAtMidnight]
    cases date.namedWeekday? with
    | none => by_cases htime : time = .unstated <;> simp [namesTime, htime]
    | some day =>
      by_cases htime : time = .unstated <;> by_cases hday : day = today <;>
        simp [namesTime, htime, hday]
  | after d m ih | before d m ih => exact ih

theorem exists_base (he : e.isRelative = true) (hu : e.evaluate reference = .ok u) :
    ∃ v, e.base.evaluate reference = .ok v ∧ e.minuteSteps.foldlM Instant.addMinutes? v = some u := by
  induction e generalizing u with
  | now | dateTime date time | timeDate time date => exact ⟨u, hu, rfl⟩
  | after d m ih | before d m ih =>
    rw [isRelative, Bool.and_eq_true] at he
    rw [evaluate, bind_eq_ok_iff] at hu
    obtain ⟨w, hw, hu⟩ := hu
    rw [orRefuse_eq_ok_iff] at hu
    obtain ⟨v, hv, hfold⟩ := ih he.2 hw
    refine ⟨v, hv, ?_⟩
    rw [minuteSteps, List.foldlM_append, hfold]
    exact Duration.foldlM_addMinutes?_of_step (Duration.isFixed_iff.1 he.1) hu

theorem base_of_namesTime (he : e.isRelative = true) (hnames : e.namesTime = true)
    (h : reference'.date.IsDaysFrom reference.date n) (hv : e.base.evaluate reference = .ok v)
    (hv' : e.base.evaluate reference' = .ok v') :
    v.time.second < 60 ∧ v'.IsDaysFrom v
      (n + (e.lead reference'.date.weekday - e.lead reference.date.weekday)) := by
  induction e with
  | now => cases hnames
  | dateTime date time | timeDate time date =>
    have hstated : time ≠ .unstated := by simpa [namesTime] using hnames
    obtain ⟨hday, htime⟩ := evaluate_dateTime_eq_ok_iff.1 hv
    obtain ⟨hday', htime'⟩ := evaluate_dateTime_eq_ok_iff.1 hv'
    rw [TimeExpr.evaluate_congr fun heq => absurd heq hstated, htime] at htime'
    obtain ⟨hour, minute, hclock⟩ := TimeExpr.exists_ofClock?_of_evaluate hstated htime
    exact ⟨TimeOfDay.second_lt_of_ofClock? hclock, date.evaluate_isDaysFrom he h hday hday',
      (Except.ok.inj htime').symm⟩
  | after d m ih | before d m ih =>
    rw [isRelative, Bool.and_eq_true] at he
    exact ih he.2 hnames hv hv'

theorem base_of_not_namesTime (he : e.isRelative = true) (hnames : e.namesTime = false)
    (h : reference'.date.IsDaysFrom reference.date n) (hv : e.base.evaluate reference = .ok v)
    (hv' : e.base.evaluate reference' = .ok v') :
    v.time = reference.time ∧ v'.time = reference'.time ∧
      v'.date.IsDaysFrom v.date
        (n + (e.lead reference'.date.weekday - e.lead reference.date.weekday)) := by
  induction e with
  | now =>
    cases hv
    cases hv'
    exact ⟨rfl, rfl, by simpa [lead] using h⟩
  | dateTime date time | timeDate time date =>
    obtain rfl : time = .unstated := by simpa [namesTime] using hnames
    obtain ⟨hday, htime⟩ := evaluate_dateTime_eq_ok_iff.1 hv
    obtain ⟨hday', htime'⟩ := evaluate_dateTime_eq_ok_iff.1 hv'
    exact ⟨(Except.ok.inj htime).symm, (Except.ok.inj htime').symm,
      date.evaluate_isDaysFrom he h hday hday'⟩
  | after d m ih | before d m ih =>
    rw [isRelative, Bool.and_eq_true] at he
    exact ih he.2 hnames hv hv'

theorem lead_of_next_le (h : tomorrow.index = (today.index + 1) % 7) (e : MomentExpr) :
    e.lead tomorrow - e.lead today ≤ 6 := by
  induction e with
  | now => simp [lead]
  | dateTime date time | timeDate time date =>
    rw [lead, lead, date.lead_of_next h]
    split
    · decide
    · split <;> decide
  | after d m ih | before d m ih => exact ih

/-- A moment that the current time is counted from moves as many days as the weekday it is counted
from is farther ahead. -/
theorem addDays?_base (he : e.isRelative = true) (hnames : e.namesTime = false)
    (hleap : reference.time.second = 60) (hn : n ≠ 0) (h : reference.addDays? n = some reference')
    (hway : 0 < n + (e.lead reference'.date.weekday - e.lead reference.date.weekday) ↔ 0 < n)
    (hne : n + (e.lead reference'.date.weekday - e.lead reference.date.weekday) ≠ 0)
    (hv : e.base.evaluate reference = .ok v) (hv' : e.base.evaluate reference' = .ok v') :
    v.addDays? (n + (e.lead reference'.date.weekday - e.lead reference.date.weekday)) = some v' := by
  have hdate : reference'.date.IsDaysFrom reference.date
      (reference'.date.dayNumber - reference.date.dayNumber) := by
    unfold Date.IsDaysFrom
    omega
  obtain ⟨htime, htime', hdays⟩ := base_of_not_namesTime he hnames hdate hv hv'
  generalize e.lead reference'.date.weekday - e.lead reference.date.weekday = ahead at *
  obtain ⟨hminutes, hsecond, hnano⟩ :=
    (Instant.addMinutes?_eq_some_iff_of_leap hleap (by omega)).1 h
  have hside : 0 < (n + ahead) * 1440 ↔ 0 < n * 1440 := by omega
  have ht := reference.minutes_eq
  have ht' := reference'.minutes_eq
  have hmin := v.minutes_eq
  have hmin' := v'.minutes_eq
  unfold Date.IsDaysFrom at hdays
  rw [htime] at hmin
  rw [htime'] at hmin'
  rw [Instant.addDays?, Instant.addMinutes?_eq_some_iff_of_leap (htime ▸ hleap) (by omega), htime, htime']
  simp only [hside]
  exact ⟨by omega, hsecond, hnano⟩

theorem evaluate_leap_iff {shift ahead : Int} (he : e.isRelative = true)
    (hleap : reference.time.second = 60) (hk : k ≠ 0) (h : reference.addDays? (7 * k) = some reference')
    (hshift : reference'.date.IsDaysFrom reference.date (7 * k + shift))
    (hahead : e.lead reference'.date.weekday - e.lead reference.date.weekday = ahead)
    (hfew : ahead ≠ 0 → k < 0 ∧ ahead ≤ 6) (hu : e.evaluate reference = .ok u)
    (hu' : e.evaluate reference' = .ok u') :
    u.addDays? (7 * k) = some u' ↔ (e.namesTime = false → Instant.SameWay e.minuteSteps k) ∧
      ahead = if e.namesTime = true then -shift else 0 := by
  obtain ⟨v, hv, hfold⟩ := exists_base he hu
  obtain ⟨v', hv', hfold'⟩ := exists_base he hu'
  cases hnames : e.namesTime with
  | true =>
    obtain ⟨hsecond, hdays⟩ := base_of_namesTime he hnames hshift hv hv'
    have hkept := Instant.second_of_foldlM_addMinutes? hsecond hfold
    rw [Instant.addDays?_eq_some_iff (hkept ▸ hsecond),
      (hdays.foldlM_addMinutes? hfold hfold').iff_eq, hahead]
    simp only [if_true]
    constructor
    · intro hsum
      exact ⟨nofun, by omega⟩
    · rintro ⟨-, hsum⟩
      omega
  | false =>
    obtain ⟨htime, -, -⟩ := base_of_not_namesTime he hnames hshift hv hv'
    have hdays := addDays?_base he hnames hleap (by omega) h (by omega) (by omega) hv hv'
    rw [hahead] at hdays
    rw [Instant.addDays?_foldlM_iff (htime ▸ hleap) (by omega) (by omega) hdays hfold hfold']
    have hway : Instant.SameWay e.minuteSteps (7 * k) ↔ Instant.SameWay e.minuteSteps k := by
      have hside : 0 < 7 * k ↔ 0 < k := by omega
      simp only [Instant.SameWay, hside]
    rw [hway]
    constructor
    · rintro ⟨hsum, hsame⟩
      exact ⟨fun _ => hsame, by simpa using hsum⟩
    · rintro ⟨hsame, hzero⟩
      exact ⟨by simpa using hzero, hsame rfl⟩

/-- Where a relative expression has a meaning both at the current instant and whole weeks on, the second
is as many weeks after the first exactly if the current second is no leap second, or no weeks are
counted, or the expression keeps pace with the leap second. -/
theorem evaluate_weeksOn_iff (he : e.isRelative = true)
    (h : reference.addDays? (7 * k) = some reference') (hu : e.evaluate reference = .ok u)
    (hu' : e.evaluate reference' = .ok u') :
    u.addDays? (7 * k) = some u' ↔
      reference.time.second < 60 ∨ k = 0 ∨ e.KeepsPace reference k := by
  by_cases hsecond : reference.time.second < 60
  · refine iff_of_true ?_ (.inl hsecond)
    rw [Instant.addDays?_eq_some_iff (second_lt_of_evaluate hsecond hu)]
    exact evaluate_isDaysFrom he ((Instant.addDays?_eq_some_iff hsecond).1 h) hu hu'
  by_cases hk : k = 0
  · subst hk
    cases reference.addMinutes?_zero.symm.trans h
    cases hu.symm.trans hu'
    exact iff_of_true u.addMinutes?_zero (.inr (.inl rfl))
  simp only [hsecond, hk, false_or]
  have hle := reference.time.second_le
  have hleap : reference.time.second = 60 := by omega
  have hshift := Instant.isDaysFrom_of_addDays?_leap hleap (by omega) h
  split at hshift
  · next hmidnight =>
    have hnext := hshift.index_weekday_of_next
    rw [evaluate_leap_iff he hleap hk h hshift rfl (fun _ => ⟨by omega, e.lead_of_next_le hnext⟩) hu hu',
      ← isSameAtMidnight_iff hnext]
    constructor
    · rintro ⟨hsame, hday⟩
      exact ⟨hsame, fun _ _ _ => hday⟩
    · intro hpace
      exact ⟨hpace.sameWay, hpace.midnight (by omega) hmidnight.2.1 hmidnight.2.2⟩
  · next hmidnight =>
    have hweekday : reference'.date.weekday = reference.date.weekday :=
      Date.IsDaysFrom.weekday_eq (by simpa using hshift)
    have hahead : e.lead reference'.date.weekday - e.lead reference.date.weekday = 0 := by
      rw [hweekday, Int.sub_self]
    rw [evaluate_leap_iff he hleap hk h hshift hahead (fun hne => absurd rfl hne) hu hu']
    constructor
    · rintro ⟨hsame, -⟩
      exact ⟨hsame, fun hneg hhour hminute => absurd ⟨by omega, hhour, hminute⟩ hmidnight⟩
    · intro hpace
      exact ⟨hpace.sameWay, by split <;> rfl⟩

/-- "a week and 3 hours after a day after next friday", in a leap second on a Wednesday and a week on -/
theorem evaluate_weeksOn_nextFriday :
    let e : MomentExpr := .after (.both (.one .week) (.count 3 .hour))
      (.dateTime (.after (.one .day) (.relativeWeekday .following .friday)) .unstated)
    let leap : TimeOfDay := ⟨10, 30, 60, 500000000, by decide, by decide, by decide, by decide⟩
    let before : TimeOfDay := ⟨10, 30, 59, 500000000, by decide, by decide, by decide, by decide⟩
    let meant : TimeOfDay := ⟨13, 30, 59, 500000000, by decide, by decide, by decide, by decide⟩
    let reference : Instant := ⟨⟨738993, by decide, by decide⟩, leap⟩
    let reference' : Instant := ⟨⟨739000, by decide, by decide⟩, before⟩
    let u : Instant := ⟨⟨739010, by decide, by decide⟩, meant⟩
    let u' : Instant := ⟨⟨739017, by decide, by decide⟩, meant⟩
    e.isRelative = true ∧ reference.addDays? (7 * 1) = some reference' ∧
      e.evaluate reference = .ok u ∧ e.evaluate reference' = .ok u' ∧
      u.addDays? (7 * 1) = some u' := by
  intro e leap before meant reference reference' u u'
  have he : e.isRelative = true := rfl
  have h : reference.addDays? (7 * 1) = some reference' := by decide +kernel
  have hu : e.evaluate reference = .ok u := by decide +kernel
  have hu' : e.evaluate reference' = .ok u' := by decide +kernel
  have hpace : e.KeepsPace reference 1 := by
    refine ⟨fun _ m hm => ?_, nofun⟩
    cases hm
    decide
  exact ⟨he, h, hu, hu', (evaluate_weeksOn_iff he h hu hu').2 (.inr (.inr hpace))⟩

/-- "3 hours before now" is counted back from the second after a leap second, but a week on from the
second before it. -/
theorem evaluate_threeHoursBeforeNow_leap :
    let e : MomentExpr := .before (.count 3 .hour) .now
    let reference : Instant := ⟨⟨738993, by decide, by decide⟩, ⟨10, 30, 60, 500000000, by decide,
      by decide, by decide, by decide⟩⟩
    let reference' : Instant := ⟨⟨739000, by decide, by decide⟩, ⟨10, 30, 59, 500000000, by decide,
      by decide, by decide, by decide⟩⟩
    e.isRelative = true ∧ reference.addDays? (7 * 1) = some reference' ∧
      ∃ u u', e.evaluate reference = .ok u ∧ e.evaluate reference' = .ok u' ∧
        u.addDays? (7 * 1) ≠ some u' ∧
        u.iso = "2024-04-17 07:31:00.500" ∧ u'.iso = "2024-04-24 07:30:59.500" := by
  intro e reference reference'
  let u : Instant := ⟨⟨738993, by decide, by decide⟩, ⟨7, 31, 0, 500000000, by decide, by decide,
    by decide, by decide⟩⟩
  let u' : Instant := ⟨⟨739000, by decide, by decide⟩, ⟨7, 30, 59, 500000000, by decide, by decide,
    by decide, by decide⟩⟩
  have h : reference.addDays? (7 * 1) = some reference' := by decide +kernel
  have hu : e.evaluate reference = .ok u := by decide +kernel
  have hu' : e.evaluate reference' = .ok u' := by decide +kernel
  have hne : u.addDays? (7 * 1) ≠ some u' := by decide +kernel
  have hiso : u.iso = "2024-04-17 07:31:00.500" := by decide +kernel
  have hiso' : u'.iso = "2024-04-24 07:30:59.500" := by decide +kernel
  exact ⟨rfl, h, u, u', hu, hu', hne, hiso, hiso'⟩

end MomentExpr

end CasualDate
