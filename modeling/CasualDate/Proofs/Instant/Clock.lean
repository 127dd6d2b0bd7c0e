import CasualDate.Instant
import Mathlib.Algebra.Ring.Int.Defs

/-!
# Times of day that minutes are counted from

The time of day that minutes lead to depends on the time of day alone (`Instant.time_of_addMinutes?`).
Minutes from an ordinary second keep it. From a leap second the first minutes that are not zero lead
to an ordinary one: forward to the one before it, back to the one after it. So a clock shows the same
after one list of minutes exactly if they make whole days together, and do not first lead back from a
leap second (`TimeOfDay.showsSame_foldl_addMinutes`).
-/

namespace CasualDate

namespace TimeOfDay

variable {t u : TimeOfDay} {n : Int} {steps : List Int}

def minuteOfDay (t : TimeOfDay) : Nat :=
  t.hour * 60 + t.minute

theorem hour_ofDay_lt (minutes : Int) : (minutes % 1440).toNat / 60 < 24 := by omega

theorem minute_ofDay_lt (minutes : Int) : (minutes % 1440).toNat % 60 < 60 := by omega

/-- The time in a minute counted from any midnight. -/
def inMinute (minutes : Int) (second nanosecond : Nat) (hs : second ≤ 60)
    (hn : nanosecond < 1000000000) : TimeOfDay :=
  ⟨(minutes % 1440).toNat / 60, (minutes % 1440).toNat % 60, second, nanosecond,
    hour_ofDay_lt minutes, minute_ofDay_lt minutes, hs, hn⟩

/-- The time of day `n` minutes later, or earlier if `n` is negative. -/
def addMinutes (t : TimeOfDay) (n : Int) : TimeOfDay :=
  if t.second < 60 ∨ n = 0 then
    inMinute (t.minuteOfDay + n) t.second t.nanosecond t.second_le t.nanosecond_lt
  else if 0 < n then
    inMinute (t.minuteOfDay + n) t.clockSecond t.nanosecond t.clockSecond_le t.nanosecond_lt
  else inMinute (t.minuteOfDay + 1 + n) midnight.second t.nanosecond midnight.second_le t.nanosecond_lt

/-- A clock without leap seconds shows the same at both times, by whole seconds. -/
structure ShowsSame (t u : TimeOfDay) : Prop where
  hour_eq : t.hour = u.hour
  minute_eq : t.minute = u.minute
  clockSecond_eq : t.clockSecond = u.clockSecond

theorem minuteOfDay_lt (t : TimeOfDay) : t.minuteOfDay < 1440 := by
  have := t.hour_lt
  have := t.minute_lt
  unfold minuteOfDay
  omega

theorem showsSame_iff :
    t.ShowsSame u ↔ t.minuteOfDay = u.minuteOfDay ∧ t.clockSecond = u.clockSecond := by
  have := t.minute_lt
  have := u.minute_lt
  unfold minuteOfDay
  constructor
  · intro h
    exact ⟨by rw [h.hour_eq, h.minute_eq], h.clockSecond_eq⟩
  · intro ⟨hminutes, hsecond⟩
    exact ⟨by omega, by omega, hsecond⟩

@[simp] theorem minuteOfDay_inMinute (minutes : Int) {second nanosecond : Nat} (hs : second ≤ 60)
    (hn : nanosecond < 1000000000) :
    (inMinute minutes second nanosecond hs hn).minuteOfDay = (minutes % 1440).toNat := by
  unfold minuteOfDay inMinute
  dsimp only
  omega

@[simp] theorem second_inMinute (minutes : Int) {second nanosecond : Nat} (hs : second ≤ 60)
    (hn : nanosecond < 1000000000) : (inMinute minutes second nanosecond hs hn).second = second := rfl

@[simp] theorem addMinutes_zero (t : TimeOfDay) : t.addMinutes 0 = t := by
  have hhour := t.hour_lt
  have hminute := t.minute_lt
  have hzero : t.addMinutes 0 =
      inMinute (t.minuteOfDay + 0) t.second t.nanosecond t.second_le t.nanosecond_lt :=
    if_pos (.inr rfl)
  obtain ⟨hour, minute, second, nanosecond, _, _, _, _⟩ := t
  rw [hzero, inMinute, mk.injEq]
  dsimp only [minuteOfDay] at *
  omega

theorem second_addMinutes_lt (hn : n ≠ 0) : (t.addMinutes n).second < 60 := by
  unfold addMinutes
  split
  · next h => exact h.resolve_right hn
  · split
    · exact Nat.lt_succ_of_le (Nat.min_le_right ..)
    · exact Nat.succ_pos 59

theorem minuteOfDay_addMinutes (h : t.second < 60 ∨ 0 ≤ n) :
    ((t.addMinutes n).minuteOfDay : Int) = (t.minuteOfDay + n) % 1440 := by
  unfold addMinutes
  split
  · rw [minuteOfDay_inMinute]
    omega
  · split
    · rw [minuteOfDay_inMinute]
      omega
    · omega

theorem clockSecond_addMinutes (h : t.second < 60 ∨ 0 ≤ n) :
    (t.addMinutes n).clockSecond = t.clockSecond := by
  unfold addMinutes
  split
  · rfl
  · split
    · exact Nat.min_eq_left (Nat.min_le_right ..)
    · omega

theorem second_addMinutes_of_neg (h : t.second = 60) (hn : n < 0) : (t.addMinutes n).second = 0 := by
  unfold addMinutes
  rw [if_neg (by omega), if_neg (by omega), second_inMinute]
  rfl

/-! ### One list of minutes -/

/-- Nothing but zeros keeps a leap second. -/
theorem second_foldl_addMinutes_eq_iff : (steps.foldl addMinutes t).second = 60 ↔
    t.second = 60 ∧ ∀ n ∈ steps, n = 0 := by
  induction steps generalizing t with
  | nil => simp
  | cons n steps ih =>
    rw [List.foldl_cons, ih, List.forall_mem_cons]
    by_cases hn : n = 0
    · subst hn
      simp
    · have := second_addMinutes_lt (t := t) hn
      omega

/-- The minutes do not first lead back from a leap second. -/
def LeadsOn (t : TimeOfDay) (steps : List Int) : Prop :=
  t.second = 60 → ∀ n, steps.find? (· ≠ 0) = some n → 0 < n

theorem leadsOn_of_lt (h : t.second < 60) : t.LeadsOn steps := fun hleap => by omega

@[simp] theorem leadsOn_zero_cons : t.LeadsOn (0 :: steps) ↔ t.LeadsOn steps := Iff.rfl

theorem leadsOn_cons_iff (hn : n ≠ 0) : t.LeadsOn (n :: steps) ↔ t.second < 60 ∨ 0 ≤ n := by
  have hle := t.second_le
  have hfind : (n :: steps).find? (· ≠ 0) = some n := List.find?_cons_of_pos (by simpa using hn)
  rw [LeadsOn, hfind]
  constructor
  · intro h
    by_cases hleap : t.second = 60
    · exact .inr (Int.le_of_lt (h hleap n rfl))
    · omega
  · rintro h hleap _ ⟨⟩
    omega

theorem foldl_addMinutes_of_leadsOn (h : t.LeadsOn steps) :
    ((steps.foldl addMinutes t).minuteOfDay : Int) = (t.minuteOfDay + steps.sum) % 1440 ∧
      (steps.foldl addMinutes t).clockSecond = t.clockSecond := by
  induction steps generalizing t with
  | nil =>
    have hlt := t.minuteOfDay_lt
    rw [List.foldl_nil, List.sum_nil]
    exact ⟨by omega, rfl⟩
  | cons n steps ih =>
    rw [List.foldl_cons, List.sum_cons]
    by_cases hn : n = 0
    · subst hn
      rw [addMinutes_zero, Int.zero_add]
      exact ih (leadsOn_zero_cons.1 h)
    · have hon := (leadsOn_cons_iff hn).1 h
      obtain ⟨hminute, hsecond⟩ := ih (leadsOn_of_lt (second_addMinutes_lt hn))
      rw [minuteOfDay_addMinutes hon] at hminute
      exact ⟨by omega, hsecond.trans (clockSecond_addMinutes hon)⟩

/-- Once led back from a leap second the clock shows a full minute, whatever follows. -/
theorem foldl_addMinutes_of_not_leadsOn (h : ¬ t.LeadsOn steps) :
    (steps.foldl addMinutes t).clockSecond = 0 := by
  induction steps with
  | nil => exact absurd (fun _ _ => nofun) h
  | cons n steps ih =>
    rw [List.foldl_cons]
    by_cases hn : n = 0
    · subst hn
      rw [addMinutes_zero]
      exact ih h
    · rw [leadsOn_cons_iff hn] at h
      have hle := t.second_le
      have hback := second_addMinutes_of_neg (t := t) (n := n) (by omega) (by omega)
      rw [(foldl_addMinutes_of_leadsOn (leadsOn_of_lt (second_addMinutes_lt hn))).2, clockSecond, hback]
      rfl

theorem showsSame_foldl_addMinutes :
    (steps.foldl addMinutes t).ShowsSame t ↔ steps.sum % 1440 = 0 ∧ t.LeadsOn steps := by
  have hlt := t.minuteOfDay_lt
  rw [showsSame_iff]
  by_cases h : t.LeadsOn steps
  · obtain ⟨hminute, hsecond⟩ := foldl_addMinutes_of_leadsOn h
    simp only [hsecond, h, and_true]
    omega
  · have hsecond := foldl_addMinutes_of_not_leadsOn h
    have hleap : t.second = 60 := Classical.not_not.1 fun hne => h fun heq => absurd heq hne
    refine iff_of_false (fun hsame => ?_) fun hsame => h hsame.2
    rw [hsecond, clockSecond, hleap] at hsame
    cases hsame.2

end TimeOfDay

namespace Instant

variable {t u : Instant} {n : Int}

theorem time_of_addMinutes? (h : t.addMinutes? n = some u) : u.time = t.time.addMinutes n := by
  have hminutes (m : Int) : (t.minutes + m) % 1440 = (t.time.minuteOfDay + m) % 1440 := by
    unfold minutes TimeOfDay.minuteOfDay
    omega
  have hinMinute {m : Int} {second second' : Nat} {hs : second ≤ 60} (hs' : second' ≤ 60)
      (hsecond : second = second')
      (h : inMinute? (t.minutes + m) second t.time.nanosecond hs t.time.nanosecond_lt = some u) :
      u.time = .inMinute (t.time.minuteOfDay + m) second' t.time.nanosecond hs'
        t.time.nanosecond_lt := by
    subst hsecond
    obtain ⟨date, -, rfl⟩ := Option.map_eq_some_iff.1 h
    simp only [TimeOfDay.inMinute, hminutes]
  unfold addMinutes? at h
  unfold TimeOfDay.addMinutes
  split at h
  · next hcond =>
    rw [if_pos hcond]
    exact hinMinute _ rfl h
  · next hcond =>
    have hleap : t.time.clockSecond = 59 := by unfold TimeOfDay.clockSecond; omega
    rw [if_neg hcond]
    split at h
    · next hpos =>
      rw [if_pos hpos]
      exact hinMinute _ hleap.symm h
    · next hpos =>
      rw [if_neg hpos, Int.add_assoc]
      rw [Int.add_assoc] at h
      exact hinMinute _ rfl h

end Instant

end CasualDate
