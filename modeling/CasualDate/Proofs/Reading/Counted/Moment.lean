import CasualDate.Proofs.Reading.Counted.Date

/-!
# Counting the words of moments

Times (`TimeExpr.counts`) and moments (`MomentExpr.counts`) read with their words counted. So the
reader of moments and all readers that it calls find the words that they ask for, and are nested at
most once more often than there are words.
-/

namespace CasualDate

open Reading Counted

variable {ws rest : List Word} {depth n : Nat}

namespace TimeExpr

/-- The minutes at the place behind an hour, and the place behind them. A colon is taken even if no
number follows it. -/
def countedMinutes (depth : Nat) (ws : List Word) (n : Nat) : Except Fault (Option Nat × Nat) := do
  if ws[n]? = some .colon then
    match ← (Number.counted depth).readFrom ws (n + 1) with
    | some (minute, n) => .ok (some minute, n)
    | none => .ok (none, n + 1)
  else .ok (none, n)

/-- The time of an hour. -/
def countedClock (depth : Nat) : Counted TimeExpr := fun ws => do
  match ← Number.counted depth ws with
  | some (hour, n) =>
    let (minute, n) ← countedMinutes depth ws n
    match ws[n]?.bind meridiem? with
    | some half => .ok (some (halfDay half hour (minute.getD 0), n + 1))
    | none =>
      match minute with
      | some minute => .ok (some (clock hour minute, n))
      | none => .ok (some (bare hour, n))
  | none => .ok none

def counted (depth : Nat) : Counted TimeExpr :=
  (first namedTime?).orElse (countedClock depth)

theorem exists_minutes (h : rest.length < depth) (hleaves : Leaves ws n rest) :
    ∃ minute n' left, Leaves ws n' left ∧ countedMinutes depth ws n = .ok (minute, n') ∧
      minutesThen.run rest = some (minute, left) := by
  by_cases hcolon : rest.head? = some .colon
  · obtain ⟨below, rfl⟩ : ∃ below, rest = .colon :: below := List.head?_eq_some_iff.1 hcolon
    rw [List.length_cons] at h
    cases (Number.counts (show below.length < depth by omega)).readFrom hleaves.succ with
    | none hc hf =>
      refine ⟨none, n + 1, below, hleaves.succ, ?_, ?_⟩
      · simp only [countedMinutes, hleaves.getElem?, if_pos hcolon, hc, ok_bind]
      · simp [minutesThen, run_ifReads, perhaps, hf]
    | some minute n' left hleft hc hf =>
      refine ⟨some minute, n', left, hleft, ?_, ?_⟩
      · simp only [countedMinutes, hleaves.getElem?, if_pos hcolon, hc, ok_bind]
      · simp [minutesThen, run_ifReads, perhaps, hf]
  · have hnone : (exactly .colon).run rest = none := run_exactly_eq_none_of_head? hcolon
    refine ⟨none, n, rest, hleaves, ?_, ?_⟩
    · simp only [countedMinutes, hleaves.getElem?, if_neg hcolon]
    · simp [minutesThen, run_ifReads, hnone]

theorem counts_clock (h : ws.length < depth) :
    Counts (countedClock depth) (do hourThen (← reading Number.parse?)) ws := by
  cases Number.counts h with
  | none hc hf =>
    refine .none ?_ (run_of_none hf _)
    simp only [countedClock, hc, ok_bind]
  | some hour n rest hleaves hc hf =>
    obtain ⟨minute, n', left, hleft, hc', hf'⟩ := exists_minutes (hleaves.length_lt h) hleaves
    cases hhalf : left.head?.bind meridiem? with
    | some half =>
      obtain ⟨w, hw, hhalf'⟩ := Option.bind_eq_some_iff.1 hhalf
      obtain ⟨last, rfl⟩ : ∃ last, left = w :: last := List.head?_eq_some_iff.1 hw
      refine .some (halfDay half hour (minute.getD 0)) (n' + 1) last hleft.succ ?_ ?_
      · simp only [countedClock, hc, ok_bind, hc', hleft.getElem?, hhalf]
      · simp [hf, hourThen, hf', run_ifReads, hhalf']
    | none =>
      have hnone : (word meridiem?).run left = none := by
        cases left with
        | nil => rfl
        | cons w last => simpa using hhalf
      cases minute with
      | none =>
        refine .some (bare hour) n' left hleft ?_ ?_
        · simp only [countedClock, hc, ok_bind, hc', hleft.getElem?, hhalf]
        · simp [hf, hourThen, hf', run_ifReads, hnone]
      | some minute =>
        refine .some (clock hour minute) n' left hleft ?_ ?_
        · simp only [countedClock, hc, ok_bind, hc', hleft.getElem?, hhalf]
        · simp [hf, hourThen, hf', run_ifReads, hnone]

theorem counts (h : ws.length < depth) : Counts (counted depth) (reading parse?) ws := by
  rw [reading_parse?]
  exact .orElse (.first namedTime? ws) (counts_clock h)

end TimeExpr

namespace MomentExpr

/-- What may stand at the place, behind a word that opens it or directly. -/
def countedBehind {α : Type} (opens : Word → Option Unit) (c : Counted α) (ws : List Word) (n : Nat) :
    Except Fault (Option (α × Nat)) :=
  if (ws[n]?.bind opens).isSome then c.readFrom ws (n + 1) else c.readFrom ws n

/-- A date with the time that may stand at the place. -/
def countedDateThen (depth : Nat) (date : DateExpr) (ws : List Word) (n : Nat) :
    Except Fault (Option (MomentExpr × Nat)) := do
  match ← countedBehind commaOrAt? (TimeExpr.counted depth) ws n with
  | some (time, n) => .ok (some (dateTime date time, n))
  | none => .ok (some (dateTime date .unstated, n))

/-- A time with the date that may stand at the place. -/
def countedTimeThen (depth : Nat) (time : TimeExpr) (ws : List Word) (n : Nat) :
    Except Fault (Option (MomentExpr × Nat)) := do
  match ← countedBehind commaOrOn? (DateExpr.counted depth) ws n with
  | some (date, n) => .ok (some (timeDate time date, n))
  | none => .ok (some (timeDate time .unstated, n))

/-- A duration at a place, with the moment that it is counted from. -/
def countedShift (moment : Counted MomentExpr) (d : Duration) (ws : List Word) (n : Nat) :
    Except Fault (Option (MomentExpr × Nat)) := do
  match ws[n]? with
  | some .afterWord | some .fromWord =>
    match ← moment.readFrom ws (n + 1) with
    | some (m, n) => .ok (some (after d m, n))
    | none => .ok none
  | some .beforeWord =>
    match ← moment.readFrom ws (n + 1) with
    | some (m, n) => .ok (some (before d m, n))
    | none => .ok none
  | some .agoWord => .ok (some (before d now, n + 1))
  | _ => .ok none

/-- A moment, with at most `depth` readings of moments inside one another. -/
def counted : Nat → Counted MomentExpr
  | 0 => fun _ => .error .spent
  | depth + 1 => fun ws => do
    if ws.head? = some .now then .ok (some (now, 1))
    else if ws.head? = some .inWord then
      match ← (Duration.counted (depth + 1)).readFrom ws 1 with
      | some (d, n) => .ok (some (after d now, n))
      | none => .ok none
    else
      match ← DateExpr.counted (depth + 1) ws with
      | some (date, n) => countedDateThen (depth + 1) date ws n
      | none =>
        match ← Duration.counted (depth + 1) ws with
        | some (d, n) => countedShift (counted depth) d ws n
        | none =>
          match ← TimeExpr.counted (depth + 1) ws with
          | some (time, n) => countedTimeThen (depth + 1) time ws n
          | none => .ok none

theorem agrees_behind {α : Type} {c : Counted α} {f : Reading α} (opens : Word → Option Unit)
    (hcounts : ∀ us : List Word, us.length < depth → Counts c f us) (h : rest.length < depth)
    (hleaves : Leaves ws n rest) :
    Agrees ws (countedBehind opens c ws n) ((ifReads (word opens) (fun _ => f) f).run rest) := by
  cases hopens : rest.head?.bind opens with
  | some _ =>
    obtain ⟨w, hw, hopens'⟩ := Option.bind_eq_some_iff.1 hopens
    obtain ⟨below, rfl⟩ : ∃ below, rest = w :: below := List.head?_eq_some_iff.1 hw
    rw [List.length_cons] at h
    refine ((hcounts below (by omega)).readFrom hleaves.succ).congr ?_ ?_
    · simp only [countedBehind, hleaves.getElem?, hopens, Option.isSome_some, if_true]
    · simp [run_ifReads, hopens']
  | none =>
    have hnone : (word opens).run rest = none := by
      cases rest with
      | nil => rfl
      | cons w below => simpa using hopens
    refine ((hcounts rest h).readFrom hleaves).congr ?_ ?_
    · simp [countedBehind, hleaves.getElem?, hopens]
    · simp [run_ifReads, hnone]

theorem agrees_dateThen (date : DateExpr) (h : rest.length < depth) (hleaves : Leaves ws n rest) :
    Agrees ws (countedDateThen depth date ws n) ((dateThen date).run rest) := by
  rw [dateThen, reading_timeAfter]
  cases agrees_behind commaOrAt? (fun _ => TimeExpr.counts) h hleaves with
  | none hc hf =>
    refine .some (dateTime date .unstated) n rest hleaves ?_ ?_
    · simp only [countedDateThen, hc, ok_bind]
    · rw [run_ifReads, hf]
      rfl
  | some time n' left hleft hc hf =>
    refine .some (dateTime date time) n' left hleft ?_ ?_
    · simp only [countedDateThen, hc, ok_bind]
    · rw [run_ifReads, hf]
      rfl

theorem agrees_timeThen (time : TimeExpr) (h : rest.length < depth) (hleaves : Leaves ws n rest) :
    Agrees ws (countedTimeThen depth time ws n) ((timeThen time).run rest) := by
  rw [timeThen, reading_dateAfter]
  cases agrees_behind commaOrOn? (fun _ => DateExpr.counts) h hleaves with
  | none hc hf =>
    refine .some (timeDate time .unstated) n rest hleaves ?_ ?_
    · simp only [countedTimeThen, hc, ok_bind]
    · rw [run_ifReads, hf]
      rfl
  | some date n' left hleft hc hf =>
    refine .some (timeDate time date) n' left hleft ?_ ?_
    · simp only [countedTimeThen, hc, ok_bind]
    · rw [run_ifReads, hf]
      rfl

theorem agrees_shift {moment : Counted MomentExpr} {f : Reading MomentExpr} (d : Duration)
    (hcounts : ∀ us : List Word, us.length < rest.length → Counts moment f us)
    (hleaves : Leaves ws n rest) :
    Agrees ws (countedShift moment d ws n) ((shiftThen d f).run rest) := by
  cases rest with
  | nil =>
    refine .none ?_ rfl
    simp only [countedShift, hleaves.getElem?, List.head?_nil]
  | cons w below =>
    cases w with
    | afterWord | fromWord =>
      cases (hcounts below (by simp)).readFrom hleaves.succ with
      | none hc hf =>
        refine .none ?_ ?_
        · simp only [countedShift, hleaves.getElem?, List.head?_cons, hc, ok_bind]
        · simp [shiftThen, DateExpr.afterOrFrom?, hf]
      | some m n' left hleft hc hf =>
        refine .some (after d m) n' left hleft ?_ ?_
        · simp only [countedShift, hleaves.getElem?, List.head?_cons, hc, ok_bind]
        · simp [shiftThen, DateExpr.afterOrFrom?, hf]
    | beforeWord =>
      cases (hcounts below (by simp)).readFrom hleaves.succ with
      | none hc hf =>
        refine .none ?_ ?_
        · simp only [countedShift, hleaves.getElem?, List.head?_cons, hc, ok_bind]
        · simp [shiftThen, DateExpr.afterOrFrom?, hf]
      | some m n' left hleft hc hf =>
        refine .some (before d m) n' left hleft ?_ ?_
        · simp only [countedShift, hleaves.getElem?, List.head?_cons, hc, ok_bind]
        · simp [shiftThen, DateExpr.afterOrFrom?, hf]
    | agoWord =>
      refine .some (before d now) (n + 1) below hleaves.succ ?_ ?_
      · simp only [countedShift, hleaves.getElem?, List.head?_cons]
      · simp [shiftThen, DateExpr.afterOrFrom?]
    | _ =>
      refine .none ?_ ?_
      · simp only [countedShift, hleaves.getElem?, List.head?_cons]
      · simp [shiftThen, DateExpr.afterOrFrom?]

theorem counts (h : ws.length < depth) : Counts (counted depth) (reading parse?) ws := by
  induction depth generalizing ws with
  | zero => exact absurd h (Nat.not_lt_zero _)
  | succ depth ih =>
    rw [reading_parse?]
    by_cases hnow : ws.head? = some .now
    · obtain ⟨rest, rfl⟩ : ∃ rest, ws = .now :: rest := List.head?_eq_some_iff.1 hnow
      exact .some now 1 rest (.cons .now rest) (by simp only [counted, if_pos hnow])
        (by simp [run_ifReads])
    have hnow' : (exactly .now).run ws = none := run_exactly_eq_none_of_head? hnow
    by_cases hin : ws.head? = some .inWord
    · obtain ⟨rest, rfl⟩ : ∃ rest, ws = .inWord :: rest := List.head?_eq_some_iff.1 hin
      have hplace := Leaves.cons .inWord rest
      cases (Duration.counts (hplace.length_lt h)).readFrom hplace with
      | none hc hf =>
        refine .none ?_ ?_
        · simp only [counted, if_neg hnow, if_pos hin, hc, ok_bind]
        · simp [run_ifReads, hf]
      | some d n left hleft hc hf =>
        refine .some (after d now) n left hleft ?_ ?_
        · simp only [counted, if_neg hnow, if_pos hin, hc, ok_bind]
        · simp [run_ifReads, hf]
    have hin' : (exactly .inWord).run ws = none := run_exactly_eq_none_of_head? hin
    cases DateExpr.counts h with
    | some date n rest hleaves hc hf =>
      refine (agrees_dateThen date (hleaves.length_lt h) hleaves).congr ?_ ?_
      · simp only [counted, if_neg hnow, if_neg hin, hc, ok_bind]
      · simp [run_ifReads, hnow', hin', hf]
    | none hdate hdate' =>
      cases Duration.counts h with
      | some d n rest hleaves hc hf =>
        have hshorter := length_lt_of_run_reading hf
        refine (agrees_shift d (fun us hus => ih (show us.length < depth by omega)) hleaves).congr ?_ ?_
        · simp only [counted, if_neg hnow, if_neg hin, hdate, hc, ok_bind]
        · simp [run_ifReads, hnow', hin', hdate', hf]
      | none hduration hduration' =>
        cases TimeExpr.counts h with
        | none hc hf =>
          refine .none ?_ ?_
          · simp only [counted, if_neg hnow, if_neg hin, hdate, hduration, hc, ok_bind]
          · simp [run_ifReads, hnow', hin', hdate', hduration', hf]
        | some time n rest hleaves hc hf =>
          refine (agrees_timeThen time (hleaves.length_lt h) hleaves).congr ?_ ?_
          · simp only [counted, if_neg hnow, if_neg hin, hdate, hduration, hc, ok_bind]
          · simp [run_ifReads, hnow', hin', hdate', hduration', hf]

end MomentExpr

end CasualDate
