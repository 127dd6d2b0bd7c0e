import CasualDate.Proofs.Reading.Counted.Number
import CasualDate.Proofs.Reading.Cut.Date

/-!
# Counting the words of dates

Durations (`Duration.counts`) and dates (`DateExpr.counts`) read with their words counted. A way to
write a date that is begun and fails can be given up for good (`countedNumeric`, `countedByDuration`,
`countedRelative`): none of the later ways begins with the same words.
-/

namespace CasualDate

open Reading Counted

variable {ws rest : List Word} {depth n : Nat}

namespace Duration

/-- An amount of one unit. -/
def countedPart (depth : Nat) : Counted Duration :=
  ((Number.counted depth).andThen fun n => (first unit?).map (count n)).orElse
    ((first article?).andThen fun _ => (first unit?).map one)

/-- A duration, with at most `depth` readings of durations inside one another. -/
def counted : Nat → Counted Duration
  | 0 => fun _ => .error .spent
  | depth + 1 => fun ws => do
    match ← countedPart (depth + 1) ws with
    | some (d, n) =>
      if ws[n]? = some .andWord then
        match ← (counted depth).readFrom ws (n + 1) with
        | some (second, n) => .ok (some (both d second, n))
        | none => .ok (some (d, n))
      else .ok (some (d, n))
    | none => .ok none

theorem counts_part (h : ws.length < depth) : Counts (countedPart depth) (reading part?) ws := by
  rw [reading_part?]
  refine .orElse (.andThen (Number.counts h) fun n rest _ => ?_)
    (.andThen (.first article? ws) fun _ rest _ => ?_)
  · exact (Counts.first unit? rest).map (by simp)
  · exact (Counts.first unit? rest).map (by simp)

theorem counts (h : ws.length < depth) : Counts (counted depth) (reading parse?) ws := by
  induction depth generalizing ws with
  | zero => exact absurd h (Nat.not_lt_zero _)
  | succ depth ih =>
    rw [reading_parse?]
    cases counts_part h with
    | none hc hf =>
      refine .none ?_ (run_of_none hf _)
      simp only [counted, hc, ok_bind]
    | some d n rest hleaves hc hf =>
      have hshorter := length_lt_of_run_reading hf
      by_cases hand : rest.head? = some .andWord
      · obtain ⟨below, rfl⟩ : ∃ below, rest = .andWord :: below := List.head?_eq_some_iff.1 hand
        rw [List.length_cons] at hshorter
        cases (ih (show below.length < depth by omega)).readFrom hleaves.succ with
        | none hc' hf' =>
          refine .some d n _ hleaves ?_ ?_
          · simp only [counted, hc, ok_bind, hleaves.getElem?, if_pos hand, hc']
          · simp [hf, hf']
        | some second m left hleft hc' hf' =>
          refine .some (both d second) m left hleft ?_ ?_
          · simp only [counted, hc, ok_bind, hleaves.getElem?, if_pos hand, hc']
          · simp [hf, hf']
      · have hnone : (exactly .andWord).run rest = none := run_exactly_eq_none_of_head? hand
        refine .some d n rest hleaves ?_ ?_
        · simp only [counted, hc, ok_bind, hleaves.getElem?, if_neg hand]
        · simp [hf, hnone]

end Duration

namespace DateExpr

/-- The year behind a day. -/
def countedYear (depth : Nat) : Counted Nat := fun ws => do
  if ws.head? = some .comma then
    match ← (Number.counted depth).readFrom ws 1 with
    | some (y, n) => if 1000 ≤ y then .ok (some (y, n)) else .ok none
    | none => .ok none
  else
    match ← Number.counted depth ws with
    | some (y, n) => if ws[n]?.any endsHour then .ok none else .ok (some (y, n))
    | none => .ok none

/-- The day of a month with the year that may stand at the place. -/
def countedDayThen (depth : Nat) (m : Month) (d : Nat) (ws : List Word) (n : Nat) :
    Except Fault (Option (DateExpr × Nat)) := do
  match ← (countedYear depth).readFrom ws n with
  | some (y, n) => .ok (some (monthDayYear m d y, n))
  | none => .ok (some (monthDay m d, n))

def countedMonthFirst (depth : Nat) : Counted DateExpr := fun ws => do
  match ← first month? ws with
  | some (m, n) =>
    match ← (Number.counted depth).readFrom ws n with
    | some (d, n) =>
      if 31 < d then .ok (some (monthYear m d, n))
      else countedDayThen depth m d ws (pass .ordinalSuffix ws n)
    | none => .ok (some (month m, n))
  | none => .ok none

def countedDayFirst (depth : Nat) : Counted DateExpr := fun ws => do
  match ← (Number.counted depth).readFrom ws (pass .the ws 0) with
  | some (d, n) =>
    let n := pass .ofWord ws (pass .ordinalSuffix ws n)
    if d ≤ 31 then
      match ← (first month?).readFrom ws n with
      | some (m, n) => countedDayThen depth m d ws n
      | none => .ok none
    else .ok none
  | none => .ok none

/-- Behind two numbers with a mark between them and the same mark, a third number decides. -/
def countedNumeric (depth : Nat) (ws : List Word) :
    Except Fault (Option (Option (DateExpr × Nat))) := do
  match ← Number.counted depth ws with
  | some (a, n) =>
    match ws[n]? with
    | some delimiter =>
      if isDelimiter delimiter then
        match ← (Number.counted depth).readFrom ws (n + 1) with
        | some (b, n) =>
          let md := monthAndDay delimiter a b
          if ws[n]? = some delimiter then
            match ← (Number.counted depth).readFrom ws (n + 1) with
            | some (y, n) => .ok (some (some (numericFull md.1 md.2 y, n)))
            | none => .ok (some none)
          else .ok (some (some (numeric md.1 md.2, n)))
        | none => .ok none
      else .ok none
    | none => .ok none
  | none => .ok none

/-- What follows a duration decides. -/
def countedByDuration (depth : Nat) (date : Counted DateExpr) (ws : List Word) :
    Except Fault (Option (Option (DateExpr × Nat))) := do
  match ← Duration.counted depth ws with
  | some (d, n) =>
    if d.isSubDaily then .ok (some none)
    else
      match ws[n]? with
      | some .agoWord => .ok (some (some (before d today, n + 1)))
      | some .afterWord | some .fromWord =>
        match ← date.readFrom ws (n + 1) with
        | some (e, n) => .ok (some (some (after d e, n)))
        | none => .ok (some none)
      | _ => .ok (some none)
  | none => .ok none

/-- What follows a relative word decides. -/
def countedRelative (ws : List Word) : Except Fault (Option (Option (DateExpr × Nat))) := do
  match ← first relativeWord? ws with
  | some (r, n) => .ok (some (← (first (weekdayOrUnit? r)).readFrom ws n))
  | none => .ok none

/-- A date, with at most `depth` readings of dates inside one another. -/
def counted : Nat → Counted DateExpr
  | 0 => fun _ => .error .spent
  | depth + 1 =>
    (first namedDayWord?).orElse ((countedMonthFirst (depth + 1)).orElse
      ((countedDayFirst (depth + 1)).orElse (unlessDecided (countedNumeric (depth + 1))
        (unlessDecided (countedByDuration (depth + 1) (counted depth))
          (unlessDecided countedRelative (first weekdayWord?))))))

theorem counts_year (h : ws.length < depth) : Counts (countedYear depth) (reading year?) ws := by
  rw [reading_year?]
  by_cases hcomma : ws.head? = some .comma
  · obtain ⟨rest, rfl⟩ : ∃ rest, ws = .comma :: rest := List.head?_eq_some_iff.1 hcomma
    have hleaves := Leaves.cons .comma rest
    cases (Number.counts (hleaves.length_lt h)).readFrom hleaves with
    | none hc hf =>
      refine .none ?_ ?_
      · simp only [countedYear, if_pos hcomma, hc, ok_bind]
      · simp [Number.run_ifReads_exactly, skipWord, hf]
    | some y n left hleft hc hf =>
      by_cases hy : 1000 ≤ y
      · refine .some y n left hleft ?_ ?_
        · simp only [countedYear, if_pos hcomma, hc, ok_bind, if_pos hy]
        · simp [Number.run_ifReads_exactly, skipWord, hf, hy]
      · refine .none ?_ ?_
        · simp only [countedYear, if_pos hcomma, hc, ok_bind, if_neg hy]
        · simp [Number.run_ifReads_exactly, skipWord, hf, hy]
  · have hnone : (exactly .comma).run ws = none := run_exactly_eq_none_of_head? hcomma
    cases Number.counts h with
    | none hc hf =>
      refine .none ?_ ?_
      · simp only [countedYear, if_neg hcomma, hc, ok_bind]
      · simp [run_ifReads, hnone, hf]
    | some y n rest hleaves hc hf =>
      by_cases hends : rest.head?.any endsHour = true
      · refine .none ?_ ?_
        · simp only [countedYear, if_neg hcomma, hc, ok_bind, hleaves.getElem?, if_pos hends]
        · simp [run_ifReads, hnone, hf, hends]
      · refine .some y n rest hleaves ?_ ?_
        · simp only [countedYear, if_neg hcomma, hc, ok_bind, hleaves.getElem?, if_neg hends]
        · simp [run_ifReads, hnone, hf, hends]

theorem agrees_dayThen (m : Month) (d : Nat) (h : rest.length < depth) (hleaves : Leaves ws n rest) :
    Agrees ws (countedDayThen depth m d ws n) ((dayThen m d).run rest) := by
  cases (counts_year h).readFrom hleaves with
  | none hc hf =>
    refine .some (monthDay m d) n rest hleaves ?_ ?_
    · simp only [countedDayThen, hc, ok_bind]
    · simp [dayThen, run_ifReads, hf]
  | some y n' left hleft hc hf =>
    refine .some (monthDayYear m d y) n' left hleft ?_ ?_
    · simp only [countedDayThen, hc, ok_bind]
    · simp [dayThen, run_ifReads, hf]

theorem counts_monthFirst (h : ws.length < depth) :
    Counts (countedMonthFirst depth) (reading monthFirst?) ws := by
  rw [reading_monthFirst?]
  cases Counts.first month? ws with
  | none hc hf =>
    refine .none ?_ (run_of_none hf _)
    simp only [countedMonthFirst, hc, ok_bind]
  | some m n rest hleaves hc hf =>
    cases (Number.counts (hleaves.length_lt h)).readFrom hleaves with
    | none hc' hf' =>
      refine .some (month m) n rest hleaves ?_ ?_
      · simp only [countedMonthFirst, hc, ok_bind, hc']
      · simp [hf, run_ifReads, hf']
    | some d n' left hleft hc' hf' =>
      by_cases hd : 31 < d
      · refine .some (monthYear m d) n' left hleft ?_ ?_
        · simp only [countedMonthFirst, hc, ok_bind, hc', if_pos hd]
        · simp [hf, run_ifReads, hf', hd]
      · have hplace := hleft.pass .ordinalSuffix
        refine (agrees_dayThen m d (hplace.length_lt h) hplace).congr ?_ ?_
        · simp only [countedMonthFirst, hc, ok_bind, hc', if_neg hd]
        · simp [hf, run_ifReads, hf', hd]

theorem counts_dayFirst (h : ws.length < depth) :
    Counts (countedDayFirst depth) (reading dayFirst?) ws := by
  rw [reading_dayFirst?]
  have hthe := (Leaves.zero ws).pass .the
  cases (Number.counts (hthe.length_lt h)).readFrom hthe with
  | none hc hf =>
    refine .none ?_ ?_
    · simp only [countedDayFirst, hc, ok_bind]
    · simp [hf]
  | some d n rest hleaves hc hf =>
    by_cases hd : d ≤ 31
    · cases (Counts.first month? _).readFrom ((hleaves.pass .ordinalSuffix).pass .ofWord) with
      | none hc' hf' =>
        refine .none ?_ ?_
        · simp only [countedDayFirst, hc, ok_bind, if_pos hd, hc']
        · simp [hf, hf']
      | some m n' left hleft hc' hf' =>
        refine (agrees_dayThen m d (hleft.length_lt h) hleft).congr ?_ ?_
        · simp only [countedDayFirst, hc, ok_bind, if_pos hd, hc']
        · simp [hf, hf', hd]
    · refine .none ?_ ?_
      · simp only [countedDayFirst, hc, ok_bind, if_neg hd]
      · simp [hf, hd]

/-- What the later ways to write a date read, from a duration on. -/
def fromDuration : Reading DateExpr :=
  byDuration <|> reading relative? <|> word weekdayWord?

theorem run_fromDuration_of_delimiter {a : Nat} {delimiter : Word} (hd : isDelimiter delimiter = true)
    (hnumber : (reading Number.parse?).run ws = some (a, delimiter :: rest)) :
    fromDuration.run ws = none := by
  have hpart : (reading Duration.part?).run ws = none := by
    refine run_part?_of_number hnumber fun w hw => ?_
    cases hw
    cases delimiter <;> first | rfl | cases hd
  have hby : byDuration.run ws = none :=
    run_of_none (by rw [Duration.reading_parse?]; exact run_of_none hpart _) _
  obtain ⟨w, us, rfl, hw⟩ := Number.exists_of_run hnumber
  have hcount : beginsCount w = true := by simp [beginsCount, hw]
  obtain ⟨-, -, hrelative, hweekday⟩ := run_eq_none_of_beginsCount hcount us
  rw [fromDuration, run_orElse, run_orElse, hby, hrelative, hweekday]
  rfl

theorem decides_numeric (h : ws.length < depth) :
    Decides (countedNumeric depth) (reading numeric?) fromDuration ws := by
  rw [reading_numeric?]
  cases Number.counts h with
  | none hc hf =>
    refine .none ?_ (run_of_none hf _)
    simp only [countedNumeric, hc, ok_bind]
  | some a n rest hleaves hc hf =>
    cases rest with
    | nil =>
      refine .none ?_ ?_
      · simp only [countedNumeric, hc, ok_bind, hleaves.getElem?, List.head?_nil]
      · simp [hf]
    | cons delimiter below =>
      by_cases hd : isDelimiter delimiter = true
      · cases (Number.counts (hleaves.succ.length_lt h)).readFrom hleaves.succ with
        | none hc' hf' =>
          refine .none ?_ ?_
          · simp only [countedNumeric, hc, ok_bind, hleaves.getElem?, List.head?_cons, if_pos hd, hc']
          · simp [hf, delimiter?, hd, hf']
        | some b n' left hleft hc' hf' =>
          by_cases hnext : left.head? = some delimiter
          · obtain ⟨last, rfl⟩ : ∃ last, left = delimiter :: last := List.head?_eq_some_iff.1 hnext
            cases (Number.counts (hleft.succ.length_lt h)).readFrom hleft.succ with
            | none hc'' hf'' =>
              -- No third number: nothing else begins with a number and a mark.
              refine .nothing ?_ ?_ (run_fromDuration_of_delimiter hd hf)
              · simp only [countedNumeric, hc, ok_bind, hleaves.getElem?, hleft.getElem?,
                  List.head?_cons, if_pos hd, hc', if_true, hc'']
              · simp [hf, delimiter?, hd, hf', run_ifReads, hf'']
            | some y n'' end' hend hc'' hf'' =>
              refine .some (numericFull (monthAndDay delimiter a b).1 (monthAndDay delimiter a b).2 y)
                n'' end' hend ?_ ?_
              · simp only [countedNumeric, hc, ok_bind, hleaves.getElem?, hleft.getElem?,
                  List.head?_cons, if_pos hd, hc', if_true, hc'']
              · simp [hf, delimiter?, hd, hf', run_ifReads, hf'']
          · have hnone : (exactly delimiter).run left = none := run_exactly_eq_none_of_head? hnext
            refine .some (numeric (monthAndDay delimiter a b).1 (monthAndDay delimiter a b).2) n' left
              hleft ?_ ?_
            · simp only [countedNumeric, hc, ok_bind, hleaves.getElem?, hleft.getElem?,
                List.head?_cons, if_pos hd, hc', if_neg hnext]
            · simp [hf, delimiter?, hd, hf', run_ifReads, hnone]
      · refine .none ?_ ?_
        · simp only [countedNumeric, hc, ok_bind, hleaves.getElem?, List.head?_cons, if_neg hd]
        · simp [hf, delimiter?, hd]

theorem decides_relative (ws : List Word) :
    Decides countedRelative (reading relative?) (word weekdayWord?) ws := by
  rw [reading_relative?]
  cases Counts.first relativeWord? ws with
  | none hc hf =>
    refine .none ?_ (run_of_none hf _)
    simp only [countedRelative, hc, ok_bind]
  | some r n rest hleaves hc hf =>
    cases (Counts.first (weekdayOrUnit? r) rest).readFrom hleaves with
    | none hc' hf' =>
      refine .nothing ?_ ?_ ?_
      · simp only [countedRelative, hc, ok_bind, hc']
      · simp [hf, hf']
      · obtain ⟨w, rfl, hw⟩ := exists_of_run_word hf
        cases w <;> first | rfl | cases hw
    | some e n' left hleft hc' hf' =>
      refine .some e n' left hleft ?_ ?_
      · simp only [countedRelative, hc, ok_bind, hc']
      · simp [hf, hf']

theorem run_relative?_orElse_eq_none {d : Duration}
    (h : (reading Duration.parse?).run ws = some (d, rest)) :
    (reading relative? <|> word weekdayWord?).run ws = none := by
  obtain ⟨w, us, rfl, hw⟩ := exists_cons_of_begins (Duration.begins_of_run h)
  obtain ⟨-, -, hrelative, hweekday⟩ := run_eq_none_of_beginsCount hw us
  rw [run_orElse, hrelative, hweekday]
  rfl

theorem decides_byDuration {date : Counted DateExpr} (h : ws.length < depth)
    (ih : ∀ us : List Word, us.length < ws.length → Counts date (reading parse?) us) :
    Decides (countedByDuration depth date) byDuration (reading relative? <|> word weekdayWord?) ws := by
  cases Duration.counts h with
  | none hc hf =>
    refine .none ?_ (run_of_none hf _)
    simp only [countedByDuration, hc, ok_bind]
  | some d n rest hleaves hc hf =>
    have hshorter := length_lt_of_run_reading hf
    have hlater := run_relative?_orElse_eq_none hf
    by_cases hsub : d.isSubDaily = true
    · refine .nothing ?_ ?_ hlater
      · simp only [countedByDuration, hc, ok_bind, if_pos hsub]
      · simp [byDuration, durationThen, hf, hsub]
    · cases rest with
      | nil =>
        refine .nothing ?_ ?_ hlater
        · simp only [countedByDuration, hc, ok_bind, if_neg hsub, hleaves.getElem?, List.head?_nil]
        · simp [byDuration, durationThen, hf, hsub]
      | cons w below =>
        rw [List.length_cons] at hshorter
        cases w with
        | agoWord =>
          refine .some (before d today) (n + 1) below hleaves.succ ?_ ?_
          · simp only [countedByDuration, hc, ok_bind, if_neg hsub, hleaves.getElem?, List.head?_cons]
          · simp [byDuration, durationThen, hf, hsub]
        | afterWord | fromWord =>
          cases (ih below (by omega)).readFrom hleaves.succ with
          | none hc' hf' =>
            refine .nothing ?_ ?_ hlater
            · simp only [countedByDuration, hc, ok_bind, if_neg hsub, hleaves.getElem?, List.head?_cons,
                hc']
            · simp [byDuration, durationThen, hf, hsub, afterOrFrom?, hf']
          | some e n' left hleft hc' hf' =>
            refine .some (after d e) n' left hleft ?_ ?_
            · simp only [countedByDuration, hc, ok_bind, if_neg hsub, hleaves.getElem?, List.head?_cons,
                hc']
            · simp [byDuration, durationThen, hf, hsub, afterOrFrom?, hf']
        | _ =>
          refine .nothing ?_ ?_ hlater
          · simp only [countedByDuration, hc, ok_bind, if_neg hsub, hleaves.getElem?, List.head?_cons]
          · simp [byDuration, durationThen, hf, hsub, afterOrFrom?]

/-- The words of a date are counted, however many dates are counted from one another. -/
theorem counts (h : ws.length < depth) : Counts (counted depth) (reading parse?) ws := by
  induction depth generalizing ws with
  | zero => exact absurd h (Nat.not_lt_zero _)
  | succ depth ih =>
    rw [reading_parse?]
    have hrelative := (decides_relative ws).unlessDecided (.first weekdayWord? ws)
    have hduration := (decides_byDuration h fun us hus => ih (by omega)).unlessDecided hrelative
    have hnumeric := (decides_numeric h).unlessDecided hduration
    exact .orElse (.first namedDayWord? ws)
      (.orElse (counts_monthFirst h) (.orElse (counts_dayFirst h) hnumeric))

end DateExpr

end CasualDate
