import CasualDate.Proofs.Reading.MonthPhrase
import CasualDate.Proofs.Resolver.Refusal
import CasualDate.Proofs.Resolver.Weekless
import CasualDate.Proofs.Shape.Places

/-!
# The end of a month of a year

"last day of march 2024" and "end of march 2024" are answered with the last day of that month, written
in the resolver's calendar, whatever the current instant, the week and the caller's pattern are
(`resolveAt_endOf`). What follows "of" is one expression, so it is found first by every finder; the
phrase as a whole only decides whether the week is looked for, and with the built-in recognizers it
is not. Where it is, a week that begins before the range has no answer (`LosesWeek`).
-/

namespace CasualDate

/-- A day as the calendar numbers it: the year with four digits, the month and the day with two. -/
def Date.numbers (d : Date) (c : Calendar) : String :=
  let l := c.reckoning.localDate d.dayNumber
  String.ofList (Text.paddedInt 4 l.year ++ '/' :: Text.padded 2 l.month ++
    '/' :: Text.padded 2 l.day)

theorem Instant.format_monthEndPattern {d : Date} {c : Calendar} (h : d.IsConvertible) :
    Instant.format ⟨d, .midnight⟩ Resolver.monthEndPattern c = .ok (d.numbers c) := by
  have hpieces : Layout.pieces Resolver.monthEndPattern.toList =
      [.field .year, .text ['/'], .field .paddedMonth, .text ['/'], .field .paddedDay] := by
    decide +kernel
  rw [Instant.format, Calendar.toLocal_eq h, hpieces]
  simp [Date.numbers, Layout.Piece.render, Layout.Field.render, bind, Except.bind, pure, Except.pure]

theorem Text.dropWord?_append (word rest : List Char) : dropWord? word (word ++ rest) = some rest :=
  dropWord?_eq_some_iff.2 ⟨word, rfl, List.forall₂_same.2 fun c _ => by simp [sameLetter]⟩

/-- The words that ask for the end of a month. -/
def monthEndWords : List String :=
  ["last day of", "end of"]

namespace Shape

variable {front : String} {cs : List Char}

theorem remainder?_of_dropWord? {rest : List Char}
    (h : (Text.dropWord? "last day of".toList cs <|> Text.dropWord? "end of".toList cs) = some rest) :
    remainder? cs =
      some ((rest.dropWhile Text.isSpace).takeWhile fun c => c ≠ '\n' && c ≠ '\r') := by
  cases cs with
  | nil => cases h
  | cons c cs => rw [remainder?, h]

theorem remainder?_append (hfront : front ∈ monthEndWords)
    (hfirst : ∀ c ∈ cs.head?, Text.isSpace c = false) (hline : ∀ c ∈ cs, c ≠ '\n' ∧ c ≠ '\r') :
    remainder? (front.toList ++ ' ' :: cs) = some cs := by
  have hspace : (' ' :: cs).dropWhile Text.isSpace = cs := by
    rw [List.dropWhile_cons_of_pos (by decide)]
    cases cs with
    | nil => rfl
    | cons c cs => rw [List.dropWhile_cons_of_neg (by simpa using hfirst c rfl)]
  have htake : cs.takeWhile (fun c => c ≠ '\n' && c ≠ '\r') = cs := by
    refine Text.takeWhile_eq_iff.2 ⟨[], by simp, fun c hc => ?_, by simp⟩
    simpa using hline c hc
  have hword : (Text.dropWord? "last day of".toList (front.toList ++ ' ' :: cs) <|>
      Text.dropWord? "end of".toList (front.toList ++ ' ' :: cs)) = some (' ' :: cs) := by
    simp only [monthEndWords, List.mem_cons, List.not_mem_nil, or_false] at hfront
    rcases hfront with rfl | rfl
    · rw [Text.dropWord?_append]
      rfl
    · have hnot : Text.dropWord? "last day of".toList ("end of".toList ++ ' ' :: cs) = none := rfl
      rw [hnot, Text.dropWord?_append]
      rfl
  rw [remainder?_of_dropWord? hword, hspace, htake]

variable {m : Month} {names : List String} {name : String}

/-- The words before the year keep the letters of "this" and "next" apart, and a year has none. -/
theorem periodAfter?_eq_none {trigger : String} {a b : Char} (front : String) (width y : Nat)
    (htrigger : ∃ as bs, trigger.toList = as ++ a :: b :: bs)
    (ha : (' ' :: Text.digits).all (fun c => !Text.sameLetter a c && !Text.sameLetter b c) = true)
    (h : Text.Apart (Text.sameLetter a) (Text.sameLetter b) front.toList) :
    periodAfter? trigger (front ++ " " ++ String.ofList (Text.padded width y)) = none := by
  obtain ⟨as, bs, htrigger⟩ := htrigger
  simp only [List.all_cons, Bool.and_eq_true, Bool.not_eq_true'] at ha
  have hyear : Text.Apart (Text.sameLetter a) (Text.sameLetter b) (Text.padded width y) := by
    refine .of_forall (.inl fun c hc => ?_)
    have hc := Text.of_isDigit ha.2 (Text.isDigit_of_mem_padded hc)
    simp only [Bool.and_eq_true, Bool.not_eq_true'] at hc
    exact hc.1
  have htext : (front ++ " " ++ String.ofList (Text.padded width y)).toList =
      front.toList ++ ' ' :: Text.padded width y := by simp
  rw [periodAfter?, htext, htrigger,
    firstWordAfter?_eq_none as bs (h.append_space ha.1.1 ha.1.2 hyear)]
  rfl

theorem ofText_endOf (hfront : front ∈ monthEndWords) (hspelled : (.month m, names) ∈ Word.spellings)
    (hname : name ∈ names) (width y : Nat) :
    ofText (front ++ " " ++ name ++ " " ++ String.ofList (Text.padded width y)) =
      .monthEnd (name ++ " " ++ String.ofList (Text.padded width y)) := by
  have hall : ∀ m, ∀ entry ∈ Word.spellings, entry.1 = .month m → ∀ name ∈ entry.2,
      ∀ front ∈ monthEndWords,
        Text.Apart (Text.sameLetter 'h') (Text.sameLetter 'i') (front ++ " " ++ name).toList ∧
        Text.Apart (Text.sameLetter 'e') (Text.sameLetter 'x') (front ++ " " ++ name).toList ∧
        (name.toList.head?.any (!Text.isSpace ·) = true) ∧
        name.toList.all (fun c => c ≠ '\n' ∧ c ≠ '\r') = true := by
    intro m
    cases m <;> decide +kernel
  obtain ⟨hthis, hnext, hfirst, hline⟩ := hall m _ hspelled rfl name hname front hfront
  refine ofText_eq_iff.2 ⟨?_, ?_, ?_⟩
  · exact periodAfter?_eq_none _ width y ⟨['t'], ['s'], rfl⟩ (by decide) hthis
  · exact periodAfter?_eq_none _ width y ⟨['n'], ['t'], rfl⟩ (by decide) hnext
  · have htext : (front ++ " " ++ name ++ " " ++ String.ofList (Text.padded width y)).toList =
        front.toList ++ ' ' :: (name ++ " " ++ String.ofList (Text.padded width y)).toList := by simp
    rw [htext]
    refine remainder?_append hfront (fun c hc => ?_) fun c hc => ?_
    · obtain ⟨d, hd, hspace⟩ := (Option.any_eq_true ..).1 hfirst
      rw [String.toList_append, String.toList_append, List.append_assoc, List.head?_append, hd] at hc
      obtain rfl := Option.some.inj hc
      simpa using hspace
    · simp only [String.toList_append, String.toList_ofList, List.mem_append] at hc
      have hdigits : Text.digits.all (fun c => c ≠ '\n' ∧ c ≠ '\r') = true := by decide
      rcases hc with (hc | hc) | hc
      · simpa using List.all_eq_true.1 hline c hc
      · obtain rfl : c = ' ' := by simpa using hc
        decide
      · simpa using Text.of_isDigit hdigits (Text.isDigit_of_mem_padded hc)

end Shape

namespace Resolver

variable {r : Resolver} {m : Month} {names : List String} {name front pattern : String}
  {weekStart : Weekday} {now : Instant} {y : Nat} {last : Date}

theorem evaluate_monthYear {today first : Date} (hhigh : y ≤ 9999)
    (hfirst : Date.ofCivil? y m.number 1 = some first) :
    (DateExpr.monthYear m y).evaluate today = .ok first := by
  have hmax : ¬DateExpr.maxYear < y := by unfold DateExpr.maxYear; omega
  simp [DateExpr.evaluate, DateExpr.inYear, hmax, hfirst, orRefuse_ok]

/-- The end of the month named in the text, whatever else there is to find in it. -/
theorem monthEnd_monthYear (r : Resolver) (hspelled : (.month m, names) ∈ Word.spellings)
    (hname : name ∈ names) (hlow : 32 ≤ y) (hhigh : y ≤ 9999) (width : Nat) (now : Instant)
    (hlast : Date.ofCivil? y m.number (m.days y) = some last) :
    r.monthEnd (name ++ " " ++ String.ofList (Text.padded width y)) now =
      .ok (last.numbers r.calendar) := by
  obtain ⟨hyear, -, -⟩ := Date.ofCivil?_eq_some_iff.1 hlast
  obtain ⟨first, hfirst⟩ := Date.exists_ofCivil? (y := y) (by omega) (by omega)
    (m.hasDate_of_le y (n := 1) (by decide) (by decide))
  obtain ⟨hfirstYear, hfirstMonth, -⟩ := Date.ofCivil?_eq_some_iff.1 hfirst
  have hfills := MomentExpr.fills_monthYear (y := ⟨y, Text.lt_countLimit hhigh⟩) hspelled hname
    hlow width
  have hvalue : (MomentExpr.dateTime (.monthYear m y) .unstated).evaluate now =
      .ok ⟨first, now.time⟩ := by
    rw [MomentExpr.evaluate, evaluate_monthYear hhigh hfirst]
    rfl
  let text := name ++ " " ++ String.ofList (Text.padded width y)
  let c : Candidate :=
    ⟨0, text, .ofStated ⟨first, now.time⟩ { year := true, month := true }, .grammar⟩
  obtain ⟨cs, hfind, hhead⟩ : ∃ cs, r.finder.find { text, reference := now, now } = .ok cs ∧
      cs.head? = some c := by
    refine Finder.head?_find (e := .dateTime (.monthYear m y) .unstated) ?_ hvalue rfl
    exact hfills
  obtain ⟨rest, rfl⟩ := List.head?_eq_some_iff.1 hhead
  have hday : c.fields.day? = some first :=
    (Components.exists_of_date? (Components.date?_ofStated _)).1
  have hdays : lastDayOfMonth first.year first.month = .ok (m.days y) := by
    rw [Date.lastDayOfMonth_eq fun _ => by omega, hfirstYear, hfirstMonth, Gregorian.daysInMonth_number]
  have hconvertible : last.IsConvertible := by
    rw [Date.IsConvertible]
    omega
  rw [monthEnd_of_find hfind hday, hdays, orRefuse_ok, ok_bind, hfirstYear, hfirstMonth, hlast]
  exact congrArg orRefuse (Instant.format_monthEndPattern hconvertible)

theorem weekless_endOf (hfront : front ∈ monthEndWords)
    (hspelled : (.month m, names) ∈ Word.spellings) (hname : name ∈ names) (hlow : 32 ≤ y)
    (hhigh : y ≤ 9999) (width : Nat) (now : Instant) :
    Weekless now
      (Token.words (front ++ " " ++ name ++ " " ++ String.ofList (Text.padded width y)).toList) := by
  have htext : (front ++ " " ++ name ++ " " ++ String.ofList (Text.padded width y)).toList =
      front.toList ++ ' ' :: (name.toList ++ ' ' :: Text.padded width y) := by simp
  have hyear : Token.words (Text.padded width y) = [.literal ⟨y, Text.lt_countLimit hhigh⟩] :=
    Token.words_number width ⟨y, _⟩
  rw [htext, Token.words_append_space, Token.words_append_space,
    (MomentExpr.words_monthName hspelled hname).2, hyear]
  have hmonth : Weekless now [.month m, .literal ⟨y, Text.lt_countLimit hhigh⟩] := by
    obtain ⟨first, hfirst⟩ := Date.exists_ofCivil? (y := y) (by omega) (by omega)
      (m.hasDate_of_le y (n := 1) (by decide) (by decide))
    have hvalue : (MomentExpr.dateTime (.monthYear m y) .unstated).evaluate now =
        .ok ⟨first, now.time⟩ := by
      rw [MomentExpr.evaluate, evaluate_monthYear hhigh hfirst]
      rfl
    have hread : Reads MomentExpr.parse? [.month m, .literal ⟨y, Text.lt_countLimit hhigh⟩]
        (.dateTime (.monthYear m y) .unstated) [] :=
      MomentExpr.reads_date (by simp [MomentExpr.isOpening])
        (DateExpr.reads_monthYear hlow (by simp)) MomentExpr.timeAfter_nil
    refine .of_reads hread rfl rfl (fun cause => ?_) .nil fun error h => ?_
    · rw [hvalue]
      intro hbroken
      cases hbroken
    · rw [hvalue] at h
      cases h
  have hof : Weekless now [.ofWord, .month m, .literal ⟨y, Text.lt_countLimit hhigh⟩] :=
    .cons (MomentExpr.parse?_eq_none rfl) hmonth
  simp only [monthEndWords, List.mem_cons, List.not_mem_nil, or_false] at hfront
  rcases hfront with rfl | rfl
  · have hwords : Token.words "last day of".toList = [.relative .previous, .unit .day, .ofWord] := by
      decide +kernel
    have hlast (cause : Breakdown) :
        (DateExpr.relativeUnit .previous .day).evaluate now.date ≠ .error (.broken cause) := by
      rw [DateExpr.evaluate]
      exact orRefuse_ne_broken _
    rw [hwords]
    exact .of_reads_date rfl DateExpr.reads_relativeUnit MomentExpr.timeAfter_ofWord rfl hlast hof
      (.cons MomentExpr.parse?_unit hof)
  · have hwords : Token.words "end of".toList = [.unknown, .ofWord] := by decide +kernel
    rw [hwords]
    exact .cons (MomentExpr.parse?_eq_none rfl) hof

/-- The first date of the text names its weekday, and the current week begins before the first day of
the range. -/
structure LosesWeek (r : Resolver) (text : String) (weekStart : Weekday) (now : Instant) : Prop where
  namesWeekday : ∃ c cs, r.finder.find { text, reference := now, now } = .ok (c :: cs) ∧
    c.fields.isCertain .weekday = true
  offRange : now.addDays? (-(weekStart.daysUntil now.date.weekday)) = none

theorem anchor_of_losesWeek {text : String} (h : r.LosesWeek text weekStart now) :
    r.anchor text weekStart now = .error (.broken .offCalendar) := by
  obtain ⟨c, cs, hfind, hnames⟩ := h.namesWeekday
  have hcertain : Resolver.namesWeekday (c :: cs) = true := hnames
  rw [anchor_of_find hfind, if_pos hcertain, startOfWeek, h.offRange]
  rfl

theorem exists_anchor_of_not_losesWeek {text : String} {cs : List Candidate}
    (hfind : r.finder.find { text, reference := now, now } = .ok cs)
    (h : ¬r.LosesWeek text weekStart now) :
    ∃ anchored, r.anchor text weekStart now = .ok anchored := by
  rw [anchor_of_find hfind]
  cases hnames : Resolver.namesWeekday cs with
  | false => exact ⟨_, rfl⟩
  | true =>
    obtain ⟨c, hc, hcertain⟩ := (Option.any_eq_true ..).1 hnames
    obtain ⟨rest, rfl⟩ := List.head?_eq_some_iff.1 hc
    cases hback : now.addDays? (-(weekStart.daysUntil now.date.weekday)) with
    | none => exact absurd ⟨⟨c, rest, hfind, hcertain⟩, hback⟩ h
    | some reference => exact ⟨_, by rw [if_pos rfl, startOfWeek, hback]; rfl⟩

/-- The end of a month of a year is answered in the numbers of the resolver's calendar, by every
resolver whose recognizers do not have it look for a week that begins before the range. -/
theorem resolveAt_endOf (r : Resolver) (hfront : front ∈ monthEndWords)
    (hspelled : (.month m, names) ∈ Word.spellings) (hname : name ∈ names) (hlow : 32 ≤ y)
    (hhigh : y ≤ 9999) (width : Nat) (weekStart : Weekday) (pattern : String) (now : Instant) :
    let text := front ++ " " ++ name ++ " " ++ String.ofList (Text.padded width y)
    ∃ last : Date, (last.year = y ∧ last.month = m.number ∧ last.day = m.days y) ∧
      (¬r.LosesWeek text weekStart now →
        r.resolveAt text weekStart pattern now = .ok (.formatted (last.numbers r.calendar))) ∧
      (r.LosesWeek text weekStart now →
        r.resolveAt text weekStart pattern now = .error (.broken .offCalendar)) ∧
      (r.finder = ⟨Recognizer.builtin⟩ ∨ firstDay + 6 ≤ now.date.dayNumber →
        ¬r.LosesWeek text weekStart now) := by
  intro text
  have hweekless : Weekless now (Token.words text.toList) :=
    weekless_endOf hfront hspelled hname hlow hhigh width now
  obtain ⟨cs, hfind⟩ : ∃ cs, r.finder.find { text, reference := now, now } = .ok cs :=
    ⟨_, r.finder.find_of_isWeekless hweekless⟩
  obtain ⟨last, hlast⟩ := Date.exists_ofCivil? (y := y) (by omega) (by omega) (m.hasDate_days y)
  refine ⟨last, Date.ofCivil?_eq_some_iff.1 hlast, fun hkeeps => ?_, fun hloses => ?_, ?_⟩
  · obtain ⟨⟨certain, reference⟩, hanchor⟩ := exists_anchor_of_not_losesWeek hfind hkeeps
    rw [resolveAt_monthEnd (Shape.ofText_endOf hfront hspelled hname width y) hanchor,
      monthEnd_monthYear r hspelled hname hlow hhigh width now hlast]
    rfl
  · exact resolveAt_eq_error (anchor_of_losesWeek hloses)
  · intro hcase hloses
    have hlost := anchor_of_losesWeek hloses
    rcases hcase with hbuiltin | hroom
    · rw [anchor_of_isWeekless hbuiltin hweekless] at hlost
      cases hlost
    · obtain ⟨reference, hstart⟩ := exists_startOfWeek weekStart hroom
      rw [startOfWeek, hloses.offRange] at hstart
      cases hstart

/-- February 2024 ends on the 29th, which is the 10th of the last Persian month of 1402. -/
theorem resolveAt_lastDayOfFebruary :
    let now : Instant := ⟨⟨738993, by decide, by decide⟩, .midnight⟩
    let r : Resolver := ⟨⟨Recognizer.builtin⟩, .persian, now⟩
    r.resolveAt "last day of feb 2024" .monday "" now = .ok (.formatted "1402/12/10") := by
  intro now r
  have hfront : "last day of" ∈ monthEndWords := by decide
  have hspelled : (.month .february, ["february", "feb"]) ∈ Word.spellings := by decide
  have hname : "feb" ∈ ["february", "feb"] := by decide
  obtain ⟨last, hday, hanswer, -, hkeeps⟩ := resolveAt_endOf (y := 2024) r hfront hspelled hname
    (by decide) (by decide) 0 .monday "" now
  have hlast : Date.ofCivil? 2024 2 29 = some last := Date.ofCivil?_eq_some_iff.2 hday
  obtain rfl : last = ⟨738945, by decide, by decide⟩ :=
    Option.some.inj (hlast.symm.trans (by decide +kernel))
  have hnumbers : Date.numbers ⟨738945, by decide, by decide⟩ .persian = "1402/12/10" := by
    decide +kernel
  rw [← hnumbers]
  exact hanswer (hkeeps (.inl rfl))

/-- A recognizer has "end" name a weekday. On the first day of the range, a Thursday, the week that
began on Monday is lost, and with it the end of March. -/
theorem resolveAt_endOfMarch_losesWeek :
    let now : Instant := ⟨⟨firstDay, by decide, by decide⟩, .midnight⟩
    let weekday := Recognizer.ofWord "w" "end" [.assign .weekday 1]
    let r : Resolver := ⟨⟨Recognizer.builtin ++ [weekday]⟩, .gregorian, now⟩
    r.resolveAt "end of march 2024" .monday "" now = .error (.broken .offCalendar) := by
  intro now weekday r
  let ctx : Context := { text := "end of march 2024", reference := now, now }
  let first : Candidate := ⟨0, "end", (Components.ofInstant now).assign .weekday 1, .recognizer "w"⟩
  let march : Candidate := ⟨7, "march 2024",
    .ofStated ⟨⟨738946, by decide, by decide⟩, .midnight⟩ { year := true, month := true }, .grammar⟩
  have hproposals : r.finder.proposals ctx = .ok [march, first] := by decide +kernel
  have hordered : Finder.ordered [march, first] = [first, march] :=
    Finder.ordered_of_perm (by decide +kernel) (.swap ..) (by decide)
  have hfind : r.finder.find ctx = .ok [first, march] := by
    have hsettle : Finder.settle ctx [march, first] = [first, march] := by
      rw [Finder.settle, hordered]
      decide +kernel
    rw [Finder.find, hproposals]
    exact congrArg Except.ok hsettle
  have hloses : r.LosesWeek "end of march 2024" .monday now :=
    ⟨⟨first, _, hfind, rfl⟩, by decide +kernel⟩
  exact resolveAt_eq_error (anchor_of_losesWeek hloses)

end Resolver

end CasualDate
