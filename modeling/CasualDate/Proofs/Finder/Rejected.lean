import CasualDate.Proofs.Finder.Unaided
import CasualDate.Proofs.Layout.Readable
import CasualDate.Proofs.Reading.Moment

/-!
# Expressions that are refused

Behind an expression that is refused the scan goes on at the next token, inside the expression. So a
text that as a whole is refused has no candidate exactly if no proper end of its words names an
instant (`find_eq_nil_iff_of_refused`): "February 30" leaves a number, but "2024-01-05" leaves the
fifth of January.
-/

namespace CasualDate

namespace MomentExpr

/-- What is read from the beginning of the words, if anything, is a number by itself or refused. -/
def NamesNothing (reference : Instant) (ws : List Word) : Prop :=
  ∀ e rest, Reads parse? ws e rest → e.isBareNumber = false →
    ∃ error, e.evaluate reference = .error (.refused error)

variable {reference : Instant} {ws rest : List Word} {e : MomentExpr}

theorem namesNothing_of_none (h : parse? ws = none) : NamesNothing reference ws := by
  rintro e rest ⟨hlt, hread⟩
  rw [h] at hread
  cases hread

theorem namesNothing_iff (h : Reads parse? ws e rest) :
    NamesNothing reference ws ↔
      (e.isBareNumber = false → ∃ error, e.evaluate reference = .error (.refused error)) := by
  refine ⟨fun hall => hall e rest h, fun hone e' rest' h' => ?_⟩
  obtain ⟨hlt, h⟩ := h
  obtain ⟨hlt', h'⟩ := h'
  rw [h] at h'
  cases h'
  exact hone

end MomentExpr

namespace Step

variable {cs : List Char} {reference : Instant} {ts : List Token}

def isSkipped : Step → Bool
  | skipped .. => true
  | _ => false

/-- The scan comes upon refused expressions only, exactly if no end of the words names an instant:
it looks at every end as long as it has found none. -/
theorem forall_isSkipped_iff :
    (∀ step ∈ scanFrom cs reference ts, step.isSkipped = true) ↔
      ∀ us, us <:+ ts.map Token.word → MomentExpr.NamesNothing reference us := by
  have hcons (t : Token) (ts : List Token) :
      (∀ us, us <:+ (t :: ts).map Token.word → MomentExpr.NamesNothing reference us) ↔
        MomentExpr.NamesNothing reference ((t :: ts).map Token.word) ∧
          ∀ us, us <:+ ts.map Token.word → MomentExpr.NamesNothing reference us := by
    simp only [List.map_cons, List.suffix_cons_iff, forall_eq_or_imp]
  have hscan := scans_scanFrom cs reference ts
  generalize scanFrom cs reference ts = steps at hscan
  induction hscan with
  | nil =>
    refine ⟨fun _ us hus => ?_, by simp⟩
    rw [List.suffix_nil.1 hus]
    exact MomentExpr.namesNothing_of_none MomentExpr.parse?_nil
  | pass hpass _ ih =>
    refine ih.trans (Iff.trans ?_ (hcons ..).symm)
    refine (and_iff_right fun e rest hread hbare => ?_).symm
    rw [hpass e rest hread] at hbare
    cases hbare
  | found hread hvalue _ ih =>
    rw [List.cons_append, hcons, ← List.cons_append, MomentExpr.namesNothing_iff hread.reads]
    simp [isSkipped, hread.notBare, hvalue]
  | skipped hread herror _ ih =>
    rw [List.cons_append, hcons, ← List.cons_append, MomentExpr.namesNothing_iff hread.reads,
      List.forall_mem_cons]
    exact and_congr ⟨fun _ _ => ⟨_, herror⟩, fun _ => rfl⟩ ih
  | broken hread hcause =>
    rw [List.cons_append, hcons, ← List.cons_append, MomentExpr.namesNothing_iff hread.reads]
    simp [isSkipped, hread.notBare, hcause]

theorem forall_isSkipped_iff_nil {steps : List Step} :
    (∀ step ∈ steps, step.isSkipped = true) ↔
      steps.findSome? breakdown? = none ∧ steps.filterMap candidate? = [] := by
  have hstep : ∀ step : Step,
      step.isSkipped = true ↔ step.breakdown? = none ∧ step.candidate? = none := by
    intro step
    cases step <;> simp [isSkipped, breakdown?, candidate?]
  simp only [hstep, List.findSome?_eq_none_iff, List.filterMap_eq_nil_iff, forall_and]

end Step

namespace Finder

open Layout

variable {ctx : Context} {cs : List Candidate}

theorem find_eq_nil_iff :
    (Finder.mk []).find ctx = .ok [] ↔
      ∀ step ∈ Step.scan ctx.text ctx.reference, step.isSkipped = true := by
  rw [find_unaided, Step.forall_isSkipped_iff_nil, Step.candidates]
  cases (Step.scan ctx.text ctx.reference).findSome? Step.breakdown? with
  | some cause => simp [bind, Except.bind]
  | none => simp [bind, Except.bind, pure, Except.pure]

/-- A text that is refused as a whole has no candidate exactly if no proper end of its words names
an instant. -/
theorem find_eq_nil_iff_of_refused (ctx : Context) {e : MomentExpr} {error : Error}
    (hread : Reads MomentExpr.parse? (Token.words ctx.text.toList) e [])
    (hrefused : e.evaluate ctx.reference = .error (.refused error)) :
    (Finder.mk []).find ctx = .ok [] ↔
      ∀ ws, ws <:+ Token.words ctx.text.toList → ws ≠ Token.words ctx.text.toList →
        MomentExpr.NamesNothing ctx.reference ws := by
  rw [find_eq_nil_iff, Step.scan, Step.forall_isSkipped_iff]
  have hwhole : MomentExpr.NamesNothing ctx.reference (Token.words ctx.text.toList) :=
    (MomentExpr.namesNothing_iff hread).2 fun _ => ⟨error, hrefused⟩
  constructor
  · exact fun h ws hws _ => h ws hws
  · intro h ws hws
    by_cases heq : ws = Token.words ctx.text.toList
    · exact heq ▸ hwhole
    · exact h ws hws heq

/-- In a year without a 30th of February the text has no candidate: "30" alone is a number. -/
theorem find_february30 :
    let now : Instant := ⟨⟨738993, by decide, by decide⟩, .midnight⟩
    (Finder.mk []).find { text := "February 30", reference := now, now } = .ok [] := by
  intro now
  have hwords : Token.words "February 30".toList = [.month .february, .literal ⟨30, by decide⟩] := by
    decide +kernel
  have hread : Reads MomentExpr.parse? (Token.words "February 30".toList)
      (.dateTime (.monthDay .february 30) .unstated) [] :=
    .of_map (by decide +kernel)
  have hnumber : Reads MomentExpr.parse? [.literal ⟨30, by decide⟩]
      (.timeDate (.bare 30) .unstated) [] :=
    .of_map (by decide +kernel)
  have hrefused : (MomentExpr.dateTime (.monthDay .february 30) .unstated).evaluate now =
      .error (.refused (.invalidDate (.monthDay 2 30))) := by
    decide +kernel
  refine (find_eq_nil_iff_of_refused { text := "February 30", reference := now, now }
    hread hrefused).2 fun ws hws hne => ?_
  rw [hwords] at hws hne
  rcases List.suffix_cons_iff.1 hws with rfl | hws
  · exact absurd rfl hne
  · rcases List.suffix_cons_iff.1 hws with rfl | hws
    · exact (MomentExpr.namesNothing_iff hnumber).2 fun hbare => by cases hbare
    · rw [List.suffix_nil.1 hws]
      exact MomentExpr.namesNothing_of_none MomentExpr.parse?_nil

/-- The fifth of January 2024 in numbers is refused, since there is no month 2024, and then taken
for the fifth of January of the current year. -/
theorem find_20240105 :
    let now : Instant := ⟨⟨737791, by decide, by decide⟩, .midnight⟩
    let january5 : Instant := ⟨⟨737795, by decide, by decide⟩, .midnight⟩
    let e : MomentExpr := .dateTime (.numericFull 2024 1 5) .unstated
    Reads MomentExpr.parse? (Token.words "2024-01-05".toList) e [] ∧
      e.evaluate now = .error (.refused (.invalidDate (.yearMonthDay 2005 2024 1))) ∧
      (Finder.mk []).find { text := "2024-01-05", reference := now, now } =
        .ok [⟨5, "01-05", .ofStated january5 { month := true, day := true }, .grammar⟩] := by
  intro now january5 e
  have hproposals : (Finder.mk []).proposals { text := "2024-01-05", reference := now, now } =
      .ok [⟨5, "01-05", .ofStated january5 { month := true, day := true }, .grammar⟩] := by
    decide +kernel
  refine ⟨.of_map (by decide +kernel), by decide +kernel, ?_⟩
  rw [find, hproposals]
  show Except.ok (settle _ _) = _
  rw [settle, ordered_of_pairwise (by decide +kernel) (by decide)]
  rfl

/-! ### ISO dates -/

theorem words_isoDate {t : Instant} {text : String} (hnonneg : 0 ≤ t.date.year)
    (hle : t.date.year ≤ 9999) (htext : t.format "YYYY-MM-DD" .gregorian = .ok text) :
    ∃ y m d : Text.Count, y.val = t.date.year.toNat ∧ m.val = t.date.month ∧ d.val = t.date.day ∧
      Token.words text.toList = [.literal y, .dash, .literal m, .dash, .literal d] := by
  have hreadable : Readable "YYYY-MM-DD" :=
    ⟨by decide +kernel, by decide +kernel, by decide +kernel, by decide +kernel⟩
  obtain ⟨text', htext', -, hwords, -⟩ := format_spec hreadable hnonneg hle
  obtain rfl : text' = text := Except.ok.inj (htext'.symm.trans htext)
  have hy : t.date.year.toNat < Text.countLimit := Text.lt_countLimit (by omega)
  have hm : t.date.month < Text.countLimit :=
    Text.lt_countLimit (Nat.le_trans t.date.month_le (by decide))
  have hd : t.date.day < Text.countLimit :=
    Text.lt_countLimit (Nat.le_trans t.date.day_le (by decide))
  refine ⟨⟨_, hy⟩, ⟨_, hm⟩, ⟨_, hd⟩, rfl, rfl, rfl, ?_⟩
  obtain ⟨-, hdash, -⟩ := words_text
  rw [hwords, writtenWords_eq [.field .year, .text ['-'], .field .paddedMonth,
    .text ['-'], .field .paddedDay] (by decide +kernel), ← Word.ofNat_eq hy, ← Word.ofNat_eq hm,
    ← Word.ofNat_eq hd]
  simp [Layout.Piece.words, Layout.Field.words, hdash]

theorem evaluate_numericFull_ne_ok {reference value : Instant} {month day year : Nat}
    (h : 12 < month) :
    (MomentExpr.dateTime (.numericFull month day year) .unstated).evaluate reference ≠
      .ok value := by
  have hdate : ∀ d, (DateExpr.numericFull month day year).evaluate reference.date ≠ .ok d := by
    intro d hd
    rw [DateExpr.evaluate] at hd
    cases hyear : DateExpr.fullYear reference.date.year year with
    | error failure => rw [hyear] at hd; cases hd
    | ok y =>
      rw [hyear] at hd
      simp only [bind, Except.bind, DateExpr.inYear, Date.ofCivil?_eq_none h] at hd
      split at hd <;> cases hd
  intro hvalue
  rw [MomentExpr.evaluate] at hvalue
  cases heval : (DateExpr.numericFull month day year).evaluate reference.date with
  | error failure => rw [heval] at hvalue; cases hvalue
  | ok d => exact hdate d heval

/-- An ISO date is read as month, day and year and names nothing, since its month is too large. Yet
there is a candidate if the current year has its month and day. -/
theorem find_isoDate {t : Instant} (hge : 13 ≤ t.date.year) (hle : t.date.year ≤ 9999)
    (htext : t.format "YYYY-MM-DD" .gregorian = .ok ctx.text)
    (hday : (Date.ofCivil? ctx.reference.date.year t.date.month t.date.day).isSome = true) :
    (∃ e, Reads MomentExpr.parse? (Token.words ctx.text.toList) e [] ∧
      ∀ value, e.evaluate ctx.reference ≠ .ok value) ∧
      (Finder.mk []).find ctx ≠ .ok [] := by
  obtain ⟨y, m, d, hy, hm, hd, hwords⟩ := words_isoDate (by omega) hle htext
  obtain ⟨day, hday⟩ := Option.isSome_iff_exists.1 hday
  rw [hwords]
  constructor
  · exact ⟨_, MomentExpr.reads_date (by simp [MomentExpr.isOpening])
      (DateExpr.reads_numericFull rfl (by simp)) MomentExpr.timeAfter_nil,
      fun value => evaluate_numericFull_ne_ok (show 12 < y.val by omega)⟩
  · rw [ne_eq, find_eq_nil_iff, Step.scan, Step.forall_isSkipped_iff]
    intro h
    have hread : Reads MomentExpr.parse? [.literal m, .dash, .literal d]
        (.dateTime (.numeric m d) .unstated) [] :=
      MomentExpr.reads_date (by simp [MomentExpr.isOpening]) (DateExpr.reads_numeric rfl)
        MomentExpr.timeAfter_nil
    have hend : [.literal m, .dash, .literal d] <:+
        (Token.lex ctx.text.toList).map Token.word := by
      rw [← Token.words, hwords]
      exact ⟨[.literal y, .dash], rfl⟩
    obtain ⟨error, herror⟩ := h _ hend _ _ hread rfl
    have hvalue : (MomentExpr.dateTime (.numeric m d) .unstated).evaluate ctx.reference =
        .ok ⟨day, ctx.reference.time⟩ := by
      rw [MomentExpr.evaluate, DateExpr.evaluate, DateExpr.inYearOf, hm, hd, hday]
      rfl
    rw [hvalue] at herror
    cases herror

end Finder

end CasualDate
