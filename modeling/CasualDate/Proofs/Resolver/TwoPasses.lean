import CasualDate.Proofs.Components.OnClock
import CasualDate.Proofs.Finder.Steady
import CasualDate.Proofs.Instant.Days
import CasualDate.Proofs.Reckoning.Named
import CasualDate.Proofs.Resolver.WholeText

/-!
# The two searches of a text

A text without a special shape is searched twice: from the current instant, to see whether the first
date names its weekday, and from the beginning of the week if it does. Both searches come to the
same first date if the expressions up to its end name an instant from the beginning of the week
exactly if they do from now (`Resolver.exists_first_date`). In a week within one year this is a
condition on expressions that count units of time only. In one that spans the New Year it is needed
for the 29th of February, too (`Resolver.first_feb29_friday`), but not for the built-in recognizers:
they name days of the current month, which then is January, with 31 days in both years.
-/

namespace CasualDate

namespace Date

variable {x z : Date} {m d : Nat}

theorem year_eq_or_month_eq_one (hle : x.dayNumber ≤ z.dayNumber)
    (hsix : z.dayNumber ≤ x.dayNumber + 6) : x.year = z.year ∨ z.month = 1 := by
  rcases Int.lt_trichotomy x.year z.year with hlt | heq | hgt
  · have := x.dayNumber_lt_newYear
    have := gregorian_lawful.newYear_mono (show x.year + 1 ≤ z.year by omega)
    exact .inr (month_eq_one (by omega))
  · exact .inl heq
  · have := dayNumber_lt_of_year_lt hgt
    omega

theorem hasDate_january (y : Int) : gregorian.HasDate ⟨y, 1, d⟩ ↔ 1 ≤ d ∧ d ≤ 31 := by
  simp [Reckoning.HasDate, Reckoning.monthsInYear, Reckoning.daysInMonth, gregorian,
    Gregorian.monthLengths]

theorem isSome_ofCivil?_eq (h : x.year = z.year ∨ m = 1) :
    (ofCivil? x.year m d).isSome = (ofCivil? z.year m d).isSome := by
  rw [Bool.eq_iff_iff, isSome_ofCivil?_iff, isSome_ofCivil?_iff]
  rcases h with h | rfl
  · rw [h]
  · rw [hasDate_january, hasDate_january]

end Date

namespace MomentExpr

variable {now reference : Instant} {e : MomentExpr}

/-- The expression counts units of time, or the instants are not ordinary ones of the same year. -/
def IsDelicate (now reference : Instant) (e : MomentExpr) : Prop :=
  e.countsUnits = true ∨
    ¬(reference.date.year = now.date.year ∧ reference.date.IsOrdinary ∧ now.date.IsOrdinary)

instance : DecidablePred (IsDelicate now reference) := fun _ =>
  inferInstanceAs (Decidable (_ ∨ _))

theorem alike_of_not_isDelicate (h : ¬e.IsDelicate now reference) :
    Alike (e.evaluate reference) (e.evaluate now) := by
  obtain ⟨hunits, hweek⟩ := not_or.1 h
  obtain ⟨hyear, hreference, hnow⟩ := Decidable.not_not.1 hweek
  exact alike_evaluate hreference hnow hyear (by simpa using hunits)

end MomentExpr

namespace Recognizer

variable {r : Recognizer} {ctx : Context} {text : String} {now reference : Instant} {m : Match}
  {month day : Nat}

theorem dated?_of_extract
    (h : r.extract ctx m =
      some (((Components.ofInstant ctx.reference).assign .day day).assign .month month)) :
    r.dated? ctx m =
      if (Date.ofCivil? ctx.reference.date.year month day).isSome then some false else none := by
  have hdate : (((Components.ofInstant ctx.reference).assign .day day).assign .month month).date? =
      (Date.ofCivil? ctx.reference.date.year month day).map (⟨·, ctx.reference.time.onClock⟩) :=
    Components.date?_eq_map_day? (t := ctx.reference) rfl rfl rfl
  rw [dated?, h]
  cases hday : Date.ofCivil? ctx.reference.date.year month day with
  | none => simp [hdate, hday, Option.filter]
  | some d => simp [hdate, hday, Option.filter, Components.isCertain]; rfl

theorem steady_holiday : holiday.Steady text now reference := by
  intro m _
  have hdated (reference : Instant) : holiday.dated? { text, reference, now } m = some false := by
    have hdate : gregorian.HasDate ⟨reference.date.year, 12, 25⟩ := by
      simp [Reckoning.HasDate, Reckoning.monthsInYear, Reckoning.daysInMonth, gregorian,
        Gregorian.monthLengths]
    have hextract : holiday.extract { text, reference, now } m =
        some (((Components.ofInstant reference).assign .day (25 : Nat)).assign .month (12 : Nat)) :=
      rfl
    rw [dated?_of_extract hextract, if_pos (reference.date.isSome_ofCivil?_iff.2 hdate)]
  rw [hdated reference, hdated now]

/-- The month of an ordinal is the current one, from wherever it is counted. -/
theorem steady_ordinalDay (h : reference.date.year = now.date.year ∨ now.date.month = 1) :
    ordinalDay.Steady text now reference := by
  intro m _
  cases hday : Ordinal.read? (String.ofList m.text) with
  | none => simp [dated?, ordinalDay, hday]
  | some day =>
    have hextract (reference : Instant) :
        ordinalDay.extract { text, reference, now } m = some (((Components.ofInstant reference).assign
          .day day).assign .month now.date.month) := by
      simp [ordinalDay, hday]
    rw [dated?_of_extract (hextract reference), dated?_of_extract (hextract now)]
    exact congrArg (fun b : Bool => if b then some false else none) (Date.isSome_ofCivil?_eq h)

end Recognizer

namespace Resolver

variable {r : Resolver} {text pattern : String} {weekStart : Weekday} {now reference : Instant}
  {cs : List Candidate} {c : Candidate} {certain : Bool}

theorem dayNumber_of_startOfWeek (h : startOfWeek now weekStart = .ok reference) :
    reference.date.dayNumber ≤ now.date.dayNumber ∧
      now.date.dayNumber ≤ reference.date.dayNumber + 6 := by
  have hdays := weekStart.daysUntil_lt now.date.weekday
  unfold startOfWeek at h
  cases hback : now.addDays? (-(weekStart.daysUntil now.date.weekday)) with
  | none =>
    rw [hback] at h
    cases h
  | some t =>
    rw [hback] at h
    obtain rfl := Except.ok.inj h
    obtain ⟨hge, hle⟩ := Instant.dayNumber_of_addDays? (by omega) hback
    exact ⟨hle, by omega⟩

theorem steady_of_mem_builtin (h : startOfWeek now weekStart = .ok reference) {rec : Recognizer}
    (hrec : rec ∈ Recognizer.builtin) : rec.Steady text now reference := by
  obtain ⟨hle, hsix⟩ := dayNumber_of_startOfWeek h
  rcases List.mem_cons.1 hrec with rfl | hrec
  · exact Recognizer.steady_holiday
  · obtain rfl := List.mem_singleton.1 hrec
    exact Recognizer.steady_ordinalDay (Date.year_eq_or_month_eq_one hle hsix)

/-- The second search starts from the beginning of the week if the first date found names its
weekday, else from the current instant like the first. -/
theorem reference_of_anchor (hanchor : r.anchor text weekStart now = .ok (certain, reference))
    (hfind : r.finder.find { text, reference := now, now } = .ok cs) (hfirst : cs.head? = some c) :
    c.fields.isCertain .weekday = true ∧ startOfWeek now weekStart = .ok reference ∨
      c.fields.isCertain .weekday = false ∧ reference = now := by
  have hnames : namesWeekday cs = c.fields.isCertain .weekday := by
    rw [namesWeekday, hfirst, Option.any_some]
  rw [anchor_of_find hfind, hnames] at hanchor
  cases hweekday : c.fields.isCertain .weekday with
  | true =>
    rw [hweekday, if_pos rfl] at hanchor
    cases hstart : startOfWeek now weekStart with
    | error failure =>
      rw [hstart] at hanchor
      cases hanchor
    | ok t =>
      rw [hstart] at hanchor
      cases hanchor
      exact .inl ⟨rfl, rfl⟩
  | false =>
    rw [hweekday, if_neg Bool.false_ne_true] at hanchor
    cases hanchor
    exact .inr ⟨rfl, rfl⟩

/-- The two searches of a text without a special shape come to the same first date, and that is the
answer. -/
theorem exists_first_date (hshape : Shape.ofText text = .other)
    (hanchor : r.anchor text weekStart now = .ok (certain, reference))
    (hfind : r.finder.find { text, reference := now, now } = .ok cs) (hfirst : cs.head? = some c)
    (hsteady : c.fields.isCertain .weekday = true →
      Step.Steady (MomentExpr.IsDelicate now reference) (Token.lex text.toList) c.reach now reference)
    (hcustom : c.fields.isCertain .weekday = true → ∀ rec ∈ r.finder.recognizers,
      rec ∉ Recognizer.builtin → rec.Steady text now reference) :
    ∃ ds d value, r.finder.find { text, reference, now } = .ok ds ∧ ds.head? = some d ∧
      d.index = c.index ∧ d.text = c.text ∧
      d.fields.isCertain .weekday = c.fields.isCertain .weekday ∧
      d.date? = some value ∧ r.resolveAt text weekStart pattern now = .ok (.date value) := by
  obtain ⟨ds, d, hfind', hfirst', houtline⟩ : ∃ ds d,
      r.finder.find { text, reference, now } = .ok ds ∧ ds.head? = some d ∧
        d.outline = c.outline := by
    rcases reference_of_anchor hanchor hfind hfirst with ⟨hweekday, hstart⟩ | ⟨-, rfl⟩
    · have hall := (hsteady hweekday).of_alike fun _ => MomentExpr.alike_of_not_isDelicate
      refine Finder.exists_first_of_steady hfind hfirst hall fun rec hrec => ?_
      by_cases hbuiltin : rec ∈ Recognizer.builtin
      · exact steady_of_mem_builtin hstart hbuiltin
      · exact hcustom hweekday rec hrec hbuiltin
    · exact ⟨cs, c, hfind, hfirst, rfl⟩
  have hdate := Finder.isSome_date?_of_mem_find hfind' (List.mem_of_head? hfirst')
  obtain ⟨value, hvalue⟩ := Option.isSome_iff_exists.1 hdate
  refine ⟨ds, d, value, hfind', hfirst', Candidate.index_eq_of_outline houtline,
    Candidate.text_eq_of_outline houtline, Candidate.isCertain_weekday_of_outline houtline, hvalue,
    ?_⟩
  have hanswer : r.finder.findDate { text, reference, now } = .ok (some value) := by
    simp [Finder.findDate, hfind', hfirst', hvalue, Except.map]
  exact resolveAt_eq_ofDate? hshape hanchor hanswer

/-- On Thursday, 2 January 2025, in a week that began on 29 December, both searches skip
"june 31". -/
theorem exists_first_date_friday :
    let now : Instant := ⟨⟨739253, by decide, by decide⟩, .midnight⟩
    let sunday : Instant := ⟨⟨739249, by decide, by decide⟩, .midnight⟩
    let friday : Instant := ⟨⟨739254, by decide, by decide⟩, .midnight⟩
    let text := "june 31 or friday"
    let first : Candidate := ⟨11, "friday", .ofStated friday { weekday := true }, .grammar⟩
    let r : Resolver := ⟨⟨Recognizer.builtin⟩, .gregorian, now⟩
    Shape.ofText text = .other ∧ r.anchor text .sunday now = .ok (true, sunday) ∧
      r.finder.find { text, reference := now, now } = .ok [first] ∧
      Step.Steady (MomentExpr.IsDelicate now sunday) (Token.lex text.toList) first.reach now
        sunday ∧
      ∃ ds d value, r.finder.find { text, reference := sunday, now } = .ok ds ∧
        ds.head? = some d ∧ d.index = 11 ∧ d.text = "friday" ∧
        d.fields.isCertain .weekday = true ∧ d.date? = some value ∧
        r.resolveAt text .sunday "" now = .ok (.date value) := by
  intro now sunday friday text first r
  have hshape : Shape.ofText text = .other := by decide +kernel
  have hfind : r.finder.find { text, reference := now, now } = .ok [first] := by
    rw [Finder.find_of_isEmpty_attempts (by decide +kernel), Finder.find_unaided]
    decide +kernel
  have hanchor : r.anchor text .sunday now = .ok (true, sunday) := by
    rw [anchor, hfind]
    decide +kernel
  have hsteady : Step.Steady (MomentExpr.IsDelicate now sunday) (Token.lex text.toList) first.reach now
        sunday := by
    decide +kernel
  exact ⟨hshape, hanchor, hfind, hsteady, exists_first_date hshape hanchor hfind rfl
    (fun _ => hsteady) fun _ rec hrec hcustom => absurd hrec hcustom⟩

/-- There is no 29th of February in 2025. From 2 January of that year the first date is "friday", but
from the beginning of the week it is "feb 29", which does not name its weekday. -/
theorem first_feb29_friday :
    let time : TimeOfDay := ⟨10, 30, 0, 0, by decide, by decide, by decide, by decide⟩
    let now : Instant := ⟨⟨739253, by decide, by decide⟩, time⟩
    let sunday : Instant := ⟨⟨739249, by decide, by decide⟩, time⟩
    let feb29 : Instant := ⟨⟨738945, by decide, by decide⟩, time⟩
    let text := "feb 29 friday"
    let r : Resolver := ⟨⟨Recognizer.builtin⟩, .gregorian, now⟩
    Shape.ofText text = .other ∧ r.anchor text .sunday now = .ok (true, sunday) ∧
      (∃ cs c, r.finder.find { text, reference := now, now } = .ok cs ∧ cs.head? = some c ∧
        c.index = 7 ∧ c.text = "friday" ∧ c.fields.isCertain .weekday = true) ∧
      (∃ ds d, r.finder.find { text, reference := sunday, now } = .ok ds ∧ ds.head? = some d ∧
        d.index = 0 ∧ d.text = "feb 29" ∧ d.fields.isCertain .weekday = false) ∧
      r.resolveAt text .sunday "" now = .ok (.date feb29) := by
  intro time now sunday feb29 text r
  have hshape : Shape.ofText text = .other := by decide +kernel
  let friday : Instant := ⟨⟨739254, by decide, by decide⟩, time⟩
  let weekday : Candidate := ⟨7, "friday", .ofStated friday { weekday := true }, .grammar⟩
  have hnow : r.finder.find { text, reference := now, now } = .ok [weekday] := by
    rw [Finder.find_of_isEmpty_attempts (by decide +kernel), Finder.find_unaided]
    decide +kernel
  let day : Candidate := ⟨0, "feb 29", .ofStated feb29 { month := true, day := true }, .grammar⟩
  have hsunday : r.finder.find { text, reference := sunday, now } = .ok [day, weekday] := by
    rw [Finder.find_of_isEmpty_attempts (by decide +kernel), Finder.find_unaided]
    decide +kernel
  have hanchor : r.anchor text .sunday now = .ok (true, sunday) := by
    rw [anchor, hnow]
    decide +kernel
  have hanswer : r.finder.findDate { text, reference := sunday, now } = .ok (some feb29) := by
    rw [Finder.findDate, hsunday]
    decide +kernel
  exact ⟨hshape, hanchor, ⟨_, _, hnow, rfl, rfl, rfl, rfl⟩, ⟨_, _, hsunday, rfl, rfl, rfl, rfl⟩,
    resolveAt_eq_ofDate? hshape hanchor hanswer⟩

end Resolver

end CasualDate
