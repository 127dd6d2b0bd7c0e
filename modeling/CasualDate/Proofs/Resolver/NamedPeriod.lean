import CasualDate.Proofs.Resolver.Breakdown
import CasualDate.Proofs.Shape.Order
import CasualDate.Proofs.Shape.Places
import Mathlib.Data.List.Nodup

/-!
# When a period is answered

A phrase such as "this week" or "next month" is answered with its period, unless an earlier place is
looked at instead (`Resolver.answers_period_iff`). That it is not answered then shows in the answers:
the six that a calendar can give are told apart by what they say, and from all others by the pattern
(`Resolver.answers_iff`).
-/

namespace CasualDate

namespace Shape

/-- What is reckoned on the calendar for a shape with a period. -/
def reckons? (c : Calendar) : Shape → Option (Instant → Except Failure Instant)
  | endOfPeriod p => some (c.endOf · p)
  | onePeriodOn p => some (c.addOne · p)
  | monthEnd _ | midMonth _ | other => none

/-- The shapes with a period. -/
def periodic : List Shape :=
  [.endOfPeriod .week, .endOfPeriod .month, .endOfPeriod .year,
    .onePeriodOn .week, .onePeriodOn .month, .onePeriodOn .year]

theorem mem_periodic {c : Calendar} {s : Shape} {f : Instant → Except Failure Instant}
    (h : s.reckons? c = some f) : s ∈ periodic := by
  cases s with
  | endOfPeriod p | onePeriodOn p => cases p <;> simp [periodic]
  | monthEnd | midMonth | other => cases h

end Shape

namespace Resolver

variable {r : Resolver} {text pattern : String} {weekStart : Weekday} {now : Instant}
  {f g : Instant → Except Failure Instant} {s s' : Shape}

/-- The text is answered, from any instant and with any pattern, with what `f` comes to from that
instant, written by the pattern. The first search has to answer before that. -/
def Answers (r : Resolver) (text : String) (f : Instant → Except Failure Instant) : Prop :=
  ∀ weekStart pattern now, r.resolveAt text weekStart pattern now =
    r.anchor text weekStart now >>= fun _ => r.rendered pattern (f now)

theorem answers_of_reckons (h : (Shape.ofText text).reckons? r.calendar = some f) :
    r.Answers text f := by
  intro weekStart pattern now
  cases hshape : Shape.ofText text with
  | endOfPeriod | onePeriodOn =>
    rw [hshape] at h
    obtain rfl := Option.some.inj h
    simp only [resolveAt, hshape]
    rfl
  | monthEnd | midMonth | other =>
    rw [hshape] at h
    cases h

theorem resolveAt_eq_of_reckons_eq_none (h : (Shape.ofText text).reckons? r.calendar = none)
    (pattern pattern' : String) :
    r.resolveAt text weekStart pattern now = r.resolveAt text weekStart pattern' now := by
  cases hshape : Shape.ofText text with
  | endOfPeriod | onePeriodOn =>
    rw [hshape] at h
    cases h
  | monthEnd | midMonth | other => simp only [resolveAt, hshape]

/-- A Wednesday at midnight, 3 April 2024. On it the six answers are all different. -/
def april3 : Instant :=
  ⟨⟨738979, by decide +kernel, by decide +kernel⟩, .midnight⟩

theorem Answers.at_april3 (h : r.Answers text f) :
    r.resolveAt text .sunday pattern april3 = r.rendered pattern (f april3) := by
  have hyear : 0 ≤ april3.date.year := by decide +kernel
  obtain ⟨certain, reference, hanchor, -⟩ := r.exists_anchor text .sunday hyear (by decide)
  rw [h .sunday pattern april3, hanchor]
  rfl

/-- What the calendar comes to for the shape on that day, in numbers. -/
def onApril3 (c : Calendar) (s : Shape) : Option (Except Failure Resolved) :=
  (s.reckons? c).map fun f => rendered ⟨⟨[]⟩, c, april3⟩ "M D s" (f april3)

theorem nodup_onApril3 (c : Calendar) : (Shape.periodic.map (onApril3 c)).Nodup := by
  cases c <;> decide +kernel

theorem rendered_injective (hf : s.reckons? r.calendar = some f)
    (hg : s'.reckons? r.calendar = some g)
    (h : r.rendered "M D s" (f april3) = r.rendered "M D s" (g april3)) : s = s' := by
  have hsame : onApril3 r.calendar s = onApril3 r.calendar s' := by
    rw [onApril3, onApril3, hf, hg]
    exact congrArg some h
  exact List.inj_on_of_nodup_map (nodup_onApril3 r.calendar) (Shape.mem_periodic hf)
    (Shape.mem_periodic hg) hsame

theorem rendered_empty_ne (hf : s.reckons? r.calendar = some f) :
    r.rendered "" (f april3) ≠ r.rendered "M" (f april3) := by
  unfold rendered
  cases s with
  | endOfPeriod p | onePeriodOn p =>
    cases hf
    cases r.calendar <;> cases p <;> decide +kernel
  | monthEnd | midMonth | other => cases hf

/-- What is reckoned for one shape with a period answers the texts of this shape only. -/
theorem answers_iff (hf : s.reckons? r.calendar = some f) :
    r.Answers text f ↔ Shape.ofText text = s := by
  constructor
  · intro h
    cases hg : (Shape.ofText text).reckons? r.calendar with
    | none =>
      -- The pattern changes what `f` says, but not the answer to a text without a period.
      refine absurd ?_ (rendered_empty_ne hf)
      rw [← h.at_april3, ← h.at_april3, resolveAt_eq_of_reckons_eq_none hg "" "M"]
    | some g =>
      have hsame : r.rendered "M D s" (f april3) = r.rendered "M D s" (g april3) := by
        rw [← h.at_april3, ← (answers_of_reckons hg).at_april3]
      exact (rendered_injective hf hg hsame).symm
  · rintro rfl
    exact answers_of_reckons hf

/-- A phrase "this" with a period, wherever it stands, is answered with the end of the period
exactly if the first place before it where "this" has a word after it, if there is one, names the
same period. A phrase "next" with a period is answered with the instant one period later exactly if
moreover no period is named at the first such place of "this". -/
theorem answers_period_iff (r : Resolver) (text : String) (n : Nat) (p : Period) :
    (Shape.PhraseAt "this".toList text.toList n p →
      (r.Answers text (r.calendar.endOf · p) ↔
        ∀ m < n, ∀ word, Shape.FirstWordAt "this".toList text.toList m word →
          Period.ofName? (String.ofList word) = some p)) ∧
    (Shape.PhraseAt "next".toList text.toList n p →
      (r.Answers text (r.calendar.addOne · p) ↔
        (∀ m word, Shape.FirstWordAt "this".toList text.toList m word →
          Period.ofName? (String.ofList word) = none) ∧
        ∀ m < n, ∀ word, Shape.FirstWordAt "next".toList text.toList m word →
          Period.ofName? (String.ofList word) = some p)) := by
  constructor
  · intro hphrase
    have hshape : Shape.ofText text = .endOfPeriod p ↔ Shape.periodAfter? "this" text = some p :=
      Shape.ofText_eq_iff
    rw [answers_iff (s := .endOfPeriod p) rfl, hshape, hphrase.periodAfter?_eq_some_iff]
  · intro hphrase
    have hshape : Shape.ofText text = .onePeriodOn p ↔
        Shape.periodAfter? "this" text = none ∧ Shape.periodAfter? "next" text = some p :=
      Shape.ofText_eq_iff
    rw [answers_iff (s := .onePeriodOn p) rfl, hshape, Shape.periodAfter?_eq_none_iff,
      hphrase.periodAfter?_eq_some_iff]

/-- Alone the phrases are answered, here with the end of the week and the instant a month later. -/
theorem answers_thisWeek_nextMonth :
    let r : Resolver := ⟨⟨Recognizer.builtin⟩, .gregorian, april3⟩
    (Shape.PhraseAt "this".toList "this week".toList 0 .week ∧
      r.Answers "this week" (r.calendar.endOf · .week)) ∧
    Shape.PhraseAt "next".toList "next month".toList 0 .month ∧
      r.Answers "next month" (r.calendar.addOne · .month) := by
  intro r
  have hthis : Shape.PhraseAt "this".toList "this week".toList 0 .week :=
    ⟨"this".toList, ' ', "week".toList, [], rfl, rfl, rfl, rfl, by simp⟩
  have hnext : Shape.PhraseAt "next".toList "next month".toList 0 .month :=
    ⟨"next".toList, ' ', "month".toList, [], rfl, rfl, rfl, rfl, by simp⟩
  refine ⟨⟨hthis, ((answers_period_iff r "this week" 0 .week).1 hthis).2 ?_⟩, hnext,
    ((answers_period_iff r "next month" 0 .month).2 hnext).2 ⟨?_, ?_⟩⟩
  · exact fun m hm => absurd hm (Nat.not_lt_zero m)
  · exact Shape.periodAfter?_eq_none_iff.1 (by decide +kernel)
  · exact fun m hm => absurd hm (Nat.not_lt_zero m)

/-- In "this one, not this week" the first "this" has another word after it, and the phrase that
comes later is not answered. -/
theorem resolveAt_thisOne :
    let text := "this one, not this week"
    let now : Instant := ⟨⟨738993, by decide, by decide⟩,
      ⟨10, 30, 0, 0, by decide, by decide, by decide, by decide⟩⟩
    let r : Resolver := ⟨⟨Recognizer.builtin⟩, .gregorian, now⟩
    Shape.PhraseAt "this".toList text.toList 14 .week ∧
      (∀ m < 14, ∀ q, ¬ Shape.PhraseAt "this".toList text.toList m q) ∧
      r.anchor text .sunday now = .ok (false, now) ∧
      r.rendered "YYYY-MM-DD" (r.calendar.endOf now .week) = .ok (.formatted "2024-04-20") ∧
      r.resolveAt text .sunday "YYYY-MM-DD" now = .ok .noMatch := by
  intro text now r
  have hphrase : Shape.PhraseAt "this".toList text.toList 14 .week :=
    ⟨"this".toList, ' ', "week".toList, [], by simp [text], rfl, rfl, rfl, by simp⟩
  have hfirst : ∀ m < 14, ∀ q, ¬ Shape.PhraseAt "this".toList text.toList m q := by
    intro m hm q hq
    obtain ⟨word, hword, hname⟩ := hq.wordAt
    have hnone : ∀ m < 14, (Shape.wordAfter? "this".toList (text.toList.drop m)).bind
        (fun word => Period.ofName? (String.ofList word)) = none := by decide +kernel
    have := hnone m hm
    rw [Shape.wordAfter?_eq_some_iff.2 hword, Option.bind_some, hname] at this
    cases this
  have hshape : Shape.ofText text = .other := by decide +kernel
  have hanchor : r.anchor text .sunday now = .ok (false, now) := by
    rw [anchor, Finder.find_of_isEmpty_attempts (by decide +kernel), Finder.find_unaided]
    decide +kernel
  have hfind : r.finder.find { text, reference := now, now } = .ok [] := by
    rw [Finder.find_of_isEmpty_attempts (by decide +kernel), Finder.find_unaided]
    decide +kernel
  refine ⟨hphrase, hfirst, hanchor, by decide +kernel, ?_⟩
  rw [resolveAt_other hshape hanchor, Finder.findDate, hfind]
  rfl

end Resolver

end CasualDate
