import CasualDate.Proofs.Candidate.Forward
import CasualDate.Proofs.Components.OnClock
import CasualDate.Proofs.Expr.Alike
import CasualDate.Proofs.Finder.WellPlaced
import Mathlib.Data.List.Forall2

/-!
# Searches that look ahead

Looking ahead moves each candidate of a search by itself, out of the past and by one year at most
(`find_forward`). That one year suffices is a fact about expressions and the built-in recognizers:
what does not state a year names a day of the current year, or one of the week before today
(`DateExpr.near_of_evaluate`).
-/

namespace CasualDate

namespace DateExpr

variable {today d : Date} {e : DateExpr}

theorem year_of_inYearOf {month day : Nat} {cause : InvalidDate}
    (h : orRefuse (inYearOf today month day cause) = .ok d) : d.year = today.year := by
  unfold inYearOf at h
  split at h
  · next hd =>
    cases h
    exact (Date.ofCivil?_eq_some_iff.1 hd).1
  · cases h

/-- A date without a stated year is one of the current year or of the week before. -/
theorem near_of_evaluate (h : e.evaluate today = .ok d) (hyear : e.stated.year = false) :
    d.year = today.year ∨ today.dayNumber ≤ d.dayNumber + 7 := by
  cases e with
  | numericFull | monthDayYear | monthYear | today | tomorrow | yesterday | before | after =>
    cases hyear
  | relativeUnit r u => cases u <;> cases hyear
  | numeric m day =>
    rw [evaluate] at h
    exact .inl (year_of_inYearOf h)
  | monthDay m day =>
    rw [evaluate] at h
    exact .inl (year_of_inYearOf h)
  | month m =>
    rw [evaluate] at h
    exact .inl (year_of_inYearOf h)
  | relativeWeekday r day =>
    have hoffset := weekdayOffset_bounds r today.weekday day
    simp only [evaluate, Date.addDays?] at h
    split at h
    · next hd =>
      cases h
      have := Date.dayNumber_ofDayNumber? hd
      exact .inr (by omega)
    · cases h
  | weekday day =>
    rw [evaluate, Date.addDays?] at h
    cases hd : Date.ofDayNumber? (today.dayNumber + today.weekday.daysUntil day) with
    | none => rw [hd] at h; cases h
    | some x =>
      rw [hd] at h
      cases h
      have := Date.dayNumber_ofDayNumber? hd
      exact .inr (by omega)
  | unstated =>
    cases h
    exact .inl rfl

end DateExpr

namespace MomentExpr

variable {reference value : Instant} {e : MomentExpr}

theorem evaluate_date {date : DateExpr} {time : TimeExpr}
    (h : (dateTime date time).evaluate reference = .ok value) :
    date.evaluate reference.date = .ok value.date := by
  rw [evaluate] at h
  cases hdate : date.evaluate reference.date with
  | error failure => rw [hdate] at h; cases h
  | ok day =>
    rw [hdate] at h
    cases htime : time.evaluate reference with
    | error error => rw [htime] at h; cases h
    | ok timeOfDay => rw [htime] at h; cases h; rfl

theorem near_of_evaluate (h : e.evaluate reference = .ok value) (hyear : e.stated.year = false) :
    value.IsNear reference := by
  cases e with
  | now | after | before => cases hyear
  | dateTime date time => exact DateExpr.near_of_evaluate (evaluate_date h) hyear
  | timeDate time date =>
    have hsame : (dateTime date time).evaluate reference = .ok value := by
      simpa only [evaluate] using h
    exact DateExpr.near_of_evaluate (evaluate_date hsame) hyear

end MomentExpr

theorem Recognizer.exists_of_mem_builtin {r : Recognizer} {ctx : Context} {m : Match}
    {fields : Components} (hr : r ∈ builtin) (h : r.extract ctx m = some fields) :
    ∃ day month : Int,
      fields = ((Components.ofInstant ctx.reference).assign .day day).assign .month month := by
  rcases List.mem_cons.1 hr with rfl | hr
  · simp only [holiday, Option.some.injEq] at h
    exact ⟨25, 12, h.symm⟩
  · obtain rfl := List.mem_singleton.1 hr
    simp only [ordinalDay, Option.map_eq_some_iff] at h
    obtain ⟨day, -, heq⟩ := h
    exact ⟨day, ctx.now.date.month, heq.symm⟩

theorem Recognizer.year_of_mem_builtin {r : Recognizer} {ctx : Context} {m : Match}
    {fields : Components} (hr : r ∈ builtin) (h : r.extract ctx m = some fields) :
    fields.year = .implied ctx.reference.date.year := by
  obtain ⟨day, month, rfl⟩ := exists_of_mem_builtin hr h
  rfl

namespace Candidate

variable {c : Candidate} {reference t : Instant}

/-- What the candidate denotes is near the reference, unless its year was stated. -/
def IsNear (c : Candidate) (reference : Instant) : Prop :=
  c.fields.isCertain .year = false → ∀ t, c.date? = some t → t.IsNear reference

theorem isNear_of_year (h : c.fields.year = .implied reference.date.year) : c.IsNear reference := by
  intro _ t ht
  have hyear := Components.year_of_date? ht
  rw [h] at hyear
  exact .inl hyear

end Candidate

namespace Finder

variable {text : String} {reference now : Instant} {ctx : Context} {c : Candidate}

theorem isNear_of_mem_scan
    (h : c ∈ (Step.scan text reference).filterMap Step.candidate?) : c.IsNear reference := by
  obtain ⟨step, hstep, hc⟩ := List.mem_filterMap.1 h
  cases step with
  | found index span e value =>
    cases hc
    intro hyear t ht
    have ht' : value.onClock = t := by simpa [Candidate.date?] using ht
    rw [← ht']
    show value.IsNear reference
    exact MomentExpr.near_of_evaluate ((Step.scans_scanFrom ..).evaluate_of_found_mem hstep) hyear
  | skipped | broken => cases hc

theorem isNear_of_mem_attempts
    (h : c ∈ ((Finder.mk Recognizer.builtin).attempts ctx).filterMap Attempt.candidate?) :
    c.IsNear ctx.reference := by
  refine Candidate.isNear_of_year ?_
  obtain ⟨a, ha, hc⟩ := List.mem_filterMap.1 h
  obtain ⟨r, hr, ha⟩ := List.mem_flatMap.1 ha
  obtain ⟨m, -, rfl⟩ := List.mem_map.1 ha
  obtain ⟨fields, hfields, rfl⟩ := Option.map_eq_some_iff.1 hc
  exact Recognizer.year_of_mem_builtin hr hfields

theorem isNear_of_mem_proposals {cs : List Candidate}
    (h : (Finder.mk Recognizer.builtin).proposals ctx = .ok cs) (hc : c ∈ cs) :
    c.IsNear ctx.reference := by
  simp only [proposals] at h
  split at h
  · cases h
  · cases h
    rcases List.mem_append.1 hc with hc | hc
    · exact isNear_of_mem_scan hc
    · exact isNear_of_mem_attempts hc

/-- Neither the scan nor the built-in recognizers ask whether the search looks ahead. -/
theorem proposals_forward (f : Bool) :
    (Finder.mk Recognizer.builtin).proposals { text, reference, now, forward := f } =
      (Finder.mk Recognizer.builtin).proposals { text, reference, now } :=
  rfl

/-- Looking ahead changes the candidates of a search one by one: each is moved into the year after
if it is left behind. Then none without a stated year lies in the past, unless the year after has no
such day. -/
theorem find_forward (text : String) (reference now : Instant) :
    (∃ failure, (Finder.mk Recognizer.builtin).find { text, reference, now } = .error failure ∧
      (Finder.mk Recognizer.builtin).find { text, reference, now, forward := true } =
        .error failure) ∨
    ∃ cs ds, (Finder.mk Recognizer.builtin).find { text, reference, now } = .ok cs ∧
      (Finder.mk Recognizer.builtin).find { text, reference, now, forward := true } = .ok ds ∧
      List.Forall₂ (Candidate.Forwarded reference) cs ds ∧
      ∀ d ∈ ds, d.fields.isCertain .year = false → ∃ u, d.date? = some u ∧
        (u.isBefore reference = false ∨ ¬∃ v : Instant, v.IsYearAfter u) := by
  rw [find, find, proposals_forward true]
  cases hproposals : (Finder.mk Recognizer.builtin).proposals { text, reference, now } with
  | error failure => exact .inl ⟨failure, rfl, rfl⟩
  | ok proposed =>
    have hkept : ∀ c ∈ Candidate.collapse (ordered proposed),
        c.IsNear reference ∧ ∃ t, c.date? = some t := by
      intro c hc
      obtain ⟨hmem, hdate⟩ := mem_of_mem_collapse_ordered hc
      have hnear := isNear_of_mem_proposals hproposals hmem
      exact ⟨hnear, Option.isSome_iff_exists.1 hdate⟩
    refine .inr ⟨Candidate.collapse (ordered proposed),
      (Candidate.collapse (ordered proposed)).map (·.forward reference),
      by simp [Except.map, settle], by simp [Except.map, settle], ?_, ?_⟩
    · rw [List.forall₂_map_right_iff, List.forall₂_same]
      intro c hc
      obtain ⟨-, t, ht⟩ := hkept c hc
      exact Candidate.forwarded_forward reference ht
    · intro d hd hyear
      obtain ⟨c, hc, rfl⟩ := List.mem_map.1 hd
      obtain ⟨hnear, t, ht⟩ := hkept c hc
      rw [Candidate.isCertain_forward] at hyear
      exact Candidate.exists_notBefore_forward ht hyear (hnear hyear t ht)

end Finder

end CasualDate
