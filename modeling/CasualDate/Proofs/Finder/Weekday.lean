import CasualDate.Proofs.Finder.Forward
import CasualDate.Proofs.Finder.Offered
import CasualDate.Proofs.Instant.Days

/-!
# The weekday of a candidate

A weekday that was not stated follows from the date, and a stated one is that of the date which the
expression names; the built-in recognizers state none. So in what is put forward weekdays and dates
agree. Moving a candidate into the year after changes its date but no stated weekday, and no date
falls on the same day of the week a year later: exactly the candidates that are moved with a stated
weekday contradict themselves (`agreesOnWeekday_find`).
-/

namespace CasualDate

/-- A year is 52 weeks and one or two days. -/
theorem Instant.IsYearAfter.weekday_ne {t u : Instant} (h : u.IsYearAfter t) :
    u.date.weekday ≠ t.date.weekday := by
  intro hsame
  have hlow := Date.dayNumber_add_le h.year h.month h.day
  have hhigh := Date.dayNumber_le_add h.year h.month h.day
  have hweekday : u.date.dayNumber % 7 = t.date.dayNumber % 7 := by
    rw [← Date.index_weekday, ← Date.index_weekday, hsame]
  omega

namespace Components

variable {c : Components} {t : Instant}

theorem get_weekday (h : c.date? = some t) :
    c.get .weekday = some (c.statedWeekday.getD t.date.weekday.index) := by
  rw [get, (exists_of_date? h).1]
  cases c.statedWeekday <;> rfl

end Components

namespace Candidate

variable {c : Candidate} {reference t u : Instant}

/-- The candidate denotes an instant and has its weekday. -/
def AgreesOnWeekday (c : Candidate) : Prop :=
  ∃ t, c.date? = some t ∧ c.fields.get .weekday = some (t.date.weekday.index : Int)

theorem agreesOnWeekday_iff (h : c.date? = some t) :
    c.AgreesOnWeekday ↔ c.fields.statedWeekday.getD t.date.weekday.index = t.date.weekday.index := by
  have hget := Components.get_weekday h
  constructor
  · rintro ⟨u, hu, hweekday⟩
    obtain rfl : t = u := Option.some.inj (h.symm.trans hu)
    exact Option.some.inj (hget.symm.trans hweekday)
  · intro heq
    exact ⟨t, h, by rw [hget, heq]⟩

theorem agreesOnWeekday_of_none (h : c.date? = some t) (hnone : c.fields.statedWeekday = none) :
    c.AgreesOnWeekday := by
  rw [agreesOnWeekday_iff h, hnone]
  rfl

@[simp] theorem statedWeekday_nextYear : c.nextYear.fields.statedWeekday = c.fields.statedWeekday :=
  rfl

/-- A year on, a candidate that agreed with its date still does exactly if its weekday was not
stated. -/
theorem agreesOnWeekday_nextYear_iff (hyear : c.fields.isCertain .year = false)
    (h : c.date? = some t) (hafter : u.IsYearAfter t) (hagrees : c.AgreesOnWeekday) :
    c.nextYear.AgreesOnWeekday ↔ c.fields.isCertain .weekday = false := by
  have hmoved : c.nextYear.date? = some u := (date?_nextYear hyear h).2 hafter
  cases hstated : c.fields.statedWeekday with
  | none =>
    have hnone : c.nextYear.fields.statedWeekday = none := by rw [statedWeekday_nextYear, hstated]
    exact iff_of_true (agreesOnWeekday_of_none hmoved hnone)
      (by rw [Components.isCertain, hstated]; rfl)
  | some n =>
    rw [agreesOnWeekday_iff h, hstated, Option.getD_some] at hagrees
    rw [agreesOnWeekday_iff hmoved, statedWeekday_nextYear, hstated, Option.getD_some, hagrees]
    refine iff_of_false (fun hsame => hafter.weekday_ne ?_)
      (by rw [Components.isCertain, hstated]; simp)
    exact Weekday.index_inj.1 (Int.ofNat.inj hsame).symm

theorem agreesOnWeekday_forward_iff (hagrees : c.AgreesOnWeekday) :
    (c.forward reference).AgreesOnWeekday ↔
      ¬(c.fields.isCertain .weekday = true ∧ ∃ t, c.date? = some t ∧ c.IsLeftBehind reference t) := by
  obtain ⟨t, h, -⟩ := id hagrees
  have hbehind : (∃ t, c.date? = some t ∧ c.IsLeftBehind reference t) ↔ c.IsLeftBehind reference t := by
    simp [h]
  rw [hbehind]
  by_cases hleft : c.IsLeftBehind reference t
  · obtain ⟨u, hafter⟩ := hleft.exists_after
    rw [hleft.forward_eq h, agreesOnWeekday_nextYear_iff hleft.uncertain h hafter hagrees]
    simp [hleft]
  · rw [forward_eq_self hleft h]
    exact iff_of_true hagrees fun hboth => hleft hboth.2

end Candidate

theorem Recognizer.statedWeekday_of_mem_builtin {r : Recognizer} {ctx : Context} {m : Match}
    {fields : Components} (hr : r ∈ builtin) (h : r.extract ctx m = some fields) :
    fields.statedWeekday = none := by
  obtain ⟨day, month, rfl⟩ := exists_of_mem_builtin hr h
  rfl

namespace Finder

variable {text : String} {reference now : Instant} {ctx : Context} {c : Candidate}

theorem agreesOnWeekday_of_mem_scan
    (h : c ∈ (Step.scan text reference).filterMap Step.candidate?) : c.AgreesOnWeekday := by
  obtain ⟨e, value, -, heq⟩ := Step.exists_found_of_mem_filterMap h
  have hdate : c.date? = some value.onClock := by
    rw [heq]
    exact Components.date?_ofStated e.stated
  rw [Candidate.agreesOnWeekday_iff hdate, heq, Components.ofStated]
  cases e.stated.weekday <;> rfl

theorem agreesOnWeekday_of_mem_offers (h : c ∈ (Finder.mk Recognizer.builtin).offers ctx)
    (hdate : c.date?.isSome = true) : c.AgreesOnWeekday := by
  rw [offers_eq] at h
  rcases List.mem_append.1 h with h | h
  · exact agreesOnWeekday_of_mem_scan h
  · obtain ⟨r, hr, h⟩ := List.mem_flatMap.1 h
    obtain ⟨m, -, fields, hfields, rfl⟩ := Recognizer.mem_offers.1 h
    obtain ⟨t, ht⟩ := Option.isSome_iff_exists.1 hdate
    exact Candidate.agreesOnWeekday_of_none ht (Recognizer.statedWeekday_of_mem_builtin hr hfields)

/-- In a search that does not look ahead weekdays and dates agree. If it looks ahead, its candidates
are those of the former, moved, and they agree in all but those that are left behind with a stated
weekday. -/
theorem agreesOnWeekday_find (text : String) (reference now : Instant) :
    (∃ failure, (Finder.mk Recognizer.builtin).find { text, reference, now } = .error failure ∧
      (Finder.mk Recognizer.builtin).find { text, reference, now, forward := true } =
        .error failure) ∨
    ∃ cs ds, (Finder.mk Recognizer.builtin).find { text, reference, now } = .ok cs ∧
      (Finder.mk Recognizer.builtin).find { text, reference, now, forward := true } = .ok ds ∧
      (∀ c ∈ cs, c.AgreesOnWeekday) ∧
      List.Forall₂ (fun c d => Candidate.Forwarded reference c d ∧
        (d.AgreesOnWeekday ↔ ¬(c.fields.isCertain .weekday = true ∧
          ∃ t, c.date? = some t ∧ c.IsLeftBehind reference t))) cs ds := by
  have hoffers : (Finder.mk Recognizer.builtin).offers { text, reference, now, forward := true } =
      (Finder.mk Recognizer.builtin).offers { text, reference, now } := rfl
  rw [find_eq, find_eq, hoffers]
  cases (Step.scan text reference).findSome? Step.breakdown? with
  | some cause => exact .inl ⟨_, rfl, rfl⟩
  | none =>
    have hagrees : ∀ c ∈ Candidate.collapse (ordered ((Finder.mk Recognizer.builtin).offers
        { text, reference, now })), c.AgreesOnWeekday := fun c hc => by
      obtain ⟨hmem, hdate⟩ := mem_of_mem_collapse_ordered hc
      exact agreesOnWeekday_of_mem_offers hmem hdate
    refine .inr ⟨_, _, rfl, rfl, ?_, ?_⟩
    · simpa [settle] using hagrees
    · simp only [settle, Bool.false_eq_true, if_false, if_true]
      rw [List.forall₂_map_right_iff, List.forall₂_same]
      intro c hc
      obtain ⟨t, ht, -⟩ := id (hagrees c hc)
      exact ⟨Candidate.forwarded_forward reference ht,
        Candidate.agreesOnWeekday_forward_iff (hagrees c hc)⟩

/-- A year after the last Friday is a Saturday, and still called Friday. -/
theorem find_lastFriday :
    let wednesday : Instant := ⟨⟨738993, by decide, by decide⟩, .midnight⟩
    let friday : Instant := ⟨⟨738988, by decide, by decide⟩, .midnight⟩
    let found : Candidate :=
      ⟨0, "last friday", (Components.ofStated friday { weekday := true }).imply .year 2025, .grammar⟩
    let ctx : Context :=
      { text := "last friday", reference := wednesday, now := wednesday, forward := true }
    (Finder.mk Recognizer.builtin).find ctx = .ok [found] ∧ found.fields.get .weekday = some 5 ∧
      found.date?.map (·.date.weekday) = some .saturday ∧ ¬found.AgreesOnWeekday := by
  intro wednesday friday found ctx
  have hdate : found.date? = some ⟨⟨739353, by decide, by decide⟩, .midnight⟩ := by decide +kernel
  refine ⟨?_, by decide +kernel, by decide +kernel, ?_⟩
  · rw [find_of_isEmpty_attempts (by decide +kernel), find_unaided]
    decide +kernel
  · rw [Candidate.agreesOnWeekday_iff hdate]
    decide +kernel

end Finder

end CasualDate
