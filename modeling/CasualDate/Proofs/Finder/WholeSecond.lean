import CasualDate.Proofs.Expr.WholeSecond
import CasualDate.Proofs.Finder.Forward
import CasualDate.Proofs.Finder.Offered

/-!
# Searches by whole seconds

What the built-in finder puts forward does not depend on fractions of a second (`offers_wholeSecond`),
since candidates have whole seconds; nor does a search that does not look ahead. Looking ahead
compares a candidate with the reference to the nanosecond: the candidate that denotes the current
second lies in the past as soon as the second has begun (`Candidate.date?_forward_eq_iff`).
-/

namespace CasualDate

namespace Instant

variable {t u reference : Instant}

theorem rank_inj : t.rank = u.rank ↔ t = u := by
  refine ⟨fun h => ?_, fun h => h ▸ rfl⟩
  obtain ⟨⟨day, hday, hday'⟩, ⟨hour, minute, second, nanosecond, hh, hm, hs, hn⟩⟩ := t
  obtain ⟨⟨day', _, _⟩, ⟨hour', minute', second', nanosecond', hh', hm', hs', hn'⟩⟩ := u
  simp only [rank, TimeOfDay.rank] at h
  obtain rfl : day = day' := by omega
  obtain rfl : hour = hour' := by omega
  obtain rfl : minute = minute' := by omega
  obtain rfl : second = second' := by omega
  obtain rfl : nanosecond = nanosecond' := by omega
  rfl

theorem rank_wholeSecond (t : Instant) : t.wholeSecond.rank + t.time.nanosecond = t.rank := by
  simp only [rank, TimeOfDay.rank, wholeSecond, TimeOfDay.wholeSecond]
  omega

/-- A whole second lies before an instant if it lies before its second, or is that second and the
second has begun. -/
theorem isBefore_iff (h : t.wholeSecond = t) :
    t.isBefore reference = true ↔ t.isBefore reference.wholeSecond = true ∨
      t = reference.wholeSecond ∧ reference.time.nanosecond ≠ 0 := by
  have hreference := rank_wholeSecond reference
  have hnanosecond := reference.time.nanosecond_lt
  have hwhole : t.time.nanosecond = 0 := by rw [← h]; rfl
  have hmultiple : t.rank % 1000000000 = 0 ∧ reference.wholeSecond.rank % 1000000000 = 0 := by
    simp only [rank, TimeOfDay.rank, hwhole, wholeSecond, TimeOfDay.wholeSecond]
    omega
  simp only [isBefore, decide_eq_true_eq, ← rank_inj]
  omega

end Instant

theorem Components.wholeSecond_of_date? {c : Components} {t : Instant} (h : c.date? = some t) :
    t.wholeSecond = t := by
  obtain ⟨-, hour, minute, second, htime⟩ := exists_of_date? h
  rw [Instant.wholeSecond, TimeOfDay.wholeSecond_of_ofClock? htime]

namespace Candidate

variable {c : Candidate} {now now' reference t : Instant}

/-- The candidate denotes the current second without stating the year, and the year after has such a
day. -/
structure IsDue (now : Instant) (c : Candidate) : Prop where
  uncertain : c.fields.isCertain .year = false
  date : c.date? = some now.wholeSecond
  exists_after : ∃ u : Instant, u.IsYearAfter now.wholeSecond

theorem IsLeftBehind.date?_nextYear_ne (hleft : c.IsLeftBehind reference t) (h : c.date? = some t) :
    c.nextYear.date? ≠ c.date? := by
  obtain ⟨u, hafter⟩ := hleft.exists_after
  rw [(date?_nextYear hleft.uncertain h).2 hafter, h]
  intro hsame
  have hyear := hafter.year
  rw [Option.some.inj hsame] at hyear
  omega

theorem date?_forward_eq_iff_isLeftBehind (h : c.date? = some t) :
    (c.forward now).date? = (c.forward now').date? ↔
      (c.IsLeftBehind now t ↔ c.IsLeftBehind now' t) := by
  by_cases hleft : c.IsLeftBehind now t
  · rw [hleft.forward_eq h, iff_true_left hleft]
    by_cases hleft' : c.IsLeftBehind now' t
    · rw [hleft'.forward_eq h]
      exact iff_of_true rfl hleft'
    · rw [forward_eq_self hleft' h]
      exact iff_of_false (hleft.date?_nextYear_ne h) hleft'
  · rw [forward_eq_self hleft h, iff_false_left hleft]
    by_cases hleft' : c.IsLeftBehind now' t
    · rw [hleft'.forward_eq h]
      exact iff_of_false (hleft'.date?_nextYear_ne h).symm (not_not_intro hleft')
    · rw [forward_eq_self hleft' h]
      exact iff_of_true rfl hleft'

theorem isLeftBehind_iff (h : c.date? = some t) : c.IsLeftBehind now t ↔
    c.IsLeftBehind now.wholeSecond t ∨ c.IsDue now ∧ now.time.nanosecond ≠ 0 := by
  have hbefore : t.isBefore now = true ↔ _ :=
    Instant.isBefore_iff (Components.wholeSecond_of_date? h)
  constructor
  · intro hleft
    rcases hbefore.1 hleft.isBefore with hbefore | ⟨rfl, hfraction⟩
    · exact .inl ⟨hleft.uncertain, hbefore, hleft.exists_after⟩
    · exact .inr ⟨⟨hleft.uncertain, h, hleft.exists_after⟩, hfraction⟩
  · rintro (hleft | ⟨hdue, hfraction⟩)
    · exact ⟨hleft.uncertain, hbefore.2 (.inl hleft.isBefore), hleft.exists_after⟩
    · obtain rfl : t = now.wholeSecond := Option.some.inj (h.symm.trans hdue.date)
      exact ⟨hdue.uncertain, hbefore.2 (.inr ⟨rfl, hfraction⟩), hdue.exists_after⟩

theorem IsDue.not_isLeftBehind (hdue : c.IsDue now) (h : c.date? = some t) :
    ¬c.IsLeftBehind now.wholeSecond t := by
  obtain rfl : t = now.wholeSecond := Option.some.inj (h.symm.trans hdue.date)
  exact fun hleft => by simpa [Instant.isBefore] using hleft.isBefore

/-- Looking ahead from two instants of one second moves a candidate to the same date, unless it is
due and the second has begun at one of them only. -/
theorem date?_forward_eq_iff (hsame : now.wholeSecond = now'.wholeSecond) (h : c.date? = some t) :
    (c.forward now).date? = (c.forward now').date? ↔
      ¬(c.IsDue now ∧ (now.time.nanosecond = 0 ↔ now'.time.nanosecond ≠ 0)) := by
  have hdue : c.IsDue now' ↔ c.IsDue now :=
    ⟨fun ⟨hyear, hdate, hafter⟩ => ⟨hyear, hsame ▸ hdate, hsame ▸ hafter⟩,
      fun ⟨hyear, hdate, hafter⟩ => ⟨hyear, hsame ▸ hdate, hsame ▸ hafter⟩⟩
  have hnow : c.IsLeftBehind now t ↔ _ := isLeftBehind_iff h
  have hnow' : c.IsLeftBehind now' t ↔ _ := isLeftBehind_iff h
  rw [date?_forward_eq_iff_isLeftBehind h, hnow, hnow', hdue, ← hsame]
  by_cases hc : c.IsDue now
  · have hstays := hc.not_isLeftBehind h
    simp only [hc, hstays, true_and, false_or]
    tauto
  · simp [hc]

end Candidate

namespace Step

/-- The step with the value of what it found by whole seconds. -/
def wholeSecond : Step → Step
  | found index text e value => found index text e value.wholeSecond
  | skipped text e => skipped text e
  | broken cause => broken cause

@[simp] theorem candidate?_wholeSecond (s : Step) : s.wholeSecond.candidate? = s.candidate? := by
  cases s <;> rfl

@[simp] theorem breakdown?_wholeSecond (s : Step) : s.wholeSecond.breakdown? = s.breakdown? := by
  cases s <;> rfl

theorem Scans.wholeSecond {cs : List Char} {reference : Instant} {ts : List Token}
    {steps : List Step} (h : Scans cs reference ts steps) :
    Scans cs reference.wholeSecond ts (steps.map Step.wholeSecond) := by
  induction h with
  | nil => exact .nil
  | pass hpass _ ih => exact .pass hpass ih
  | found hread hvalue _ ih =>
    exact .found hread (by rw [MomentExpr.evaluate_wholeSecond, hvalue]; rfl) ih
  | skipped hread herror _ ih =>
    exact .skipped hread (by rw [MomentExpr.evaluate_wholeSecond, herror]; rfl) ih
  | broken hread hcause =>
    exact .broken hread (by rw [MomentExpr.evaluate_wholeSecond, hcause]; rfl)

theorem scan_wholeSecond (text : String) (reference : Instant) :
    scan text reference.wholeSecond = (scan text reference).map wholeSecond :=
  (scans_scanFrom ..).wholeSecond.eq_scanFrom.symm

end Step

namespace Finder

variable {text : String} {reference now : Instant}

theorem offers_wholeSecond (f : Bool) :
    (Finder.mk Recognizer.builtin).offers
        { text, reference := reference.wholeSecond, now := now.wholeSecond, forward := f } =
      (Finder.mk Recognizer.builtin).offers { text, reference, now, forward := f } := by
  have hscan : (Step.scan text reference.wholeSecond).filterMap Step.candidate? =
      (Step.scan text reference).filterMap Step.candidate? := by
    rw [Step.scan_wholeSecond, List.filterMap_map]
    exact List.filterMap_congr fun s _ => s.candidate?_wholeSecond
  have hrecognized : ∀ r ∈ Recognizer.builtin,
      r.offers { text, reference := reference.wholeSecond, now := now.wholeSecond, forward := f } =
        r.offers { text, reference, now, forward := f } := fun r hr => by
    rcases List.mem_cons.1 hr with rfl | hr
    · rfl
    · obtain rfl := List.mem_singleton.1 hr
      rfl
  simp only [offers_eq]
  rw [hscan, List.flatMap_congr hrecognized]

theorem findSome?_breakdown?_wholeSecond (text : String) (reference : Instant) :
    (Step.scan text reference.wholeSecond).findSome? Step.breakdown? =
      (Step.scan text reference).findSome? Step.breakdown? := by
  rw [Step.scan_wholeSecond, List.findSome?_map]
  exact congrArg (List.findSome? · _) (funext fun s => s.breakdown?_wholeSecond)

/-- A search that does not look ahead does not depend on fractions of a second. -/
theorem find_wholeSecond (text : String) (reference now : Instant) :
    (Finder.mk Recognizer.builtin).find
        { text, reference := reference.wholeSecond, now := now.wholeSecond } =
      (Finder.mk Recognizer.builtin).find { text, reference, now } := by
  simp only [find_eq, findSome?_breakdown?_wholeSecond, offers_wholeSecond, settle,
    Bool.false_eq_true, if_false]

theorem findDate_wholeSecond (text : String) (reference now : Instant) :
    (Finder.mk Recognizer.builtin).findDate
        { text, reference := reference.wholeSecond, now := now.wholeSecond } =
      (Finder.mk Recognizer.builtin).findDate { text, reference, now } := by
  rw [findDate, findDate, find_wholeSecond]

theorem find_eq_of_wholeSecond_eq {now' : Instant} (h : now.wholeSecond = now'.wholeSecond) :
    (Finder.mk Recognizer.builtin).find { text, reference := now, now } =
      (Finder.mk Recognizer.builtin).find { text, reference := now', now := now' } := by
  rw [← find_wholeSecond, h, find_wholeSecond]

/-- Looking ahead moves what is found otherwise. -/
theorem find_ahead (text : String) (reference now : Instant) :
    (Finder.mk Recognizer.builtin).find { text, reference, now, forward := true } =
      ((Finder.mk Recognizer.builtin).find { text, reference, now }).map
        (·.map (·.forward reference)) := by
  rw [find, find, proposals_forward]
  cases (Finder.mk Recognizer.builtin).proposals { text, reference, now } <;> rfl

theorem findDate_ahead (text : String) (reference now : Instant) :
    (Finder.mk Recognizer.builtin).findDate { text, reference, now, forward := true } =
      ((Finder.mk Recognizer.builtin).find { text, reference, now }).map
        (·.head?.bind fun c => (c.forward reference).date?) := by
  rw [findDate, find_ahead]
  cases (Finder.mk Recognizer.builtin).find { text, reference, now } with
  | error => rfl
  | ok cs => cases cs <;> rfl

theorem findDate_ahead_eq_iff {now' : Instant} (h : now.wholeSecond = now'.wholeSecond) :
    (Finder.mk Recognizer.builtin).findDate { text, reference := now, now, forward := true } =
        (Finder.mk Recognizer.builtin).findDate
          { text, reference := now', now := now', forward := true } ↔
      ¬((∃ c cs, (Finder.mk Recognizer.builtin).find { text, reference := now, now } =
        .ok (c :: cs) ∧ c.IsDue now) ∧ (now.time.nanosecond = 0 ↔ now'.time.nanosecond ≠ 0)) := by
  rw [findDate_ahead, findDate_ahead, ← find_eq_of_wholeSecond_eq h]
  cases hfind : (Finder.mk Recognizer.builtin).find { text, reference := now, now } with
  | error failure => simp [Except.map]
  | ok cs =>
    cases cs with
    | nil => simp [Except.map]
    | cons c cs =>
      have hdate := isSome_date?_of_mem_find hfind (List.mem_cons_self ..)
      obtain ⟨t, ht⟩ := Option.isSome_iff_exists.1 hdate
      have hdue : (∃ d ds, (.ok (c :: cs) : Except Failure _) = .ok (d :: ds) ∧ d.IsDue now) ↔
          c.IsDue now := by simp
      rw [hdue, ← Candidate.date?_forward_eq_iff h ht]
      simp [Except.map]

end Finder

end CasualDate
