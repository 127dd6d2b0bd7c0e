import CasualDate.Proofs.Grammar.Date
import CasualDate.Proofs.Reading.Cut.Date

/-!
# Moments are sentences

A time takes a colon before it knows whether minutes follow. Behind a colon that does not dangle there
is a word that begins a number, and the number may still be none, as in "5:hundred and". Such a colon
ends the moment as well: no date begins with these words (`run_dateAfter_of_stuck`). So a moment is a
sentence or ends with a colon (`MomentExpr.derives`), and it is a sentence if no mark in it dangles
(`MomentExpr.dateTime_of_run`).
-/

namespace CasualDate

open Grammar Reading

variable {us vs ws rest : List Word}

/-- The words begin like a number and there is none. -/
def Number.Stuck (ws : List Word) : Prop :=
  ws.head?.any Word.beginsNumber = true ∧ (reading parse?).run ws = none

/-- A sentence of the kind, or words up to a colon before what begins like a number and is none. -/
def UpToColon (S : List Word → Prop) (us rest : List Word) : Prop :=
  S us ∨ us.getLast? = some .colon ∧ Number.Stuck rest

namespace UpToColon

variable {S T : List Word → Prop}

theorem append (h : UpToColon S vs rest) (hST : S vs → T (us ++ vs)) :
    UpToColon T (us ++ vs) rest := by
  rcases h with h | ⟨hcolon, hstuck⟩
  · exact .inl (hST h)
  · exact .inr ⟨by simp [hcolon], hstuck⟩

/-- The colon at the end dangles, since nothing follows it. -/
theorem sentence (h : UpToColon S us rest) (hjoined : Joined us) : S us := by
  rcases h with h | ⟨hcolon, -⟩
  · exact h
  · obtain ⟨vs, rfl⟩ := List.getLast?_eq_some_iff.1 hcolon
    exact absurd (hjoined.right [.colon] (List.suffix_refl _)) (by decide)

end UpToColon

theorem DateExpr.run_eq_none_of_stuck (h : Number.Stuck ws) : (reading parse?).run ws = none := by
  obtain ⟨hbegins, hnumber⟩ := h
  cases ws with
  | nil => cases hbegins
  | cons w ws =>
    have hw : w.beginsNumber = true := hbegins
    have harticle : Duration.article? w = none := by cases w <;> first | rfl | cases hw
    obtain ⟨hday, hnumeric, hby, -⟩ := run_eq_none_of_number_eq_none hnumber harticle
    obtain ⟨hnamed, hmonth, hrelative, hweekday⟩ :=
      run_eq_none_of_beginsCount (w := w) (by simp [beginsCount, hw]) ws
    simp only [reading_parse?, run_orElse, hnamed, hmonth, hday, hnumeric, hby, hrelative, hweekday,
      Option.or_none]

namespace TimeExpr

/-- A colon that is taken alone dangles or is left before what begins like a number. -/
theorem derives_minutesThen : Derives minutesThen
    (fun _ us rest => us = [] ∨ (∃ vs n, us = .colon :: vs ∧ Num vs n) ∨
      us = [.colon] ∧ Number.Stuck rest) ws := by
  intro minute rest hrun
  rw [run_minutesThen, minutes.eq_def] at hrun
  split at hrun
  · next ws =>
    split at hrun
    · next p hp =>
      cases hrun
      obtain ⟨vs, hws, hvs⟩ := Number.derives p.value p.rest (by rw [run_reading, hp]; rfl)
      refine ⟨.colon :: vs, congrArg (.colon :: ·) hws, fun next hnext hjoined => ?_⟩
      have hvs := hvs next hnext (hjoined.suffix (List.suffix_cons Word.colon _))
      exact .inr (.inl ⟨vs, p.value, rfl, hvs⟩)
    · next hnone =>
      cases hrun
      refine ⟨[.colon], rfl, fun next hnext hjoined => ?_⟩
      refine .inr (.inr ⟨rfl, ?_, run_reading_eq_none.2 hnone⟩)
      have hcolon := hjoined _ (List.suffix_refl _)
      obtain ⟨back, rfl⟩ := hnext
      cases next with
      | nil => cases hcolon
      | cons w next => simpa [Word.dangles] using hcolon
  · cases hrun
    exact ⟨[], rfl, fun _ _ _ => .inl rfl⟩

theorem derives_hourThen (hour : Nat) : Derives (hourThen hour)
    (fun _ vs rest => ∀ us, Num us hour → UpToColon Time (us ++ vs) rest) ws := by
  refine .bind derives_minutesThen fun minute back _ vs =>
    .ifReads (S := fun half hs rest => hs = [.meridiem half]) (.word fun w half _ hw => ?_)
      (fun half _ hhalf hs => .pure ?_) (.pure ?_)
  · cases w <;> cases hw
    rfl
  · rintro rfl (rfl | ⟨zs, n, rfl, hzs⟩ | ⟨rfl, hbegins, -⟩) us hus
    · exact .inl (.half hus half)
    · simpa [UpToColon] using Or.inl (Time.clockHalf hus hzs half)
    · -- "am" and "pm" begin no number
      obtain ⟨w, rfl, hw⟩ := exists_of_run_word hhalf
      cases w <;> cases hw
      cases hbegins
  · rintro (rfl | ⟨zs, n, rfl, hzs⟩ | ⟨rfl, hstuck⟩) us hus
    · rw [List.append_nil, List.append_nil]
      exact .inl (.num hus)
    · rw [List.append_nil]
      exact .inl (.clock hus hzs)
    · exact .inr ⟨by simp, hstuck⟩

theorem derives : Derives (reading parse?) (fun _ us rest => UpToColon Time us rest) ws := by
  rw [reading_parse?]
  refine .orElse (.word fun w e rest hw => .inl ?_)
    (.bind Number.derives fun hour _ _ us =>
      (derives_hourThen hour).mono fun _ vs _ hvs hus => hvs us hus)
  cases w with
  | midnight => exact .midnight
  | noon => exact .noon
  | _ => cases hw

end TimeExpr

namespace MomentExpr

theorem run_dateAfter_of_stuck (h : Number.Stuck ws) : (reading dateAfter).run ws = none := by
  rw [reading_dateAfter, run_ifReads, DateExpr.run_eq_none_of_stuck h]
  cases ws with
  | nil => rfl
  | cons w ws =>
    have hw : w.beginsNumber = true := h.1
    cases w <;> first | rfl | cases hw

theorem derives_timeAfter : Derives (reading timeAfter)
    (fun _ vs rest => ∀ us, Grammar.Date accepted us → UpToColon (DateTime accepted) (us ++ vs) rest)
    ws := by
  rw [reading_timeAfter]
  refine .ifReads (S := fun _ us _ => us = [.comma] ∨ us = [.atWord]) (.word fun w _ _ hw => ?_)
    (fun _ _ _ cs => TimeExpr.derives.mono fun _ vs rest hvs => ?_)
    (TimeExpr.derives.mono fun _ vs rest hvs us hus => hvs.append (.dateTime hus))
  · cases w <;> cases hw
    · exact .inr rfl
    · exact .inl rfl
  · rintro (rfl | rfl) us hus
    · rw [← List.append_assoc]
      exact hvs.append fun hv => by simpa using DateTime.dateCommaTime hus hv
    · rw [← List.append_assoc]
      exact hvs.append fun hv => by simpa using DateTime.dateAtTime hus hv

theorem derives_dateThen (date : DateExpr) : Derives (dateThen date)
    (fun _ vs rest => ∀ us, Grammar.Date accepted us → UpToColon (DateTime accepted) (us ++ vs) rest)
    ws := by
  refine .ifReads derives_timeAfter (fun _ _ _ vs => .pure ?_) (.pure ?_)
  · intro hvs
    rwa [List.append_nil]
  · intro us hus
    rw [List.append_nil]
    exact .inl (.date hus)

theorem derives_dateAfter : Derives (reading dateAfter)
    (fun _ vs _ => ∀ us, Time us → DateTime accepted (us ++ vs)) ws := by
  rw [reading_dateAfter]
  refine .ifReads (S := fun _ us _ => us = [.comma] ∨ us = [.onWord]) (.word fun w _ _ hw => ?_)
    (fun _ _ _ cs => DateExpr.derives.mono fun _ vs _ hvs => ?_)
    (DateExpr.derives.mono fun _ vs _ hvs us hus => .timeDate hus hvs)
  · cases w <;> cases hw
    · exact .inr rfl
    · exact .inl rfl
  · rintro (rfl | rfl) us hus
    · exact .timeCommaDate hus hvs
    · exact .timeOnDate hus hvs

theorem derives_timeThen (time : TimeExpr) : Derives (timeThen time)
    (fun _ vs rest => ∀ us, UpToColon Time us ws → UpToColon (DateTime accepted) (us ++ vs) rest)
    ws := by
  refine .ifReads derives_dateAfter (fun _ _ hdate vs => .pure ?_) (.pure ?_)
  · rintro hvs us (hus | ⟨-, hstuck⟩)
    · rw [List.append_nil]
      exact .inl (hvs us hus)
    · rw [run_dateAfter_of_stuck hstuck] at hdate
      cases hdate
  · rintro us hus
    rw [List.append_nil]
    exact hus.imp_left .time

theorem derives_shiftThen (d : Duration)
    (ih : ∀ us : List Word, us.length < ws.length →
      Derives (reading parse?) (fun _ vs rest => UpToColon (DateTime accepted) vs rest) us) :
    Derives (shiftThen d (reading parse?))
      (fun _ vs rest => ∀ us a, Grammar.Duration us a → UpToColon (DateTime accepted) (us ++ vs) rest)
      ws := by
  refine .orElse
    (.bind DateExpr.derives_afterOrFrom fun _ below hrun cs =>
      .bind (ih below (length_lt_of_run_word hrun)) fun _ _ _ vs => .pure ?_)
    (.orElse
      (.bind .exactly fun _ below hrun cs =>
        .bind (ih below (length_lt_of_run_word hrun)) fun _ _ _ vs => .pure ?_)
      (.bind .exactly fun _ _ _ cs => .pure ?_))
  · rintro hvs (rfl | rfl) us a hus
    · rw [List.append_nil, ← List.append_assoc]
      exact hvs.append fun hv => by simpa using DateTime.after hus hv
    · rw [List.append_nil, ← List.append_assoc]
      exact hvs.append fun hv => by simpa using DateTime.fromMoment hus hv
  · rintro hvs rfl us a hus
    rw [List.append_nil, ← List.append_assoc]
    exact hvs.append fun hv => by simpa using DateTime.before hus hv
  · rintro rfl us a hus
    exact .inl (.ago hus)

theorem derives :
    Derives (reading parse?) (fun _ us rest => UpToColon (DateTime accepted) us rest) ws := by
  induction hn : ws.length using Nat.strongRecOn generalizing ws with
  | ind n ih =>
    subst hn
    rw [reading_parse?]
    refine .ifReads .exactly (fun _ _ _ us => .pure ?_)
      (.ifReads .exactly (fun _ _ _ us => .bind Duration.derives fun d _ _ vs => .pure ?_)
        (.ifReads DateExpr.derives
          (fun date _ _ us => (derives_dateThen date).mono fun _ vs rest hvs hus => hvs us hus)
          (.ifReads Duration.derives
            (fun d below hd us => (derives_shiftThen d fun zs hzs => ?_).mono
              fun _ vs rest hvs hus => hvs us _ hus)
            (.bind TimeExpr.derives fun time _ _ us =>
              (derives_timeThen time).mono fun _ vs rest hvs hus => hvs us hus))))
    · rintro rfl
      exact .inl .now
    · rintro hvs rfl
      rw [List.append_nil]
      exact .inl (.inDuration hvs)
    · exact ih zs.length (Nat.lt_trans hzs (length_lt_of_run_reading hd)) rfl

/-- What is taken for a moment is a sentence, if no mark in it dangles. -/
theorem dateTime_of_run {e : MomentExpr} (hrun : (reading parse?).run ws = some (e, rest)) :
    ∃ us, ws = us ++ rest ∧ (Joined us → DateTime accepted us) := by
  obtain ⟨us, rfl, hus⟩ := derives e rest hrun
  refine ⟨us, rfl, fun hjoined => (hus [] List.nil_prefix ?_).sentence hjoined⟩
  rwa [List.append_nil]

end MomentExpr

end CasualDate
