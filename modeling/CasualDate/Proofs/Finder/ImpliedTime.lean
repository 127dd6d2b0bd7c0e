import CasualDate.Proofs.Expr.Clock
import CasualDate.Proofs.Finder.SelfContained

/-!
# Times that are not stated

A candidate whose time is not stated has the time of day of the reference, moved by the minutes of
the durations in its text. So it has the reference's time exactly if these minutes make whole days,
and do not first lead back from a leap second (`Finder.keepsTime_iff_of_mem_find`).
-/

namespace CasualDate

namespace Components

variable {t : Instant}

/-- Hour, minute and second are those of the instant. -/
def KeepsTime (c : Components) (t : Instant) : Prop :=
  ∀ f ∈ [Field.hour, .minute, .second], c.get f = (ofInstant t).get f

theorem keepsTime_ofStated_iff {value : Instant} (s : Stated) :
    (ofStated value s).KeepsTime t ↔ value.time.ShowsSame t.time := by
  simp only [KeepsTime, List.forall_mem_cons, get, ofStated, ofInstant, Entry.implied,
    Option.some.injEq, Int.natCast_inj, List.not_mem_nil, false_implies, implies_true, and_true]
  exact ⟨fun h => ⟨h.1, h.2.1, h.2.2⟩, fun h => ⟨h.hour_eq, h.minute_eq, h.clockSecond_eq⟩⟩

end Components

namespace Finder

variable {ctx : Context} {cs : List Candidate} {c : Candidate}

/-- The time fields of a candidate are stated together. Where they are not, they are those of the
reference exactly if the minutes of the durations in its text, those that are counted back being
negative, make whole days and do not first lead back from a leap second. -/
theorem keepsTime_iff_of_mem_find (hforward : ctx.forward = false)
    (h : (Finder.mk []).find ctx = .ok cs) (hc : c ∈ cs) : ∃ e : MomentExpr, e.Fills c.text ∧
      (∀ f ∈ [Field.hour, .minute, .second], c.fields.isCertain f = e.stated.time) ∧
      (c.fields.isCertain .hour = false → (c.fields.KeepsTime ctx.reference ↔
        e.minuteSteps.sum % 1440 = 0 ∧ ctx.reference.time.LeadsOn e.minuteSteps)) := by
  rw [eq_map_settled_of_find_unaided h] at hc
  obtain ⟨d, hd, rfl⟩ := List.mem_map.1 hc
  have hsettled : d.settled ctx = d := by rw [Candidate.settled, hforward]; rfl
  obtain ⟨e, value, hfound, hgrammar⟩ := Step.exists_found_of_mem_filterMap hd
  obtain ⟨hfills, hvalue⟩ := Step.fills_of_found_mem_scan hfound
  have hfields : d.fields = .ofStated value e.stated := congrArg Candidate.fields hgrammar
  rw [hsettled, hfields]
  refine ⟨e, hfills, fun f hf => ?_, fun hstated => ?_⟩
  · simp only [List.mem_cons, List.not_mem_nil, or_false] at hf
    rcases hf with rfl | rfl | rfl <;> rfl
  · rw [Components.keepsTime_ofStated_iff]
    exact MomentExpr.showsSame_evaluate_iff hstated hvalue

/-- A day and 24 hours make two whole days. -/
theorem keepsTime_twoDaysAfterJune5 :
    let now : Instant := ⟨⟨738993, by decide, by decide⟩, ⟨10, 30, 0, 0, by decide, by decide,
      by decide, by decide⟩⟩
    let text := "a day and 24 hours after june 5"
    let found : Candidate :=
      ⟨0, text, .ofStated ⟨⟨739044, by decide, by decide⟩, now.time⟩ .fullDate, .grammar⟩
    (Finder.mk []).find { text, reference := now, now } = .ok [found] ∧
      (∃ e : MomentExpr, e.Fills text ∧
        (∀ f ∈ [Field.hour, .minute, .second], found.fields.isCertain f = e.stated.time) ∧
        (found.fields.isCertain .hour = false → (found.fields.KeepsTime now ↔
          e.minuteSteps.sum % 1440 = 0 ∧ now.time.LeadsOn e.minuteSteps))) ∧
      found.fields.isCertain .hour = false ∧ found.fields.KeepsTime now := by
  intro now text found
  have hfind : (Finder.mk []).find { text, reference := now, now } = .ok [found] := by
    rw [find_unaided]
    decide +kernel
  exact ⟨hfind, keepsTime_iff_of_mem_find rfl hfind (List.mem_singleton.2 rfl), rfl,
    (Components.keepsTime_ofStated_iff _).2 ⟨rfl, rfl, rfl⟩⟩

/-- Three hours after today are not the time of the reference, and are not stated. -/
theorem find_threeHoursAfterToday :
    let now : Instant := ⟨⟨738993, by decide, by decide⟩, ⟨10, 30, 0, 0, by decide, by decide,
      by decide, by decide⟩⟩
    ∃ c, (Finder.mk []).find { text := "3 hours after today", reference := now, now } = .ok [c] ∧
      c.fields.isCertain .hour = false ∧ c.fields.get .hour = some 13 ∧ ¬ c.fields.KeepsTime now := by
  intro now
  let found : Candidate := ⟨0, "3 hours after today", .ofStated ⟨now.date, ⟨13, 30, 0, 0, by decide,
    by decide, by decide, by decide⟩⟩ .fullDate, .grammar⟩
  have hfind : (Finder.mk []).find { text := "3 hours after today", reference := now, now } =
      .ok [found] := by
    rw [find_unaided]
    decide +kernel
  refine ⟨found, hfind, rfl, rfl, fun hkeeps => ?_⟩
  have hhour := ((Components.keepsTime_ofStated_iff _).1 hkeeps).hour_eq
  cases hhour

end Finder

end CasualDate
