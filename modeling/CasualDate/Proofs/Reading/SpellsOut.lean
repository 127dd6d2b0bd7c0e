import CasualDate.Proofs.Components.Stating
import CasualDate.Proofs.Reading.LooksFor

/-!
# What expressions spell out

An expression without a date has a time and one without a time has a date, so every expression that
is read spells out a field (`MomentExpr.spellsOut_of_reads`). It is enough to look at the end of
each reading, whatever was read before it (`Reading.Gives`): dates and times that nothing is stated of
are filled in where a part is missing, and never read.
-/

namespace CasualDate

namespace Reading

variable {α β : Type} {p : α → Prop} {q : β → Prop}

/-- Everything that is read has the property. -/
def Gives (f : Reading α) (p : α → Prop) : Prop :=
  ∀ ws a rest, f.run ws = some (a, rest) → p a

namespace Gives

theorem pure {a : α} (h : p a) : Gives (Pure.pure a) p := by
  rintro ws _ _ ⟨⟩
  exact h

theorem failure : Gives (Alternative.failure : Reading α) p := by
  rintro ws a rest ⟨⟩

theorem word {f : Word → Option α} (h : ∀ w a, f w = some a → p a) : Gives (Reading.word f) p := by
  intro ws a rest hrun
  obtain ⟨w, -, ha⟩ := exists_of_run_word hrun
  exact h w a ha

theorem bind {f : Reading α} {g : α → Reading β} (hf : f.Gives p) (hg : ∀ a, p a → (g a).Gives q) :
    (f >>= g).Gives q := by
  intro ws b rest hrun
  rw [StateT.run_bind] at hrun
  obtain ⟨⟨a, mid⟩, ha, hrun⟩ := Option.bind_eq_some_iff.1 hrun
  exact hg a (hf ws a mid ha) mid b rest hrun

theorem orElse {f g : Reading α} (hf : f.Gives p) (hg : g.Gives p) : (f <|> g).Gives p := by
  intro ws a rest hrun
  rw [run_orElse, Option.or_eq_some_iff] at hrun
  rcases hrun with hrun | ⟨-, hrun⟩
  · exact hf ws a rest hrun
  · exact hg ws a rest hrun

theorem ifReads {f : Reading α} {g : α → Reading β} {h : Reading β} (hf : f.Gives p)
    (hg : ∀ a, p a → (g a).Gives q) (hh : h.Gives q) : (Reading.ifReads f g h).Gives q := by
  intro ws b rest hrun
  rw [run_ifReads] at hrun
  split at hrun
  · next a mid ha => exact hg a (hf ws a mid ha) mid b rest hrun
  · exact hh ws b rest hrun

theorem any (f : Reading α) : f.Gives fun _ => True := fun _ _ _ _ => trivial

theorem last {f : Reading α} {g : α → Reading β} (hg : ∀ a, (g a).Gives q) : (f >>= g).Gives q :=
  (any f).bind fun a _ => hg a

end Gives

end Reading

open Reading

namespace DateExpr

/-- Whether the date is one that an expression names. -/
def IsNamed (date : DateExpr) : Prop :=
  date ≠ unstated

theorem gives_dayThen (m : Month) (d : Nat) : (dayThen m d).Gives IsNamed :=
  .ifReads (.any _) (fun _ _ => .pure nofun) (.pure nofun)

theorem gives_monthFirst? : (reading monthFirst?).Gives IsNamed := by
  rw [reading_monthFirst?]
  refine .last fun m => .ifReads (.any _) (fun n _ => ?_) (.pure nofun)
  split
  · exact .pure nofun
  · exact .last fun _ => gives_dayThen m n

theorem gives_dayFirst? : (reading dayFirst?).Gives IsNamed := by
  rw [reading_dayFirst?]
  refine .last fun _ => .last fun n => .last fun _ => .last fun _ => .last fun m => ?_
  split
  · exact gives_dayThen m n
  · exact .failure

theorem gives_numeric? : (reading numeric?).Gives IsNamed := by
  rw [reading_numeric?]
  refine .last fun first => .last fun delimiter => .last fun second => ?_
  exact .ifReads (.any _) (fun _ _ => .last fun third => .pure nofun) (.pure nofun)

theorem gives_byDuration : byDuration.Gives IsNamed := by
  refine .last fun d => ?_
  unfold durationThen
  split
  · exact .failure
  · exact .orElse (.last fun _ => .pure nofun) (.last fun _ => .last fun _ => .pure nofun)

theorem gives_relative? : (reading relative?).Gives IsNamed := by
  rw [reading_relative?]
  refine .last fun r => .word fun w date h => ?_
  rintro rfl
  cases w <;> cases h

theorem gives_parse? : (reading parse?).Gives IsNamed := by
  rw [reading_parse?]
  refine .orElse (.word fun w date h => ?_) (.orElse gives_monthFirst? (.orElse gives_dayFirst?
    (.orElse gives_numeric? (.orElse gives_byDuration (.orElse gives_relative?
      (.word fun w date h => ?_))))))
  · rintro rfl
    cases w <;> cases h
  · rintro rfl
    cases w <;> cases h

theorem IsNamed.stated {date : DateExpr} (h : date.IsNamed) :
    date.stated.year = true ∨ date.stated.month = true ∨ date.stated.weekday = true := by
  cases date with
  | unstated => exact absurd rfl h
  | numericFull | monthDayYear | monthYear | today | tomorrow | yesterday | before | after =>
    exact .inl rfl
  | numeric | monthDay | month => exact .inr (.inl rfl)
  | relativeWeekday | weekday => exact .inr (.inr rfl)
  | relativeUnit _ unit => cases unit <;> exact .inl rfl

end DateExpr

namespace TimeExpr

theorem gives_parse? : (reading parse?).Gives (· ≠ unstated) := by
  rw [reading_parse?]
  refine .orElse (.word fun w time h => ?_) (.last fun hour => .last fun minute => ?_)
  · rintro rfl
    cases w <;> cases h
  · refine .ifReads (.any _) (fun _ _ => .pure nofun) (.pure ?_)
    cases minute <;> nofun

end TimeExpr

namespace MomentExpr

/-- Some field is spelled out. -/
def SpellsOut (e : MomentExpr) : Prop :=
  ∃ f, e.stated.states f = true

theorem spellsOut_after (d : Duration) (m : MomentExpr) : (after d m).SpellsOut := ⟨.year, rfl⟩

theorem spellsOut_before (d : Duration) (m : MomentExpr) : (before d m).SpellsOut := ⟨.year, rfl⟩

theorem spellsOut_dateTime {date : DateExpr} (h : date.IsNamed) (time : TimeExpr) :
    (dateTime date time).SpellsOut := by
  rcases h.stated with h | h | h
  · exact ⟨.year, h⟩
  · exact ⟨.month, h⟩
  · exact ⟨.weekday, h⟩

theorem spellsOut_timeDate {time : TimeExpr} (h : time ≠ .unstated) (date : DateExpr) :
    (timeDate time date).SpellsOut :=
  ⟨.hour, decide_eq_true h⟩

theorem gives_parse? : (reading parse?).Gives SpellsOut := by
  rw [reading_parse?]
  refine .ifReads (.any _) (fun _ _ => .pure ⟨.year, rfl⟩) ?_
  refine .ifReads (.any _) (fun _ _ => .last fun d => .pure (spellsOut_after d now)) ?_
  refine .ifReads DateExpr.gives_parse? (fun date hdate => ?_) ?_
  · exact .ifReads (.any _) (fun time _ => .pure (spellsOut_dateTime hdate time))
      (.pure (spellsOut_dateTime hdate .unstated))
  · refine .ifReads (.any _) (fun d _ => ?_) ?_
    · exact .orElse (.last fun _ => .last fun m => .pure (spellsOut_after d m))
        (.orElse (.last fun _ => .last fun m => .pure (spellsOut_before d m))
          (.last fun _ => .pure (spellsOut_before d now)))
    · refine .bind TimeExpr.gives_parse? fun time htime => ?_
      exact .ifReads (.any _) (fun date _ => .pure (spellsOut_timeDate htime date))
        (.pure (spellsOut_timeDate htime .unstated))

theorem spellsOut_of_reads {e : MomentExpr} {ws rest : List Word} (h : Reads parse? ws e rest) :
    e.SpellsOut :=
  gives_parse? ws e rest (reads_iff.1 h)

end MomentExpr

end CasualDate
