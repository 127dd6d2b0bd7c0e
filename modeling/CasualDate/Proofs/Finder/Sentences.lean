import CasualDate.Proofs.Finder.Unaided
import CasualDate.Proofs.Grammar.Marks
import CasualDate.Proofs.Grammar.Moment

/-!
# What a search returns is in the language

The words of a candidate are a sentence of the grammar that is read, unless a mark in them dangles
(`Finder.dateTime_of_mem_find`). They are found between the offsets of the candidate, which are those
of the first and the last token that the expression was read from.
-/

namespace CasualDate

open Grammar

/-- The words of the text that the candidate spans. -/
def Candidate.words (text : String) (c : Candidate) : List Word :=
  ((Token.lex text.toList).filter fun t => c.index ≤ t.start ∧ t.stop ≤ c.stop).map Token.word

namespace Finder

variable {ctx : Context} {cs : List Candidate} {c : Candidate}

theorem exists_run_of_mem_find (h : (Finder.mk []).find ctx = .ok cs) (hc : c ∈ cs) :
    ∃ e rest, (reading MomentExpr.parse?).run (c.words ctx.text ++ rest) = some (e, rest) := by
  rw [eq_map_settled_of_find_unaided h] at hc
  obtain ⟨d, hd, rfl⟩ := List.mem_map.1 hc
  obtain ⟨e, value, hfound, -⟩ := Step.exists_found_of_mem_filterMap hd
  obtain ⟨us, t, mid, rest, hlex, hread, -, hindex, htext⟩ :=
    (Step.scans_scanFrom ..).exists_of_found_mem hfound
  have hplaced := Token.placed_lex ctx.text.toList
  rw [hlex] at hplaced
  have hmid := hplaced.sublist
    ((List.sublist_append_left (t :: mid) rest).trans (List.sublist_append_right us _))
  have hstop : (d.settled ctx).stop = ((t :: mid).getLast (List.cons_ne_nil t mid)).stop := by
    rw [Candidate.stop, Candidate.index_settled, Candidate.text_settled, hindex, htext]
    exact hmid.standsAt_span.2
  have hwords : (d.settled ctx).words ctx.text = (t :: mid).map Token.word := by
    rw [Candidate.words, hstop, Candidate.index_settled, hindex, hlex, hplaced.filter_between]
  refine ⟨e, rest.map Token.word, ?_⟩
  rw [hwords, ← List.map_append]
  exact reads_iff.1 hread.reads

/-- The words of a candidate are a sentence, unless a mark in them dangles. -/
theorem dateTime_of_mem_find (h : (Finder.mk []).find ctx = .ok cs) (hc : c ∈ cs)
    (hjoined : Joined (c.words ctx.text)) : DateTime accepted (c.words ctx.text) := by
  obtain ⟨e, rest, hrun⟩ := exists_run_of_mem_find h hc
  obtain ⟨us, hus, hsentence⟩ := MomentExpr.dateTime_of_run hrun
  obtain rfl := List.append_cancel_right hus
  exact hsentence hjoined

theorem dateTime_5th_of_june :
    let now : Instant := ⟨⟨738993, by decide, by decide⟩, .midnight⟩
    let ctx : Context :=
      { text := "see you on the 5th of june, 2024 at 5:30 pm or so", reference := now, now }
    ∃ c, (Finder.mk []).find ctx = .ok [c] ∧ Joined (c.words ctx.text) ∧
      DateTime accepted (c.words ctx.text) := by
  intro now ctx
  let found : Candidate := ⟨11, "the 5th of june, 2024 at 5:30 pm",
    .ofStated ⟨⟨739042, by decide, by decide⟩, ⟨17, 30, 0, 0, by decide, by decide, by decide, by decide⟩⟩
      { Stated.fullDate with time := true }, .grammar⟩
  have hfind : (Finder.mk []).find ctx = .ok [found] := by
    rw [find_unaided]
    decide +kernel
  have hjoined : Joined (found.words ctx.text) := by decide +kernel
  exact ⟨found, hfind, hjoined, dateTime_of_mem_find hfind (List.mem_singleton.2 rfl) hjoined⟩

theorem exists_not_published {ws : List Word} (hws : ¬ DateTime published ws)
    (h : ((Finder.mk []).find ctx).map (List.map (·.words ctx.text)) = .ok [ws]) :
    ∃ c, (Finder.mk []).find ctx = .ok [c] ∧ ¬ DateTime published (c.words ctx.text) := by
  cases hfind : (Finder.mk []).find ctx with
  | error e =>
    rw [hfind] at h
    cases h
  | ok cs =>
    rw [hfind] at h
    obtain ⟨c, rfl, rfl⟩ := List.map_eq_singleton_iff.1 (Except.ok.inj h)
    exact ⟨c, rfl, hws⟩

/-- A date of two numbers with a dot, a year of five digits behind a comma, a dash with no ones behind
it and a colon with no minutes are found, and are not in the grammar of the documentation. -/
theorem find_not_published :
    let now : Instant := ⟨⟨738993, by decide, by decide⟩, .midnight⟩
    ∀ text ∈ ["1.2", "june 5, 12345, noon", "today twenty-", "today 5:"],
      ∃ c, (Finder.mk []).find { text, reference := now, now } = .ok [c] ∧
        ¬ DateTime published (c.words text) := by
  intro now text htext
  simp only [List.mem_cons, List.not_mem_nil, or_false] at htext
  rcases htext with rfl | rfl | rfl | rfl
  · have hdot : ¬ DateTime published [.literal ⟨1, by decide⟩, .dot, .literal ⟨2, by decide⟩] :=
      not_dateTime_of_dot
    exact exists_not_published hdot (by rw [find_unaided]; decide +kernel)
  · have hyear : ¬ DateTime published
        [.month .june, .literal ⟨5, by decide⟩, .comma, .literal ⟨12345, by decide⟩, .comma, .noon] :=
      not_dateTime_of_lt (by decide)
    exact exists_not_published hyear (by rw [find_unaided]; decide +kernel)
  · have hdash : ¬ DateTime published [.today, .numeral .twenty, .dash] :=
      fun h => Bool.false_ne_true h.closed
    exact exists_not_published hdash (by rw [find_unaided]; decide +kernel)
  · have hcolon : ¬ DateTime published [.today, .literal ⟨5, by decide⟩, .colon] :=
      fun h => Bool.false_ne_true h.closed
    exact exists_not_published hcolon (by rw [find_unaided]; decide +kernel)

end Finder

end CasualDate
