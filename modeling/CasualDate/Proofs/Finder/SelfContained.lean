import CasualDate.Proofs.Finder.Unaided
import CasualDate.Proofs.Finder.WholeText
import CasualDate.Proofs.Reading.Cut.Moment
import CasualDate.Proofs.Token.Split

/-!
# Candidates are found again in their own texts

A search of the text of a candidate returns that candidate alone (`Finder.find_of_mem_find`). The
words of the text are those that the expression was read from, and they are read as the same
expression without the words that stood behind them, so the expression fills the text.
-/

namespace CasualDate

namespace Step

variable {text : String} {reference value : Instant} {index : Nat} {span : String} {e : MomentExpr}

/-- An expression that is found in a text fills the part of the text that it was found in. -/
theorem fills_of_found_mem_scan (h : found index span e value ∈ scan text reference) :
    e.Fills span ∧ e.evaluate reference = .ok value := by
  obtain ⟨us, t, ts, rest, hlex, hread, hvalue, -, rfl⟩ :=
    (scans_scanFrom ..).exists_of_found_mem h
  obtain ⟨as, ms, bs, hcs, htight, hwords, hstart, hstop⟩ := Token.exists_tight_of_lex_eq hlex
  have hspan : (t.span text.toList ts).toList = ms := by
    rw [Token.span, String.toList_ofList, hcs, ← hstart, ← hstop, Text.slice_append]
  have hrun : (reading MomentExpr.parse?).run ((t :: ts).map Token.word ++ rest.map Token.word) =
      some (e, [] ++ rest.map Token.word) := by
    rw [← List.map_append]
    exact reads_iff.1 hread.reads
  refine ⟨⟨hspan ▸ htight, ?_, hread.notBare⟩, hvalue⟩
  rw [hspan, hwords]
  exact reads_iff.2 (MomentExpr.run_of_append hrun).1

end Step

namespace Finder

variable {ctx : Context} {cs : List Candidate} {c : Candidate}

/-- A candidate is the only one in its own text, and is the same there but for its place. -/
theorem find_of_mem_find (h : (Finder.mk []).find ctx = .ok cs) (hc : c ∈ cs) :
    (Finder.mk []).find { ctx with text := c.text } = .ok [{ c with index := 0 }] := by
  rw [eq_map_settled_of_find_unaided h] at hc
  obtain ⟨d, hd, rfl⟩ := List.mem_map.1 hc
  obtain ⟨e, value, hfound, hgrammar⟩ := Step.exists_found_of_mem_filterMap hd
  obtain ⟨hfills, hvalue⟩ := Step.fills_of_found_mem_scan hfound
  have hsettled : ({ d.settled ctx with index := 0 } : Candidate) =
      (⟨0, d.text, .ofStated value e.stated, .grammar⟩ : Candidate).settled ctx := by
    rw [← Candidate.settled_withIndex]
    exact congrArg (fun c : Candidate => ({ c with index := 0 } : Candidate).settled ctx) hgrammar
  rw [hsettled, Candidate.text_settled, find_unaided, Step.scan_whole hfills hvalue]
  rfl

/-- What stands around "june 5" has no part in it. -/
theorem find_june5_of_mem_find :
    let now : Instant := ⟨⟨738993, by decide, by decide⟩, .midnight⟩
    let june5 : Instant := ⟨⟨739042, by decide, by decide⟩, .midnight⟩
    let found : Candidate := ⟨8, "june 5", .ofStated june5 { month := true, day := true }, .grammar⟩
    (Finder.mk []).find { text := "see you june 5 or so", reference := now, now } = .ok [found] ∧
      (Finder.mk []).find { text := "june 5", reference := now, now } =
        .ok [{ found with index := 0 }] := by
  intro now june5 found
  have hfind : (Finder.mk []).find { text := "see you june 5 or so", reference := now, now } =
      .ok [found] := by
    rw [find_unaided]
    decide +kernel
  exact ⟨hfind, find_of_mem_find hfind (List.mem_singleton.2 rfl)⟩

end Finder

end CasualDate
