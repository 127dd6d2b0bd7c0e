import CasualDate.Proofs.Components.OnClock
import CasualDate.Proofs.Finder.WellPlaced
import CasualDate.Proofs.Token.Words
import CasualDate.Proofs.Reading.Moment

/-!
# Texts that are one expression

A text whose words are read as one expression is itself the first candidate that a search finds,
whatever the recognizers find in it (`head?_find`): they find nothing longer and nothing that begins
earlier, and sorting keeps the order in which candidates are found.
-/

namespace CasualDate

/-- The text as a whole is read as the expression, which is more than a number. -/
structure MomentExpr.Fills (e : MomentExpr) (text : String) : Prop where
  tight : Token.Tight text.toList
  reads : Reads parse? (Token.words text.toList) e []
  notBare : e.isBareNumber = false

namespace Step

variable {cs : List Char} {reference value : Instant} {t : Token} {ts : List Token}
  {e : MomentExpr}

/-- An expression that takes all tokens up is the only thing found. -/
theorem scanFrom_whole (hread : e.ReadsTokens t ts []) (hvalue : e.evaluate reference = .ok value) :
    scanFrom cs reference (t :: ts) = [found t.start (t.span cs ts) e value] := by
  have hscan : Scans cs reference (t :: ts ++ []) [found t.start (t.span cs ts) e value] :=
    .found hread hvalue .nil
  rw [List.append_nil] at hscan
  exact hscan.eq_scanFrom.symm

theorem scan_whole {text : String} (h : e.Fills text) (hvalue : e.evaluate reference = .ok value) :
    scan text reference = [found 0 text e value] := by
  obtain ⟨t, ts, hlex, hstart, hstop⟩ := Token.lex_of_tight h.tight
  have hread := h.reads
  rw [Token.words, hlex] at hread
  have hslice : Text.slice text.toList 0 (Text.byteLength text.toList) = text.toList := by
    simpa using Text.slice_append [] text.toList []
  rw [scan, hlex, scanFrom_whole ⟨by simpa using hread, h.notBare⟩ hvalue, Token.span, hstart, hstop,
    hslice, String.ofList_toList]

end Step

namespace Finder

variable {f : Finder} {ctx : Context} {value : Instant} {e : MomentExpr} {c : Candidate}
  {cs : List Candidate}

/-- A date that fills the text is the first one found. -/
theorem head?_find (h : e.Fills ctx.text) (hvalue : e.evaluate ctx.reference = .ok value)
    (hforward : ctx.forward = false) :
    ∃ cs, f.find ctx = .ok cs ∧
      cs.head? = some ⟨0, ctx.text, .ofStated value e.stated, .grammar⟩ := by
  have hproposals : f.proposals ctx = .ok (⟨0, ctx.text, .ofStated value e.stated, .grammar⟩ ::
      (f.attempts ctx).filterMap Attempt.candidate?) := by
    simp [proposals, Step.scan_whole h hvalue, Step.breakdown?, Step.candidate?]
  refine ⟨_, by rw [find, hproposals]; rfl, ?_⟩
  rw [settle, hforward, ordered_cons (by simp [Candidate.date?]) (by simp)]
  refine Candidate.head?_collapseFrom fun c hc => ?_
  have hstop := (standsIn_of_mem_attempts (mem_ordered.1 hc).1).stop_le
  simp only [Candidate.stop] at hstop
  simp only [Candidate.isLonger, decide_eq_false_iff_not]
  omega

theorem findDate_eq (h : e.Fills ctx.text) (hvalue : e.evaluate ctx.reference = .ok value)
    (hforward : ctx.forward = false) : f.findDate ctx = .ok (some value.onClock) := by
  obtain ⟨cs, hfind, hhead⟩ := head?_find (f := f) h hvalue hforward
  simp [findDate, hfind, hhead, Candidate.date?, Except.map]

end Finder

end CasualDate
