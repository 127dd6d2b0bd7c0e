import CasualDate.Proofs.Expr.Breakdown
import CasualDate.Proofs.Finder.Weekday
import CasualDate.Proofs.Resolver.WholeText

/-!
# Phrases without a weekday

The built-in recognizers do not name a weekday, so if no expression that the scan finds does, the
second search of a phrase starts from the current instant like the first
(`Resolver.anchor_of_isWeekless`).
-/

namespace CasualDate

namespace Step

variable {steps : List Step} {c : Candidate}

/-- The scan goes on after the step, and what it found does not name its weekday. -/
def IsWeekless : Step → Prop
  | found _ _ e _ => e.stated.weekday = false
  | skipped .. => True
  | broken _ => False

theorem findSome?_breakdown?_of_isWeekless (h : ∀ s ∈ steps, s.IsWeekless) :
    steps.findSome? breakdown? = none := by
  refine List.findSome?_eq_none_iff.2 fun s hs => ?_
  have hweekless := h s hs
  cases s with
  | found | skipped => rfl
  | broken => exact hweekless.elim

theorem isCertain_weekday_of_isWeekless (h : ∀ s ∈ steps, s.IsWeekless)
    (hc : c ∈ steps.filterMap candidate?) : c.fields.isCertain .weekday = false := by
  obtain ⟨e, value, hfound, heq⟩ := exists_found_of_mem_filterMap hc
  rw [heq, Components.isCertain_weekday_ofStated]
  exact h _ hfound

end Step

/-- Tokens with these words are scanned to their end, and nothing that is found names its weekday. -/
def Weekless (now : Instant) (ws : List Word) : Prop :=
  ∀ cs ts, ts.map Token.word = ws → ∀ s ∈ Step.scanFrom cs now ts, s.IsWeekless

namespace Weekless

variable {now : Instant} {w : Word} {ws rest : List Word} {e : MomentExpr}

theorem nil : Weekless now [] := by
  intro cs ts hts s hs
  rw [List.map_eq_nil_iff.1 hts, Step.scanFrom_nil] at hs
  cases hs

theorem cons (hw : MomentExpr.parse? (w :: ws) = none) (hws : Weekless now ws) :
    Weekless now (w :: ws) := by
  intro cs ts hts
  obtain ⟨t, us, rfl, -, hus⟩ := List.map_eq_cons_iff.1 hts
  have hpass : Step.scanFrom cs now (t :: us) = Step.scanFrom cs now us := by
    refine Step.scanFrom_of_pass fun e rest h => ?_
    rw [hts] at h
    obtain ⟨_, hread⟩ := h
    rw [hw] at hread
    cases hread
  rw [hpass]
  exact hws cs us hus

/-- An expression is read, and the scan goes on behind it or, if it is refused, behind its first
word. -/
theorem of_reads (hread : Reads MomentExpr.parse? (w :: ws) e rest) (hbare : e.isBareNumber = false)
    (hweekday : e.stated.weekday = false) (hvalue : ∀ cause, e.evaluate now ≠ .error (.broken cause))
    (hrest : Weekless now rest)
    (hws : ∀ error, e.evaluate now = .error (.refused error) → Weekless now ws) :
    Weekless now (w :: ws) := by
  intro cs ts hts
  obtain ⟨t, us, rfl, rfl, rfl⟩ := List.map_eq_cons_iff.1 hts
  have hwords : Reads MomentExpr.parse? ((t :: us).map Token.word) e rest := hread
  obtain ⟨vs, left, rfl, hleft, htokens⟩ := Step.exists_readsTokens hwords hbare
  rw [← List.cons_append, Step.scanFrom_of_reads htokens]
  cases h : e.evaluate now with
  | ok value => exact List.forall_mem_cons.2 ⟨hweekday, hrest cs left hleft⟩
  | error failure =>
    cases failure with
    | refused error => exact List.forall_mem_cons.2 ⟨trivial, hws error h cs _ rfl⟩
    | broken cause => exact absurd h (hvalue cause)

theorem of_reads_date {date : DateExpr} (hopen : MomentExpr.isOpening w = false)
    (hread : Reads DateExpr.parse? (w :: ws) date rest) (htime : MomentExpr.timeAfter rest = none)
    (hweekday : date.stated.weekday = false)
    (hvalue : ∀ cause, date.evaluate now.date ≠ .error (.broken cause)) (hrest : Weekless now rest)
    (hws : Weekless now ws) : Weekless now (w :: ws) :=
  of_reads (MomentExpr.reads_date (by simpa using hopen) hread htime) rfl hweekday
    (fun cause => mt MomentExpr.evaluate_dateTime_eq_broken_iff.1 (hvalue cause)) hrest fun _ _ => hws

end Weekless

namespace Finder

variable {ctx : Context} {c : Candidate}

theorem find_of_isWeekless (f : Finder)
    (h : Weekless ctx.reference (Token.words ctx.text.toList)) :
    f.find ctx = .ok (settle ctx (f.offers ctx)) := by
  rw [find_eq, Step.scan, Step.findSome?_breakdown?_of_isWeekless (h _ _ rfl)]

theorem isCertain_weekday_of_mem_offers
    (h : Weekless ctx.reference (Token.words ctx.text.toList))
    (hc : c ∈ (Finder.mk Recognizer.builtin).offers ctx) : c.fields.isCertain .weekday = false := by
  rw [offers_eq] at hc
  rcases List.mem_append.1 hc with hc | hc
  · exact Step.isCertain_weekday_of_isWeekless (h _ _ rfl) hc
  · obtain ⟨r, hr, hc⟩ := List.mem_flatMap.1 hc
    obtain ⟨m, -, fields, hfields, rfl⟩ := Recognizer.mem_offers.1 hc
    simp [Components.isCertain, Recognizer.statedWeekday_of_mem_builtin hr hfields]

end Finder

namespace Resolver

variable {r : Resolver} {text : String} {weekStart : Weekday} {now : Instant}

theorem anchor_of_isWeekless (hfinder : r.finder = ⟨Recognizer.builtin⟩)
    (h : Weekless now (Token.words text.toList)) :
    r.anchor text weekStart now = .ok (false, now) := by
  have hall : ∀ c ∈ Finder.settle { text, reference := now, now }
      (r.finder.offers { text, reference := now, now }), c.fields.isCertain .weekday = false := by
    intro c hc
    rw [hfinder, Finder.settle, if_neg Bool.false_ne_true] at hc
    exact Finder.isCertain_weekday_of_mem_offers h (Finder.mem_of_mem_collapse_ordered hc).1
  rw [anchor_of_find (r.finder.find_of_isWeekless h)]
  cases hkept : Finder.settle { text, reference := now, now }
      (r.finder.offers { text, reference := now, now }) with
  | nil => rfl
  | cons c cs =>
    have hnames := hall c (by rw [hkept]; exact List.mem_cons_self ..)
    simp [namesWeekday, hnames]

end Resolver

end CasualDate
