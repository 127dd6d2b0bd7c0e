import CasualDate.Proofs.Expr.Ahead
import CasualDate.Proofs.Expr.Breakdown
import CasualDate.Proofs.Finder.Rejected
import CasualDate.Proofs.Reading.Amounts
import CasualDate.Proofs.Resolver.WholeText
import CasualDate.Proofs.Token.Spaced

/-!
# Phrases for instants ahead

"in 3 days and 2 hours" means the instant that these amounts lead to, one after the other, and nothing
if one of them leads out of the range: no end of the phrase is an expression of its own, so there is
nothing to fall back on (`resolveAt_phraseAhead_iff`).
-/

namespace CasualDate

/-- A number and a word for a unit. -/
structure Amount where
  count : Text.Count
  unit : TimeUnit
  name : String
  spelled : ∃ names, (Word.unit unit, names) ∈ Word.spellings ∧ name ∈ names

namespace Amount

variable {a : Amount}

def part (a : Amount) : Nat × TimeUnit :=
  (a.count, a.unit)

def text (a : Amount) : String :=
  toString a.count.val ++ " " ++ a.name

theorem name_spec (a : Amount) :
    Plain a.name.toList ∧ Token.words a.name.toList = [.unit a.unit] := by
  have hall : ∀ u, ∀ entry ∈ Word.spellings, entry.1 = .unit u → ∀ name ∈ entry.2,
      Plain name.toList ∧ Token.words name.toList = [.unit u] := by
    intro u
    cases u <;> decide +kernel
  obtain ⟨names, hentry, hname⟩ := a.spelled
  exact hall a.unit _ hentry rfl a.name hname

theorem words_decimal (n : Text.Count) : Token.words (Text.decimal n) = [.literal n] := by
  rw [← Text.padded_zero, Token.words_number]

/-- The words of amounts with "and" between them. -/
def pieces (a : Amount) : List Amount → List (List Char)
  | [] => [Text.decimal a.count, a.name.toList]
  | b :: rest => Text.decimal a.count :: a.name.toList :: "and".toList :: pieces b rest

theorem plain_of_mem_pieces {cs : List Char} {rest : List Amount} (h : cs ∈ a.pieces rest) :
    Plain cs := by
  induction rest generalizing a with
  | nil =>
    simp only [pieces, List.mem_cons, List.not_mem_nil, or_false] at h
    rcases h with rfl | rfl
    · exact .decimal a.count
    · exact a.name_spec.1
  | cons b rest ih =>
    simp only [pieces, List.mem_cons] at h
    rcases h with rfl | rfl | rfl | h
    · exact .decimal a.count
    · exact a.name_spec.1
    · decide +kernel
    · exact ih h

theorem amounts_pieces (a : Amount) (rest : List Amount) :
    Amounts ((a :: rest).map part) ((a.pieces rest).flatMap Token.words) := by
  have hname (a : Amount) : Token.words a.name.toList = [.unit a.unit] := a.name_spec.2
  induction rest generalizing a with
  | nil =>
    simp only [pieces, List.flatMap_cons, words_decimal, hname, List.flatMap_nil]
    exact .one a.count a.unit
  | cons b rest ih =>
    have hand : Token.words "and".toList = [.andWord] := by decide +kernel
    simp only [pieces, List.flatMap_cons, words_decimal, hname, hand]
    exact .more a.count a.unit (ih b)

end Amount

/-- The phrase for the instant that amounts lead to. -/
def phraseAhead (a : Amount) (rest : List Amount) : String :=
  "in " ++ " and ".intercalate ((a :: rest).map Amount.text)

example : phraseAhead ⟨⟨3, by decide⟩, .day, "days", ["day", "days"], by decide, by decide⟩
      [⟨⟨2, by decide⟩, .hour, "hours", ["hour", "hours"], by decide, by decide⟩] =
    "in 3 days and 2 hours" := by
  decide +kernel

variable {a : Amount} {rest : List Amount}

theorem toList_intercalate_text (a : Amount) (rest : List Amount) :
    (" and ".intercalate ((a :: rest).map Amount.text)).toList = spaced (a.pieces rest) := by
  rw [String.toList_intercalate]
  induction rest generalizing a with
  | nil => simp [Amount.text, Amount.pieces, Text.decimal]
  | cons b rest ih =>
    have hrest := ih b
    simp only [List.map_cons, List.intercalate_cons_cons] at hrest ⊢
    rw [hrest]
    cases rest <;> simp [Amount.text, Amount.pieces, Text.decimal]

theorem toList_phraseAhead (a : Amount) (rest : List Amount) :
    (phraseAhead a rest).toList = spaced ("in".toList :: a.pieces rest) := by
  rw [phraseAhead, String.toList_append, toList_intercalate_text]
  cases rest <;> rfl

theorem plain_phraseAhead (a : Amount) (rest : List Amount) : Plain (phraseAhead a rest).toList := by
  rw [toList_phraseAhead]
  refine .spaced (List.forall_mem_cons.2 ⟨?_, fun cs hcs => Amount.plain_of_mem_pieces hcs⟩)
  decide +kernel

theorem words_phraseAhead (a : Amount) (rest : List Amount) :
    Token.words (phraseAhead a rest).toList =
      .inWord :: (a.pieces rest).flatMap Token.words := by
  have hin : Token.words "in".toList = [.inWord] := by decide +kernel
  rw [toList_phraseAhead, Token.words_spaced, List.flatMap_cons, hin]
  rfl

theorem fills_phraseAhead (a : Amount) (rest : List Amount) :
    ∃ d, (MomentExpr.after d .now).Fills (phraseAhead a rest) ∧
      d.parts = (a :: rest).map Amount.part := by
  obtain ⟨d, hread, hparts⟩ := (a.amounts_pieces rest).reads_inWord
  refine ⟨d, ⟨(plain_phraseAhead a rest).tight, ?_, rfl⟩, hparts⟩
  rw [words_phraseAhead]
  exact hread

theorem MomentExpr.evaluate_after_now {d : Duration} {t u : Instant} :
    (MomentExpr.after d .now).evaluate t = .ok u ↔ t.LeadsTo d.parts u :=
  orRefuse_eq_ok_iff.trans Duration.foldlM_step_forward_eq_ok_iff

theorem MomentExpr.evaluate_after_now_eq_error {d : Duration} {t : Instant}
    (h : ∀ u, ¬t.LeadsTo d.parts u) :
    ∃ error, (MomentExpr.after d .now).evaluate t = .error (.refused error) := by
  cases hvalue : (MomentExpr.after d .now).evaluate t with
  | ok u => exact absurd (evaluate_after_now.1 hvalue) (h u)
  | error failure =>
    cases failure with
    | refused error => exact ⟨error, rfl⟩
    | broken cause => exact absurd hvalue (orRefuse_ne_broken _)

namespace Finder

/-- Behind amounts that lead out of the range there is nothing to find. -/
theorem find_phraseAhead {ctx : Context} (htext : ctx.text = phraseAhead a rest)
    (h : ∀ u, ¬ctx.reference.LeadsTo ((a :: rest).map Amount.part) u) :
    (Finder.mk Recognizer.builtin).find ctx = .ok [] := by
  obtain ⟨d, hfills, hparts⟩ := fills_phraseAhead a rest
  rw [← hparts] at h
  obtain ⟨error, hrefused⟩ := MomentExpr.evaluate_after_now_eq_error h
  have hplain := plain_phraseAhead a rest
  have hwords := words_phraseAhead a rest
  rw [← htext] at hfills hplain hwords
  rw [find_of_isEmpty_attempts (List.isEmpty_iff.2 (attempts_builtin hplain.untriggered)),
    find_eq_nil_iff, Step.scan, Step.forall_isSkipped_iff, ← Token.words, hwords]
  intro ws hws
  rcases List.suffix_cons_iff.1 hws with rfl | hws
  · rw [← hwords, MomentExpr.namesNothing_iff hfills.reads]
    exact fun _ => ⟨error, hrefused⟩
  · exact MomentExpr.namesNothing_of_none ((a.amounts_pieces rest).parse?_eq_none_of_suffix hws)

end Finder

theorem Locales.get_standard (locale : String) : standard.get locale = [] := by
  have hall : ∀ entry ∈ standard.entries, entry.2 = [] := by simp [standard, insert]
  unfold get
  cases hfind : standard.entries.find? (·.1 = normalize locale) with
  | none => rfl
  | some entry => exact hall entry (List.mem_of_find?_eq_some hfind)

namespace Resolver

theorem finder_build (locale : String) (calendar : Calendar) (clock : Instant) :
    (build locale calendar clock .standard []).finder = ⟨Recognizer.builtin⟩ := by
  rw [build, Locales.get_standard, List.nil_append, List.append_nil]

variable {r : Resolver} {now : Instant} {weekStart : Weekday} {pattern : String}

theorem resolveAt_phraseAhead {t : Instant} (h : now.LeadsTo ((a :: rest).map Amount.part) t) :
    r.resolveAt (phraseAhead a rest) weekStart pattern now = .ok (.date t.onClock) := by
  obtain ⟨d, hfills, hparts⟩ := fills_phraseAhead a rest
  have hvalue : (MomentExpr.after d .now).evaluate now = .ok t :=
    MomentExpr.evaluate_after_now.2 (hparts ▸ h)
  have hanchor : r.anchor (phraseAhead a rest) weekStart now = .ok (false, now) := by
    rw [anchor_eq hfills hvalue]
    rfl
  exact resolveAt_eq hfills (plain_phraseAhead a rest).ofText_eq_other hanchor hvalue

theorem resolveAt_phraseAhead_eq_noMatch (hfinder : r.finder = ⟨Recognizer.builtin⟩)
    (h : ∀ t, ¬now.LeadsTo ((a :: rest).map Amount.part) t) :
    r.resolveAt (phraseAhead a rest) weekStart pattern now = .ok .noMatch := by
  have hfind : r.finder.find { text := phraseAhead a rest, reference := now, now } = .ok [] := by
    rw [hfinder]
    exact Finder.find_phraseAhead rfl h
  have hanchor : r.anchor (phraseAhead a rest) weekStart now = .ok (false, now) := anchor_of_find hfind
  have hdate : r.finder.findDate { text := phraseAhead a rest, reference := now, now } =
      .ok none := by
    rw [Finder.findDate, hfind]
    rfl
  exact resolveAt_eq_ofDate? (plain_phraseAhead a rest).ofText_eq_other hanchor hdate

/-- A phrase for an instant ahead means the instant that its amounts lead to, by whole seconds, or
nothing at all if they lead to none. -/
theorem resolveAt_phraseAhead_iff (locale : String) (calendar : Calendar) (clock now : Instant)
    (weekStart : Weekday) (pattern : String) (a : Amount) (rest : List Amount) (answer : Resolved) :
    (build locale calendar clock .standard []).resolveAt (phraseAhead a rest) weekStart pattern now =
        .ok answer ↔
      (∃ t, now.LeadsTo ((a :: rest).map Amount.part) t ∧ answer = .date t.onClock) ∨
        (∀ t, ¬now.LeadsTo ((a :: rest).map Amount.part) t) ∧ answer = .noMatch := by
  by_cases hlead : ∃ t, now.LeadsTo ((a :: rest).map Amount.part) t
  · obtain ⟨t, ht⟩ := hlead
    rw [resolveAt_phraseAhead ht, Except.ok.injEq]
    constructor
    · rintro rfl
      exact .inl ⟨t, ht, rfl⟩
    · rintro (⟨u, hu, rfl⟩ | ⟨hnone, -⟩)
      · rw [hu.unique ht]
      · exact absurd ht (hnone t)
  · have hnone := not_exists.1 hlead
    rw [resolveAt_phraseAhead_eq_noMatch (finder_build locale calendar clock) hnone,
      Except.ok.injEq]
    constructor
    · rintro rfl
      exact .inr ⟨hnone, rfl⟩
    · rintro (⟨u, hu, -⟩ | ⟨-, rfl⟩)
      · exact absurd hu (hnone u)
      · rfl

end Resolver

end CasualDate
