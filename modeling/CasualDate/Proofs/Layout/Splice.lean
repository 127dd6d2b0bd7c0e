import CasualDate.Layout
import Mathlib.Data.List.TakeWhile

/-!
# Text in brackets

What stands in square brackets is copied between what the pattern writes before and behind it
(`Instant.format_splice`). No field has a bracket among its letters, so none is read across one, and
the pieces of a pattern up to a bracket do not depend on what follows (`pieces_append_bracket`). The
exception is a pattern that leaves a bracket open in front: there the new bracket is text itself, and
stands in what is written.
-/

namespace CasualDate

namespace Layout

/-- Each bracket that is opened in the pattern is closed in it. What stands between the two opens
none. -/
inductive Closes : List Char → Prop
  | nil : Closes []
  | cons {c : Char} {cs : List Char} (hc : c ≠ '[') (hcs : Closes cs) : Closes (c :: cs)
  | bracket {literal cs : List Char} (hliteral : ']' ∉ literal) (hcs : Closes cs) :
    Closes ('[' :: literal ++ ']' :: cs)

variable {c : Char} {cs literal rest : List Char} {f : Field}

namespace Field

theorem bracket_notMem_letters (f : Field) : '[' ∉ f.letters := by
  cases f <;> decide

theorem length_letters_pos (f : Field) : 0 < f.letters.length := by
  cases f <;> decide

theorem isPrefixOf_append_bracket {ls : List Char} (h : '[' ∉ ls) :
    ls.isPrefixOf (cs ++ '[' :: rest) = ls.isPrefixOf cs := by
  induction ls generalizing cs with
  | nil => simp
  | cons l ls ih =>
    obtain ⟨hl, hls⟩ := List.ne_and_not_mem_of_not_mem_cons h
    cases cs with
    | nil => simp [List.isPrefixOf, Ne.symm hl]
    | cons c cs => simp only [List.cons_append, List.isPrefixOf, ih hls]

theorem atStart?_append_bracket : atStart? (cs ++ '[' :: rest) = atStart? cs := by
  unfold atStart?
  congr 1
  exact funext fun f => isPrefixOf_append_bracket f.bracket_notMem_letters

theorem exists_of_atStart? (h : atStart? (c :: cs) = some f) :
    ∃ tail, c :: cs = f.letters ++ tail ∧ cs.drop (f.letters.length - 1) = tail := by
  have hstart : f.letters <+: c :: cs := by simpa using List.find?_some h
  obtain ⟨tail, htail⟩ := hstart
  refine ⟨tail, htail.symm, ?_⟩
  have hpos := f.length_letters_pos
  have hdrop : (c :: cs).drop f.letters.length = tail := by rw [← htail, List.drop_left]
  rwa [← Nat.sub_add_cancel hpos, List.drop_succ_cons] at hdrop

end Field

/-! ### One piece after the other -/

@[simp] theorem Piece.render_text (c : Calendar) (l : LocalDate) (t : Instant) (cs : List Char) :
    (Piece.text cs).render c l t = cs := rfl

theorem pieces_nil : pieces [] = [] := by
  rw [pieces.eq_def]

theorem pieces_bracket (hliteral : ']' ∉ literal) :
    pieces ('[' :: literal ++ ']' :: cs) = .text literal :: pieces cs := by
  have hne : ∀ d ∈ literal, decide (d ≠ ']') = true := fun d hd =>
    decide_eq_true fun h => hliteral (h ▸ hd)
  rw [List.cons_append, pieces.eq_def]
  simp only [if_true, List.takeWhile_append_of_pos hne, List.dropWhile_append_of_pos hne]
  simp

/-- A bracket that is not closed extends to the end of the pattern. -/
theorem pieces_openBracket (hliteral : ']' ∉ literal) :
    pieces ('[' :: literal) = [.text literal] := by
  have hne : ∀ d ∈ literal, decide (d ≠ ']') = true := fun d hd =>
    decide_eq_true fun h => hliteral (h ▸ hd)
  rw [pieces.eq_def]
  simp only [if_true, List.takeWhile_eq_self_iff.2 hne, List.dropWhile_eq_nil_iff.2 hne]
  rw [List.drop_nil, pieces_nil]

theorem pieces_field (hc : c ≠ '[') (h : Field.atStart? (c :: cs) = some f) :
    pieces (c :: cs) = .field f :: pieces (cs.drop (f.letters.length - 1)) := by
  rw [pieces.eq_def]
  simp only [if_neg hc, h]

theorem pieces_char (hc : c ≠ '[') (h : Field.atStart? (c :: cs) = none) :
    pieces (c :: cs) = .text [c] :: pieces cs := by
  rw [pieces.eq_def]
  simp only [if_neg hc, h]

/-! ### Patterns with closed brackets -/

namespace Closes

theorem tail (h : Closes (c :: cs)) (hc : c ≠ '[') : Closes cs := by
  cases h with
  | cons _ hcs => exact hcs
  | bracket => exact absurd rfl hc

theorem of_append {as : List Char} (has : '[' ∉ as) (h : Closes (as ++ cs)) : Closes cs := by
  induction as with
  | nil => exact h
  | cons a as ih =>
    obtain ⟨ha, has⟩ := List.ne_and_not_mem_of_not_mem_cons has
    exact ih has (h.tail ha.symm)

end Closes

theorem exists_openBracket (h : ¬Closes cs) :
    ∃ front literal, cs = front ++ '[' :: literal ∧ Closes front ∧ ']' ∉ literal := by
  induction hn : cs.length using Nat.strongRecOn generalizing cs with
  | ind n ih =>
    subst hn
    cases cs with
    | nil => exact absurd .nil h
    | cons c cs =>
      by_cases hc : c = '['
      · subst hc
        by_cases hclose : ']' ∈ cs
        · obtain ⟨literal, cs, rfl, hliteral⟩ := List.eq_append_cons_of_mem hclose
          have hcs : ¬Closes cs := fun hcs => h (.bracket hliteral hcs)
          obtain ⟨front, last, rfl, hfront, hlast⟩ := ih cs.length (by simp; omega) hcs rfl
          exact ⟨'[' :: literal ++ ']' :: front, last, by simp, .bracket hliteral hfront, hlast⟩
        · exact ⟨[], cs, rfl, .nil, hclose⟩
      · have hcs : ¬Closes cs := fun hcs => h (.cons hc hcs)
        obtain ⟨front, last, rfl, hfront, hlast⟩ := ih cs.length (by simp) hcs rfl
        exact ⟨c :: front, last, rfl, .cons hc hfront, hlast⟩

theorem pieces_append_bracket (h : Closes cs) :
    pieces (cs ++ '[' :: rest) = pieces cs ++ pieces ('[' :: rest) := by
  induction hn : cs.length using Nat.strongRecOn generalizing cs with
  | ind n ih =>
    subst hn
    cases h with
    | nil => rw [pieces_nil, List.nil_append, List.nil_append]
    | @bracket literal cs hliteral hcs =>
      rw [List.append_assoc, List.cons_append (a := ']'), pieces_bracket hliteral,
        pieces_bracket hliteral, ih cs.length (by simp; omega) hcs rfl, List.cons_append]
    | @cons c cs hc hcs =>
      cases hf : Field.atStart? (c :: cs) with
      | none =>
        have hf' : Field.atStart? (c :: (cs ++ '[' :: rest)) = none := by
          rw [← List.cons_append, Field.atStart?_append_bracket, hf]
        rw [List.cons_append, pieces_char hc hf', pieces_char hc hf, ih cs.length (by simp) hcs rfl,
          List.cons_append]
      | some f =>
        obtain ⟨tail, hsplit, htail⟩ := Field.exists_of_atStart? hf
        have hf' : Field.atStart? (c :: (cs ++ '[' :: rest)) = some f := by
          rw [← List.cons_append, Field.atStart?_append_bracket, hf]
        obtain ⟨tail', hsplit', htail'⟩ := Field.exists_of_atStart? hf'
        have htails : tail' = tail ++ '[' :: rest := by
          rw [← List.cons_append, hsplit, List.append_assoc] at hsplit'
          exact (List.append_cancel_left hsplit').symm
        have hclosed : Closes tail :=
          .of_append f.bracket_notMem_letters (hsplit ▸ .cons hc hcs)
        have hshorter : tail.length < (c :: cs).length := by
          have hpos := f.length_letters_pos
          rw [hsplit, List.length_append]
          omega
        rw [List.cons_append, pieces_field hc hf', pieces_field hc hf, htail', htail, htails,
          ih tail.length hshorter hclosed rfl, List.cons_append]

theorem pieces_splice (h : Closes cs) (hliteral : ']' ∉ literal) :
    pieces (cs ++ '[' :: literal ++ ']' :: rest) =
      pieces cs ++ .text literal :: pieces rest := by
  rw [List.append_assoc, List.cons_append, pieces_append_bracket h, ← List.cons_append,
    pieces_bracket hliteral]

/-- Behind an open bracket another one is text. -/
theorem pieces_splice_openBracket {front last : List Char} (h : Closes front) (hlast : ']' ∉ last)
    (hliteral : ']' ∉ literal) :
    pieces (front ++ '[' :: last ++ '[' :: literal ++ ']' :: rest) =
      pieces front ++ .text (last ++ '[' :: literal) :: pieces rest := by
  have hboth : ']' ∉ last ++ '[' :: literal := by simp [hlast, hliteral]
  rw [← pieces_splice h hboth]
  simp

end Layout

namespace Instant

open Layout

variable {c : Calendar} {t : Instant} {l : LocalDate} {literal : String}

theorem format_eq (pattern : String) (h : c.toLocal t.date = .ok l) :
    t.format pattern c = .ok (String.ofList ((pieces pattern.toList).flatMap (·.render c l t))) := by
  rw [format, h]
  rfl

theorem exists_toLocal_of_format {pattern s : String} (h : t.format pattern c = .ok s) :
    ∃ l, c.toLocal t.date = .ok l := by
  cases hl : c.toLocal t.date with
  | ok l => exact ⟨l, rfl⟩
  | error e =>
    rw [format, hl] at h
    cases h

/-- A literal in brackets is written as it stands between what the patterns before and behind it write
by themselves, exactly if the first of them closes its brackets; then the literal is a piece between
the pieces of both, so no field is read in it or across its brackets. -/
theorem format_splice (before after : String) (h : c.toLocal t.date = .ok l)
    (hliteral : ']' ∉ literal.toList) :
    ∃ a b, t.format before c = .ok a ∧ t.format after c = .ok b ∧
      t.format ("[" ++ literal ++ "]") c = .ok literal ∧
      (t.format (before ++ "[" ++ literal ++ "]" ++ after) c = .ok (a ++ literal ++ b) ↔
        Closes before.toList) ∧
      (Closes before.toList → pieces (before ++ "[" ++ literal ++ "]" ++ after).toList =
        pieces before.toList ++ .text literal.toList :: pieces after.toList) := by
  have hchars : (before ++ "[" ++ literal ++ "]" ++ after).toList =
      before.toList ++ '[' :: literal.toList ++ ']' :: after.toList := by simp
  have hwrapped : pieces ("[" ++ literal ++ "]").toList = [.text literal.toList] := by
    have hpieces : pieces ('[' :: literal.toList ++ [']']) = [.text literal.toList] := by
      rw [pieces_bracket hliteral, pieces_nil]
    simpa using hpieces
  refine ⟨_, _, format_eq before h, format_eq after h, ?_, ⟨fun hsplice => ?_, fun hcloses => ?_⟩,
    fun hcloses => ?_⟩
  · rw [format_eq _ h, hwrapped]
    simp
  · -- With a bracket open, the new one is written, too: the text is one character longer.
    by_contra hopen
    obtain ⟨front, last, hbefore, hfront, hlast⟩ := exists_openBracket hopen
    have hlength := congrArg String.length (Except.ok.inj ((format_eq _ h).symm.trans hsplice))
    rw [hchars, hbefore, pieces_splice_openBracket hfront hlast hliteral,
      pieces_append_bracket hfront, pieces_openBracket hlast] at hlength
    simp only [List.flatMap_append, List.flatMap_cons, List.flatMap_nil, Piece.render_text,
      String.length_append, String.length_ofList, List.length_append, List.length_cons,
      List.length_nil, String.length_toList] at hlength
    omega
  · rw [format_eq _ h, hchars, pieces_splice hcloses hliteral]
    simp [String.ofList_append, String.append_assoc]
  · rw [hchars, pieces_splice hcloses hliteral]

/-- The letters of a literal are no fields, those on its two sides are. -/
theorem format_splice_dayOfMonth :
    let t : Instant := ⟨⟨738888, by decide, by decide⟩, ⟨14, 5, 9, 0, by decide, by decide,
      by decide, by decide⟩⟩
    Calendar.gregorian.toLocal t.date = .ok ⟨2024, 1, 3⟩ ∧ ']' ∉ "of the M".toList ∧
      Closes "[Day] D ".toList ∧
      t.format ("[Day] D " ++ "[" ++ "of the M" ++ "]" ++ " MMMM") .gregorian =
        .ok "Day 3 of the M January" := by
  intro t
  have hlocal : Calendar.gregorian.toLocal t.date = .ok ⟨2024, 1, 3⟩ := by decide +kernel
  have hliteral : ']' ∉ "of the M".toList := by decide
  have hcloses : Closes "[Day] D ".toList := by
    show Closes ('[' :: ['D', 'a', 'y'] ++ ']' :: [' ', 'D', ' '])
    exact .bracket (by decide) (.cons (by decide) (.cons (by decide) (.cons (by decide) .nil)))
  obtain ⟨a, b, ha, hb, -, hsplice, -⟩ := format_splice "[Day] D " " MMMM" hlocal hliteral
  have hbefore : t.format "[Day] D " .gregorian = .ok "Day 3 " := by decide +kernel
  have hafter : t.format " MMMM" .gregorian = .ok " January" := by decide +kernel
  obtain rfl : "Day 3 " = a := Except.ok.inj (hbefore.symm.trans ha)
  obtain rfl : " January" = b := Except.ok.inj (hafter.symm.trans hb)
  exact ⟨hlocal, hliteral, hcloses, hsplice.2 hcloses⟩

end Instant

end CasualDate
