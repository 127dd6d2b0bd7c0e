import CasualDate.Finder.Basic
import CasualDate.Proofs.Trigger.Absent

/-!
# Texts without holidays and ordinals

Each word that the built-in recognizers look for has two neighbouring letters out of a few pairs. They
find nothing in a text that keeps these letters apart and has no suffix of an ordinal behind a digit
(`attempts_builtin`).
-/

namespace CasualDate

open Text

/-- Pairs of letters in "christmas" and in the ordinals in words. -/
def Recognizer.pairs : List (Char × Char) :=
  [('c', 'h'), ('f', 'i'), ('e', 'c'), ('h', 'i'), ('f', 'o'), ('i', 'x'), ('e', 'v'), ('e', 'i'),
    ('n', 'i'), ('e', 'n'), ('e', 'l')]

/-- The first letters of the suffixes of ordinals. -/
def Recognizer.suffixLetters : List Char :=
  ['s', 'n', 'r', 't']

/-- The text puts neither the letters of one of the pairs side by side nor a suffix behind a digit. -/
structure Untriggered (cs : List Char) : Prop where
  apart : ∀ p ∈ Recognizer.pairs, Apart (sameLetter p.1) (sameLetter p.2) cs
  apartDigits : ∀ l ∈ Recognizer.suffixLetters, Apart Char.isDigit (sameLetter l) cs

namespace Untriggered

variable {cs : List Char} {ps : List Piece}

theorem misses_of_infix {p : Char × Char} (h : Untriggered cs) (hp : p ∈ Recognizer.pairs)
    (hin : [.letter p.1, .letter p.2] <:+: ps) : Trigger.Misses ps cs := by
  obtain ⟨front, back, rfl⟩ := hin
  rw [List.append_assoc]
  exact Trigger.misses_append (Trigger.misses_letters (h.apart p hp) back) front

theorem findAll_christmas (h : Untriggered cs) : (Trigger.word "christmas").findAll cs = [] := by
  refine Trigger.findAll_eq_nil fun ps hps => ?_
  obtain rfl := List.mem_singleton.1 hps
  exact h.misses_of_infix (p := ('c', 'h')) (by decide) (by decide)

theorem findAll_ordinal (h : Untriggered cs) : Ordinal.trigger.findAll cs = [] := by
  refine Trigger.findAll_eq_nil fun ps hps => ?_
  rcases List.mem_append.1 hps with hps | hps
  · obtain ⟨s, hs, rfl⟩ := List.mem_map.1 hps
    have hall : Ordinal.suffixes.all (·.head?.any Recognizer.suffixLetters.contains) = true := by
      decide
    obtain ⟨l, hhead, hl⟩ := (Option.any_eq_true ..).1 (List.all_eq_true.1 hall s hs)
    obtain ⟨rest, rfl⟩ := List.head?_eq_some_iff.1 hhead
    exact Trigger.misses_digits (h.apartDigits l (by simpa using hl)) _
  · have hall : (Ordinal.words.map
        fun w => w.1.toList.map fun c => if c = '-' then Piece.gap else .letter c).all
          (fun ps => Recognizer.pairs.any fun p => [Piece.letter p.1, .letter p.2] <:+: ps) = true := by
      decide +kernel
    obtain ⟨p, hp, hin⟩ := List.any_eq_true.1 (List.all_eq_true.1 hall ps hps)
    exact h.misses_of_infix hp (by simpa using hin)

end Untriggered

theorem Finder.attempts_builtin {ctx : Context} (h : Untriggered ctx.text.toList) :
    (Finder.mk Recognizer.builtin).attempts ctx = [] := by
  have hholiday : Recognizer.holiday.attempts ctx = [] :=
    List.map_eq_nil_iff.2 h.findAll_christmas
  have hordinal : Recognizer.ordinalDay.attempts ctx = [] :=
    List.map_eq_nil_iff.2 h.findAll_ordinal
  simp [attempts, Recognizer.builtin, hholiday, hordinal]

end CasualDate
