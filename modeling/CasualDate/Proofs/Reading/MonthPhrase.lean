import CasualDate.Proofs.Finder.WholeText
import CasualDate.Proofs.Token.Spaced

/-!
# Phrases that begin with the name of a month

A month by itself, with a day and with a year, in a spelling that the list of words has. No month has
a 32nd day, so a larger number behind its name is a year.
-/

namespace CasualDate

namespace DateExpr

variable {m : Month} {d y : Text.Count} {left rest : List Word}

theorem reads_month (h : Number.parse? rest = none) : Reads parse? (.month m :: rest) (month m) rest := by
  refine ⟨by simp, ?_⟩
  rw [parse?.eq_def]
  simp [namedDay?, readWord?, monthFirst?, h]

theorem reads_monthDay (hd : d.val ≤ 31) (hleft : ∀ w ∈ left.head?, w.multiplies = false)
    (hyear : year? (skipWord .ordinalSuffix left) = none) :
    Reads parse? (.month m :: .literal d :: left) (monthDay m d) (skipWord .ordinalSuffix left) := by
  obtain ⟨_, hread⟩ := Number.reads_literal d left hleft
  have hskip := length_skipWord_le .ordinalSuffix left
  refine ⟨by simp only [List.length_cons]; omega, ?_⟩
  rw [parse?.eq_def]
  simp [namedDay?, readWord?, monthFirst?, hread, Nat.not_lt.2 hd, dayOf, hyear]

theorem reads_monthYear (hy : 31 < y.val) (hrest : ∀ w ∈ rest.head?, w.multiplies = false) :
    Reads parse? (.month m :: .literal y :: rest) (monthYear m y) rest := by
  obtain ⟨_, hread⟩ := Number.reads_literal y rest hrest
  refine ⟨by simp only [List.length_cons]; omega, ?_⟩
  rw [parse?.eq_def]
  simp [namedDay?, readWord?, monthFirst?, hread, hy]

end DateExpr

namespace MomentExpr

variable {m : Month} {names : List String} {name : String} {y : Text.Count} {date : DateExpr}

theorem words_monthName (hspelled : (.month m, names) ∈ Word.spellings) (hname : name ∈ names) :
    Token.Tight name.toList ∧ Token.words name.toList = [.month m] := by
  have hall : ∀ m, ∀ entry ∈ Word.spellings, entry.1 = .month m → ∀ name ∈ entry.2,
      Token.Tight name.toList ∧ Token.words name.toList = [.month m] := by
    intro m
    cases m <;> decide +kernel
  exact hall m _ hspelled rfl name hname

/-- The name of a month and what follows it are read as a date that takes all words up. -/
theorem fills_month_append (hspelled : (.month m, names) ∈ Word.spellings) (hname : name ∈ names)
    {cs : List Char} (htight : Token.Tight cs)
    (h : Reads DateExpr.parse? (.month m :: Token.words cs) date []) :
    (dateTime date .unstated).Fills (name ++ " " ++ String.ofList cs) := by
  obtain ⟨hmonth, hwords⟩ := words_monthName hspelled hname
  have htext : (name ++ " " ++ String.ofList cs).toList = name.toList ++ ' ' :: cs := by simp
  refine ⟨?_, ?_, rfl⟩
  · rw [htext]
    exact hmonth.append_space htight
  · rw [htext, Token.words_append_space, hwords]
    exact reads_date (by simp [isOpening]) h timeAfter_nil

theorem fills_monthDay (hspelled : (.month m, names) ∈ Word.spellings) (hname : name ∈ names) :
    (dateTime (.monthDay m 15) .unstated).Fills (name ++ " 15th") := by
  have hwords : Token.words "15th".toList = [.literal ⟨15, by decide⟩, .ordinalSuffix] := by
    decide +kernel
  have hyear : DateExpr.year? [] = none := by simp [DateExpr.year?]
  have hfills : (dateTime (.monthDay m 15) .unstated).Fills
      (name ++ " " ++ String.ofList "15th".toList) := by
    refine fills_month_append hspelled hname (by decide +kernel) ?_
    rw [hwords]
    exact DateExpr.reads_monthDay (by decide) (by simp [Word.multiplies]) hyear
  have htext : name ++ " 15th" = name ++ " " ++ String.ofList "15th".toList := by
    rw [← String.toList_inj]
    simp
  rwa [htext]

theorem fills_monthYear (hspelled : (.month m, names) ∈ Word.spellings) (hname : name ∈ names)
    (hy : 31 < y.val) (width : Nat) :
    (dateTime (.monthYear m y) .unstated).Fills
      (name ++ " " ++ String.ofList (Text.padded width y)) := by
  refine fills_month_append hspelled hname (Token.tight_padded width y) ?_
  rw [Token.words_number width y]
  exact DateExpr.reads_monthYear hy (by simp)

end MomentExpr

end CasualDate
