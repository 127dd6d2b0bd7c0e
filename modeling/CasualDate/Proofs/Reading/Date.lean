import CasualDate.Expr.Date
import CasualDate.Proofs.Reading.Number

/-!
# Reading dates

What the ways to write a full date and to name a weekday are read as, whatever follows them. A year
must not be followed by a word that makes it another number or the hour of a time
(`Word.endsYear`).
-/

namespace CasualDate

/-- Whether a number before the word is a year by itself. -/
def Word.endsYear : Word → Bool
  | hundred | scale _ | colon | meridiem _ => false
  | _ => true

theorem Word.multiplies_of_endsYear {w : Word} (h : w.endsYear = true) : w.multiplies = false := by
  cases w <;> first | rfl | cases h

namespace DateExpr

variable {m : Month} {a b d y : Text.Count} {rest : List Word}

theorem reads_weekday {d : Weekday} : Reads parse? (.weekday d :: rest) (weekday d) rest := by
  have hnumber : Number.parse? (.weekday d :: rest) = none := Number.parse?_eq_none rfl
  refine ⟨by simp, ?_⟩
  rw [parse?.eq_def]
  simp [namedDay?, monthFirst?, dayFirst?, numeric?, relative?, weekday?, readWord?, skipWord,
    Duration.parse?.eq_def, Duration.part?, hnumber]

theorem reads_relativeWeekday {r : Relative} {d : Weekday} :
    Reads parse? (.relative r :: .weekday d :: rest) (relativeWeekday r d) rest := by
  have hnumber : Number.parse? (.relative r :: .weekday d :: rest) = none :=
    Number.parse?_eq_none rfl
  refine ⟨by simp only [List.length_cons]; omega, ?_⟩
  rw [parse?.eq_def]
  simp [namedDay?, monthFirst?, dayFirst?, numeric?, relative?, readWord?, skipWord,
    Duration.parse?.eq_def, Duration.part?, hnumber]

theorem reads_relativeUnit {r : Relative} {u : TimeUnit} :
    Reads parse? (.relative r :: .unit u :: rest) (relativeUnit r u) rest := by
  have hnumber : Number.parse? (.relative r :: .unit u :: rest) = none :=
    Number.parse?_eq_none rfl
  refine ⟨by simp only [List.length_cons]; omega, ?_⟩
  rw [parse?.eq_def]
  simp [namedDay?, monthFirst?, dayFirst?, numeric?, relative?, readWord?, skipWord,
    Duration.parse?.eq_def, Duration.part?, hnumber]

/-! ### Full dates -/

theorem reads_year (h : ∀ w ∈ rest.head?, w.endsYear = true) :
    Reads year? (.literal y :: rest) y.val rest := by
  obtain ⟨hlt, hy⟩ := Number.reads_literal y rest fun w hw => Word.multiplies_of_endsYear (h w hw)
  refine ⟨hlt, ?_⟩
  cases rest with
  | nil => simp [year?, hy]
  | cons w rest =>
    have hw := h w rfl
    cases w <;> first | (cases hw; done) | simp [year?, hy]

theorem reads_comma_year (hy : 1000 ≤ y.val) (h : ∀ w ∈ rest.head?, w.endsYear = true) :
    Reads year? (.comma :: .literal y :: rest) y.val rest := by
  obtain ⟨hlt, hread⟩ :=
    Number.reads_literal y rest fun w hw => Word.multiplies_of_endsYear (h w hw)
  refine ⟨by simp only [List.length_cons]; omega, ?_⟩
  simp [year?, hread, hy]

theorem dayOf_eq (ws : List Word) (m : Month) (day : Nat) {left : List Word} {year : Nat}
    (hlt : left.length < ws.length) (h : Reads year? left year rest) :
    ∃ hlt', dayOf m (⟨day, left, hlt⟩ : Parsed Nat ws) =
      ⟨monthDayYear m day year, rest, hlt'⟩ := by
  obtain ⟨hlt', hyear⟩ := h
  exact ⟨Nat.lt_trans hlt' hlt, by simp [dayOf, hyear]⟩

theorem reads_numericFull {mark : Word} (hmark : isDelimiter mark = true)
    (h : ∀ w ∈ rest.head?, w.endsYear = true) :
    Reads parse? (.literal a :: mark :: .literal b :: mark :: .literal y :: rest)
      (numericFull (monthAndDay mark a b).1 (monthAndDay mark a b).2 y) rest := by
  have hmul : mark.multiplies = false := by cases mark <;> first | rfl | cases hmark
  obtain ⟨_, ha⟩ := Number.reads_literal a (mark :: .literal b :: mark :: .literal y :: rest)
    (by simp [hmul])
  obtain ⟨_, hb⟩ := Number.reads_literal b (mark :: .literal y :: rest) (by simp [hmul])
  obtain ⟨_, hy⟩ := Number.reads_literal y rest fun w hw => Word.multiplies_of_endsYear (h w hw)
  have hdayFirst : dayFirst? (.literal a :: mark :: .literal b :: mark :: .literal y :: rest) =
      none := by
    cases mark <;> first | (cases hmark; done) | simp [dayFirst?, skipWord, ha]
  refine ⟨by simp only [List.length_cons]; omega, ?_⟩
  rw [parse?.eq_def, hdayFirst]
  simp [namedDay?, monthFirst?, readWord?, numeric?, ha, hb, hy, hmark]

theorem reads_numeric {mark : Word} (hmark : isDelimiter mark = true) :
    Reads parse? [.literal a, mark, .literal b]
      (numeric (monthAndDay mark a b).1 (monthAndDay mark a b).2) [] := by
  have hmul : mark.multiplies = false := by cases mark <;> first | rfl | cases hmark
  obtain ⟨_, ha⟩ := Number.reads_literal a [mark, .literal b] (by simp [hmul])
  obtain ⟨_, hb⟩ := Number.reads_literal b [] (by simp)
  have hdayFirst : dayFirst? [.literal a, mark, .literal b] = none := by
    cases mark <;> first | (cases hmark; done) | simp [dayFirst?, skipWord, ha]
  refine ⟨by simp only [List.length_cons, List.length_nil]; omega, ?_⟩
  rw [parse?.eq_def, hdayFirst]
  simp [namedDay?, monthFirst?, readWord?, numeric?, ha, hb, hmark]

theorem reads_monthDayYear {left : List Word} {year : Nat} (hd : d.val ≤ 31)
    (hleft : ∀ w ∈ left.head?, w.multiplies = false)
    (h : Reads year? (skipWord .ordinalSuffix left) year rest) :
    Reads parse? (.month m :: .literal d :: left) (monthDayYear m d year) rest := by
  obtain ⟨_, hread⟩ := Number.reads_literal d left hleft
  have hskip := length_skipWord_le .ordinalSuffix left
  obtain ⟨hlt, hdayOf⟩ := dayOf_eq (.month m :: .literal d :: left) m d
    (by simp only [List.length_cons]; omega) h
  refine ⟨hlt, ?_⟩
  rw [parse?.eq_def]
  simp [namedDay?, readWord?, monthFirst?, hread, Nat.not_lt.2 hd, hdayOf]

theorem reads_dayMonthYear {left : List Word} {year : Nat} (hd : d.val ≤ 31)
    (h : Reads year? left year rest) :
    Reads parse? (.literal d :: .month m :: left) (monthDayYear m d year) rest := by
  obtain ⟨_, hread⟩ := Number.reads_literal d (.month m :: left)
    (by simp [Word.multiplies])
  obtain ⟨hlt, hdayOf⟩ := dayOf_eq (.literal d :: .month m :: left) m d
    (by simp only [List.length_cons]; omega) h
  refine ⟨hlt, ?_⟩
  rw [parse?.eq_def]
  simp [namedDay?, readWord?, monthFirst?, dayFirst?, skipWord, hread, hd, hdayOf]

end DateExpr

end CasualDate
