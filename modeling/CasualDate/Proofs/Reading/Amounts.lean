import CasualDate.Proofs.Reading.Moment

/-!
# Amounts in words

Numbers in digits with their units, "and" between them, are read as a duration with these parts
(`Amounts.reads`). Without a word before it or behind it that says where the duration begins, it is
no moment, and neither is any end of it (`Amounts.parse?_eq_none_of_suffix`).
-/

namespace CasualDate

open Duration

variable {parts : List (Nat × TimeUnit)} {ws us rest : List Word} {n : Text.Count} {u : TimeUnit}
  {d : Duration}

/-- The words name the amounts, one after the other. -/
inductive Amounts : List (Nat × TimeUnit) → List Word → Prop where
  | one (n : Text.Count) (u : TimeUnit) : Amounts [(n, u)] [.literal n, .unit u]
  | more (n : Text.Count) (u : TimeUnit) {parts : List (Nat × TimeUnit)} {ws : List Word}
      (rest : Amounts parts ws) :
      Amounts ((n, u) :: parts) (.literal n :: .unit u :: .andWord :: ws)

theorem Number.reads_literal_unit (n : Text.Count) (u : TimeUnit) (rest : List Word) :
    Reads Number.parse? (.literal n :: .unit u :: rest) n.val (.unit u :: rest) :=
  Number.reads_literal n _ (by simp [Word.multiplies])

theorem Duration.part?_literal_unit (n : Text.Count) (u : TimeUnit) (rest : List Word) :
    part? (.literal n :: .unit u :: rest) =
      some ⟨count n u, rest, Nat.lt_add_right 1 (Nat.lt_succ_self rest.length)⟩ := by
  obtain ⟨hlt, hnumber⟩ := Number.reads_literal_unit n u rest
  simp [part?, hnumber, readWord?]

theorem Amounts.reads (h : Amounts parts ws) : ∃ d, Reads Duration.parse? ws d [] ∧ d.parts = parts := by
  induction h with
  | one n u =>
    refine ⟨count n u, ⟨by simp, ?_⟩, rfl⟩
    rw [Duration.parse?.eq_def, part?_literal_unit]
  | more n u _ ih =>
    obtain ⟨d, ⟨hlt, hd⟩, rfl⟩ := ih
    refine ⟨both (count n u) d, ⟨by simp, ?_⟩, rfl⟩
    rw [Duration.parse?.eq_def, part?_literal_unit]
    simp [hd]

/-! ### Ends of amounts -/

theorem DateExpr.parse?_literal_unit (h : Reads Duration.parse? (.literal n :: .unit u :: rest) d []) :
    DateExpr.parse? (.literal n :: .unit u :: rest) = none := by
  obtain ⟨_, hnumber⟩ := Number.reads_literal_unit n u rest
  obtain ⟨_, hd⟩ := h
  rw [DateExpr.parse?.eq_def]
  simp [namedDay?, monthFirst?, dayFirst?, numeric?, relative?, weekday?, isDelimiter, readWord?, skipWord, hnumber, hd]

theorem MomentExpr.parse?_literal_unit
    (h : Reads Duration.parse? (.literal n :: .unit u :: rest) d []) :
    MomentExpr.parse? (.literal n :: .unit u :: rest) = none := by
  have hdate := DateExpr.parse?_literal_unit h
  obtain ⟨_, hd⟩ := h
  rw [MomentExpr.parse?.eq_def]
  simp [hdate, hd]

theorem Amounts.parse?_eq_none (h : Amounts parts ws) : MomentExpr.parse? ws = none := by
  obtain ⟨d, hread, -⟩ := h.reads
  cases h <;> exact MomentExpr.parse?_literal_unit hread

theorem Amounts.parse?_eq_none_of_suffix (h : Amounts parts ws) (hus : us <:+ ws) :
    MomentExpr.parse? us = none := by
  induction h with
  | one n u =>
    rcases List.suffix_cons_iff.1 hus with rfl | hus
    · exact (Amounts.one n u).parse?_eq_none
    · rcases List.suffix_cons_iff.1 hus with rfl | hus
      · exact MomentExpr.parse?_unit
      · rw [List.suffix_nil.1 hus]
        exact MomentExpr.parse?_nil
  | more n u rest ih =>
    rcases List.suffix_cons_iff.1 hus with rfl | hus
    · exact (Amounts.more n u rest).parse?_eq_none
    · rcases List.suffix_cons_iff.1 hus with rfl | hus
      · exact MomentExpr.parse?_unit
      · rcases List.suffix_cons_iff.1 hus with rfl | hus
        · exact MomentExpr.parse?_eq_none rfl
        · exact ih hus

theorem Amounts.reads_inWord (h : Amounts parts ws) :
    ∃ d, Reads MomentExpr.parse? (.inWord :: ws) (.after d .now) [] ∧ d.parts = parts := by
  obtain ⟨d, ⟨hlt, hd⟩, hparts⟩ := h.reads
  refine ⟨d, ⟨by simp, ?_⟩, hparts⟩
  rw [MomentExpr.parse?.eq_def]
  simp [hd]

end CasualDate
