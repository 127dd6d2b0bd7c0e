import CasualDate.Shape

/-!
# Which shape a text has

A text has the first shape in the order of shapes whose words stand in it. `IsFirstIn` says so of each
shape, with all that has to be missing before it, and no more is to know about `ofText`
(`ofText_eq_iff`).
-/

namespace CasualDate.Shape

variable {text : String} {s : Shape}

/-- The text has no period, and asks for the end of the month of what is found in `remainder`. -/
structure AsksMonthEnd (text remainder : String) : Prop where
  noThis : periodAfter? "this" text = none
  noNext : periodAfter? "next" text = none
  pattern : remainder? text.toList = some remainder.toList

/-- The words of the shape stand in the text, and those of no shape before it. -/
def IsFirstIn (text : String) : Shape → Prop
  | endOfPeriod p => periodAfter? "this" text = some p
  | onePeriodOn p => periodAfter? "this" text = none ∧ periodAfter? "next" text = some p
  | monthEnd remainder => AsksMonthEnd text remainder
  | midMonth word =>
    periodAfter? "this" text = none ∧ periodAfter? "next" text = none ∧
      remainder? text.toList = none ∧ firstWordAfter? "mid".toList text.toList = some word.toList
  | other =>
    periodAfter? "this" text = none ∧ periodAfter? "next" text = none ∧
      remainder? text.toList = none ∧ firstWordAfter? "mid".toList text.toList = none

theorem isFirstIn_ofText (text : String) : IsFirstIn text (ofText text) := by
  unfold ofText
  split
  · next hthis => exact hthis
  · next hthis =>
    split
    · next hnext => exact ⟨hthis, hnext⟩
    · next hnext =>
      split
      · next cs hcs => exact ⟨hthis, hnext, by rw [hcs, String.toList_ofList]⟩
      · next hcs =>
        split
        · next word hword => exact ⟨hthis, hnext, hcs, by rw [hword, String.toList_ofList]⟩
        · next hword => exact ⟨hthis, hnext, hcs, hword⟩

theorem IsFirstIn.ofText_eq (h : IsFirstIn text s) : ofText text = s := by
  cases s with
  | endOfPeriod p =>
    have hthis : periodAfter? "this" text = some p := h
    simp [ofText, hthis]
  | onePeriodOn p =>
    obtain ⟨hthis, hnext⟩ := h
    simp [ofText, hthis, hnext]
  | monthEnd remainder =>
    obtain ⟨hthis, hnext, hpattern⟩ := h
    simp [ofText, hthis, hnext, hpattern]
  | midMonth word =>
    obtain ⟨hthis, hnext, hpattern, hword⟩ := h
    simp only [ofText, hthis, hnext, hpattern, hword, String.ofList_toList]
  | other =>
    obtain ⟨hthis, hnext, hpattern, hword⟩ := h
    simp only [ofText, hthis, hnext, hpattern, hword]

theorem ofText_eq_iff : ofText text = s ↔ IsFirstIn text s :=
  ⟨fun h => h ▸ isFirstIn_ofText text, IsFirstIn.ofText_eq⟩

end CasualDate.Shape
