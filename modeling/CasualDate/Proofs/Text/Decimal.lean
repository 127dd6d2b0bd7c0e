import CasualDate.Text.Decimal
import CasualDate.Text.Lowercase
import CasualDate.Text.CharTable

/-!
# Numbers written and read back

A number is read back from its digits, however many zeros stand in front of them
(`digitsValue_padded`), as far as it is small enough to count with. What is checked of the ten digits
holds of every digit (`of_isDigit`).
-/

namespace CasualDate.Text

variable {c : Char} {n : Nat}

@[simp] theorem padded_zero : padded 0 n = decimal n := by
  simp [padded]

theorem decimal_ne_nil : decimal n ≠ [] :=
  Nat.toDigits_ne_nil

theorem isDigit_of_mem_decimal (h : c ∈ decimal n) : c.isDigit = true :=
  Nat.isDigit_of_mem_toDigits (b := 10) (by decide) (by decide) h

theorem padded_ne_nil {width : Nat} : padded width n ≠ [] := by
  simp [padded, decimal_ne_nil]

theorem isDigit_of_mem_padded {width : Nat} (h : c ∈ padded width n) : c.isDigit = true := by
  rcases List.mem_append.1 h with h | h
  · rw [List.eq_of_mem_replicate h]; decide
  · exact isDigit_of_mem_decimal h

theorem digitsValue_decimal : digitsValue (decimal n) = n :=
  Nat.ofDigitChars_ten_toDigits

theorem digitsValue_padded {width : Nat} : digitsValue (padded width n) = n := by
  have hzeros : ∀ k, (List.replicate k '0').foldl (fun n c => 10 * n + digitValue c) 0 = 0 := by
    intro k
    induction k with
    | zero => rfl
    | succ k ih => exact ih
  rw [digitsValue, padded, List.foldl_append, hzeros]
  exact digitsValue_decimal

theorem readCount?_eq_some_iff {cs : List Char} {n : Count} :
    readCount? cs = some n ↔ cs ≠ [] ∧ (∀ c ∈ cs, c.isDigit = true) ∧ digitsValue cs = n := by
  rw [readCount?, count?]
  constructor
  · intro h
    split at h
    · next hcs =>
      split at h
      · cases h
        simpa using hcs
      · cases h
    · cases h
  · rintro ⟨hne, hdigits, hvalue⟩
    have hcs : (!cs.isEmpty && cs.all Char.isDigit) = true := by
      simpa [hne] using hdigits
    rw [if_pos hcs, dif_pos (hvalue ▸ n.isLt)]
    exact congrArg some (Fin.ext hvalue)

theorem readCount?_padded {width : Nat} : readCount? (padded width n) = count? n := by
  have hall : (padded width n).all Char.isDigit = true :=
    List.all_eq_true.2 fun c hc => isDigit_of_mem_padded hc
  simp [readCount?, hall, padded_ne_nil, digitsValue_padded]

theorem lt_countLimit (h : n ≤ 9999) : n < countLimit := by
  unfold countLimit
  omega

/-! ### Digits one by one -/

def digits : List Char :=
  ['0', '1', '2', '3', '4', '5', '6', '7', '8', '9']

theorem mem_digits_of_isDigit {c : Char} (h : c.isDigit = true) : c ∈ digits := by
  obtain ⟨hlow, hhigh⟩ := Char.isDigit_iff_toNat.1 h
  rw [← Char.ofNat_toNat c]
  generalize c.toNat = n at *
  have hn : n ∈ List.range' 48 10 := by
    rw [List.mem_range'_1]
    exact ⟨hlow, Nat.lt_succ_of_le hhigh⟩
  have hall : ∀ n ∈ List.range' 48 10, Char.ofNat n ∈ digits := by decide
  exact hall n hn

/-- What is checked of the ten digits holds of every digit. -/
theorem of_isDigit {p : Char → Bool} {c : Char} (hall : digits.all p = true)
    (h : c.isDigit = true) : p c = true :=
  List.all_eq_true.1 hall c (mem_digits_of_isDigit h)

theorem lowerChar_of_isDigit {c : Char} (h : c.isDigit = true) : lowerChar c = [c] := by
  have hall : digits.all (fun c => lowerChar c = [c]) = true := by decide
  simpa using of_isDigit hall h

theorem isSpace_of_isDigit {c : Char} (h : c.isDigit = true) : isSpace c = false := by
  have hall : digits.all (fun c => isSpace c = false) = true := by decide
  simpa using of_isDigit hall h

theorem digitValue_le {c : Char} (h : c.isDigit = true) : digitValue c ≤ 9 := by
  have hall : digits.all (fun c => digitValue c ≤ 9) = true := by decide
  simpa using of_isDigit hall h

theorem flatMap_lowerChar_of_isDigit {cs : List Char} (h : ∀ c ∈ cs, c.isDigit = true) :
    cs.flatMap lowerChar = cs := by
  rw [List.flatMap_def, List.map_congr_left fun c hc => lowerChar_of_isDigit (h c hc),
    ← List.flatMap_def, List.flatMap_singleton']

end CasualDate.Text
