import CasualDate.Proofs.Text.LetterCase

/-!
# Characters that fold to ASCII letters

Past ASCII two characters only fold to a letter of ASCII, the long s to `s` and the kelvin sign to
`k` (`eq_of_sameLetter`). Lower case agrees with folding on all characters that are the same letter
as one of ASCII but the long s, which is in lower case itself (`lowerChar_of_sameLetter`).
-/

namespace CasualDate.Text

variable {l c : Char}

/-- The long s is the same letter as `s`, but not a capital one. -/
def longS : Char :=
  '\u017f'

def kelvinSign : Char :=
  '\u212a'

theorem toNat_ofNat_eq (n : Nat) : (Char.ofNat n).toNat = n ∨ (Char.ofNat n).toNat = 0 := by
  rw [Char.ofNat]
  by_cases h : n.isValidChar
  · rw [dif_pos h]
    exact .inl rfl
  · rw [dif_neg h]
    exact .inr rfl

theorem toNat_of_isLower (h : l.isLower = true) : 97 ≤ l.toNat ∧ l.toNat ≤ 122 := by
  obtain ⟨hlow, hhigh⟩ := Bool.and_eq_true_iff.1 h
  exact ⟨UInt32.le_iff_toNat_le.1 (of_decide_eq_true hlow),
    UInt32.le_iff_toNat_le.1 (of_decide_eq_true hhigh)⟩

theorem of_isLower {p : Char → Prop} (hall : ∀ n ∈ List.range' 97 26, p (Char.ofNat n))
    (h : l.isLower = true) : p l := by
  obtain ⟨hlow, hhigh⟩ := toNat_of_isLower h
  have hl := hall l.toNat (List.mem_range'_1.2 ⟨hlow, by omega⟩)
  rwa [Char.ofNat_toNat] at hl

theorem foldChar_of_isLower (h : l.isLower = true) : foldChar l = l :=
  of_isLower (p := fun l => foldChar l = l) (by decide) h

/-- A character that is folded into ASCII from past it is the long s or the kelvin sign. -/
theorem eq_of_foldChar (hl : l.isLower = true) (hc : 128 ≤ c.toNat) (h : foldChar c = l) :
    c = longS ∨ c = kelvinSign := by
  obtain ⟨hlow, hhigh⟩ := toNat_of_isLower hl
  have hruns : ∀ r ∈ foldingRuns, 128 ≤ (r.first : Int) + r.shift ∨
      r.first = r.last ∧ (r.first = longS.toNat ∨ r.first = kelvinSign.toNat) := by decide +kernel
  rw [foldChar, if_neg (by omega), CaseRun.map] at h
  split at h
  · next r hr =>
    have hcovers := List.find?_some hr
    simp only [CaseRun.covers, Bool.and_eq_true, decide_eq_true_eq] at hcovers
    rcases hruns r (List.mem_of_find?_eq_some hr) with hbehind | ⟨hsingle, hfirst⟩
    · -- The character stays past ASCII, or there is none so far on.
      have hnat := congrArg Char.toNat h
      rcases toNat_ofNat_eq ((c.toNat : Int) + r.shift).toNat with heq | heq <;> omega
    · have hnat : c.toNat = r.first := by omega
      rcases hfirst with hfirst | hfirst
      · left
        rw [← Char.ofNat_toNat c, hnat, hfirst, Char.ofNat_toNat]
      · right
        rw [← Char.ofNat_toNat c, hnat, hfirst, Char.ofNat_toNat]
  · subst h
    omega

theorem eq_of_sameLetter (hl : l.isLower = true) (h : sameLetter l c = true) :
    c.toLower = l ∨ c = longS ∨ c = kelvinSign := by
  rw [sameLetter, beq_iff_eq, foldChar_of_isLower hl] at h
  rcases Nat.lt_or_ge c.toNat 128 with hc | hc
  · rw [foldChar, if_pos hc] at h
    exact .inl h.symm
  · exact .inr (eq_of_foldChar hl hc h.symm)

theorem isSpace_of_sameLetter (hl : l.isLower = true) (h : sameLetter l c = true) :
    isSpace c = false := by
  rcases eq_of_sameLetter hl h with hc | rfl | rfl
  · rw [← isSpace_toLower, hc]
    exact of_isLower (p := fun l => isSpace l = false) (by decide) hl
  · decide
  · decide

theorem ne_capitalSigma_of_sameLetter (hl : l.isLower = true) (h : sameLetter l c = true) :
    c ≠ '\u03a3' := by
  rcases eq_of_sameLetter hl h with hc | rfl | rfl
  · rintro rfl
    subst hc
    revert hl
    decide
  · decide
  · decide

/-- Lower case finds every letter that folding does, but the one written with a long s. -/
theorem lowerChar_of_sameLetter (hl : l.isLower = true) (h : sameLetter l c = true)
    (hs : c ≠ longS) : lowerChar c = [l] := by
  rcases eq_of_sameLetter hl h with hc | rfl | rfl
  · rw [← lowerChar_toLower, hc]
    exact of_isLower (p := fun l => lowerChar l = [l]) (by decide) hl
  · exact absurd rfl hs
  · have hlower : lowerChar kelvinSign = [foldChar kelvinSign] := by decide
    rw [sameLetter, beq_iff_eq, foldChar_of_isLower hl] at h
    rw [hlower, ← h]

end CasualDate.Text
