import CasualDate.Proofs.Text.Folding
import CasualDate.Proofs.Text.Spelled

/-!
# Texts in lower case

A text without a capital sigma is lowered character by character (`toList_lower_trim`), and a word
that is spelled without a long s is found again in its own letters (`Spells.flatMap_lowerChar`). What
the sigma becomes makes no difference where only words of ASCII are looked for (`lower_eq_iff`).
Digits are lowered to themselves, and nothing else to a digit (`isDigit_of_mem_lowerChar`).
-/

namespace CasualDate.Text

variable {word cs : List Char} {c : Char}

/-- Where no capital sigma stands, the characters in front do not matter. -/
theorem lowerFrom_eq_flatMap (h : '\u03a3' ∉ cs) (before : List Char) :
    lowerFrom before cs = cs.flatMap lowerChar := by
  induction cs generalizing before with
  | nil => rfl
  | cons c cs ih =>
    rw [List.mem_cons, not_or] at h
    rw [lowerFrom, if_neg (Ne.symm h.1), ih h.2, List.flatMap_cons]

theorem exists_mem_lowerFrom_of_capitalSigma (h : '\u03a3' ∈ cs) (before : List Char) :
    ∃ c ∈ lowerFrom before cs, 128 ≤ c.toNat := by
  induction cs generalizing before with
  | nil => cases h
  | cons c cs ih =>
    by_cases hc : c = '\u03a3'
    · refine ⟨_, List.mem_append_left _ (by rw [if_pos hc]; exact List.mem_singleton.2 rfl), ?_⟩
      split <;> decide
    · obtain ⟨d, hd, hle⟩ := ih ((List.mem_cons.1 h).resolve_left (Ne.symm hc)) (c :: before)
      exact ⟨d, List.mem_append_right _ hd, hle⟩

/-- Into ASCII a text is lowered character by character, as the sigmas stand behind it. -/
theorem lower_eq_iff {s : String} (hs : ∀ c ∈ s.toList, c.toNat < 128) :
    lower (String.ofList cs) = s ↔ String.ofList (cs.flatMap lowerChar) = s := by
  rw [lower, String.toList_ofList]
  by_cases hsigma : '\u03a3' ∈ cs
  · have hlower : String.ofList (lowerFrom [] cs) ≠ s := by
      rintro rfl
      obtain ⟨c, hc, hle⟩ := exists_mem_lowerFrom_of_capitalSigma hsigma []
      have hlt := hs c (by rwa [String.toList_ofList])
      omega
    have hchars : String.ofList (cs.flatMap lowerChar) ≠ s := by
      rintro rfl
      have hmem : '\u03c3' ∈ cs.flatMap lowerChar :=
        List.mem_flatMap.2 ⟨_, hsigma, by decide +kernel⟩
      have hlt := hs '\u03c3' (by rwa [String.toList_ofList])
      exact absurd hlt (by decide)
    exact iff_of_false hlower hchars
  · rw [lowerFrom_eq_flatMap hsigma]

theorem dropWhile_isSpace_eq_self (h : ∀ c ∈ cs.head?, isSpace c = false) :
    cs.dropWhile isSpace = cs := by
  cases cs with
  | nil => rfl
  | cons c cs => simp [h c rfl]

theorem trimChars_eq_self (hhead : ∀ c ∈ cs.head?, isSpace c = false)
    (hlast : ∀ c ∈ cs.getLast?, isSpace c = false) : trimChars cs = cs := by
  rw [← List.head?_reverse] at hlast
  rw [trimChars, dropWhile_isSpace_eq_self hhead, dropWhile_isSpace_eq_self hlast,
    List.reverse_reverse]

theorem toList_lower_trim (hhead : ∀ c ∈ cs.head?, isSpace c = false)
    (hlast : ∀ c ∈ cs.getLast?, isSpace c = false) (hsigma : '\u03a3' ∉ cs) :
    (lower (trim (String.ofList cs))).toList = cs.flatMap lowerChar := by
  rw [lower, trim, String.toList_ofList, String.toList_ofList, String.toList_ofList,
    trimChars_eq_self hhead hlast, lowerFrom_eq_flatMap hsigma]

theorem mem_flatMap_lowerChar_of_longS (h : longS ∈ cs) : longS ∈ cs.flatMap lowerChar :=
  List.mem_flatMap.2 ⟨longS, h, by decide⟩

/-- The code points of white space. -/
def spaces : List Nat :=
  [9, 10, 11, 12, 13, 0x20, 0x85, 0xa0, 0x1680, 0x2000, 0x2001, 0x2002, 0x2003, 0x2004, 0x2005, 0x2006,
    0x2007, 0x2008, 0x2009, 0x200a, 0x2028, 0x2029, 0x202f, 0x205f, 0x3000]

theorem of_isSpace {p : Char → Prop} (hall : ∀ n ∈ spaces, p (Char.ofNat n))
    (h : isSpace c = true) : p c := by
  have hmem : c.toNat ∈ spaces := by
    simp only [isSpace, Bool.or_eq_true, Bool.and_eq_true, decide_eq_true_eq, beq_iff_eq] at h
    simp only [spaces, List.mem_cons, List.not_mem_nil, or_false]
    omega
  have hchar := hall c.toNat hmem
  rwa [Char.ofNat_toNat] at hchar

theorem lowerChar_of_isSpace (h : isSpace c = true) : lowerChar c = [c] :=
  of_isSpace (p := fun c => lowerChar c = [c]) (by decide +kernel) h

theorem lowerChar_ne_nil (c : Char) : lowerChar c ≠ [] := by
  unfold lowerChar
  split
  · simp
  · split <;> simp

theorem isDigit_ofNat_eq_false {n : Nat} (h : 58 ≤ n) : (Char.ofNat n).isDigit = false := by
  have hzero : '0'.toNat = 48 := rfl
  have hnine : '9'.toNat = 57 := rfl
  rw [← Bool.not_eq_true, Char.isDigit_iff_toNat]
  rcases toNat_ofNat_eq n with heq | heq <;> omega

theorem isDigit_of_mem_lowerChar {d : Char} (hd : d ∈ lowerChar c) : d.isDigit = c.isDigit := by
  unfold lowerChar at hd
  split at hd
  · rw [List.mem_singleton.1 hd, isDigit_toLower]
  · next hc =>
    have hdigit : c.isDigit = false := by
      rw [← Char.ofNat_toNat c]
      exact isDigit_ofNat_eq_false (by omega)
    split at hd
    · have hall : ['i', '\u0307'].all (fun d => d.isDigit = false) = true := by decide
      rw [hdigit]
      simpa using List.all_eq_true.1 hall d hd
    · -- Each run leads to characters behind the digits.
      have hall : ∀ r ∈ lowercaseRuns, 58 ≤ r.first + r.shift := by decide +kernel
      rw [List.mem_singleton.1 hd, CaseRun.map]
      split
      · next r hr =>
        have hcovers := List.find?_some hr
        have hshift := hall r (List.mem_of_find?_eq_some hr)
        simp only [CaseRun.covers, Bool.and_eq_true, decide_eq_true_eq] at hcovers
        rw [hdigit]
        exact isDigit_ofNat_eq_false (by omega)
      · rfl

namespace Spells

theorem exists_sameLetter (h : Spells word cs) (hc : c ∈ cs) : ∃ l ∈ word, sameLetter l c = true := by
  induction h with
  | nil => cases hc
  | cons hw hword ih =>
    rcases List.mem_cons.1 hc with rfl | hc
    · exact ⟨_, List.mem_cons_self, hw⟩
    · obtain ⟨l, hl, hsame⟩ := ih hc
      exact ⟨l, List.mem_cons_of_mem _ hl, hsame⟩

theorem flatMap_lowerChar (h : Spells word cs) (hlower : ∀ l ∈ word, l.isLower = true)
    (hs : longS ∉ cs) : cs.flatMap lowerChar = word := by
  induction h with
  | nil => rfl
  | cons hw hword ih =>
    rw [List.forall_mem_cons] at hlower
    rw [List.mem_cons, not_or] at hs
    rw [List.flatMap_cons, lowerChar_of_sameLetter hlower.1 hw (Ne.symm hs.1), ih hlower.2 hs.2,
      List.singleton_append]

theorem isSpace (h : Spells word cs) (hlower : ∀ l ∈ word, l.isLower = true) :
    ∀ c ∈ cs, isSpace c = false := by
  intro c hc
  obtain ⟨l, hl, hsame⟩ := h.exists_sameLetter hc
  exact isSpace_of_sameLetter (hlower l hl) hsame

theorem not_capitalSigma_mem (h : Spells word cs) (hlower : ∀ l ∈ word, l.isLower = true) :
    '\u03a3' ∉ cs := by
  intro hc
  obtain ⟨l, hl, hsame⟩ := h.exists_sameLetter hc
  exact ne_capitalSigma_of_sameLetter (hlower l hl) hsame rfl

theorem ne_nil (h : Spells word cs) (hne : word ≠ []) : cs ≠ [] := by
  rintro rfl
  cases h
  exact hne rfl

end Spells

end CasualDate.Text
