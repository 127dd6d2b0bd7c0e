import CasualDate.Ordinal
import CasualDate.Proofs.Text.Decimal
import CasualDate.Proofs.Text.Lowered
import CasualDate.Proofs.Trigger.Fits

/-!
# Ordinals as a reader knows them

An ordinal is one or two digits with a suffix, or a word or two of the list in any case, and it writes
a number (`Writes`). Whatever a choice of the trigger fits, it is one (`exists_writes_of_fits`).
-/

namespace CasualDate.Ordinal

open Text

variable {cs first last suffix : List Char} {w : String} {l : Char} {n : Nat}

/-- The ordinal of the two words is in the list. -/
def TwoWords (first last : List Char) (n : Nat) : Prop :=
  (String.ofList (first ++ '-' :: last), n) ∈ words

theorem twoWords_twentyFirst : TwoWords "twenty".toList "first".toList 21 := by
  rw [TwoWords]
  decide +kernel

/-- The ordinal that the characters write, in digits or in any case, and its number. -/
inductive Writes : List Char → Nat → Prop
  | digits (ds : List Char) {suffix spelled : List Char} (hcount : ds.length = 1 ∨ ds.length = 2)
    (hds : ∀ d ∈ ds, d.isDigit = true) (hsuffix : suffix ∈ suffixes) (h : Spells suffix spelled) :
    Writes (ds ++ spelled) (digitsValue ds)
  | word {w : String} {n : Nat} {cs : List Char} (hw : (w, n) ∈ words) (hone : '-' ∉ w.toList)
    (h : Spells w.toList cs) : Writes cs n
  | words {first last front gap back : List Char} {n : Nat} (hw : TwoWords first last n)
    (hfirst : Spells first front) (hgap : Piece.gap.Fits gap) (hlast : Spells last back) :
    Writes (front ++ (gap ++ back)) n

/-- The characters spell the two words of an ordinal with nothing between them. -/
def RunTogether (cs : List Char) : Prop :=
  ∃ first last front back n, TwoWords first last n ∧ Spells first front ∧ Spells last back ∧
    cs = front ++ back

/-! ### The list of words -/

/-- What holds of every entry of the list and is checked entry by entry. -/
structure IsListed (w : List Char) (n : Nat) : Prop where
  letters : w.all (fun l => l = '-' || l.isLower) = true
  count_le : w.count '-' ≤ 1
  head_ne : w.head? ≠ some '-'
  last_ne : w.getLast? ≠ some '-'
  find : (words.find? fun v => v.1.toList = w).map Prod.snd = some n
  /-- An ordinal of two words is there with the hyphen only. -/
  runTogether : '-' ∈ w → (words.find? fun v => v.1.toList = w.filter (· ≠ '-')) = none

theorem isListed_of_mem (hw : (w, n) ∈ words) : IsListed w.toList n := by
  have hall : ∀ v ∈ words, v.1.toList.all (fun l => l = '-' || l.isLower) = true ∧
      v.1.toList.count '-' ≤ 1 ∧ v.1.toList.head? ≠ some '-' ∧ v.1.toList.getLast? ≠ some '-' ∧
      (words.find? fun u => u.1.toList = v.1.toList).map Prod.snd = some v.2 ∧
      ('-' ∈ v.1.toList →
        (words.find? fun u => u.1.toList = v.1.toList.filter (· ≠ '-')) = none) := by
    decide +kernel
  obtain ⟨hletters, hcount, hhead, hlast, hfind, hrun⟩ := hall (w, n) hw
  exact ⟨hletters, hcount, hhead, hlast, hfind, hrun⟩

theorem isLower_of_mem_words (hw : (w, n) ∈ words) (hl : l ∈ w.toList) (hne : l ≠ '-') :
    l.isLower = true := by
  have hor := List.all_eq_true.1 (isListed_of_mem hw).letters l hl
  simpa [hne] using hor

theorem isLower_of_word (hw : (w, n) ∈ words) (hone : '-' ∉ w.toList) :
    ∀ l ∈ w.toList, l.isLower = true :=
  fun _ hl => isLower_of_mem_words hw hl (ne_of_mem_of_not_mem hl hone)

namespace TwoWords

theorem isListed (h : TwoWords first last n) : IsListed (first ++ '-' :: last) n := by
  have hlisted := isListed_of_mem h
  rwa [String.toList_ofList] at hlisted

theorem not_mem (h : TwoWords first last n) : '-' ∉ first ∧ '-' ∉ last := by
  have hcount := h.isListed.count_le
  rw [List.count_append, List.count_cons_self] at hcount
  exact ⟨List.count_eq_zero.1 (by omega), List.count_eq_zero.1 (by omega)⟩

theorem isLower (h : TwoWords first last n) (hl : l ∈ first ++ '-' :: last) (hne : l ≠ '-') :
    l.isLower = true := by
  rw [← String.toList_ofList (l := first ++ '-' :: last)] at hl
  exact isLower_of_mem_words h hl hne

theorem isLower_first (h : TwoWords first last n) : ∀ l ∈ first, l.isLower = true :=
  fun _ hl => h.isLower (List.mem_append_left _ hl) (ne_of_mem_of_not_mem hl h.not_mem.1)

theorem isLower_last (h : TwoWords first last n) : ∀ l ∈ last, l.isLower = true :=
  fun _ hl => h.isLower (List.mem_append_right _ (List.mem_cons_of_mem _ hl))
    (ne_of_mem_of_not_mem hl h.not_mem.2)

theorem ne_nil (h : TwoWords first last n) : first ≠ [] ∧ last ≠ [] := by
  constructor
  · rintro rfl
    exact h.isListed.head_ne rfl
  · rintro rfl
    exact h.isListed.last_ne (by simp)

theorem find?_eq_none (h : TwoWords first last n) :
    (words.find? fun v => v.1.toList = first ++ last) = none := by
  have hfilter : (first ++ '-' :: last).filter (· ≠ '-') = first ++ last := by
    have hself {cs : List Char} (hcs : '-' ∉ cs) : cs.filter (· ≠ '-') = cs :=
      List.filter_eq_self.2 fun c hc => decide_eq_true (ne_of_mem_of_not_mem hc hcs)
    rw [List.filter_append, List.filter_cons_of_neg (by simp), hself h.not_mem.1, hself h.not_mem.2]
  have hnone := h.isListed.runTogether (by simp)
  rwa [hfilter] at hnone

end TwoWords

/-! ### Matches are ordinals -/

/-- What a choice of the trigger fits is an ordinal for a reader. -/
theorem exists_writes_of_fits {ps : List Piece} (hps : ps ∈ trigger) (h : Trigger.Fits ps cs) :
    ∃ n, Writes cs n := by
  rcases List.mem_append.1 hps with hps | hps
  · obtain ⟨suffix, hsuffix, rfl⟩ := List.mem_map.1 hps
    cases h with
    | cons hdigit h =>
      cases h with
      | cons hmore h =>
        have hspelled := h.spells
        cases hdigit with
        | digit hd =>
          cases hmore with
          | someDigit hd' =>
            exact ⟨_, .digits [_, _] (.inr rfl) (by simp [hd, hd']) hsuffix hspelled⟩
          | noDigit =>
            exact ⟨_, .digits [_] (.inl rfl) (by simp [hd]) hsuffix hspelled⟩
  · obtain ⟨⟨w, n⟩, hw, rfl⟩ := List.mem_map.1 hps
    -- The pieces of a word are its letters, with a gap for the hyphen.
    have hletters {letters : List Char} (hnot : '-' ∉ letters) :
        (letters.map fun c => if c = '-' then Piece.gap else .letter c) = letters.map .letter :=
      List.map_congr_left fun c hc => if_neg (ne_of_mem_of_not_mem hc hnot)
    by_cases hone : '-' ∈ w.toList
    · obtain ⟨first, last, hsplit⟩ := List.append_of_mem hone
      have htwo : TwoWords first last n := by
        rwa [TwoWords, ← hsplit, String.ofList_toList]
      simp only [hsplit, List.map_append, List.map_cons, if_pos, hletters htwo.not_mem.1,
        hletters htwo.not_mem.2] at h
      obtain ⟨front, rest, rfl, hfirst, hrest⟩ := h.of_append
      cases hrest with
      | cons hgap hlast => exact ⟨n, .words htwo hfirst.spells hgap hlast.spells⟩
    · rw [hletters hone] at h
      exact ⟨n, .word hw hone h.spells⟩

/-! ### What an ordinal is made of -/

theorem isLower_of_mem_suffixes (hsuffix : suffix ∈ suffixes) : ∀ l ∈ suffix, l.isLower = true := by
  have hall : suffixes.all (·.all Char.isLower) = true := by decide
  exact List.all_eq_true.1 (List.all_eq_true.1 hall suffix hsuffix)

theorem length_of_mem_suffixes (hsuffix : suffix ∈ suffixes) : suffix.length = 2 := by
  have hall : ∀ suffix ∈ suffixes, suffix.length = 2 := by decide
  exact hall suffix hsuffix

namespace Writes

theorem not_capitalSigma_mem (h : Writes cs n) : '\u03a3' ∉ cs := by
  cases h with
  | digits ds hcount hds hsuffix hspelled =>
    rw [List.mem_append, not_or]
    refine ⟨fun hc => ?_, hspelled.not_capitalSigma_mem (isLower_of_mem_suffixes hsuffix)⟩
    have hdigit := hds _ hc
    revert hdigit
    decide
  | word hw hone hspelled =>
    exact hspelled.not_capitalSigma_mem (isLower_of_word hw hone)
  | words hw hfirst hgap hlast =>
    rw [List.mem_append, List.mem_append, not_or, not_or]
    refine ⟨hfirst.not_capitalSigma_mem hw.isLower_first, ?_,
      hlast.not_capitalSigma_mem hw.isLower_last⟩
    cases hgap with
    | separator hc =>
      rw [List.mem_singleton]
      rintro rfl
      revert hc
      decide
    | noSeparator => exact List.not_mem_nil

theorem isSpace_ends (h : Writes cs n) : (∀ c ∈ cs.head?, isSpace c = false) ∧
    ∀ c ∈ cs.getLast?, isSpace c = false := by
  cases h with
  | digits ds hcount hds hsuffix hspelled =>
    have hne : ds ≠ [] := by
      rintro rfl
      simp at hcount
    have hback := hspelled.ne_nil
      (List.ne_nil_of_length_eq_add_one (length_of_mem_suffixes hsuffix))
    rw [List.head?_append_of_ne_nil _ hne, List.getLast?_append_of_ne_nil _ hback]
    exact ⟨fun c hc => isSpace_of_isDigit (hds c (List.mem_of_mem_head? hc)),
      fun c hc => hspelled.isSpace (isLower_of_mem_suffixes hsuffix) c
        (List.mem_of_getLast? hc)⟩
  | word hw hone hspelled =>
    have hall := hspelled.isSpace (isLower_of_word hw hone)
    exact ⟨fun c hc => hall c (List.mem_of_mem_head? hc), fun c hc => hall c (List.mem_of_getLast? hc)⟩
  | words hw hfirst hgap hlast =>
    have hfront := hfirst.ne_nil hw.ne_nil.1
    have hback := hlast.ne_nil hw.ne_nil.2
    rw [List.head?_append_of_ne_nil _ hfront, ← List.append_assoc,
      List.getLast?_append_of_ne_nil _ hback]
    exact ⟨fun c hc => hfirst.isSpace hw.isLower_first c (List.mem_of_mem_head? hc),
      fun c hc => hlast.isSpace hw.isLower_last c (List.mem_of_getLast? hc)⟩

theorem toList_lower_trim (h : Writes cs n) :
    (lower (trim (String.ofList cs))).toList = cs.flatMap lowerChar :=
  Text.toList_lower_trim h.isSpace_ends.1 h.isSpace_ends.2 h.not_capitalSigma_mem

end Writes

end CasualDate.Ordinal
