import CasualDate.Proofs.Ordinal.Steps
import CasualDate.Recognizer

/-!
# Ordinals that are found and not read

What reads an ordinal works in lower case and from the separators, and two kinds of ordinals that the
trigger finds are lost on the way: a long s is the same letter as `s` to the trigger but stays what it
is in lower case, and two words that are run together have no separator to take them apart at. All
others are read as the number that they write (`Writes.read?_eq_some_iff`).
-/

namespace CasualDate.Ordinal

open Text

variable {cs first last : List Char} {s w : String} {c l : Char} {n : Nat}

/-! ### Ordinals in small letters -/

theorem not_isSeparator_of_isLower (hl : l.isLower = true) : ¬IsSeparator l :=
  of_isLower (p := fun l => ¬IsSeparator l) (by decide) hl

theorem read?_of_mem_words (hw : (w, n) ∈ words) (hone : '-' ∉ w.toList)
    (hlower : (lower (trim s)).toList = w.toList) : read? s = some n := by
  have hletters := isLower_of_word hw hone
  rw [read?_of_isLower hlower fun l hl => hletters l (List.mem_of_mem_head? hl),
    hyphenated_eq_self fun l hl => not_isSeparator_of_isLower (hletters l hl),
    (isListed_of_mem hw).find]

namespace TwoWords

theorem isLower_head? (h : TwoWords first last n) (rest : List Char) :
    ∀ l ∈ (first ++ rest).head?, l.isLower = true := by
  rw [List.head?_append_of_ne_nil _ h.ne_nil.1]
  exact fun l hl => h.isLower_first l (List.mem_of_mem_head? hl)

theorem not_isSeparator (h : TwoWords first last n) :
    (∀ l ∈ first, ¬IsSeparator l) ∧ ∀ l ∈ last, ¬IsSeparator l :=
  ⟨fun l hl => not_isSeparator_of_isLower (h.isLower_first l hl),
    fun l hl => not_isSeparator_of_isLower (h.isLower_last l hl)⟩

/-- With a separator between them, the two words are in the list. -/
theorem read?_eq_some (h : TwoWords first last n) (hc : IsSeparator c)
    (hlower : (lower (trim s)).toList = first ++ c :: last) : read? s = some n := by
  rw [read?_of_isLower hlower (h.isLower_head? _),
    hyphenated_append h.not_isSeparator.1 h.not_isSeparator.2 h.ne_nil hc, h.isListed.find]

theorem read?_eq_none (h : TwoWords first last n)
    (hlower : (lower (trim s)).toList = first ++ last) : read? s = none := by
  have hapart : ∀ l ∈ first ++ last, ¬IsSeparator l := fun l hl =>
    (List.mem_append.1 hl).elim (h.not_isSeparator.1 l) (h.not_isSeparator.2 l)
  rw [read?_of_isLower hlower (h.isLower_head? _), hyphenated_eq_self hapart, h.find?_eq_none,
    Option.map_none]

end TwoWords

/-! ### Ordinals in any case -/

theorem lowerChar_of_isSeparator (hc : IsSeparator c) : lowerChar c = [c] := by
  rcases hc with rfl | hc
  · decide
  · exact lowerChar_of_isSpace hc

theorem RunTogether.read?_eq_none (h : RunTogether cs) : read? (String.ofList cs) = none := by
  obtain ⟨first, last, front, back, n, hw, hfirst, hlast, rfl⟩ := h
  have hlower := (Writes.words hw hfirst .noSeparator hlast).toList_lower_trim
  rw [List.nil_append] at hlower
  by_cases hs : longS ∈ front ++ back
  · exact read?_eq_none_of_longS (hlower ▸ mem_flatMap_lowerChar_of_longS hs)
  · rw [List.mem_append, not_or] at hs
    rw [List.flatMap_append, hfirst.flatMap_lowerChar hw.isLower_first hs.1,
      hlast.flatMap_lowerChar hw.isLower_last hs.2] at hlower
    exact hw.read?_eq_none hlower

namespace Writes

theorem read?_eq_none_of_longS (h : Writes cs n) (hs : longS ∈ cs) :
    read? (String.ofList cs) = none :=
  Ordinal.read?_eq_none_of_longS (h.toList_lower_trim ▸ mem_flatMap_lowerChar_of_longS hs)

theorem read?_eq_some (h : Writes cs n) (hs : longS ∉ cs) (hrun : ¬RunTogether cs) :
    read? (String.ofList cs) = some n := by
  have hlower := h.toList_lower_trim
  cases h with
  | digits ds hcount hds hsuffix hspelled =>
    rw [List.mem_append, not_or] at hs
    rw [List.flatMap_append, flatMap_lowerChar_of_isDigit hds,
      hspelled.flatMap_lowerChar (isLower_of_mem_suffixes hsuffix) hs.2] at hlower
    obtain ⟨k, hk, hval⟩ := readDigits?_of_isDigit hcount hds
    rw [read?_of_digits hlower hsuffix hk, hval]
  | word hw hone hspelled =>
    rw [hspelled.flatMap_lowerChar (isLower_of_word hw hone) hs] at hlower
    exact read?_of_mem_words hw hone hlower
  | words hw hfirst hgap hlast =>
    cases hgap with
    | separator hc =>
      simp only [List.mem_append, not_or] at hs
      rw [List.flatMap_append, List.flatMap_append, hfirst.flatMap_lowerChar hw.isLower_first hs.1,
        hlast.flatMap_lowerChar hw.isLower_last hs.2.2, List.flatMap_singleton,
        lowerChar_of_isSeparator hc] at hlower
      exact hw.read?_eq_some hc hlower
    | noSeparator => exact absurd ⟨_, _, _, _, _, hw, hfirst, hlast, rfl⟩ hrun

/-- An ordinal is read as what it writes, unless it has a long s or is run together. -/
theorem read?_eq_some_iff (h : Writes cs n) :
    read? (String.ofList cs) = some n ↔ longS ∉ cs ∧ ¬RunTogether cs := by
  constructor
  · intro hread
    constructor
    · intro hs
      cases hread.symm.trans (h.read?_eq_none_of_longS hs)
    · intro hrun
      cases hread.symm.trans hrun.read?_eq_none
  · rintro ⟨hs, hrun⟩
    exact h.read?_eq_some hs hrun

theorem read?_eq_none_iff (h : Writes cs n) :
    read? (String.ofList cs) = none ↔ longS ∈ cs ∨ RunTogether cs := by
  constructor
  · intro hread
    by_contra hnot
    rw [not_or] at hnot
    cases hread.symm.trans (h.read?_eq_some hnot.1 hnot.2)
  · rintro (hs | hrun)
    · exact h.read?_eq_none_of_longS hs
    · exact hrun.read?_eq_none

end Writes

variable {m : Match}

theorem extract_eq_none_iff (ctx : Context) (m : Match) :
    Recognizer.ordinalDay.extract ctx m = none ↔ read? (String.ofList m.text) = none := by
  rw [Recognizer.ordinalDay, Option.map_eq_none_iff]
  cases read? (String.ofList m.text) <;> simp

/-- Whatever the recognizer of ordinals finds, it is an ordinal. It is read as its number, and not
declined, unless it has a long s or is two words that are run together. -/
theorem ordinalDay_reads_iff (h : m ∈ Recognizer.ordinalDay.pattern.findAll cs) :
    (∃ n, Writes m.text n) ∧
      (∀ n, Writes m.text n →
        (read? (String.ofList m.text) = some n ↔ longS ∉ m.text ∧ ¬RunTogether m.text)) ∧
      ∀ ctx, Recognizer.ordinalDay.extract ctx m = none ↔ longS ∈ m.text ∨ RunTogether m.text := by
  have hmem : m ∈ trigger.findAll cs := h
  obtain ⟨ps, hps, hfits⟩ := Trigger.exists_fits_of_mem_findAll hmem
  obtain ⟨n, hn⟩ := exists_writes_of_fits hps hfits
  refine ⟨⟨n, hn⟩, fun k hk => hk.read?_eq_some_iff, fun ctx => ?_⟩
  rw [extract_eq_none_iff, hn.read?_eq_none_iff]

/-- The words of the twenty-first, in two cases and with a wide space between them. -/
theorem ordinalDay_reads_twentyFirst :
    (⟨7, "Twenty\u2003FIRST".toList⟩ : Match) ∈
        Recognizer.ordinalDay.pattern.findAll "By the Twenty\u2003FIRST!".toList ∧
      Writes "Twenty\u2003FIRST".toList 21 ∧ longS ∉ "Twenty\u2003FIRST".toList ∧
      ¬RunTogether "Twenty\u2003FIRST".toList := by
  have hmem : (⟨7, "Twenty\u2003FIRST".toList⟩ : Match) ∈
      Recognizer.ordinalDay.pattern.findAll "By the Twenty\u2003FIRST!".toList := by
    decide +kernel
  have hspace : IsSeparator '\u2003' := by decide
  have hfirst : Spells "twenty".toList "Twenty".toList := SpellsAscii.spells (by decide)
  have hlast : Spells "first".toList "FIRST".toList := SpellsAscii.spells (by decide)
  have hwrites : Writes "Twenty\u2003FIRST".toList 21 :=
    .words twoWords_twentyFirst hfirst (.separator hspace) hlast
  have hread : read? "Twenty\u2003FIRST" = some 21 := by decide +kernel
  exact ⟨hmem, hwrites, ((ordinalDay_reads_iff hmem).2.1 21 hwrites).1 hread⟩

/-- Run together, the words of the twenty-first are found and declined, and so is the first day with a
long s. -/
theorem ordinalDay_declines :
    (∃ m ∈ Recognizer.ordinalDay.pattern.findAll "twentyfirst".toList, Writes m.text 21 ∧
      ∀ ctx, Recognizer.ordinalDay.extract ctx m = none) ∧
    ∃ m ∈ Recognizer.ordinalDay.pattern.findAll "1\u017ft".toList, Writes m.text 1 ∧
      ∀ ctx, Recognizer.ordinalDay.extract ctx m = none := by
  constructor
  · have hfirst : Spells "twenty".toList "twenty".toList := SpellsAscii.spells rfl
    have hlast : Spells "first".toList "first".toList := SpellsAscii.spells rfl
    refine ⟨⟨0, "twentyfirst".toList⟩, by decide +kernel,
      .words twoWords_twentyFirst hfirst .noSeparator hlast, fun ctx => ?_⟩
    rw [extract_eq_none_iff]
    decide +kernel
  · have hsuffix : Spells "st".toList "\u017ft".toList :=
      .cons (by decide +kernel) (.cons (by decide +kernel) .nil)
    refine ⟨⟨0, "1\u017ft".toList⟩, by decide +kernel,
      .digits ['1'] (.inl rfl) (by simp) (by decide) hsuffix, fun ctx => ?_⟩
    rw [extract_eq_none_iff]
    decide +kernel

end CasualDate.Ordinal
