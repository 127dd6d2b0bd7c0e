import CasualDate.Proofs.Text.LetterCase
import Mathlib.Data.List.Forall2

/-!
# Words spelled in any case

A text begins with a word in any case if the characters in front spell it (`dropWord?_eq_some_iff`).
Spelled in ASCII alone (`SpellsAscii`), the characters are those of the word but for the case.
-/

namespace CasualDate.Text

variable {word cs rest : List Char} {c d : Char}

/-- The characters spell the word in any case. -/
def Spells (word cs : List Char) : Prop :=
  List.Forall₂ (fun w c => sameLetter w c = true) word cs

theorem dropWord?_eq_some_iff :
    dropWord? word cs = some rest ↔ ∃ spelled, cs = spelled ++ rest ∧ Spells word spelled := by
  induction word generalizing cs with
  | nil =>
    simp only [dropWord?, Option.some.injEq]
    constructor
    · rintro rfl
      exact ⟨[], rfl, .nil⟩
    · rintro ⟨spelled, rfl, hspelled⟩
      cases hspelled
      rfl
  | cons w word ih =>
    cases cs with
    | nil =>
      simp only [dropWord?, reduceCtorEq, false_iff]
      rintro ⟨spelled, heq, hspelled⟩
      cases hspelled
      cases heq
    | cons c cs =>
      simp only [dropWord?, Option.ite_none_right_eq_some, ih]
      constructor
      · rintro ⟨hc, spelled, rfl, hspelled⟩
        exact ⟨c :: spelled, rfl, .cons hc hspelled⟩
      · rintro ⟨spelled, heq, hspelled⟩
        cases hspelled with
        | cons hc hspelled =>
          obtain ⟨rfl, rfl⟩ := List.cons.inj heq
          exact ⟨hc, _, rfl, hspelled⟩

theorem takeWhile_eq_iff {p : Char → Bool} : cs.takeWhile p = word ↔
    ∃ rest, cs = word ++ rest ∧ (∀ c ∈ word, p c = true) ∧ ∀ c ∈ rest.head?, p c = false := by
  constructor
  · rintro rfl
    refine ⟨cs.dropWhile p, List.takeWhile_append_dropWhile.symm,
      List.all_eq_true.1 List.all_takeWhile, fun c hc => ?_⟩
    have hend := List.head?_dropWhile_not p cs
    rwa [Option.mem_def.1 hc] at hend
  · rintro ⟨rest, rfl, hword, hrest⟩
    have hnone : rest.takeWhile p = [] := by
      cases rest with
      | nil => rfl
      | cons c rest => simp [hrest c rfl]
    rw [List.takeWhile_append_of_pos hword, hnone, List.append_nil]

/-- The characters spell the word in any case, all of it in ASCII. -/
def SpellsAscii (word cs : List Char) : Prop :=
  cs.map Char.toLower = word.map Char.toLower

instance : Decidable (SpellsAscii word cs) :=
  inferInstanceAs (Decidable (_ = _))

theorem sameLetter_of_toLower (h : c.toLower = d.toLower) : sameLetter d c = true := by
  rw [sameLetter, beq_iff_eq, ← foldChar_toLower, ← h, foldChar_toLower]

theorem SpellsAscii.spells (h : SpellsAscii word cs) : Spells word cs := by
  have hsame : List.Forall₂ (· = ·) (word.map Char.toLower) (cs.map Char.toLower) := by
    rw [List.forall₂_eq_eq_eq]
    exact h.symm
  rw [List.forall₂_map_left_iff, List.forall₂_map_right_iff] at hsame
  exact hsame.imp fun _ _ hw => sameLetter_of_toLower hw.symm

theorem SpellsAscii.of_mem {p : Char → Prop} (h : SpellsAscii word cs)
    (hword : ∀ d ∈ word, p d.toLower) (hc : c ∈ cs) : p c.toLower := by
  have hmem : c.toLower ∈ word.map Char.toLower := h ▸ List.mem_map_of_mem hc
  obtain ⟨d, hd, heq⟩ := List.mem_map.1 hmem
  exact heq ▸ hword d hd

end CasualDate.Text
