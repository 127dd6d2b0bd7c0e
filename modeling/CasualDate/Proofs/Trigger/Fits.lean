import CasualDate.Proofs.Text.Spelled
import CasualDate.Proofs.Trigger.Absent

/-!
# What a trigger fits

A choice of a trigger fits the texts that are put together from what its pieces fit (`Fits`). The
search tries its ways one after the other, and these are the beginnings that the choice fits
(`mem_restsAfter_iff`): what a match holds, one of the choices fits as a whole
(`exists_fits_of_mem_findAll`).
-/

namespace CasualDate

open Text

/-- A hyphen or white space, which a gap has room for. -/
def IsSeparator (c : Char) : Prop :=
  c = '-' ∨ isSpace c = true

instance (c : Char) : Decidable (IsSeparator c) :=
  inferInstanceAs (Decidable (_ ∨ _))

inductive Piece.Fits : Piece → List Char → Prop
  | letter {l c : Char} (h : sameLetter l c = true) : Fits (.letter l) [c]
  | digit {c : Char} (h : c.isDigit = true) : Fits .digit [c]
  | someDigit {c : Char} (h : c.isDigit = true) : Fits .optionalDigit [c]
  | noDigit : Fits .optionalDigit []
  | separator {c : Char} (h : IsSeparator c) : Fits .gap [c]
  | noSeparator : Fits .gap []

theorem Piece.mem_rests_iff {p : Piece} {cs rest : List Char} :
    rest ∈ p.rests cs ↔ ∃ front, cs = front ++ rest ∧ p.Fits front := by
  have hone {q : Char → Bool} : rest ∈ afterOne q cs ↔ ∃ c, q c = true ∧ cs = c :: rest := by
    refine ⟨Trigger.exists_of_mem_afterOne, ?_⟩
    rintro ⟨c, hc, rfl⟩
    simp [afterOne, hc]
  constructor
  · intro h
    cases p with
    | letter l =>
      obtain ⟨c, hc, rfl⟩ := hone.1 h
      exact ⟨[c], rfl, .letter hc⟩
    | digit =>
      obtain ⟨c, hc, rfl⟩ := hone.1 h
      exact ⟨[c], rfl, .digit hc⟩
    | optionalDigit =>
      rcases List.mem_append.1 h with h | h
      · obtain ⟨c, hc, rfl⟩ := hone.1 h
        exact ⟨[c], rfl, .someDigit hc⟩
      · exact ⟨[], (List.mem_singleton.1 h).symm, .noDigit⟩
    | gap =>
      rcases List.mem_append.1 h with h | h
      · obtain ⟨c, hc, rfl⟩ := hone.1 h
        exact ⟨[c], rfl, .separator (by simpa [IsSeparator] using hc)⟩
      · exact ⟨[], (List.mem_singleton.1 h).symm, .noSeparator⟩
  · rintro ⟨front, rfl, hfits⟩
    cases hfits with
    | letter hc => exact hone.2 ⟨_, hc, rfl⟩
    | digit hc => exact hone.2 ⟨_, hc, rfl⟩
    | someDigit hc => exact List.mem_append_left _ (hone.2 ⟨_, hc, rfl⟩)
    | noDigit => exact List.mem_append_right _ (List.mem_singleton.2 rfl)
    | separator hc =>
      exact List.mem_append_left _ (hone.2 ⟨_, by simpa [IsSeparator] using hc, rfl⟩)
    | noSeparator => exact List.mem_append_right _ (List.mem_singleton.2 rfl)

namespace Trigger

variable {t : Trigger} {ps qs : List Piece} {m : Match} {cs rest word : List Char}

/-- The characters are what the pieces fit, one after the other. -/
inductive Fits : List Piece → List Char → Prop
  | nil : Fits [] []
  | cons {p : Piece} {ps : List Piece} {as bs : List Char} (hp : p.Fits as) (hps : Fits ps bs) :
    Fits (p :: ps) (as ++ bs)

theorem mem_restsAfter_iff :
    rest ∈ restsAfter ps cs ↔ ∃ front, cs = front ++ rest ∧ Fits ps front := by
  induction ps generalizing cs with
  | nil =>
    rw [restsAfter, List.mem_singleton]
    constructor
    · rintro rfl
      exact ⟨[], rfl, .nil⟩
    · rintro ⟨front, rfl, ⟨⟩⟩
      rfl
  | cons p ps ih =>
    simp only [restsAfter, List.mem_flatMap, Piece.mem_rests_iff, ih]
    constructor
    · rintro ⟨mid, ⟨as, rfl, hp⟩, bs, rfl, hps⟩
      exact ⟨as ++ bs, (List.append_assoc ..).symm, .cons hp hps⟩
    · rintro ⟨front, rfl, hfits⟩
      cases hfits with
      | cons hp hps => exact ⟨_, ⟨_, List.append_assoc .., hp⟩, _, rfl, hps⟩

theorem Fits.of_append (h : Fits (ps ++ qs) cs) :
    ∃ as bs, cs = as ++ bs ∧ Fits ps as ∧ Fits qs bs := by
  induction ps generalizing cs with
  | nil => exact ⟨[], cs, rfl, .nil, h⟩
  | cons p ps ih =>
    cases h with
    | cons hp h =>
      obtain ⟨as, bs, rfl, hps, hqs⟩ := ih h
      exact ⟨_ ++ as, bs, (List.append_assoc ..).symm, .cons hp hps, hqs⟩

theorem Fits.spells (h : Fits (word.map .letter) cs) : Spells word cs := by
  induction word generalizing cs with
  | nil =>
    cases h
    exact .nil
  | cons w word ih =>
    cases h with
    | cons hw hword =>
      cases hw with
      | letter hw => exact .cons hw (ih hword)

theorem exists_fits_of_matchAt? {before : Option Char} (h : t.matchAt? before cs = some rest) :
    ∃ ps ∈ t, Fits ps (upTo cs rest) := by
  unfold matchAt? at h
  split at h
  · obtain ⟨ps, hps, hrest⟩ := List.mem_flatMap.1 (List.mem_of_find?_eq_some h)
    obtain ⟨front, rfl, hfits⟩ := mem_restsAfter_iff.1 hrest
    refine ⟨ps, hps, ?_⟩
    rwa [List.append_cancel_right (upTo_append (List.suffix_append front rest))]
  · cases h

theorem exists_fits_of_mem_matchesFrom {index : Nat} {before : Option Char} {afterMatch : Bool}
    (h : m ∈ t.matchesFrom index before afterMatch cs) : ∃ ps ∈ t, Fits ps m.text := by
  fun_induction matchesFrom t index before afterMatch cs with
  | case1 index before afterMatch cs rest hrest hlt text ih =>
    rcases List.mem_cons.1 h with rfl | h
    · exact exists_fits_of_matchAt? (Option.filter_eq_some_iff.1 hrest).1
    · exact ih h
  | case2 index before afterMatch cs hnone ih =>
    rcases List.mem_append.1 h with h | h
    · -- The match is empty, so what follows it is the whole text.
      split at h
      · next hmatch =>
        obtain rfl := List.mem_singleton.1 h
        obtain ⟨rest, hrest⟩ := Option.isSome_iff_exists.1 (Bool.and_eq_true_iff.1 hmatch).1
        have hlength : cs.length ≤ rest.length := by
          have hnot := hnone
          rw [hrest, Option.filter_some] at hnot
          simpa using hnot
        have hfits := exists_fits_of_matchAt? hrest
        rwa [upTo, Nat.sub_eq_zero_of_le hlength, List.take_zero] at hfits
      · cases h
    · cases cs with
      | nil => cases h
      | cons c cs => exact ih h

theorem exists_fits_of_mem_findAll (h : m ∈ t.findAll cs) : ∃ ps ∈ t, Fits ps m.text :=
  exists_fits_of_mem_matchesFrom h

end Trigger

end CasualDate
