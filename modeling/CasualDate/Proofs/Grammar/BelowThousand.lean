import CasualDate.Proofs.Grammar.Marks
import CasualDate.Proofs.Reading.Cut.Number
import CasualDate.Proofs.Reading.InBounds

/-!
# Numbers below one thousand are read

A sentence that is a number below one thousand is read whole, with its value, in front of words that
such a number does not go on with (`Number.run_triple?_of_triple`). The readers try longer forms
first. A form that is no beginning of the sentence fails at its first word or behind it, and so
does one that would go on: "hundred", "and", dashes and ones are looked for only where the sentence
has them.
-/

namespace CasualDate

/-- The words that a number below one thousand goes on with. -/
def Word.goesOn : Word → Bool
  | literal _ | numeral _ | hundred | andWord | dash => true
  | _ => false

namespace Grammar

variable {us : List Word} {w : Word} {n : Nat}

theorem Ones.ne_dash (h : Ones w n) : w ≠ .dash := by
  rintro rfl
  cases h

theorem Double.exists_cons (h : Double us n) :
    ∃ w vs, us = w :: vs ∧ w.beginsNumber = true ∧ w.multiplies = false := by
  cases h with
  | ones h | tens h | teens h => cases h <;> exact ⟨_, _, rfl, rfl, rfl⟩
  | dashed hv _ | joined hv _ =>
    cases hv
    exact ⟨_, _, rfl, rfl, rfl⟩
  | literal => exact ⟨_, _, rfl, rfl, rfl⟩

theorem Triple.exists_cons (h : Triple us n) :
    ∃ w vs, us = w :: vs ∧ w.beginsNumber = true ∧ ∀ s, w ≠ .scale s := by
  cases h with
  | onesHundredAnd hw _ | onesHundredWith hw _ | onesHundred hw =>
    cases hw <;> exact ⟨_, _, rfl, rfl, nofun⟩
  | hundredAnd | hundredWith | hundred | literal => exact ⟨_, _, rfl, rfl, nofun⟩
  | double h =>
    obtain ⟨w, vs, rfl, hbegins, hmultiplies⟩ := h.exists_cons
    refine ⟨w, vs, rfl, hbegins, ?_⟩
    rintro s rfl
    cases hmultiplies

theorem Num.exists_cons (h : Num us n) : ∃ w vs, us = w :: vs ∧ w.beginsNumber = true := by
  have htriple {us : List Word} {k : Nat} (hu : Triple us k) (vs : List Word) :
      ∃ w ws, us ++ vs = w :: ws ∧ w.beginsNumber = true := by
    obtain ⟨w, ws, rfl, hbegins, -⟩ := hu.exists_cons
    exact ⟨w, ws ++ vs, rfl, hbegins⟩
  cases h with
  | tripleScaleAnd s hu _ | tripleScaleWith s hu _ | tripleScale s hu => exact htriple hu _
  | triple hu =>
    obtain ⟨w, ws, rfl, hbegins, -⟩ := hu.exists_cons
    exact ⟨w, ws, rfl, hbegins⟩
  | scaleAnd | scaleWith | scale | literal => exact ⟨_, _, rfl, rfl⟩

end Grammar

open Grammar Reading

namespace Number

variable {us ws cut : List Word} {w : Word} {v : Numeral} {n k : Nat}

/-! ### Ones -/

theorem one?_of_ones (h : Ones w n) : one? w = some n := by
  cases h with
  | word n hlt | literal n hlt => exact if_pos hlt

theorem run_ones?_of_ones (h : Ones w n) (ws : List Word) :
    (reading ones?).run (w :: ws) = some (n, ws) := by
  simp [reading_ones?, one?_of_ones h]

theorem run_ones?_eq_none (h : ∀ w ∈ ws.head?, w.goesOn = false) : (reading ones?).run ws = none := by
  cases ws with
  | nil => exact run_reading_nil ones?
  | cons w ws =>
    have hw := h w rfl
    cases w <;> first | rfl | cases hw

/-! ### Below one hundred -/

theorem short?_of_ones (h : Ones w n) : short? w = some n := by
  cases h with
  | word n hlt | literal n hlt => exact if_pos (Nat.lt_trans hlt (by decide))

theorem short?_of_teens (h : Teens w n) : short? w = some n := by
  cases h with
  | word n _ hlt => exact if_pos hlt
  | literal n _ hlt => exact if_pos (Nat.lt_trans hlt (by decide))

theorem run_double?_of_short (h : short? w = some n) (ws : List Word) :
    (reading double?).run (w :: ws) = some (n, ws) := by
  simp [reading_double?, h]

theorem run_double?_of_tens (hge : 20 ≤ v.value) (ws : List Word) :
    (reading double?).run (.numeral v :: ws) =
      (ifReads (reading ones?) (fun k => pure (v.value + k)) (pure v.value)).run
        (skipWord .dash ws) := by
  have hshort : short? (.numeral v) = none := if_neg (Nat.not_lt.2 hge)
  have htens : tens? (.numeral v) = some v.value := if_neg (Nat.not_lt.2 hge)
  simp [reading_double?, hshort, htens]

/-- A number below one hundred is read whole in front of words that it does not go on with. -/
theorem run_double?_of_double (h : Double us n) (hcut : ∀ w ∈ cut.head?, w.goesOn = false) :
    (reading double?).run (us ++ cut) = some (n, cut) := by
  cases h with
  | ones h => exact run_double?_of_short (short?_of_ones h) cut
  | dashed hv hw =>
    cases hv with
    | word v hge =>
      exact (run_double?_of_tens hge _).trans (run_ifReads_of_run (run_ones?_of_ones hw cut))
  | @joined _ w _ _ hv hw =>
    cases hv with
    | word v hge =>
      have hskip : skipWord .dash (w :: cut) = w :: cut := if_neg hw.ne_dash
      refine (run_double?_of_tens hge (w :: cut)).trans ?_
      rw [hskip]
      exact run_ifReads_of_run (run_ones?_of_ones hw cut)
  | tens h =>
    cases h with
    | word v hge =>
      have hskip : skipWord .dash cut = cut := by
        cases cut with
        | nil => rfl
        | cons w cut =>
          refine if_neg ?_
          rintro rfl
          cases hcut _ rfl
      refine (run_double?_of_tens hge cut).trans ?_
      rw [hskip]
      exact run_ifReads_of_none (run_ones?_eq_none hcut)
  | teens h => exact run_double?_of_short (short?_of_teens h) cut
  | literal m hge hlt =>
    have hshort : short? (.literal m) = some m.val := if_pos hlt
    exact run_double?_of_short hshort cut

theorem run_double?_eq_none (h : ∀ w ∈ ws.head?, w.goesOn = false) :
    (reading double?).run ws = none := by
  cases ws with
  | nil => exact run_reading_nil double?
  | cons w ws =>
    have hw := h w rfl
    cases w <;> first | rfl | cases hw

/-! ### Below one thousand -/

theorem run_belowHundred_of_double (h : Double us n) (hcut : ∀ w ∈ cut.head?, w.goesOn = false) :
    (belowHundred k).run (us ++ cut) = some (k * 100 + n, cut) := by
  simp [belowHundred, run_double?_of_double h hcut]

theorem run_hundreds?_and (h : Double us n) (hcut : ∀ w ∈ cut.head?, w.goesOn = false) (k : Nat) :
    (reading (hundreds? k)).run (.hundred :: .andWord :: us ++ cut) = some (k * 100 + n, cut) := by
  rw [reading_hundreds?]
  simp [run_ifReads, run_belowHundred_of_double h hcut]

theorem run_hundreds?_with (h : Double us n) (hcut : ∀ w ∈ cut.head?, w.goesOn = false) (k : Nat) :
    (reading (hundreds? k)).run (.hundred :: us ++ cut) = some (k * 100 + n, cut) := by
  have hand : (exactly .andWord).run (us ++ cut) = none := by
    obtain ⟨w, vs, rfl, hbegins, -⟩ := h.exists_cons
    refine run_exactly_eq_none_of_head? ?_
    rintro ⟨⟩
    cases hbegins
  rw [reading_hundreds?]
  simp [run_ifReads, hand, run_belowHundred_of_double h hcut]

theorem run_hundreds?_alone (hcut : ∀ w ∈ cut.head?, w.goesOn = false) (k : Nat) :
    (reading (hundreds? k)).run (.hundred :: cut) = some (k * 100, cut) := by
  have hand : (exactly .andWord).run cut = none :=
    run_exactly_eq_none_of_head? fun heq => by cases hcut _ heq
  rw [reading_hundreds?]
  simp [run_ifReads, hand, belowHundred, run_double?_eq_none hcut]

theorem run_hundreds?_eq_none_of_head? (h : ws.head? ≠ some .hundred) :
    (reading (hundreds? k)).run ws = none := by
  cases hrun : (reading (hundreds? k)).run ws with
  | none => rfl
  | some r =>
    obtain ⟨us, rfl⟩ := exists_of_run_hundreds? hrun
    exact absurd rfl h

theorem run_triple?_of_ones (hw : Ones w k) (h : (reading (hundreds? k)).run ws = some (n, cut)) :
    (reading triple?).run (w :: ws) = some (n, cut) := by
  rw [reading_triple?]
  simp [run_ones?_of_ones hw, h]

theorem run_triple?_of_hundred (h : (reading (hundreds? 1)).run (.hundred :: ws) = some (n, cut)) :
    (reading triple?).run (.hundred :: ws) = some (n, cut) := by
  have hones : (reading ones?).run (.hundred :: ws) = none := rfl
  rw [reading_triple?]
  simp [hones, h]

theorem run_bind_hundreds?_eq_none (h : Double us n) (hcut : ∀ w ∈ cut.head?, w.goesOn = false) :
    (do reading (hundreds? (← reading ones?)) : Reading Nat).run (us ++ cut) = none := by
  have hnone (v : Word) (ws : List Word) (hv : one? v = none) :
      (do reading (hundreds? (← reading ones?)) : Reading Nat).run (v :: ws) = none := by
    simp [reading_ones?, hv]
  cases h with
  | ones h =>
    have hhead : cut.head? ≠ some .hundred := fun heq => by cases hcut _ heq
    exact (run_bind_of_run (run_ones?_of_ones h cut)).trans (run_hundreds?_eq_none_of_head? hhead)
  | dashed hv _ | joined hv _ | tens hv =>
    cases hv with
    | word v hge => exact hnone _ _ (if_neg (by omega))
  | teens h =>
    cases h with
    | word v hge | literal v hge => exact hnone _ _ (if_neg (Nat.not_lt.2 hge))
  | literal m hge => exact hnone _ _ (if_neg (by omega))

theorem run_triple?_of_triple (h : Triple us n) (hcut : ∀ w ∈ cut.head?, w.goesOn = false) :
    (reading triple?).run (us ++ cut) = some (n, cut) := by
  cases h with
  | onesHundredAnd hw h => exact run_triple?_of_ones hw (run_hundreds?_and h hcut _)
  | onesHundredWith hw h => exact run_triple?_of_ones hw (run_hundreds?_with h hcut _)
  | onesHundred hw => exact run_triple?_of_ones hw (run_hundreds?_alone hcut _)
  | hundredAnd h => exact run_triple?_of_hundred (run_hundreds?_and h hcut 1)
  | hundredWith h => exact run_triple?_of_hundred (run_hundreds?_with h hcut 1)
  | hundred => exact run_triple?_of_hundred (run_hundreds?_alone hcut 1)
  | double h =>
    have hhundreds : (reading (hundreds? 1)).run (us ++ cut) = none := by
      obtain ⟨w, vs, rfl, -, hmultiplies⟩ := h.exists_cons
      refine run_hundreds?_eq_none_of_head? ?_
      rintro ⟨⟩
      cases hmultiplies
    rw [reading_triple?, run_orElse, run_bind_hundreds?_eq_none h hcut, Option.none_or, run_orElse,
      hhundreds, Option.none_or, run_orElse, run_double?_of_double h hcut]
    rfl
  | literal m hge hlt =>
    have hone : one? (.literal m) = none := if_neg (by omega)
    have hhundreds : (reading (hundreds? 1)).run (.literal m :: cut) = none := rfl
    have hshort : short? (.literal m) = none := if_neg (by omega)
    have hthree : threeDigits? (.literal m) = some m.val := if_pos ⟨hge, hlt⟩
    simp [reading_triple?, reading_ones?, reading_double?, hone, hhundreds, hshort, hthree, tens?]

end Number

theorem Grammar.Triple.lt {us : List Word} {n : Nat} (h : Triple us n) : n < 1000 := by
  have hrun : (reading Number.triple?).run (us ++ []) = some (n, []) :=
    Number.run_triple?_of_triple h (by simp)
  obtain ⟨_, hp⟩ := reads_iff.2 hrun
  exact Number.value_lt_of_triple? hp

end CasualDate
