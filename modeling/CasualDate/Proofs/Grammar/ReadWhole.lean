import CasualDate.Proofs.Grammar.BelowThousand

/-!
# How far numbers are read

A number of the grammar is read whole and with its exact value if a count can hold that value
(`Number.parse?_of_num`). If it is too large for a count, no more of it is read than stands in front
of one of its words for thousands or more, or nothing at all (`Number.isRead`). Both are one
induction: what is read of a number depends on what is read behind its first word for thousands or
more, and whether the two together can be counted with.
-/

namespace CasualDate

namespace Grammar

/-- What may follow a word for thousands or more: nothing, or a number. -/
inductive Addend : List Word → Nat → Prop where
  | nil : Addend [] 0
  | num {us : List Word} {n : Nat} (h : Num us n) : Addend us n
  | andNum {us : List Word} {n : Nat} (h : Num us n) : Addend (.andWord :: us) n

variable {us vs : List Word} {k n : Nat}

theorem Addend.num_tripleScale (h : Addend vs n) (hu : Triple us k) (s : Scale) :
    Num (us ++ .scale s :: vs) (k * s.value + n) := by
  cases h with
  | nil => exact .tripleScale s hu
  | num h => exact .tripleScaleWith s hu h
  | andNum h => exact .tripleScaleAnd s hu h

theorem Addend.num_scale (h : Addend vs n) (s : Scale) : Num (.scale s :: vs) (s.value + n) := by
  cases h with
  | nil => exact .scale s
  | num h => exact .scaleWith s h
  | andNum h => exact .scaleAnd s h

end Grammar

open Grammar Reading

namespace Number

variable {us vs ws cut rest : List Word} {n k : Nat} {s : Scale}

/-- A number below one thousand is read by itself, unless thousands of it are read. -/
theorem run_triple_append (h : Triple us k) (hcut : ∀ w ∈ cut.head?, w.goesOn = false) :
    (reading parse?).run (us ++ cut) = ((reading (scaled? k)).run cut).or (some (k, cut)) := by
  have htriple := run_triple?_of_triple h hcut
  have hscaled : (reading (scaled? 1)).run (us ++ cut) = none := by
    obtain ⟨w, vs, rfl, -, hscale⟩ := h.exists_cons
    cases hrun : (reading (scaled? 1)).run (w :: vs ++ cut) with
    | none => rfl
    | some r =>
      obtain ⟨s, ws, heq⟩ := exists_of_run_scaled? hrun
      exact absurd (List.cons.inj heq).1 (hscale s)
  rw [reading_parse?, run_orElse, run_bind_of_run htriple, run_orElse, hscaled, Option.none_or,
    run_orElse, htriple]
  rfl

/-! ### Behind a word for thousands or more -/

theorem run_addend_nil : addend.run [] = some (0, []) := by
  rw [addend, run_ifReads_of_none run_exactly_nil, run_ifReads_of_none (run_reading_nil parse?)]
  rfl

theorem run_addend_and (ws : List Word) : addend.run (.andWord :: ws) = (reading parse?).run ws := by
  have hand : (exactly .andWord).run (.andWord :: ws) = some ((), ws) := by simp
  rw [addend, run_ifReads_of_run hand]

theorem run_addend_of_run (hhead : ws.head? ≠ some .andWord)
    (h : (reading parse?).run ws = some (n, rest)) : addend.run ws = some (n, rest) := by
  rw [addend, run_ifReads_of_none (run_exactly_eq_none_of_head? hhead), run_ifReads_of_run h]
  rfl

theorem run_addend_of_none (hhead : ws.head? ≠ some .andWord)
    (h : (reading parse?).run ws = none) : addend.run ws = some (0, ws) := by
  rw [addend, run_ifReads_of_none (run_exactly_eq_none_of_head? hhead), run_ifReads_of_none h]
  rfl

theorem run_scaled?_of_lt (h : addend.run ws = some (n, rest))
    (hlt : k * s.value + n < Text.countLimit) :
    (reading (scaled? k)).run (.scale s :: ws) = some (k * s.value + n, rest) := by
  rw [run_scaled?_cons h, Text.count?, dif_pos hlt]
  rfl

theorem run_scaled?_of_le (h : addend.run ws = some (n, rest))
    (hle : Text.countLimit ≤ k * s.value + n) :
    (reading (scaled? k)).run (.scale s :: ws) = none := by
  rw [run_scaled?_cons h, Text.count?, dif_neg (Nat.not_lt.2 hle)]
  rfl

theorem run_scaled?_of_none (h : addend.run ws = none) (k : Nat) (s : Scale) :
    (reading (scaled? k)).run (.scale s :: ws) = none := by
  rw [reading_scaled?]
  simp [scale?, h]

/-- How far words that stand for the number are read: to their end, up to a word for thousands or
more, or not at all. -/
inductive IsRead (ws : List Word) (n : Nat) : Prop where
  | whole (hlt : n < Text.countLimit) (h : (reading parse?).run ws = some (n, []))
  | part {us vs : List Word} {s : Scale} {m : Nat} (hle : Text.countLimit ≤ n)
    (hws : ws = us ++ .scale s :: vs) (hus : Num us m)
    (h : (reading parse?).run ws = some (m, .scale s :: vs))
  | refused {s : Scale} {vs : List Word} (hle : Text.countLimit ≤ n) (hws : ws = .scale s :: vs)
    (h : (reading parse?).run ws = none)

/-- How far words behind a word for thousands or more are read, which add the number to it. -/
inductive IsAdded (ws : List Word) (n : Nat) : Prop where
  | whole (hlt : n < Text.countLimit) (h : addend.run ws = some (n, []))
  | part {us vs : List Word} {s : Scale} {m : Nat} (hle : Text.countLimit ≤ n)
    (hws : ws = us ++ .scale s :: vs) (hus : Addend us m)
    (h : addend.run ws = some (m, .scale s :: vs))
  | refused (hle : Text.countLimit ≤ n) (h : addend.run ws = none)

namespace IsAdded

theorem nil : IsAdded [] 0 :=
  .whole (by decide) run_addend_nil

theorem of_num (hnum : Num ws n) (h : IsRead ws n) : IsAdded ws n := by
  have hhead : ws.head? ≠ some .andWord := by
    obtain ⟨w, vs, rfl, hbegins⟩ := hnum.exists_cons
    rintro ⟨⟩
    cases hbegins
  cases h with
  | whole hlt h => exact .whole hlt (run_addend_of_run hhead h)
  | part hle hws hus h => exact .part hle hws (.num hus) (run_addend_of_run hhead h)
  | refused hle hws h =>
    -- nothing is added, and the words that are refused are left
    have hrun : addend.run ws = some (0, ws) := run_addend_of_none hhead h
    subst hws
    exact .part hle rfl .nil hrun

theorem of_and (h : IsRead ws n) : IsAdded (.andWord :: ws) n := by
  have hrun := run_addend_and ws
  cases h with
  | whole hlt h => exact .whole hlt (hrun.trans h)
  | part hle hws hus h => exact .part hle (congrArg (.andWord :: ·) hws) (.andNum hus) (hrun.trans h)
  | refused hle _ h => exact .refused hle (hrun.trans h)

theorem isRead_tripleScale (h : IsAdded vs n) (hu : Triple us k) (s : Scale) :
    IsRead (us ++ .scale s :: vs) (k * s.value + n) := by
  have hrun : (reading parse?).run (us ++ .scale s :: vs) =
      ((reading (scaled? k)).run (.scale s :: vs)).or (some (k, .scale s :: vs)) :=
    run_triple_append hu (by rintro _ ⟨⟩; rfl)
  -- where the thousands are refused, the number in front of them is read
  have hpart (hle : Text.countLimit ≤ k * s.value + n)
      (hnone : (reading (scaled? k)).run (.scale s :: vs) = none) :
      IsRead (us ++ .scale s :: vs) (k * s.value + n) :=
    .part hle rfl (.triple hu) (by rw [hrun, hnone]; rfl)
  cases h with
  | whole hlt h =>
    by_cases hsum : k * s.value + n < Text.countLimit
    · exact .whole hsum (by rw [hrun, run_scaled?_of_lt h hsum]; rfl)
    · exact hpart (Nat.not_lt.1 hsum) (run_scaled?_of_le h (Nat.not_lt.1 hsum))
  | @part us' vs' s' m hle hws hus h =>
    have hle' : Text.countLimit ≤ k * s.value + n := Nat.le_add_left_of_le hle
    by_cases hsum : k * s.value + m < Text.countLimit
    · have hws' : us ++ .scale s :: vs = us ++ .scale s :: us' ++ .scale s' :: vs' := by
        rw [hws, List.append_assoc]
        rfl
      exact .part hle' hws' (hus.num_tripleScale hu s) (by rw [hrun, run_scaled?_of_lt h hsum]; rfl)
    · exact hpart hle' (run_scaled?_of_le h (Nat.not_lt.1 hsum))
  | refused hle h => exact hpart (Nat.le_add_left_of_le hle) (run_scaled?_of_none h k s)

theorem isRead_scale (h : IsAdded vs n) (s : Scale) : IsRead (.scale s :: vs) (s.value + n) := by
  have hrun := run_scale_cons s vs
  have hlt_of (m : Nat) (hsum : s.value + m < Text.countLimit) :
      1 * s.value + m < Text.countLimit := by
    rwa [Nat.one_mul]
  have hle_of (m : Nat) (hsum : ¬ s.value + m < Text.countLimit) :
      Text.countLimit ≤ 1 * s.value + m := by
    rw [Nat.one_mul]
    exact Nat.not_lt.1 hsum
  cases h with
  | whole hlt h =>
    by_cases hsum : s.value + n < Text.countLimit
    · exact .whole hsum (by rw [hrun, run_scaled?_of_lt h (hlt_of n hsum), Nat.one_mul])
    · exact .refused (Nat.not_lt.1 hsum) rfl (hrun.trans (run_scaled?_of_le h (hle_of n hsum)))
  | @part us' vs' s' m hle hws hus h =>
    have hle' : Text.countLimit ≤ s.value + n := Nat.le_add_left_of_le hle
    by_cases hsum : s.value + m < Text.countLimit
    · exact .part hle' (congrArg (.scale s :: ·) hws) (hus.num_scale s)
        (by rw [hrun, run_scaled?_of_lt h (hlt_of m hsum), Nat.one_mul])
    · exact .refused hle' rfl (hrun.trans (run_scaled?_of_le h (hle_of m hsum)))
  | refused hle h =>
    exact .refused (Nat.le_add_left_of_le hle) rfl (hrun.trans (run_scaled?_of_none h 1 s))

end IsAdded

theorem isRead (h : Num ws n) : IsRead ws n := by
  induction h with
  | tripleScaleAnd s hu hv ih => exact (IsAdded.of_and ih).isRead_tripleScale hu s
  | tripleScaleWith s hu hv ih => exact (IsAdded.of_num hv ih).isRead_tripleScale hu s
  | tripleScale s hu => exact IsAdded.nil.isRead_tripleScale hu s
  | scaleAnd s hv ih => exact (IsAdded.of_and ih).isRead_scale s
  | scaleWith s hv ih => exact (IsAdded.of_num hv ih).isRead_scale s
  | scale s => exact IsAdded.nil.isRead_scale s
  | @triple us k hu =>
    refine .whole (Nat.lt_trans hu.lt (by decide)) ?_
    have hrun : (reading parse?).run (us ++ []) = ((reading (scaled? k)).run []).or (some (k, [])) :=
      run_triple_append hu (by simp)
    rw [List.append_nil] at hrun
    rw [hrun, run_reading_nil]
    rfl
  | literal n hge =>
    have hscaled : (reading (scaled? 1)).run [.literal n] = none :=
      run_reading_eq_none.2 (scaled?_eq_none (by simp [Word.multiplies]))
    have hmany : manyDigits? (.literal n) = some n.val := if_pos hge
    refine .whole n.isLt ?_
    simp [reading_parse?, run_triple?_of_manyDigits? hmany, hscaled, hmany]

/-- A number that a count can hold is read whole and exactly. -/
theorem run_of_num (h : Num ws n) (hlt : n < Text.countLimit) :
    (reading parse?).run ws = some (n, []) := by
  cases isRead h with
  | whole _ h => exact h
  | part hle | refused hle => exact absurd hlt (Nat.not_lt.2 hle)

/-- What is added and multiplied in reading numbers is computed as it is in 32 bits: without a check
nothing comes to one thousand, and what is checked stays below the bound of counts. -/
structure FitsCounts (ws : List Word) : Prop where
  ones : ∀ p, ones? ws = some p → p.value < 10
  double : ∀ p, double? ws = some p → p.value < 100
  hundreds : ∀ k < 10, ∀ p, hundreds? k ws = some p → p.value < 1000
  triple : ∀ p, triple? ws = some p → p.value < 1000
  scaled : ∀ k s vs, ws = .scale s :: vs → ∀ p, scaled? k ws = some p →
    k * s.value ≤ p.value ∧ p.value < Text.countLimit
  number : ∀ p, parse? ws = some p → p.value < Text.countLimit

theorem mul_le_of_run_scaled? (h : (reading (scaled? k)).run (.scale s :: ws) = some (n, rest)) :
    k * s.value ≤ n := by
  cases hadd : addend.run ws with
  | none =>
    rw [run_scaled?_of_none hadd] at h
    cases h
  | some r =>
    by_cases hsum : k * s.value + r.1 < Text.countLimit
    · rw [run_scaled?_of_lt hadd hsum] at h
      cases h
      exact Nat.le_add_right ..
    · rw [run_scaled?_of_le hadd (Nat.not_lt.1 hsum)] at h
      cases h

theorem fitsCounts (ws : List Word) : FitsCounts ws where
  ones _ hp := value_lt_of_ones? hp
  double _ hp := value_lt_of_double? hp
  hundreds _ hk _ hp := value_lt_of_hundreds? hk hp
  triple _ hp := value_lt_of_triple? hp
  scaled k s vs hws p hp := by
    subst hws
    exact ⟨mul_le_of_run_scaled? (reads_iff.1 (.of_eq hp)), value_lt_of_scaled? hp⟩
  number _ hp := value_lt_of_parse? hp

/-- A number of the grammar that a count can hold is read whole, with its exact value, in front of
any word that is in no number, and nothing is computed on the way that a count cannot hold. -/
theorem parse?_of_num (h : Num ws n) (hlt : n < Text.countLimit)
    (hcut : ∀ w ∈ cut.head?, w.isInNumber = false) :
    (∃ p, parse? (ws ++ cut) = some p ∧ p.value = n ∧ p.consumed = ws.length ∧ p.rest = cut) ∧
      ∀ us, us <:+ ws ++ cut → FitsCounts us := by
  refine ⟨?_, fun us _ => fitsCounts us⟩
  have hrun : (reading parse?).run (ws ++ cut) = some (n, cut) := by
    rw [looksFor.run_append hcut, run_of_num h hlt]
    rfl
  obtain ⟨hshorter, hp⟩ := reads_iff.2 hrun
  refine ⟨_, hp, rfl, ?_, rfl⟩
  rw [Parsed.consumed, List.length_append, Nat.add_sub_cancel]

/-- "three billion and two hundred and forty-five million 7 thousand minutes ago" -/
theorem parse?_threeBillion :
    let ws : List Word := [.numeral .three, .scale .billion, .andWord, .numeral .two, .hundred,
      .andWord, .numeral .forty, .dash, .numeral .five, .scale .million,
      .literal ⟨7, by decide⟩, .scale .thousand]
    let cut : List Word := [.unit .minute, .agoWord]
    Num ws 3245007000 ∧ 3245007000 < Text.countLimit ∧ (∀ w ∈ cut.head?, w.isInNumber = false) ∧
      (∃ p, parse? (ws ++ cut) = some p ∧ p.value = 3245007000 ∧ p.consumed = ws.length ∧
        p.rest = cut) ∧
      ∀ us, us <:+ ws ++ cut → FitsCounts us := by
  intro ws cut
  have hthousands : Num [.literal ⟨7, by decide⟩, .scale .thousand] 7000 :=
    .tripleScale .thousand (.double (.ones (.literal _ (by decide))))
  have hmillions : Num (ws.drop 3) 245007000 :=
    .tripleScaleWith .million (.onesHundredAnd (.word .two (by decide))
      (.dashed (.word .forty (by decide)) (.word .five (by decide)))) hthousands
  have hws : Num ws 3245007000 :=
    .tripleScaleAnd .billion (.double (.ones (.word .three (by decide)))) hmillions
  have hcut : ∀ w ∈ cut.head?, w.isInNumber = false := by decide
  exact ⟨hws, by decide, hcut, parse?_of_num hws (by decide) hcut⟩

end Number

end CasualDate
