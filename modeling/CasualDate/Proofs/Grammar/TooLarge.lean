import CasualDate.Proofs.Finder.Unaided
import CasualDate.Proofs.Grammar.ReadWhole

/-!
# Numbers that are too large

A number of the grammar that no count can hold is refused only where the sum that is too large is
formed behind a word for thousands or more with nothing in front of it, or with nothing but other
such words, each with "and" behind it (`Number.run_eq_none_iff`). Otherwise a smaller number is read
(`Number.isRead`); the word for thousands or more that it leaves keeps the whole from being read as
a duration.
-/

namespace CasualDate

open Grammar Reading

namespace Number

/-- Behind words for thousands or more, each followed by "and", stands another one that is too large
for a count together with the number read behind it. -/
inductive Overflows : List Word → Prop where
  | sum {s : Scale} {vs rest : List Word} {m : Nat}
    (h : Reads parse? (skipWord .andWord vs) m rest) (hle : Text.countLimit ≤ s.value + m) :
    Overflows (.scale s :: vs)
  | behindAnd (s : Scale) {vs : List Word} (h : Overflows vs) : Overflows (.scale s :: .andWord :: vs)

variable {us vs ws cut rest : List Word} {k m n : Nat} {s : Scale}

theorem run_addend_of_skipWord (h : (reading parse?).run (skipWord .andWord vs) = some (m, rest)) :
    addend.run vs = some (m, rest) := by
  cases vs with
  | nil =>
    rw [skipWord, run_reading_nil] at h
    cases h
  | cons w ws =>
    rw [skipWord] at h
    split at h
    · next hand =>
      rw [hand]
      exact (run_addend_and ws).trans h
    · next hand => exact run_addend_of_run (fun heq => hand (Option.some.inj heq)) h

theorem Overflows.run_eq_none (h : Overflows ws) : (reading parse?).run ws = none := by
  induction h with
  | @sum s vs rest m h hle =>
    have hadd := run_addend_of_skipWord (reads_iff.1 h)
    exact (run_scale_cons s vs).trans (run_scaled?_of_le hadd (by rwa [Nat.one_mul]))
  | @behindAnd s vs h ih =>
    have hadd : addend.run (.andWord :: vs) = none := (run_addend_and vs).trans ih
    exact (run_scale_cons s _).trans (run_scaled?_of_none hadd 1 s)

theorem le_of_run_scale_eq_none (h : (reading parse?).run (.scale s :: vs) = none)
    (hadd : addend.run vs = some (m, rest)) : Text.countLimit ≤ s.value + m := by
  by_contra hsum
  have hrun : (reading (scaled? 1)).run (.scale s :: vs) = some (1 * s.value + m, rest) :=
    run_scaled?_of_lt hadd (by rw [Nat.one_mul]; exact Nat.not_le.1 hsum)
  rw [run_scale_cons, hrun] at h
  cases h

theorem run_triple_append_ne_none (hu : Triple us k) (s : Scale) (vs : List Word) :
    (reading parse?).run (us ++ .scale s :: vs) ≠ none := by
  intro h
  rw [run_triple_append hu (by rintro _ ⟨⟩; rfl)] at h
  cases (Option.or_eq_none_iff.1 h).2

theorem overflows_of_run_eq_none (hws : Num ws n) (h : (reading parse?).run ws = none) :
    Overflows ws := by
  induction hws with
  | tripleScaleAnd s hu | tripleScaleWith s hu | tripleScale s hu =>
    exact absurd h (run_triple_append_ne_none hu s _)
  | @scaleAnd vs n s hv ih =>
    cases hrun : (reading parse?).run vs with
    | none => exact .behindAnd s (ih hrun)
    | some r =>
      exact .sum (reads_iff.2 hrun) (le_of_run_scale_eq_none h ((run_addend_and vs).trans hrun))
  | @scaleWith vs n s hv ih =>
    obtain ⟨w, vs, rfl, hbegins⟩ := hv.exists_cons
    have hand : w ≠ .andWord := by
      rintro rfl
      cases hbegins
    have hhead : (w :: vs).head? ≠ some .andWord := fun heq => hand (Option.some.inj heq)
    cases hrun : (reading parse?).run (w :: vs) with
    | none =>
      have hle := le_of_run_scale_eq_none h (run_addend_of_none hhead hrun)
      cases s <;> exact absurd hle (by decide)
    | some r =>
      have hskip : skipWord .andWord (w :: vs) = w :: vs := if_neg hand
      exact .sum (hskip ▸ reads_iff.2 hrun) (le_of_run_scale_eq_none h (run_addend_of_run hhead hrun))
  | scale s =>
    have hle := le_of_run_scale_eq_none h run_addend_nil
    cases s <;> exact absurd hle (by decide)
  | triple hu =>
    rw [run_of_num (.triple hu) (Nat.lt_trans hu.lt (by decide))] at h
    cases h
  | literal n hge =>
    rw [run_of_num (.literal n hge) n.isLt] at h
    cases h

theorem run_eq_none_iff (h : Num ws n) : (reading parse?).run ws = none ↔ Overflows ws :=
  ⟨overflows_of_run_eq_none h, Overflows.run_eq_none⟩

/-- What is read of a number that is too large for a count is the number in front of one of its
words for thousands or more. -/
theorem exists_of_run_tooLarge (h : Num ws n) (hle : Text.countLimit ≤ n)
    (hcut : ∀ w ∈ cut.head?, w.isInNumber = false)
    (hrun : (reading parse?).run (ws ++ cut) = some (m, rest)) :
    ∃ us s vs, ws = us ++ .scale s :: vs ∧ Num us m ∧ rest = .scale s :: vs ++ cut := by
  rw [looksFor.run_append hcut] at hrun
  obtain ⟨⟨_, left⟩, hleft, heq⟩ := Option.map_eq_some_iff.1 hrun
  cases heq
  cases isRead h with
  | whole hlt => exact absurd hlt (Nat.not_lt.2 hle)
  | part _ hws hus hread =>
    cases hleft.symm.trans hread
    exact ⟨_, _, _, hws, hus, rfl⟩
  | refused _ _ hnone =>
    rw [hnone] at hleft
    cases hleft

theorem run_part?_of_tooLarge (h : Num ws n) (hle : Text.countLimit ≤ n)
    (hcut : ∀ w ∈ cut.head?, w.isInNumber = false) :
    (reading Duration.part?).run (ws ++ cut) = none := by
  obtain ⟨w, vs, rfl, hbegins⟩ := h.exists_cons
  have harticle : Duration.article? w = none := by cases w <;> first | rfl | cases hbegins
  rw [Duration.reading_part?, run_orElse]
  cases hrun : (reading parse?).run (w :: vs ++ cut) with
  | none =>
    rw [List.cons_append] at hrun
    simp [hrun, harticle]
  | some r =>
    -- the word for thousands or more that is left is no unit
    obtain ⟨_, s, left, -, -, hrest⟩ := exists_of_run_tooLarge h hle hcut hrun
    rw [List.cons_append] at hrun
    simp [hrun, hrest, harticle, Duration.unit?]

/-- A number of the grammar that is too large for a count is refused in front of a unit exactly if
a sum is too large before any part of the number stands by itself. Otherwise a smaller one is read,
the number in front of one of its words for thousands or more. Either way no duration begins there. -/
theorem parse?_of_tooLarge (h : Num ws n) (hle : Text.countLimit ≤ n) (u : TimeUnit)
    (cut : List Word) :
    (parse? (ws ++ .unit u :: cut) = none ↔ Overflows ws) ∧
    (∀ p, parse? (ws ++ .unit u :: cut) = some p → p.value < n ∧
      ∃ us s vs, ws = us ++ .scale s :: vs ∧ Num us p.value ∧
        p.rest = .scale s :: vs ++ .unit u :: cut) ∧
    Duration.parse? (ws ++ .unit u :: cut) = none := by
  have hcut : ∀ w ∈ (Word.unit u :: cut).head?, w.isInNumber = false := by
    rintro _ ⟨⟩
    rfl
  refine ⟨?_, fun p hp => ⟨Nat.lt_of_lt_of_le (value_lt_of_parse? hp) hle,
    exists_of_run_tooLarge h hle hcut (reads_iff.1 (.of_eq hp))⟩, ?_⟩
  · rw [← run_reading_eq_none, looksFor.run_append hcut, Option.map_eq_none_iff]
    exact run_eq_none_iff h
  · rw [← run_reading_eq_none, Duration.reading_parse?]
    simp [run_part?_of_tooLarge h hle hcut]

/-- "million and billion four billion minutes" -/
theorem parse?_billionFourBillion :
    let ws : List Word :=
      [.scale .million, .andWord, .scale .billion, .numeral .four, .scale .billion]
    Num ws 5001000000 ∧ Text.countLimit ≤ 5001000000 ∧
      (parse? (ws ++ [.unit .minute]) = none ↔ Overflows ws) ∧
      (∀ p, parse? (ws ++ [.unit .minute]) = some p → p.value < 5001000000 ∧
        ∃ us s vs, ws = us ++ .scale s :: vs ∧ Num us p.value ∧
          p.rest = .scale s :: vs ++ [.unit .minute]) ∧
      Duration.parse? (ws ++ [.unit .minute]) = none ∧ Overflows ws := by
  intro ws
  have hfour : Num [.numeral .four, .scale .billion] 4000000000 :=
    .tripleScale .billion (.double (.ones (.word .four (by decide))))
  have hws : Num ws 5001000000 := .scaleAnd .million (.scaleWith .billion hfour)
  have hoverflows : Overflows ws :=
    .behindAnd .million (.sum (reads_iff.2 (run_of_num hfour (by decide))) (by decide))
  obtain ⟨hnone, hpart, hduration⟩ := parse?_of_tooLarge hws (by decide) .minute []
  exact ⟨hws, by decide, hnone, hpart, hduration, hoverflows⟩

/-- Of "five billion minutes" five is read, which becomes the hour in "today five billion minutes". -/
theorem parse?_fiveBillion :
    let ws : List Word := [.numeral .five, .scale .billion]
    let now : Instant := ⟨⟨738993, by decide, by decide⟩, .midnight⟩
    Num ws 5000000000 ∧ Text.countLimit ≤ 5000000000 ∧
      (∃ p, parse? (ws ++ [.unit .minute]) = some p ∧ p.value = 5 ∧ p.consumed = 1) ∧
      ((Finder.mk []).find { text := "today five billion minutes", reference := now, now }).map
        (List.map (·.text)) = .ok ["today five"] := by
  intro ws now
  have hws : Num ws 5000000000 := .tripleScale .billion (.double (.ones (.word .five (by decide))))
  obtain ⟨hshorter, hp⟩ : Reads parse? (ws ++ [.unit .minute]) 5 [.scale .billion, .unit .minute] :=
    .of_map (by decide +kernel)
  refine ⟨hws, by decide, ⟨_, hp, rfl, rfl⟩, ?_⟩
  rw [Finder.find_unaided]
  decide +kernel

end Number

end CasualDate
