import CasualDate.Proofs.Grammar.Derives

/-!
# Numbers are sentences

What is read as a number is a sentence of the grammar for the value that is read, as far as no mark
dangles (`Number.derives`). Tens take a dash before it is known whether ones follow, so there the words
in front of the dash are looked at as well (`Number.derives_tensThen`).
-/

namespace CasualDate

open Grammar Reading

namespace Number

variable {ws : List Word} {k n : Nat} {w : Word}

theorem ones_of_one? (h : one? w = some n) : Ones w n := by
  cases w with
  | literal m | numeral m =>
    obtain ⟨hlt, h⟩ := Option.ite_none_right_eq_some.1 h
    obtain rfl := Option.some.inj h
    constructor
    exact hlt
  | _ => cases h

theorem double_of_short? (h : short? w = some n) : Double [w] n := by
  cases w with
  | literal m =>
    obtain ⟨hlt, h⟩ := Option.ite_none_right_eq_some.1 h
    obtain rfl := Option.some.inj h
    by_cases hones : m.val < 10
    · exact .ones (.literal m hones)
    · by_cases hteens : m.val < 20
      · exact .teens (.literal m (Nat.not_lt.1 hones) hteens)
      · exact .literal m (Nat.not_lt.1 hteens) hlt
  | numeral m =>
    obtain ⟨hlt, h⟩ := Option.ite_none_right_eq_some.1 h
    obtain rfl := Option.some.inj h
    by_cases hones : m.value < 10
    · exact .ones (.word m hones)
    · exact .teens (.word m (Nat.not_lt.1 hones) hlt)
  | _ => cases h

theorem derives_ones? : Derives (reading ones?) (fun n us _ => ∃ w, us = [w] ∧ Ones w n) ws := by
  rw [reading_ones?]
  exact .word fun w n _ hw => ⟨w, rfl, ones_of_one? hw⟩

theorem one?_eq_none_of_run {rest : List Word} (h : (reading ones?).run (w :: rest) = none) :
    one? w = none := by
  rw [reading_ones?, run_word_cons] at h
  exact Option.map_eq_none_iff.1 h

/-- Tens and what is taken with them: a dash that is taken alone dangles. -/
theorem derives_tensThen {v : Numeral} {m : Nat} {rest : List Word} (hge : 20 ≤ v.value)
    (hrun : (do
      skip .dash
      ifReads (reading ones?) (fun k => pure (v.value + k)) (pure v.value) : Reading Nat).run ws =
        some (m, rest)) :
    ∃ us, ws = us ++ rest ∧ ∀ next, next <+: rest → Joined (.numeral v :: us ++ next) →
      Double (.numeral v :: us) m := by
  obtain ⟨ds, hds, hws⟩ := exists_append_skipWord .dash ws
  rw [StateT.run_bind, run_skip, Option.bind_eq_bind, Option.bind_some, run_ifReads] at hrun
  split at hrun
  · next k back hk =>
    cases hrun
    rw [reading_ones?] at hk
    obtain ⟨w, hback, hw⟩ := exists_of_run_word hk
    have hw := ones_of_one? hw
    refine ⟨ds ++ [w], ?_, fun next _ _ => ?_⟩
    · rw [List.append_assoc, List.singleton_append, ← hback, ← hws]
    · rcases hds with rfl | rfl
      · exact .joined (.word v hge) hw
      · exact .dashed (.word v hge) hw
  · next hnone =>
    cases hrun
    refine ⟨ds, hws, fun next hnext hjoined => ?_⟩
    rcases hds with rfl | rfl
    · exact .tens (.word v hge)
    · have hdangles := hjoined _ (List.suffix_refl _)
      cases next with
      | nil => simp [Word.dangles, hge] at hdangles
      | cons w next =>
        obtain ⟨back, hback⟩ := hnext
        rw [← hback] at hnone
        simp [Word.dangles, hge, one?_eq_none_of_run hnone] at hdangles

theorem derives_double? : Derives (reading double?) (fun n us _ => Double us n) ws := by
  rw [reading_double?]
  refine .orElse (.word fun w n _ hw => double_of_short? hw) fun m rest hrun => ?_
  rw [StateT.run_bind] at hrun
  obtain ⟨⟨n, mid⟩, hn, hrun⟩ := Option.bind_eq_some_iff.1 hrun
  obtain ⟨w, rfl, hw⟩ := exists_of_run_word hn
  cases w with
  | numeral v =>
    obtain ⟨hge, hw⟩ := Option.ite_none_left_eq_some.1 hw
    obtain rfl := Option.some.inj hw
    obtain ⟨us, rfl, hus⟩ := derives_tensThen (Nat.not_lt.1 hge) hrun
    exact ⟨.numeral v :: us, rfl, hus⟩
  | _ => cases hw

theorem derives_belowHundred (k : Nat) :
    Derives (belowHundred k) (fun n us _ => ∃ m, n = k * 100 + m ∧ Double us m) ws := by
  refine .bind derives_double? fun m _ _ us => .pure fun hm => ?_
  rw [List.append_nil]
  exact ⟨m, rfl, hm⟩

theorem derives_hundreds? (k : Nat) : Derives (reading (hundreds? k))
    (fun n us _ => (∀ w, Ones w k → Triple (w :: us) n) ∧ (k = 1 → Triple us n)) ws := by
  rw [reading_hundreds?]
  refine .bind .exactly fun _ _ _ us => .ifReads .exactly
    (fun _ _ _ vs => (derives_belowHundred k).mono ?_)
    (.orElse ((derives_belowHundred k).mono ?_) (.pure ?_))
  · rintro n zs - ⟨m, rfl, hm⟩ rfl rfl
    refine ⟨fun w hw => .onesHundredAnd hw hm, ?_⟩
    rintro rfl
    exact .hundredAnd hm
  · rintro n zs - ⟨m, rfl, hm⟩ rfl
    refine ⟨fun w hw => .onesHundredWith hw hm, ?_⟩
    rintro rfl
    exact .hundredWith hm
  · rintro rfl
    refine ⟨fun w hw => .onesHundred hw, ?_⟩
    rintro rfl
    exact .hundred

theorem derives_triple? : Derives (reading triple?) (fun n us _ => Triple us n) ws := by
  rw [reading_triple?]
  refine .orElse (.bind derives_ones? fun k _ _ us => (derives_hundreds? k).mono ?_)
    (.orElse ((derives_hundreds? 1).mono fun n us _ h => h.2 rfl)
      (.orElse (derives_double?.mono fun n us _ h => .double h) (.word fun w n _ hw => ?_)))
  · rintro n vs - ⟨h, -⟩ ⟨w, rfl, hw⟩
    exact h w hw
  · cases w with
    | literal m =>
      obtain ⟨⟨hge, hlt⟩, hw⟩ := Option.ite_none_right_eq_some.1 hw
      obtain rfl := Option.some.inj hw
      exact .literal m hge hlt
    | _ => cases hw

theorem count_val_of_map (h : (Text.count? k).map (·.val) = some n) : n = k := by
  obtain ⟨c, hc, rfl⟩ := Option.map_eq_some_iff.1 h
  obtain ⟨hlt, hc⟩ := Option.dite_none_right_eq_some.1 hc
  exact (congrArg Fin.val (Option.some.inj hc)).symm

theorem derives_addend
    (ih : ∀ us : List Word, us.length ≤ ws.length →
      Derives (reading parse?) (fun n us _ => Num us n) us) :
    Derives addend
      (fun n us _ => us = [] ∧ n = 0 ∨ Num us n ∨ ∃ vs, us = .andWord :: vs ∧ Num vs n) ws := by
  refine .ifReads .exactly (fun _ rest hand us => (ih rest ?_).mono ?_)
    (.ifReads (ih ws (Nat.le_refl _)) (fun n _ _ us => .pure fun hn => ?_) (.pure (.inl ⟨rfl, rfl⟩)))
  · exact Nat.le_of_lt (length_lt_of_run_word hand)
  · rintro n vs - hn rfl
    exact .inr (.inr ⟨vs, rfl, hn⟩)
  · rw [List.append_nil]
    exact .inr (.inl hn)

theorem derives_scaled? (k : Nat)
    (ih : ∀ us : List Word, us.length < ws.length →
      Derives (reading parse?) (fun n us _ => Num us n) us) :
    Derives (reading (scaled? k))
      (fun n us _ => (∀ vs, Triple vs k → Num (vs ++ us) n) ∧ (k = 1 → Num us n)) ws := by
  rw [reading_scaled?]
  refine .bind (S := fun s us _ => us = [.scale s]) (.word fun w s _ hw => ?_) fun s rest hs us =>
    .bind (derives_addend fun us hus => ih us ?_) fun m _ _ vs => .option fun n hn => ?_
  · cases w <;> cases hw
    rfl
  · exact Nat.lt_of_le_of_lt hus (length_lt_of_run_word hs)
  · obtain rfl := count_val_of_map hn
    rw [List.append_nil]
    rintro (⟨rfl, rfl⟩ | hm | ⟨zs, rfl, hm⟩) rfl
    · refine ⟨fun ys hys => .tripleScale s hys, ?_⟩
      rintro rfl
      rw [Nat.one_mul]
      exact .scale s
    · refine ⟨fun ys hys => .tripleScaleWith s hys hm, ?_⟩
      rintro rfl
      rw [Nat.one_mul]
      exact .scaleWith s hm
    · refine ⟨fun ys hys => .tripleScaleAnd s hys hm, ?_⟩
      rintro rfl
      rw [Nat.one_mul]
      exact .scaleAnd s hm

theorem derives : Derives (reading parse?) (fun n us _ => Num us n) ws := by
  induction hn : ws.length using Nat.strongRecOn generalizing ws with
  | ind n ih =>
    subst hn
    have ih (us : List Word) (hlt : us.length < ws.length) :
        Derives (reading parse?) (fun n us _ => Num us n) us :=
      ih us.length hlt rfl
    rw [reading_parse?]
    refine .orElse (.bind derives_triple? fun k rest hk us => ?_)
      (.orElse ((derives_scaled? 1 ih).mono fun n us _ h => h.2 rfl)
        (.orElse (derives_triple?.mono fun n us _ h => .triple h) (.word fun w n _ hw => ?_)))
    · refine (derives_scaled? k fun us hus => ih us ?_).mono fun n vs _ h hu => h.1 us hu
      have := length_lt_of_run_reading hk
      omega
    · cases w with
      | literal m =>
        obtain ⟨hge, hw⟩ := Option.ite_none_right_eq_some.1 hw
        obtain rfl := Option.some.inj hw
        exact .literal m hge
      | _ => cases hw

end Number

end CasualDate
