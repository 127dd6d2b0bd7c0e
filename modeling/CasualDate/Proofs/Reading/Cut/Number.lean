import CasualDate.Proofs.Reading.LooksFor

/-!
# Numbers with the words behind them cut off

What is read in front of further words `cut` is read without them as well (`Number.run_of_append`),
although a reader may look into `cut` before it leaves it. Where it does so, it makes an attempt that
begins in front of `cut` and fails. `Number.Ends` says that such an attempt fails without `cut` too;
it holds at the end of the words, at a word that begins no number, and where a number begins that
itself ends so (`Number.Ends.of_run`).
-/

namespace CasualDate

variable {α β : Type} {ws mid cut : List Word} {w : Word} {p : Word → Bool}

theorem skipWord_of_append (h : skipWord w (ws ++ cut) = mid ++ cut) : skipWord w ws = mid := by
  cases ws with
  | nil =>
    have hle := length_skipWord_le w cut
    rw [List.nil_append] at h
    rw [h, List.length_append] at hle
    exact (List.eq_nil_of_length_eq_zero (by omega)).symm
  | cons v ws =>
    rw [List.cons_append, skipWord] at h
    rw [skipWord]
    split at h
    · next hv => rw [if_pos hv, List.append_cancel_right h]
    · next hv =>
      rw [← List.cons_append] at h
      rw [if_neg hv, List.append_cancel_right h]

namespace Reading

variable {f : Reading α} {g : α → Reading β} {h : Reading β} {a b' : α} {b : β}

theorem run_pure_append (hrun : (pure a : Reading α).run (ws ++ cut) = some (b', mid ++ cut)) :
    ws = mid ∧ a = b' := by
  obtain ⟨rfl, heq⟩ := Prod.mk.inj (Option.some.inj hrun)
  exact ⟨List.append_cancel_right heq, rfl⟩

theorem run_pure_of_append (hrun : (pure a : Reading α).run (ws ++ cut) = some (b', mid ++ cut)) :
    (pure a : Reading α).run ws = some (b', mid) := by
  obtain ⟨rfl, rfl⟩ := run_pure_append hrun
  rfl

theorem run_option_append {o : Option α} (hrun : (option o).run (ws ++ cut) = some (a, mid ++ cut)) :
    ws = mid ∧ o = some a := by
  rw [run_option] at hrun
  obtain ⟨b, ho, heq⟩ := Option.map_eq_some_iff.1 hrun
  obtain ⟨rfl, hws⟩ := Prod.mk.inj heq
  exact ⟨List.append_cancel_right hws, ho⟩

theorem run_skip_of_append {u : Unit} (hrun : (skip w).run (ws ++ cut) = some (u, mid ++ cut)) :
    (skip w).run ws = some (u, mid) := by
  rw [run_skip] at hrun ⊢
  rw [skipWord_of_append (Prod.mk.inj (Option.some.inj hrun)).2]

theorem exists_of_run_word_append {f : Word → Option α}
    (hrun : (word f).run (ws ++ cut) = some (a, mid ++ cut)) : ∃ w, ws = w :: mid ∧ f w = some a := by
  obtain ⟨w, hws, hw⟩ := exists_of_run_word hrun
  rw [← List.cons_append] at hws
  exact ⟨w, List.append_cancel_right hws, hw⟩

theorem run_word_of_append {f : Word → Option α}
    (hrun : (word f).run (ws ++ cut) = some (a, mid ++ cut)) : (word f).run ws = some (a, mid) := by
  obtain ⟨w, rfl, hw⟩ := exists_of_run_word_append hrun
  simp [hw]

theorem run_word_append {f : Word → Option α} (hrun : (word f).run ws = some (a, mid))
    (cut : List Word) : (word f).run (ws ++ cut) = some (a, mid ++ cut) := by
  obtain ⟨w, rfl, hw⟩ := exists_of_run_word hrun
  simp [hw]

theorem run_word_eq_none_of_append {f : Word → Option α} (hrun : (word f).run (ws ++ cut) = none) :
    (word f).run ws = none := by
  cases ws with
  | nil => rfl
  | cons w ws => simpa using hrun

theorem run_exactly_of_append {u : Unit}
    (hrun : (exactly w).run (ws ++ cut) = some (u, mid ++ cut)) :
    (exactly w).run ws = some (u, mid) :=
  run_word_of_append hrun

theorem run_exactly_eq_none_of_append (hrun : (exactly w).run (ws ++ cut) = none) :
    (exactly w).run ws = none :=
  run_word_eq_none_of_append hrun

theorem exists_of_run_bind_append (hg : ∀ a rest, f.run (ws ++ cut) = some (a, rest) → LooksFor p (g a) rest)
    (hrun : (f >>= g).run (ws ++ cut) = some (b, mid ++ cut)) :
    ∃ a us, f.run (ws ++ cut) = some (a, us ++ cut) ∧
      (g a).run (us ++ cut) = some (b, mid ++ cut) := by
  rw [StateT.run_bind] at hrun
  obtain ⟨⟨a, rest⟩, hf, hrun⟩ := Option.bind_eq_some_iff.1 hrun
  obtain ⟨front, rfl⟩ := (hg a rest hf).suffix hrun
  rw [← List.append_assoc] at hf hrun
  exact ⟨a, front ++ mid, hf, hrun⟩

theorem run_bind_of_run (hf : f.run ws = some (a, mid)) : (f >>= g).run ws = (g a).run mid := by
  simp [hf]

theorem run_ifReads_of_run (hf : f.run ws = some (a, mid)) :
    (ifReads f g h).run ws = (g a).run mid := by
  simp [run_ifReads, hf]

theorem run_ifReads_of_none (hf : f.run ws = none) : (ifReads f g h).run ws = h.run ws := by
  simp [run_ifReads, hf]

theorem or_of_run_ifReads_append (hg : ∀ a rest, f.run (ws ++ cut) = some (a, rest) → LooksFor p (g a) rest)
    (hrun : (ifReads f g h).run (ws ++ cut) = some (b, mid ++ cut)) :
    (∃ a us, f.run (ws ++ cut) = some (a, us ++ cut) ∧
      (g a).run (us ++ cut) = some (b, mid ++ cut)) ∨
    f.run (ws ++ cut) = none ∧ h.run (ws ++ cut) = some (b, mid ++ cut) := by
  rw [run_ifReads] at hrun
  split at hrun
  · next a rest hf =>
    obtain ⟨front, rfl⟩ := (hg a rest hf).suffix hrun
    rw [← List.append_assoc] at hf hrun
    exact .inl ⟨a, front ++ mid, hf, hrun⟩
  · next hf => exact .inr ⟨hf, hrun⟩

end Reading

open Reading

namespace Number

variable {n k : Nat}

theorem run_ones?_of_append (h : (reading ones?).run (ws ++ cut) = some (n, mid ++ cut)) :
    (reading ones?).run ws = some (n, mid) := by
  rw [reading_ones?] at h ⊢
  obtain ⟨w, rfl, hw⟩ := exists_of_run_word_append h
  simp [hw]

theorem run_ones?_eq_none_of_append (h : (reading ones?).run (ws ++ cut) = none) :
    (reading ones?).run ws = none := by
  rw [reading_ones?] at h ⊢
  exact run_word_eq_none_of_append h

theorem run_double?_of_append (h : (reading double?).run (ws ++ cut) = some (n, mid ++ cut)) :
    (reading double?).run ws = some (n, mid) := by
  rw [reading_double?, run_orElse, Option.or_eq_some_iff] at h ⊢
  rcases h with h | ⟨hshort, h⟩
  · obtain ⟨w, rfl, hw⟩ := exists_of_run_word_append h
    exact .inl (by simp [hw])
  · refine .inr ⟨run_word_eq_none_of_append hshort, ?_⟩
    obtain ⟨tens, us, htens, h⟩ := exists_of_run_bind_append (fun _ _ _ => .bind (.skip rfl)
      fun _ _ _ => .ifReads looksFor_ones? (fun _ _ _ => .pure _) (.pure _)) h
    obtain ⟨_, vs, hskip, h⟩ := exists_of_run_bind_append (fun _ _ _ => .ifReads looksFor_ones?
      (fun _ _ _ => .pure _) (.pure _)) h
    rw [run_bind_of_run (run_word_of_append htens), run_bind_of_run (run_skip_of_append hskip)]
    rcases or_of_run_ifReads_append (p := Word.isInNumber) (fun _ _ _ => .pure _) h with
      ⟨_, us, hones, h⟩ | ⟨hones, h⟩
    · rw [run_ifReads_of_run (run_ones?_of_append hones)]
      exact run_pure_of_append h
    · rw [run_ifReads_of_none (run_ones?_eq_none_of_append hones)]
      exact run_pure_of_append h

theorem run_double?_eq_none_of_append (h : (reading double?).run (ws ++ cut) = none) :
    (reading double?).run ws = none := by
  rw [reading_double?, run_orElse, Option.or_eq_none_iff] at h ⊢
  obtain ⟨hshort, h⟩ := h
  refine ⟨run_word_eq_none_of_append hshort, ?_⟩
  cases ws with
  | nil => rfl
  | cons w ws =>
    cases htens : tens? w with
    | none => simp [htens]
    | some n =>
      -- tens are a number whatever follows them
      cases hones : (reading ones?).run (skipWord .dash (ws ++ cut)) <;>
        simp [htens, run_ifReads, hones] at h

theorem run_belowHundred_of_append (h : (belowHundred k).run (ws ++ cut) = some (n, mid ++ cut)) :
    (belowHundred k).run ws = some (n, mid) := by
  obtain ⟨_, us, hdouble, h⟩ :=
    exists_of_run_bind_append (p := Word.isInNumber) (fun _ _ _ => .pure _) h
  rw [belowHundred, run_bind_of_run (run_double?_of_append hdouble)]
  exact run_pure_of_append h

theorem run_belowHundred_eq_none_of_append (h : (belowHundred k).run (ws ++ cut) = none) :
    (belowHundred k).run ws = none := by
  cases hdouble : (reading double?).run (ws ++ cut) with
  | none => simp [belowHundred, run_double?_eq_none_of_append hdouble]
  | some r => simp [belowHundred, hdouble] at h

theorem run_hundreds?_of_append (h : (reading (hundreds? k)).run (ws ++ cut) = some (n, mid ++ cut)) :
    (reading (hundreds? k)).run ws = some (n, mid) := by
  rw [reading_hundreds?] at h ⊢
  obtain ⟨_, us, hhundred, h⟩ := exists_of_run_bind_append (fun _ _ _ => .ifReads (.exactly rfl)
    (fun _ _ _ => looksFor_belowHundred k) (.orElse (looksFor_belowHundred k) (.pure _))) h
  rw [run_bind_of_run (run_exactly_of_append hhundred)]
  rcases or_of_run_ifReads_append (fun _ _ _ => looksFor_belowHundred k) h with
    ⟨_, vs, hand, h⟩ | ⟨hand, h⟩
  · rw [run_ifReads_of_run (run_exactly_of_append hand)]
    exact run_belowHundred_of_append h
  · rw [run_ifReads_of_none (run_exactly_eq_none_of_append hand)]
    rw [run_orElse, Option.or_eq_some_iff] at h ⊢
    rcases h with h | ⟨hbelow, h⟩
    · exact .inl (run_belowHundred_of_append h)
    · exact .inr ⟨run_belowHundred_eq_none_of_append hbelow, run_pure_of_append h⟩

/-- Attempts to go on with a number at `mid` that fail in front of `cut` fail without it too. -/
structure Ends (cut mid : List Word) : Prop where
  hundreds : ∀ k, (reading (hundreds? k)).run (mid ++ cut) = none →
    (reading (hundreds? k)).run mid = none
  scaled : ∀ k, (reading (scaled? k)).run (mid ++ cut) = none →
    (reading (scaled? k)).run mid = none
  number : (reading parse?).run (mid ++ cut) = none → (reading parse?).run mid = none

theorem exists_of_run_hundreds? {r : Nat × List Word}
    (h : (reading (hundreds? k)).run ws = some r) : ∃ us, ws = .hundred :: us := by
  rw [reading_hundreds?, StateT.run_bind] at h
  obtain ⟨⟨_, us⟩, hhundred, -⟩ := Option.bind_eq_some_iff.1 h
  obtain ⟨w, rfl, hw⟩ := exists_of_run_word hhundred
  cases w <;> first | exact ⟨us, rfl⟩ | cases hw

theorem run_double?_of_run_ones? (h : (reading ones?).run ws = some (n, mid)) :
    (reading double?).run ws = some (n, mid) := by
  rw [reading_ones?] at h
  obtain ⟨w, rfl, hw⟩ := exists_of_run_word h
  have hshort : short? w = some n := by
    cases w with
    | literal m =>
      simp only [one?, Option.ite_none_right_eq_some] at hw
      simp only [short?, Option.ite_none_right_eq_some]
      exact ⟨by omega, hw.2⟩
    | numeral m =>
      simp only [one?, Option.ite_none_right_eq_some] at hw
      simp only [short?, Option.ite_none_right_eq_some]
      exact ⟨by omega, hw.2⟩
    | _ => cases hw
  rw [reading_double?, run_orElse, run_word_cons, hshort]
  rfl

theorem run_triple?_of_append
    (hmid : ∀ k, (reading (hundreds? k)).run (mid ++ cut) = none →
      (reading (hundreds? k)).run mid = none)
    (h : (reading triple?).run (ws ++ cut) = some (n, mid ++ cut)) :
    (reading triple?).run ws = some (n, mid) := by
  rw [reading_triple?] at h ⊢
  simp only [run_orElse, Option.or_eq_some_iff] at h ⊢
  rcases h with h | ⟨hones, h | ⟨hhundreds, h | ⟨hdouble, h⟩⟩⟩
  · obtain ⟨k, us, hones, h⟩ := exists_of_run_bind_append (fun _ _ _ => looksFor_hundreds? _) h
    refine .inl ?_
    rw [run_bind_of_run (run_ones?_of_append hones)]
    exact run_hundreds?_of_append h
  · have h' := run_hundreds?_of_append h
    obtain ⟨us, rfl⟩ := exists_of_run_hundreds? h'
    exact .inr ⟨rfl, .inl h'⟩
  · have h' := run_double?_of_append h
    refine .inr ⟨?_, .inr ⟨?_, .inl h'⟩⟩
    · cases hones' : (reading ones?).run ws with
      | none => simp [hones']
      | some r =>
        obtain rfl : r = (n, mid) :=
          Option.some.inj ((run_double?_of_run_ones? hones').symm.trans h')
        rw [reading_ones?] at hones hones'
        rw [run_bind_of_run (run_word_append hones' cut)] at hones
        rw [reading_ones?, run_bind_of_run hones']
        exact hmid n hones
    · cases hhundreds' : (reading (hundreds? 1)).run ws with
      | none => rfl
      | some r =>
        obtain ⟨us, rfl⟩ := exists_of_run_hundreds? hhundreds'
        cases h'
  · obtain ⟨w, rfl, hw⟩ := exists_of_run_word_append h
    refine .inr ⟨?_, .inr ⟨?_, .inr ⟨run_double?_eq_none_of_append hdouble, by simp [hw]⟩⟩⟩
    · have hone : one? w = none := by
        cases w with
        | literal m =>
          simp only [threeDigits?, Option.ite_none_right_eq_some] at hw
          simp only [one?, ite_eq_right_iff]
          omega
        | _ => cases hw
      simp [reading_ones?, hone]
    · cases w <;> first | rfl | cases hw

theorem run_addend_of_append (hmid : Ends cut mid)
    (ih : ∀ us m, us.length ≤ ws.length → (reading parse?).run (us ++ cut) = some (m, mid ++ cut) →
      (reading parse?).run us = some (m, mid))
    (h : addend.run (ws ++ cut) = some (n, mid ++ cut)) : addend.run ws = some (n, mid) := by
  rcases or_of_run_ifReads_append (fun _ _ _ => looksFor) h with ⟨_, us, hand, h⟩ | ⟨hand, h⟩
  · have hand := run_exactly_of_append hand
    rw [addend, run_ifReads_of_run hand]
    exact ih us n (Nat.le_of_lt (length_lt_of_run_word hand)) h
  · rw [addend, run_ifReads_of_none (run_exactly_eq_none_of_append hand)]
    rcases or_of_run_ifReads_append (p := Word.isInNumber) (fun _ _ _ => .pure _) h with
      ⟨m, us, hnumber, h⟩ | ⟨hnumber, h⟩
    · obtain ⟨rfl, rfl⟩ := run_pure_append h
      exact run_ifReads_of_run (ih ws m (Nat.le_refl _) hnumber)
    · obtain ⟨rfl, rfl⟩ := run_pure_append h
      exact run_ifReads_of_none (hmid.number hnumber)

theorem exists_of_run_scaled?_append
    (h : (reading (scaled? k)).run (ws ++ cut) = some (n, mid ++ cut)) :
    ∃ s us m, ws = .scale s :: us ∧ addend.run (us ++ cut) = some (m, mid ++ cut) ∧
      (Text.count? (k * s.value + m)).map (·.val) = some n := by
  rw [reading_scaled?] at h
  obtain ⟨s, us, hscale, h⟩ := exists_of_run_bind_append
    (fun _ _ _ => .bind (looksFor_addend fun _ _ => looksFor) fun _ _ _ => .option _) h
  obtain ⟨m, vs, hadd, h⟩ :=
    exists_of_run_bind_append (p := Word.isInNumber) (fun _ _ _ => .option _) h
  obtain ⟨rfl, hcount⟩ := run_option_append h
  obtain ⟨w, rfl, hw⟩ := exists_of_run_word_append hscale
  cases w with
  | scale s' =>
    cases hw
    exact ⟨s, us, m, rfl, hadd, hcount⟩
  | _ => cases hw

theorem run_scaled?_cons {s : Scale} {m : Nat} (h : addend.run ws = some (m, mid)) :
    (reading (scaled? k)).run (.scale s :: ws) =
      ((Text.count? (k * s.value + m)).map (·.val)).map (·, mid) := by
  rw [reading_scaled?]
  simp [scale?, h, Function.comp_def]

theorem run_scaled?_of_append (hmid : Ends cut mid)
    (ih : ∀ us m, us.length < ws.length → (reading parse?).run (us ++ cut) = some (m, mid ++ cut) →
      (reading parse?).run us = some (m, mid))
    (h : (reading (scaled? k)).run (ws ++ cut) = some (n, mid ++ cut)) :
    (reading (scaled? k)).run ws = some (n, mid) := by
  obtain ⟨s, us, m, rfl, hadd, hcount⟩ := exists_of_run_scaled?_append h
  have hadd' := run_addend_of_append hmid
    (fun vs m' hvs hrun => ih vs m' (Nat.lt_succ_of_le hvs) hrun) hadd
  rw [run_scaled?_cons hadd', hcount]
  rfl

theorem exists_of_run_scaled? {r : Nat × List Word}
    (h : (reading (scaled? k)).run ws = some r) : ∃ s us, ws = .scale s :: us := by
  rw [reading_scaled?, StateT.run_bind] at h
  obtain ⟨⟨_, us⟩, hscale, -⟩ := Option.bind_eq_some_iff.1 h
  obtain ⟨w, rfl, hw⟩ := exists_of_run_word hscale
  cases w with
  | scale s => exact ⟨s, us, rfl⟩
  | _ => cases hw

theorem run_triple?_scale (s : Scale) (ws : List Word) :
    (reading triple?).run (.scale s :: ws) = none := rfl

theorem run_triple?_of_manyDigits? (h : manyDigits? w = some n) (ws : List Word) :
    (reading triple?).run (w :: ws) = none := by
  cases w with
  | literal m =>
    simp only [manyDigits?, Option.ite_none_right_eq_some] at h
    have hone : one? (.literal m) = none := by
      simp only [one?, ite_eq_right_iff]
      omega
    have hdouble : (reading double?).run (.literal m :: ws) = none := by
      have hshort : short? (.literal m) = none := by
        simp only [short?, ite_eq_right_iff]
        omega
      simp [reading_double?, hshort, tens?]
    have hthree : threeDigits? (.literal m) = none := by
      simp only [threeDigits?, ite_eq_right_iff]
      omega
    have hhundreds : (reading (hundreds? 1)).run (.literal m :: ws) = none := rfl
    simp [reading_triple?, reading_ones?, hone, hhundreds, hdouble, hthree]
  | _ => cases h

/-- A number that is read in front of `cut` is read without it, if the words between them end a
number. -/
theorem run_of_append (hmid : Ends cut mid)
    (h : (reading parse?).run (ws ++ cut) = some (n, mid ++ cut)) :
    (reading parse?).run ws = some (n, mid) := by
  induction hlen : ws.length using Nat.strongRecOn generalizing ws n with
  | ind len ih =>
    subst hlen
    rw [reading_parse?] at h ⊢
    simp only [run_orElse, Option.or_eq_some_iff] at h ⊢
    rcases h with h | ⟨hscaled, h | ⟨hone, h | ⟨htriple, h⟩⟩⟩
    · obtain ⟨k, us, htriple, h⟩ := exists_of_run_bind_append
        (fun _ _ _ => looksFor_scaled? _ fun _ _ => looksFor) h
      have hlt := length_lt_of_run_reading htriple
      have h := run_scaled?_of_append hmid
        (fun vs m hvs hrun => ih vs.length (by simp at hlt; omega) hrun rfl) h
      obtain ⟨s, vs, rfl⟩ := exists_of_run_scaled? h
      exact .inl (by rw [run_bind_of_run (run_triple?_of_append (fun _ _ => rfl) htriple), h])
    · have h := run_scaled?_of_append hmid (fun vs m hvs hrun => ih vs.length hvs hrun rfl) h
      obtain ⟨s, us, rfl⟩ := exists_of_run_scaled? h
      exact .inr ⟨by simp [run_triple?_scale], .inl h⟩
    · have h' := run_triple?_of_append hmid.hundreds h
      refine .inr ⟨?_, .inr ⟨?_, .inl h'⟩⟩
      · rw [run_bind_of_run h] at hscaled
        rw [run_bind_of_run h']
        exact hmid.scaled n hscaled
      · cases hone' : (reading (scaled? 1)).run ws with
        | none => rfl
        | some r =>
          obtain ⟨s, us, rfl⟩ := exists_of_run_scaled? hone'
          cases h'
    · obtain ⟨w, rfl, hw⟩ := exists_of_run_word_append h
      have htriple' := run_triple?_of_manyDigits? hw mid
      refine .inr ⟨by simp [htriple'], .inr ⟨?_, .inr ⟨htriple', by simp [hw]⟩⟩⟩
      cases hone' : (reading (scaled? 1)).run (w :: mid) with
      | none => rfl
      | some r =>
        obtain ⟨s, us, heq⟩ := exists_of_run_scaled? hone'
        obtain ⟨rfl, -⟩ := List.cons.inj heq
        cases hw

theorem run_hundreds?_eq_none (h : (reading (hundreds? k)).run ws = none) (m : Nat) :
    (reading (hundreds? m)).run ws = none := by
  rw [reading_hundreds?, StateT.run_bind] at h ⊢
  cases hhundred : (exactly .hundred).run ws with
  | none => rfl
  | some r =>
    rw [hhundred] at h
    cases hand : (exactly .andWord).run r.2 with
    | none => simp [run_ifReads, hand] at h
    | some r' =>
      cases hdouble : (reading double?).run r'.2 <;>
        simp_all [run_ifReads, belowHundred]

theorem run_hundred_cons (h : (reading (hundreds? 1)).run (.hundred :: ws) = none) :
    (reading parse?).run (.hundred :: ws) = none := by
  have hones : (reading ones?).run (.hundred :: ws) = none := rfl
  have hdouble : (reading double?).run (.hundred :: ws) = none := rfl
  have htriple : (reading triple?).run (.hundred :: ws) = none := by
    simp [reading_triple?, hones, hdouble, h, threeDigits?]
  have hscaled : (reading (scaled? 1)).run (.hundred :: ws) = none := by
    simp [reading_scaled?, scale?]
  simp [reading_parse?, htriple, hscaled, manyDigits?]

theorem run_scale_cons (s : Scale) (ws : List Word) :
    (reading parse?).run (.scale s :: ws) = (reading (scaled? 1)).run (.scale s :: ws) := by
  simp [reading_parse?, run_triple?_scale, manyDigits?]

namespace Ends

theorem nil : Ends cut [] :=
  ⟨fun _ _ => rfl, fun k _ => run_reading_eq_none.2 (scaled?_eq_none (by simp)),
    fun _ => run_reading_eq_none.2 parse?_nil⟩

theorem cons (h : w.beginsNumber = false) : Ends cut (w :: mid) := by
  have hmultiplies : ∀ v ∈ (w :: mid).head?, v.multiplies = false := by
    intro v hv
    cases hv
    cases w <;> first | rfl | cases h
  exact ⟨fun k _ => run_reading_eq_none.2 (hundreds?_eq_none hmultiplies),
    fun k _ => run_reading_eq_none.2 (scaled?_eq_none hmultiplies),
    fun _ => run_reading_eq_none.2 (parse?_eq_none h)⟩

/-- Words that begin with a number end a number in front of them, if what follows them does. -/
theorem of_run (hmid : Ends cut mid)
    (h : (reading parse?).run (ws ++ cut) = some (n, mid ++ cut)) : Ends cut ws := by
  refine ⟨fun k hk => ?_, fun k hk => ?_, fun hnone => ?_⟩
  · cases hhundreds : (reading (hundreds? k)).run ws with
    | none => rfl
    | some r =>
      obtain ⟨us, rfl⟩ := exists_of_run_hundreds? hhundreds
      rw [List.cons_append] at h hk
      rw [run_hundred_cons (run_hundreds?_eq_none hk 1)] at h
      cases h
  · cases hscaled : (reading (scaled? k)).run ws with
    | none => rfl
    | some r =>
      obtain ⟨s, us, rfl⟩ := exists_of_run_scaled? hscaled
      rw [List.cons_append, run_scale_cons, ← List.cons_append] at h
      obtain ⟨s', us', m, heq, hadd, -⟩ := exists_of_run_scaled?_append h
      cases heq
      have hadd' := run_addend_of_append hmid (fun _ _ _ hrun => run_of_append hmid hrun) hadd
      rw [List.cons_append, run_scaled?_cons hadd, Option.map_eq_none_iff] at hk
      rw [run_scaled?_cons hadd', hk] at hscaled
      cases hscaled
  · rw [h] at hnone
    cases hnone

end Ends

end Number

end CasualDate
