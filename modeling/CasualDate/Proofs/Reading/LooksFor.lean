import CasualDate.Proofs.Reading.Composed

/-!
# What readers look for

A reading that is put together from others looks for the words that its parts look for
(`Reading.LooksFor`). From this alone, it leaves an end of the words it is given
(`LooksFor.suffix`), and stops at a word that it does not look for like at the end of the words
(`LooksFor.run_append`). Numbers look for the words of numbers (`Number.looksFor`), and no reader
looks for unknown words (`MomentExpr.looksFor`). The recursive readers call themselves on fewer
words, so these two are inductions on the number of words.
-/

namespace CasualDate

namespace Word

/-- The words that numbers are made of. -/
def isInNumber : Word → Bool
  | literal _ | numeral _ | hundred | scale _ | andWord | dash => true
  | _ => false

def isKnown : Word → Bool
  | unknown => false
  | _ => true

end Word

variable {α β : Type} {ws rest cut : List Word} {p q : Word → Bool}

theorem length_lt_of_run_reading {reader : (ws : List Word) → Option (Parsed α ws)} {a : α}
    (h : (reading reader).run ws = some (a, rest)) : rest.length < ws.length := by
  obtain ⟨hlt, -⟩ := reads_iff.2 h
  exact hlt

namespace Reading

theorem exists_of_run_word {f : Word → Option α} {a : α}
    (h : (word f).run ws = some (a, rest)) : ∃ w, ws = w :: rest ∧ f w = some a := by
  cases ws with
  | nil => cases h
  | cons w ws =>
    obtain ⟨b, hb, heq⟩ := Option.map_eq_some_iff.1 h
    cases heq
    exact ⟨w, rfl, hb⟩

theorem length_lt_of_run_word {f : Word → Option α} {a : α}
    (h : (word f).run ws = some (a, rest)) : rest.length < ws.length := by
  obtain ⟨w, rfl, -⟩ := exists_of_run_word h
  simp

/-- At the words `ws` the reading is put together from readings of words with `p`. -/
inductive LooksFor (p : Word → Bool) : {α : Type} → Reading α → List Word → Prop
  | pure {α : Type} {ws : List Word} (a : α) : LooksFor p (pure a) ws
  | failure {α : Type} {ws : List Word} : LooksFor p (failure : Reading α) ws
  | option {α : Type} {ws : List Word} (o : Option α) : LooksFor p (option o) ws
  | word {α : Type} {ws : List Word} {f : Word → Option α} (h : ∀ w, p w = false → f w = none) :
    LooksFor p (word f) ws
  | skip {ws : List Word} {w : Word} (h : p w = true) : LooksFor p (skip w) ws
  | unlessNext {ws : List Word} {r : Word → Bool} (h : ∀ w, p w = false → r w = false) :
    LooksFor p (unlessNext r) ws
  | bind {α β : Type} {ws : List Word} {f : Reading α} {g : α → Reading β} (hf : LooksFor p f ws)
    (hg : ∀ a rest, f.run ws = some (a, rest) → LooksFor p (g a) rest) : LooksFor p (f >>= g) ws
  | orElse {α : Type} {ws : List Word} {f g : Reading α} (hf : LooksFor p f ws)
    (hg : LooksFor p g ws) : LooksFor p (f <|> g) ws
  | ifReads {α β : Type} {ws : List Word} {f : Reading α} {g : α → Reading β} {h : Reading β}
    (hf : LooksFor p f ws) (hg : ∀ a rest, f.run ws = some (a, rest) → LooksFor p (g a) rest)
    (hh : LooksFor p h ws) : LooksFor p (ifReads f g h) ws

namespace LooksFor

variable {f : Reading α} {w : Word}

theorem exactly (h : p w = true) : LooksFor p (exactly w) ws := by
  refine .word fun v hv => if_neg ?_
  rintro rfl
  rw [h] at hv
  cases hv

theorem perhaps (h : LooksFor p f ws) : LooksFor p (perhaps f) ws :=
  .ifReads h (fun _ _ _ => .pure _) (.pure _)

theorem known {f : Word → Option α} (h : f .unknown = none) :
    LooksFor Word.isKnown (Reading.word f) ws :=
  .word fun w hw => by cases w <;> first | exact h | cases hw

theorem mono (h : LooksFor p f ws) (hpq : ∀ w, q w = false → p w = false) : LooksFor q f ws := by
  induction h with
  | pure a => exact .pure a
  | failure => exact .failure
  | option o => exact .option o
  | word h => exact .word fun w hw => h w (hpq w hw)
  | @skip _ w h =>
    refine .skip ?_
    cases hq : q w with
    | true => rfl
    | false => exact (hpq w hq).symm.trans h
  | unlessNext h => exact .unlessNext fun w hw => h w (hpq w hw)
  | bind _ _ ihf ihg => exact .bind ihf ihg
  | orElse _ _ ihf ihg => exact .orElse ihf ihg
  | ifReads _ _ _ ihf ihg ihh => exact .ifReads ihf ihg ihh

theorem suffix {a : α} (h : LooksFor p f ws) (hrun : f.run ws = some (a, rest)) : rest <:+ ws := by
  induction h generalizing rest with
  | pure a =>
    cases hrun
    exact List.suffix_refl _
  | failure => cases hrun
  | option o =>
    obtain ⟨_, -, heq⟩ := Option.map_eq_some_iff.1 hrun
    cases heq
    exact List.suffix_refl _
  | word h =>
    obtain ⟨w, rfl, -⟩ := exists_of_run_word hrun
    exact List.suffix_cons w rest
  | @skip ws w h =>
    cases hrun
    cases ws with
    | nil => exact List.suffix_refl _
    | cons v ws =>
      simp only [skipWord]
      split
      · exact List.suffix_cons v ws
      · exact List.suffix_refl _
  | unlessNext h =>
    rw [run_unlessNext] at hrun
    split at hrun
    · cases hrun
    · cases hrun
      exact List.suffix_refl _
  | @bind _ _ ws f g hf hg ihf ihg =>
    rw [StateT.run_bind] at hrun
    obtain ⟨⟨b, mid⟩, hb, hrun⟩ := Option.bind_eq_some_iff.1 hrun
    exact (ihg b mid hb hrun).trans (ihf hb)
  | orElse hf hg ihf ihg =>
    rw [run_orElse, Option.or_eq_some_iff] at hrun
    rcases hrun with hrun | ⟨-, hrun⟩
    · exact ihf hrun
    · exact ihg hrun
  | @ifReads _ _ ws f g h hf hg hh ihf ihg ihh =>
    rw [run_ifReads] at hrun
    split at hrun
    · next b mid hb => exact (ihg b mid hb hrun).trans (ihf hb)
    · exact ihh hrun

/-- Words that the reading does not look for change nothing about what it reads in front of
them. -/
theorem run_append (h : LooksFor p f ws) (hcut : ∀ w ∈ cut.head?, p w = false) :
    f.run (ws ++ cut) = (f.run ws).map fun r => (r.1, r.2 ++ cut) := by
  induction h with
  | pure a => rfl
  | failure => rfl
  | option o => cases o <;> rfl
  | @word _ ws f h =>
    cases ws with
    | cons w ws => cases hw : f w <;> simp [hw]
    | nil =>
      cases cut with
      | nil => rfl
      | cons v cut => simp [h v (hcut v rfl)]
  | @skip ws w h =>
    cases ws with
    | cons v ws => by_cases hv : v = w <;> simp [skipWord, hv]
    | nil =>
      cases cut with
      | nil => rfl
      | cons v cut =>
        have hv : v ≠ w := by
          rintro rfl
          rw [hcut v rfl] at h
          cases h
        simp [skipWord, hv]
  | @unlessNext ws r h =>
    cases ws with
    | cons w ws => cases hw : r w <;> simp [hw]
    | nil =>
      cases cut with
      | nil => cases hr : ([] : List Word).head?.any r <;> simp
      | cons v cut => simp [h v (hcut v rfl)]
  | @bind _ _ ws f g hf hg ihf ihg =>
    rw [StateT.run_bind, StateT.run_bind, ihf]
    cases hrun : f.run ws with
    | none => rfl
    | some r => exact ihg r.1 r.2 hrun
  | orElse hf hg ihf ihg => rw [run_orElse, run_orElse, ihf, ihg, Option.map_or]
  | @ifReads _ _ ws f g h hf hg hh ihf ihg ihh =>
    rw [run_ifReads, run_ifReads, ihf]
    cases hrun : f.run ws with
    | none => exact ihh
    | some r => exact ihg r.1 r.2 hrun

end LooksFor

end Reading

open Reading

namespace Number

theorem looksFor_ones? : LooksFor Word.isInNumber (reading ones?) ws := by
  rw [reading_ones?]
  exact .word fun w hw => by cases w <;> first | rfl | cases hw

theorem looksFor_double? : LooksFor Word.isInNumber (reading double?) ws := by
  rw [reading_double?]
  refine .orElse (.word fun w hw => ?_) (.bind (.word fun w hw => ?_) fun n _ _ =>
    .bind (.skip rfl) fun _ _ _ => .ifReads looksFor_ones? (fun _ _ _ => .pure _) (.pure _))
  · cases w <;> first | rfl | cases hw
  · cases w <;> first | rfl | cases hw

theorem looksFor_belowHundred (k : Nat) : LooksFor Word.isInNumber (belowHundred k) ws :=
  .bind looksFor_double? fun _ _ _ => .pure _

theorem looksFor_hundreds? (k : Nat) : LooksFor Word.isInNumber (reading (hundreds? k)) ws := by
  rw [reading_hundreds?]
  exact .bind (.exactly rfl) fun _ _ _ => .ifReads (.exactly rfl)
    (fun _ _ _ => looksFor_belowHundred k) (.orElse (looksFor_belowHundred k) (.pure _))

theorem looksFor_triple? : LooksFor Word.isInNumber (reading triple?) ws := by
  rw [reading_triple?]
  refine .orElse (.bind looksFor_ones? fun _ _ _ => looksFor_hundreds? _)
    (.orElse (looksFor_hundreds? 1) (.orElse looksFor_double? (.word fun w hw => ?_)))
  cases w <;> first | rfl | cases hw

theorem looksFor_addend
    (ih : ∀ us : List Word, us.length ≤ ws.length → LooksFor Word.isInNumber (reading parse?) us) :
    LooksFor Word.isInNumber addend ws := by
  refine .ifReads (.exactly rfl) (fun _ rest hand => ih rest ?_)
    (.ifReads (ih ws (Nat.le_refl _)) (fun _ _ _ => .pure _) (.pure _))
  exact Nat.le_of_lt (length_lt_of_run_word hand)

theorem looksFor_scaled? (k : Nat)
    (ih : ∀ us : List Word, us.length < ws.length → LooksFor Word.isInNumber (reading parse?) us) :
    LooksFor Word.isInNumber (reading (scaled? k)) ws := by
  rw [reading_scaled?]
  refine .bind (.word fun w hw => by cases w <;> first | rfl | cases hw) fun s rest hs =>
    .bind (looksFor_addend fun us hus => ih us ?_) fun _ _ _ => .option _
  exact Nat.lt_of_le_of_lt hus (length_lt_of_run_word hs)

theorem looksFor : LooksFor Word.isInNumber (reading parse?) ws := by
  induction hn : ws.length using Nat.strongRecOn generalizing ws with
  | ind n ih =>
    subst hn
    have ih (us : List Word) (hlt : us.length < ws.length) :
        LooksFor Word.isInNumber (reading parse?) us :=
      ih us.length hlt rfl
    rw [reading_parse?]
    refine .orElse (.bind looksFor_triple? fun k rest hk => looksFor_scaled? k fun us hus => ?_)
      (.orElse (looksFor_scaled? 1 ih) (.orElse looksFor_triple? (.word fun w hw => ?_)))
    · have := length_lt_of_run_reading hk
      exact ih us (by omega)
    · cases w <;> first | rfl | cases hw

theorem looksFor_known : LooksFor Word.isKnown (reading parse?) ws :=
  looksFor.mono fun w hw => by cases w <;> first | rfl | cases hw

end Number

namespace Duration

theorem looksFor_part? : LooksFor Word.isKnown (reading part?) ws := by
  rw [reading_part?]
  exact .orElse (.bind Number.looksFor_known fun _ _ _ => .bind (.known rfl) fun _ _ _ => .pure _)
    (.bind (.known rfl) fun _ _ _ => .bind (.known rfl) fun _ _ _ => .pure _)

theorem looksFor : LooksFor Word.isKnown (reading parse?) ws := by
  induction hn : ws.length using Nat.strongRecOn generalizing ws with
  | ind n ih =>
    subst hn
    rw [reading_parse?]
    refine .bind looksFor_part? fun d rest hd => .orElse
      (.bind (.exactly rfl) fun _ below hand => .bind ?_ fun _ _ _ => .pure _) (.pure d)
    have := length_lt_of_run_reading hd
    have := length_lt_of_run_word hand
    exact ih below.length (by omega) rfl

end Duration

namespace DateExpr

theorem looksFor_unlessNext : LooksFor Word.isKnown (unlessNext endsHour) ws :=
  .unlessNext fun w hw => by cases w <;> first | rfl | cases hw

theorem looksFor_year? : LooksFor Word.isKnown (reading year?) ws := by
  rw [reading_year?]
  exact .ifReads (.exactly rfl)
    (fun _ _ _ => .bind Number.looksFor_known fun _ _ _ => .option _)
    (.bind Number.looksFor_known fun _ _ _ => .bind looksFor_unlessNext fun _ _ _ => .pure _)

theorem looksFor_dayThen (m : Month) (d : Nat) : LooksFor Word.isKnown (dayThen m d) ws :=
  .ifReads looksFor_year? (fun _ _ _ => .pure _) (.pure _)

theorem looksFor_monthFirst? : LooksFor Word.isKnown (reading monthFirst?) ws := by
  rw [reading_monthFirst?]
  refine .bind (.known rfl) fun m _ _ =>
    .ifReads Number.looksFor_known (fun n _ _ => ?_) (.pure _)
  split
  · exact .pure _
  · exact .bind (.skip rfl) fun _ _ _ => looksFor_dayThen m n

theorem looksFor_dayFirst? : LooksFor Word.isKnown (reading dayFirst?) ws := by
  rw [reading_dayFirst?]
  refine .bind (.skip rfl) fun _ _ _ => .bind Number.looksFor_known fun n _ _ =>
    .bind (.skip rfl) fun _ _ _ => .bind (.skip rfl) fun _ _ _ =>
      .bind (.known rfl) fun m _ _ => ?_
  split
  · exact looksFor_dayThen m n
  · exact .failure

theorem looksFor_numeric? : LooksFor Word.isKnown (reading numeric?) ws := by
  rw [reading_numeric?]
  refine .bind Number.looksFor_known fun first _ _ => .bind (.known rfl) fun delimiter _ hrun =>
    .bind Number.looksFor_known fun second _ _ => .ifReads (.exactly ?_)
      (fun _ _ _ => .bind Number.looksFor_known fun _ _ _ => .pure _) (.pure _)
  obtain ⟨w, -, hw⟩ := exists_of_run_word hrun
  cases w <;> first | cases hw; rfl | cases hw

theorem looksFor_relative? : LooksFor Word.isKnown (reading relative?) ws := by
  rw [reading_relative?]
  exact .bind (.known rfl) fun _ _ _ => .known rfl

theorem looksFor_durationThen (d : Duration)
    (ih : ∀ us : List Word, us.length < ws.length → LooksFor Word.isKnown (reading parse?) us) :
    LooksFor Word.isKnown (durationThen d) ws := by
  unfold durationThen
  split
  · exact .failure
  · exact .orElse (.bind (.exactly rfl) fun _ _ _ => .pure _) (.bind (.known rfl) fun _ date hfrom =>
      .bind (ih date (length_lt_of_run_word hfrom)) fun _ _ _ => .pure _)

theorem looksFor_byDuration
    (ih : ∀ us : List Word, us.length < ws.length → LooksFor Word.isKnown (reading parse?) us) :
    LooksFor Word.isKnown byDuration ws := by
  refine .bind Duration.looksFor fun d rest hd => looksFor_durationThen d fun us hus => ih us ?_
  exact Nat.lt_trans hus (length_lt_of_run_reading hd)

theorem looksFor : LooksFor Word.isKnown (reading parse?) ws := by
  induction hn : ws.length using Nat.strongRecOn generalizing ws with
  | ind n ih =>
    subst hn
    rw [reading_parse?]
    exact .orElse (.known rfl) (.orElse looksFor_monthFirst? (.orElse looksFor_dayFirst?
      (.orElse looksFor_numeric? (.orElse (looksFor_byDuration fun us hus => ih us.length hus rfl)
        (.orElse looksFor_relative? (.known rfl))))))

end DateExpr

namespace TimeExpr

theorem looksFor_minutesThen : LooksFor Word.isKnown minutesThen ws :=
  .ifReads (.exactly rfl) (fun _ _ _ => .perhaps Number.looksFor_known) (.pure _)

theorem looksFor_hourThen (hour : Nat) : LooksFor Word.isKnown (hourThen hour) ws :=
  .bind looksFor_minutesThen fun _ _ _ => .ifReads (.known rfl) (fun _ _ _ => .pure _) (.pure _)

theorem looksFor : LooksFor Word.isKnown (reading parse?) ws := by
  rw [reading_parse?]
  exact .orElse (.known rfl) (.bind Number.looksFor_known fun hour _ _ => looksFor_hourThen hour)

end TimeExpr

namespace MomentExpr

theorem looksFor_timeAfter : LooksFor Word.isKnown (reading timeAfter) ws := by
  rw [reading_timeAfter]
  exact .ifReads (.known rfl) (fun _ _ _ => TimeExpr.looksFor) TimeExpr.looksFor

theorem looksFor_dateAfter : LooksFor Word.isKnown (reading dateAfter) ws := by
  rw [reading_dateAfter]
  exact .ifReads (.known rfl) (fun _ _ _ => DateExpr.looksFor) DateExpr.looksFor

theorem looksFor_dateThen (date : DateExpr) : LooksFor Word.isKnown (dateThen date) ws :=
  .ifReads looksFor_timeAfter (fun _ _ _ => .pure _) (.pure _)

theorem looksFor_timeThen (time : TimeExpr) : LooksFor Word.isKnown (timeThen time) ws :=
  .ifReads looksFor_dateAfter (fun _ _ _ => .pure _) (.pure _)

theorem looksFor_shiftThen (d : Duration)
    (ih : ∀ us : List Word, us.length < ws.length → LooksFor Word.isKnown (reading parse?) us) :
    LooksFor Word.isKnown (shiftThen d (reading parse?)) ws :=
  .orElse
    (.bind (.known rfl) fun _ below hrun =>
      .bind (ih below (length_lt_of_run_word hrun)) fun _ _ _ => .pure _)
    (.orElse
      (.bind (.exactly rfl) fun _ below hrun =>
        .bind (ih below (length_lt_of_run_word hrun)) fun _ _ _ => .pure _)
      (.bind (.exactly rfl) fun _ _ _ => .pure _))

theorem looksFor : LooksFor Word.isKnown (reading parse?) ws := by
  induction hn : ws.length using Nat.strongRecOn generalizing ws with
  | ind n ih =>
    subst hn
    rw [reading_parse?]
    refine .ifReads (.exactly rfl) (fun _ _ _ => .pure _)
      (.ifReads (.exactly rfl) (fun _ _ _ => .bind Duration.looksFor fun _ _ _ => .pure _)
        (.ifReads DateExpr.looksFor (fun date _ _ => looksFor_dateThen date)
          (.ifReads Duration.looksFor (fun d rest hd => looksFor_shiftThen d fun us hus => ?_)
            (.bind TimeExpr.looksFor fun time _ _ => looksFor_timeThen time))))
    have := length_lt_of_run_reading hd
    exact ih us.length (by omega) rfl

theorem run_append_unknown (ws vs : List Word) :
    (reading parse?).run (ws ++ .unknown :: vs) =
      ((reading parse?).run ws).map fun r => (r.1, r.2 ++ .unknown :: vs) :=
  looksFor.run_append fun w hw => by cases hw; rfl

end MomentExpr

end CasualDate
