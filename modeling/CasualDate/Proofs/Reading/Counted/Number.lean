import CasualDate.Proofs.Reading.Counted.Basic

/-!
# Counting the words of numbers

Numbers read part by part with the words counted. Whatever stands in the words, the parts are cut
off within them, and readings inside one another use words up, so that more of them than there are
words are never needed (`Number.counts`).
-/

namespace CasualDate.Number

open Reading Counted

variable {ws : List Word} {k depth : Nat}

/-- A number below one hundred. A dash behind the tens is passed over. -/
def countedDouble : Counted Nat := fun ws => do
  match ← first tens? ws with
  | some (tens, n) =>
    let n := pass .dash ws n
    match ← (first one?).readFrom ws n with
    | some (ones, n) => .ok (some (tens + ones, n))
    | none => .ok (some (tens, n))
  | none => first short? ws

/-- `k` hundreds and the number below one hundred behind them, which "and" asks for. -/
def countedHundreds (k : Nat) : Counted Nat := fun ws => do
  if ws.head? = some .hundred then
    let n := pass .andWord ws 1
    match ← countedDouble.readFrom ws n with
    | some (below, n) => .ok (some (k * 100 + below, n))
    | none => if ws[1]? = some .andWord then .ok none else .ok (some (k * 100, n))
  else .ok none

def countedTriple : Counted Nat :=
  ((first one?).andThen countedHundreds).orElse
    ((countedHundreds 1).orElse (countedDouble.orElse (first threeDigits?)))

/-- The sum of two numbers, if the first and the sum are counts. -/
def sum? (a b : Nat) : Option Nat :=
  (Text.count? a).bind fun n => (Text.count? (n.val + b)).map (·.val)

/-- A word for thousands or more, multiplied by `k`, and the number behind it, which "and" asks
for. -/
def countedScaled (number : Counted Nat) (k : Nat) : Counted Nat := fun ws => do
  match ← first scale? ws with
  | some (s, n) =>
    let behind := pass .andWord ws n
    match ← number.readFrom ws behind with
    | some (rest, n) => .ok ((sum? (k * s.value) rest).map (·, n))
    | none =>
      if ws[n]? = some .andWord then .ok none
      else .ok ((Text.count? (k * s.value)).map fun product => (product.val, behind))
  | none => .ok none

/-- A number, with at most `depth` readings of numbers inside one another. -/
def counted : Nat → Counted Nat
  | 0 => fun _ => .error .spent
  | depth + 1 =>
    (countedTriple.andThen (countedScaled (counted depth))).orElse
      ((countedScaled (counted depth) 1).orElse (countedTriple.orElse (first manyDigits?)))

theorem counts_double (ws : List Word) : Counts countedDouble (reading double?) ws := by
  rw [reading_double?]
  cases Counts.first tens? ws with
  | none hc hf =>
    refine (Counts.first short? ws).congr ?_ ?_
    · rw [countedDouble, hc]
      rfl
    · rw [run_orElse, run_of_none hf, Option.or_none]
  | some tens n rest hleaves hc hf =>
    have hshort : (word short?).run ws = none := by
      obtain ⟨w, rfl, hw⟩ := exists_of_run_word hf
      cases w with
      | numeral v =>
        have hlarge : ¬v.value < 20 := fun hlt => by simp [tens?, hlt] at hw
        simp [short?, hlarge]
      | _ => cases hw
    cases (Counts.first one? _).readFrom (hleaves.pass .dash) with
    | none hc' hf' =>
      refine .some tens _ _ (hleaves.pass .dash) ?_ ?_
      · simp only [countedDouble, hc, ok_bind, hc']
      · simp [hshort, hf, run_ifReads, reading_ones?, hf']
    | some ones m left hleft hc' hf' =>
      refine .some (tens + ones) m left hleft ?_ ?_
      · simp only [countedDouble, hc, ok_bind, hc']
      · simp [hshort, hf, run_ifReads, reading_ones?, hf']

theorem run_ifReads_exactly {α : Type} {w : Word} {ws : List Word} (f : Unit → Reading α)
    (g : Reading α) : (ifReads (exactly w) f g).run ws =
      if ws.head? = some w then (f ()).run (skipWord w ws) else g.run (skipWord w ws) := by
  rw [run_ifReads]
  cases ws with
  | nil => rfl
  | cons v ws => by_cases hv : v = w <;> simp [skipWord, hv]

theorem counts_hundreds (k : Nat) (ws : List Word) :
    Counts (countedHundreds k) (reading (hundreds? k)) ws := by
  rw [reading_hundreds?]
  by_cases hhead : ws.head? = some .hundred
  · obtain ⟨rest, rfl⟩ : ∃ rest, ws = .hundred :: rest := List.head?_eq_some_iff.1 hhead
    have hplace := Leaves.cons .hundred rest
    have hbehind := hplace.pass .andWord
    cases (counts_double _).readFrom hbehind with
    | none hc hf =>
      by_cases hand : rest.head? = some .andWord
      · refine .none ?_ ?_
        · simp only [countedHundreds, if_pos hhead, hc, ok_bind, hplace.getElem?, if_pos hand]
        · simp [run_ifReads_exactly, hand, belowHundred, hf]
      · refine .some (k * 100) _ _ hbehind ?_ ?_
        · simp only [countedHundreds, if_pos hhead, hc, ok_bind, hplace.getElem?, if_neg hand]
        · simp [run_ifReads_exactly, hand, belowHundred, hf]
    | some below n left hleft hc hf =>
      refine .some (k * 100 + below) n left hleft ?_ ?_
      · simp only [countedHundreds, if_pos hhead, hc, ok_bind]
      · by_cases hand : rest.head? = some .andWord <;>
          simp [run_ifReads_exactly, hand, belowHundred, hf]
  · have hnone : (exactly .hundred).run ws = none := run_exactly_eq_none_of_head? hhead
    exact .none (by rw [countedHundreds, if_neg hhead]) (run_of_none hnone _)

theorem counts_triple (ws : List Word) : Counts countedTriple (reading triple?) ws := by
  rw [reading_triple?]
  exact .orElse (.andThen (reading_ones? ▸ .first one? ws) fun k rest _ => counts_hundreds k rest)
    (.orElse (counts_hundreds 1 ws) (.orElse (counts_double ws) (.first threeDigits? ws)))

theorem sum?_eq (a b : Nat) : sum? a b = (Text.count? (a + b)).map (·.val) := by
  by_cases ha : a < Text.countLimit
  · simp [sum?, Text.count?, ha]
  · have hsum : ¬a + b < Text.countLimit := by omega
    simp [sum?, Text.count?, ha, hsum]

theorem run_addend (ws : List Word) : addend.run ws =
    if ws.head? = some .andWord then (reading parse?).run (skipWord .andWord ws)
    else some (((reading parse?).run (skipWord .andWord ws)).getD (0, skipWord .andWord ws)) := by
  rw [addend, run_ifReads_exactly, run_ifReads]
  cases (reading parse?).run (skipWord .andWord ws) <;> rfl

theorem counts_scaled {number : Counted Nat} (k : Nat)
    (ih : ∀ us : List Word, us.length < ws.length → Counts number (reading parse?) us) :
    Counts (countedScaled number k) (reading (scaled? k)) ws := by
  rw [reading_scaled?]
  cases Counts.first scale? ws with
  | none hc hf =>
    refine .none ?_ (run_of_none hf _)
    rw [countedScaled, hc]
    rfl
  | some s n rest hleaves hc hf =>
    have hshorter := length_lt_of_run_word hf
    have hbehind := hleaves.pass .andWord
    have hskip := length_skipWord_le .andWord rest
    cases (ih (skipWord .andWord rest) (by omega)).readFrom hbehind with
    | none hc' hf' =>
      by_cases hand : rest.head? = some .andWord
      · refine .none ?_ ?_
        · simp only [countedScaled, hc, ok_bind, hc', hleaves.getElem?, if_pos hand]
        · simp [hf, run_addend, hand, hf']
      · refine .of_option ((Text.count? (k * s.value)).map (·.val)) hbehind ?_ ?_
        · simp only [countedScaled, hc, ok_bind, hc', hleaves.getElem?, if_neg hand, Option.map_map]
          rfl
        · simp [hf, run_addend, hand, hf']
    | some value m left hleft hc' hf' =>
      refine .of_option (sum? (k * s.value) value) hleft ?_ ?_
      · simp only [countedScaled, hc, ok_bind, hc']
      · by_cases hand : rest.head? = some .andWord <;>
          simp [hf, run_addend, hand, hf', sum?_eq]

theorem counts (h : ws.length < depth) : Counts (counted depth) (reading parse?) ws := by
  induction depth generalizing ws with
  | zero => exact absurd h (Nat.not_lt_zero _)
  | succ depth ih =>
    rw [reading_parse?]
    refine .orElse (.andThen (counts_triple ws) fun k rest hrun => counts_scaled k fun us hus => ih ?_)
      (.orElse (counts_scaled 1 fun us hus => ih ?_)
        (.orElse (counts_triple ws) (.first manyDigits? ws)))
    · have := length_lt_of_run_reading hrun
      omega
    · omega

end CasualDate.Number
