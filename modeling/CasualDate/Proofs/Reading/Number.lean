import CasualDate.Number

/-!
# Reading numbers

`Reads` says what a reader makes of a list of words without the proof that some of them are used
up, so that the words can be rewritten and the readers of parts be joined.

Only four kinds of words begin a number (`parse?_eq_none`), and a number in digits is read by itself
unless a word to multiply it follows (`reads_literal`).
-/

namespace CasualDate

section Reads

variable {α : Type}

/-- The reader takes the beginning of `ws` for `a` and leaves `rest`. -/
def Reads (reader : (ws : List Word) → Option (Parsed α ws)) (ws : List Word) (a : α)
    (rest : List Word) : Prop :=
  ∃ h, reader ws = some ⟨a, rest, h⟩

theorem Reads.of_eq {reader : (ws : List Word) → Option (Parsed α ws)} {ws : List Word}
    {p : Parsed α ws} (h : reader ws = some p) : Reads reader ws p.value p.rest :=
  ⟨p.shorter, h⟩

/-- What is read of given words can be computed. -/
theorem Reads.of_map {reader : (ws : List Word) → Option (Parsed α ws)} {ws rest : List Word}
    {a : α} (h : (reader ws).map (fun p => (p.value, p.rest)) = some (a, rest)) :
    Reads reader ws a rest := by
  obtain ⟨p, hp, heq⟩ := Option.map_eq_some_iff.1 h
  cases heq
  exact .of_eq hp

end Reads

namespace Word

def beginsNumber : Word → Bool
  | literal _ | numeral _ | hundred | scale _ => true
  | _ => false

def multiplies : Word → Bool
  | hundred | scale _ => true
  | _ => false

end Word

namespace Number

variable {w : Word} {rest : List Word} {k : Nat}

theorem hundreds?_eq_none (h : ∀ w ∈ rest.head?, w.multiplies = false) : hundreds? k rest = none := by
  cases rest with
  | nil => rfl
  | cons w rest =>
    have hw := h w rfl
    cases w <;> first | rfl | cases hw

theorem scaled?_eq_none (h : ∀ w ∈ rest.head?, w.multiplies = false) : scaled? k rest = none := by
  rw [scaled?.eq_def]
  cases rest with
  | nil => rfl
  | cons w rest =>
    have hw := h w rfl
    cases w <;> first | rfl | cases hw

@[simp] theorem parse?_nil : parse? [] = none := by
  rw [parse?.eq_def, scaled?.eq_def]
  rfl

theorem parse?_eq_none (h : w.beginsNumber = false) : parse? (w :: rest) = none := by
  have hmultiplies : w.multiplies = false := by cases w <;> first | rfl | cases h
  rw [parse?.eq_def, scaled?_eq_none (by simp [hmultiplies])]
  cases w <;> first | rfl | cases h

theorem triple?_literal (n : Text.Count) (h : ∀ w ∈ rest.head?, w.multiplies = false) :
    triple? (.literal n :: rest) = if n.val < 1000 then some (.ofHead n.val) else none := by
  have hones : ((ones? (.literal n :: rest)).bind fun p =>
      (hundreds? p.value p.rest).map (·.widen p.shorter)) = none := by
    by_cases hn : n.val < 10
    · simp [ones?, readWord?, hn, hundreds?_eq_none h]
    · simp [ones?, readWord?, hn]
  rw [triple?, hones]
  by_cases h100 : n.val < 100
  · have h1000 : n.val < 1000 := by omega
    simp [hundreds?, double?, h100, h1000]
  · simp [hundreds?, double?, readWord?, h100, show 100 ≤ n.val by omega]

theorem reads_literal (n : Text.Count) (rest : List Word)
    (h : ∀ w ∈ rest.head?, w.multiplies = false) :
    Reads parse? (.literal n :: rest) n.val rest := by
  refine ⟨by simp, ?_⟩
  have hone : scaled? 1 (.literal n :: rest) = none := scaled?_eq_none (by simp [Word.multiplies])
  rw [parse?.eq_def, hone, triple?_literal n h]
  by_cases hn : n.val < 1000
  · simp [hn, scaled?_eq_none h]
  · simp [hn, readWord?, show 1000 ≤ n.val by omega]

end Number

end CasualDate
