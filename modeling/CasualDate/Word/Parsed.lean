import CasualDate.Word.Basic

/-!
# Reading from a list of words

A reader takes a list of words and answers a value and the words it leaves, which are fewer than
it was given. That they are fewer is part of the answer, so that readers can call each other.
-/

namespace CasualDate

/-- A value read from the beginning of `ws` and the words that follow it. -/
structure Parsed (α : Type) (ws : List Word) where
  value : α
  rest : List Word
  shorter : rest.length < ws.length

namespace Parsed

variable {α β : Type} {ws : List Word}

def consumed (p : Parsed α ws) : Nat :=
  ws.length - p.rest.length

theorem consumed_pos (p : Parsed α ws) : 1 ≤ p.consumed := by
  have := p.shorter
  unfold consumed
  omega

theorem consumed_le (p : Parsed α ws) : p.consumed ≤ ws.length :=
  Nat.sub_le ..

theorem shorter_of_rest_eq (p : Parsed α ws) {w : Word} {rest : List Word}
    (h : p.rest = w :: rest) : rest.length < ws.length := by
  have := p.shorter
  rw [h, List.length_cons] at this
  omega

/-- What one word says by itself. -/
@[simp] def ofHead {w : Word} (a : α) : Parsed α (w :: ws) :=
  ⟨a, ws, by simp⟩

/-- The same words read as another value. -/
@[simp] def map (f : α → β) (p : Parsed α ws) : Parsed β ws :=
  ⟨f p.value, p.rest, p.shorter⟩

/-- What was read from the end of a list, as read from the whole of it. -/
@[simp] def widen {r : List Word} (p : Parsed α r) (h : r.length < ws.length) : Parsed α ws :=
  ⟨p.value, p.rest, Nat.lt_trans p.shorter h⟩

/-- What was read behind a word, as read from that word on. -/
@[simp] def behind {w : Word} (p : Parsed α ws) : Parsed α (w :: ws) :=
  p.widen (by simp)

end Parsed

/-- Reads one word that has a value. -/
def readWord? {α : Type} (f : Word → Option α) : (ws : List Word) → Option (Parsed α ws)
  | [] => none
  | w :: _ => (f w).map .ofHead

/-- The words without `w` at the front, if it stands there. -/
def skipWord (w : Word) : List Word → List Word
  | [] => []
  | v :: ws => if v = w then ws else v :: ws

theorem length_skipWord_le (w : Word) (ws : List Word) : (skipWord w ws).length ≤ ws.length := by
  cases ws with
  | nil => simp [skipWord]
  | cons v ws => simp only [skipWord]; split <;> simp

/-- The same value, with `w` passed over if it stands at the front of the rest. -/
@[simp] def Parsed.skip {α : Type} {ws : List Word} (p : Parsed α ws) (w : Word) : Parsed α ws :=
  ⟨p.value, skipWord w p.rest, Nat.lt_of_le_of_lt (length_skipWord_le w p.rest) p.shorter⟩

end CasualDate
