import CasualDate.Text.Slice

/-!
# Patterns

A pattern is known by the places where it fits a text. They stand in the text, come from left to
right and do not overlap; an empty one may touch its neighbours.
-/

namespace CasualDate

/-- A place where a pattern fits a text. -/
structure Match where
  index : Nat
  text : List Char
deriving DecidableEq

namespace Match

/-- The byte at which the match ends. -/
def stop (m : Match) : Nat :=
  m.index + Text.byteLength m.text

/-- The matches stand in the text, from left to right and without overlaps. -/
structure Placed (cs : List Char) (ms : List Match) : Prop where
  standsAt : ∀ m ∈ ms, Text.StandsAt cs m.index m.text
  ordered : ms.Pairwise fun a b => a.stop ≤ b.index

namespace Placed

variable {cs : List Char} {ms : List Match}

theorem nil : Placed cs [] :=
  ⟨by simp, .nil⟩

theorem cons {m : Match} (hm : Text.StandsAt cs m.index m.text) (h : Placed cs ms)
    (hle : ∀ m' ∈ ms, m.stop ≤ m'.index) : Placed cs (m :: ms) :=
  ⟨List.forall_mem_cons.2 ⟨hm, h.standsAt⟩, List.pairwise_cons.2 ⟨hle, h.ordered⟩⟩

end Placed

end Match

/-- What finds places in texts, whatever the means. -/
structure Pattern where
  findAll : List Char → List Match
  placed : ∀ cs, Match.Placed cs (findAll cs)

end CasualDate
