import CasualDate.Ordinal
import CasualDate.Proofs.Text.LetterCase

/-!
# Triggers in any case

In a text and in its lower case a trigger has the same matches, but for the case of what they hold
(`Trigger.findAll_toLower`). A match depends on the character in front of it, so the recursion over the
text carries this character in both cases.
-/

namespace CasualDate

/-- The match in a text of lower case. -/
def Match.lowered (m : Match) : Match :=
  ⟨m.index, m.text.map Char.toLower⟩

namespace Piece

theorem afterOne_toLower {p : Char → Bool} (h : ∀ c, p c.toLower = p c) (cs : List Char) :
    afterOne p (cs.map Char.toLower) = (afterOne p cs).map (List.map Char.toLower) := by
  cases cs with
  | nil => rfl
  | cons c cs =>
    rw [List.map_cons, afterOne, afterOne, h]
    split <;> rfl

theorem rests_toLower (p : Piece) (cs : List Char) :
    p.rests (cs.map Char.toLower) = (p.rests cs).map (List.map Char.toLower) := by
  cases p with
  | letter l => exact afterOne_toLower (Text.sameLetter_toLower l) cs
  | digit => exact afterOne_toLower Text.isDigit_toLower cs
  | optionalDigit =>
    rw [rests, rests, afterOne_toLower Text.isDigit_toLower, List.map_append]
    rfl
  | gap =>
    rw [rests, rests, afterOne_toLower (fun c => by simp [Text.hyphen_toLower]), List.map_append]
    rfl

end Piece

namespace Trigger

variable {t : Trigger} {before : Option Char} {cs rest : List Char}

theorem restsAfter_toLower (ps : List Piece) (cs : List Char) :
    restsAfter ps (cs.map Char.toLower) = (restsAfter ps cs).map (List.map Char.toLower) := by
  induction ps generalizing cs with
  | nil => rfl
  | cons p ps ih =>
    rw [restsAfter, restsAfter, Piece.rests_toLower, List.flatMap_map, List.map_flatMap]
    simp only [ih]

theorem upTo_toLower (cs rest : List Char) :
    upTo (cs.map Char.toLower) (rest.map Char.toLower) = (upTo cs rest).map Char.toLower := by
  rw [upTo, upTo, List.length_map, List.length_map, List.map_take]

theorem matchAt?_toLower (t : Trigger) (before : Option Char) (cs : List Char) :
    t.matchAt? (before.map Char.toLower) (cs.map Char.toLower) =
      (t.matchAt? before cs).map (List.map Char.toLower) := by
  have hrests : t.flatMap (restsAfter · (cs.map Char.toLower)) =
      (t.flatMap (restsAfter · cs)).map (List.map Char.toLower) := by
    rw [List.map_flatMap]
    simp only [restsAfter_toLower]
  have hend (rest : List Char) :
      Text.isBoundary ((upTo (cs.map Char.toLower) (rest.map Char.toLower)).getLast? <|>
          before.map Char.toLower) (rest.map Char.toLower).head? =
        Text.isBoundary ((upTo cs rest).getLast? <|> before) rest.head? := by
    rw [upTo_toLower, List.getLast?_map, List.head?_map, ← Text.isBoundary_toLower _ rest.head?]
    cases (upTo cs rest).getLast? <;> rfl
  rw [matchAt?, matchAt?, List.head?_map, Text.isBoundary_toLower, hrests, List.find?_map]
  split
  · exact congrArg (Option.map _) (congrArg (List.find? · _) (funext hend))
  · rfl

/-- What follows the trigger, if it takes any of the text. -/
def matchAhead? (t : Trigger) (before : Option Char) (cs : List Char) : Option (List Char) :=
  (t.matchAt? before cs).filter fun rest => rest.length < cs.length

theorem matchAhead?_toLower (t : Trigger) (before : Option Char) (cs : List Char) :
    t.matchAhead? (before.map Char.toLower) (cs.map Char.toLower) =
      (t.matchAhead? before cs).map (List.map Char.toLower) := by
  rw [matchAhead?, matchAhead?, matchAt?_toLower, Option.filter_map, List.length_map]
  refine congrArg (Option.map _) (congrArg (Option.filter · _) (funext fun rest => ?_))
  rw [Function.comp, List.length_map]

theorem matchesFrom_of_matchAhead? (h : t.matchAhead? before cs = some rest) (index : Nat)
    (afterMatch : Bool) :
    t.matchesFrom index before afterMatch cs =
      ⟨index, upTo cs rest⟩ ::
        t.matchesFrom (index + Text.byteLength (upTo cs rest)) (upTo cs rest).getLast? true rest := by
  rw [matchesFrom.eq_def]
  split
  · next left hleft =>
    obtain rfl : left = rest := Option.some.inj (hleft.symm.trans h)
    rfl
  · next hnone =>
    cases hnone.symm.trans h

theorem matchesFrom_of_matchAhead?_eq_none (h : t.matchAhead? before cs = none) (index : Nat)
    (afterMatch : Bool) :
    t.matchesFrom index before afterMatch cs =
      (if (t.matchAt? before cs).isSome && !afterMatch then [⟨index, []⟩] else []) ++
        match cs with
        | [] => []
        | c :: rest => t.matchesFrom (index + c.utf8Size) (some c) false rest := by
  rw [matchesFrom.eq_def]
  split
  · next left hleft =>
    cases hleft.symm.trans h
  · cases cs <;> rfl

theorem matchesFrom_toLower (index : Nat) (before : Option Char) (afterMatch : Bool)
    (cs : List Char) :
    t.matchesFrom index (before.map Char.toLower) afterMatch (cs.map Char.toLower) =
      (t.matchesFrom index before afterMatch cs).map Match.lowered := by
  fun_induction matchesFrom t index before afterMatch cs with
  | case1 index before afterMatch cs rest h hlt text ih =>
    have hahead : t.matchAhead? (before.map Char.toLower) (cs.map Char.toLower) =
        some (rest.map Char.toLower) := by
      rw [matchAhead?_toLower, matchAhead?, h]
      rfl
    rw [matchesFrom_of_matchAhead? hahead, upTo_toLower, Text.byteLength_toLower, List.getLast?_map,
      ih]
    rfl
  | case2 index before afterMatch cs h ih =>
    have hahead : t.matchAhead? (before.map Char.toLower) (cs.map Char.toLower) = none := by
      rw [matchAhead?_toLower, matchAhead?, h]
      rfl
    rw [matchesFrom_of_matchAhead?_eq_none hahead, matchAt?_toLower, Option.isSome_map, List.map_append]
    congr 1
    · split <;> rfl
    · cases cs with
      | nil => rfl
      | cons c cs =>
        show t.matchesFrom (index + c.toLower.utf8Size) (some c.toLower) false
          (cs.map Char.toLower) = _
        rw [Text.utf8Size_toLower]
        exact ih

theorem findAll_toLower (t : Trigger) (cs : List Char) :
    t.findAll (cs.map Char.toLower) = (t.findAll cs).map Match.lowered :=
  matchesFrom_toLower 0 none false cs

end Trigger

theorem Ordinal.read?_toLower (s : String) : read? s.toLower = read? s := by
  have hlower : Text.lower (Text.trim s.toLower) = Text.lower (Text.trim s) := by
    rw [Text.trim_toLower, Text.lower_toLower]
  unfold read?
  dsimp only
  rw [hlower]

end CasualDate
