import CasualDate.Pattern
import CasualDate.Text.Folding
import CasualDate.Text.CharTable
import CasualDate.Text.WordChar

/-!
# Triggers

A trigger is a choice of short sequences of pieces that must stand between word boundaries. Its
matches are found from left to right and do not overlap; at one place the first choice that fits
decides, and it takes what it can of its optional pieces. `pattern` is the pattern of a trigger.
-/

namespace CasualDate

inductive Piece where
  /-- The letter in any case. -/
  | letter (c : Char)
  | digit
  | optionalDigit
  /-- A hyphen, a white space character or nothing. -/
  | gap
deriving DecidableEq

namespace Piece

/-- The characters after one that satisfies `p`, if the text begins so. -/
def afterOne (p : Char → Bool) : List Char → List (List Char)
  | [] => []
  | c :: cs => if p c then [cs] else []

/-- What can follow the piece at the start of a text, most of the text taken first. -/
def rests : Piece → List Char → List (List Char)
  | letter l, cs => afterOne (Text.sameLetter l) cs
  | digit, cs => afterOne Char.isDigit cs
  | optionalDigit, cs => afterOne Char.isDigit cs ++ [cs]
  | gap, cs => afterOne (fun c => c = '-' || Text.isSpace c) cs ++ [cs]

theorem suffix_of_mem_afterOne {p : Char → Bool} {cs rest : List Char}
    (h : rest ∈ afterOne p cs) : rest <:+ cs := by
  cases cs with
  | nil => cases h
  | cons c cs =>
    simp only [afterOne] at h
    split at h
    · obtain rfl := List.mem_singleton.1 h
      exact List.suffix_cons c _
    · cases h

theorem suffix_of_mem_rests {p : Piece} {cs rest : List Char} (h : rest ∈ p.rests cs) :
    rest <:+ cs := by
  cases p with
  | letter | digit => exact suffix_of_mem_afterOne h
  | optionalDigit | gap =>
    rcases List.mem_append.1 h with h | h
    · exact suffix_of_mem_afterOne h
    · obtain rfl := List.mem_singleton.1 h
      exact List.suffix_refl _

end Piece

/-- The choices of a trigger, in order of preference. -/
abbrev Trigger := List (List Piece)

namespace Trigger

def word (s : String) : Trigger :=
  [s.toList.map .letter]

/-- What can follow a choice at the start of a text. -/
def restsAfter : List Piece → List Char → List (List Char)
  | [], cs => [cs]
  | p :: ps, cs => (p.rests cs).flatMap (restsAfter ps)

/-- The characters of `cs` before its end `rest`. -/
def upTo (cs rest : List Char) : List Char :=
  cs.take (cs.length - rest.length)

theorem suffix_of_mem_restsAfter {ps : List Piece} {cs rest : List Char}
    (h : rest ∈ restsAfter ps cs) : rest <:+ cs := by
  induction ps generalizing cs with
  | nil =>
    obtain rfl := List.mem_singleton.1 h
    exact List.suffix_refl _
  | cons p ps ih =>
    obtain ⟨mid, hmid, hrest⟩ := List.mem_flatMap.1 h
    exact (ih hrest).trans (Piece.suffix_of_mem_rests hmid)

theorem upTo_append {cs rest : List Char} (h : rest <:+ cs) : upTo cs rest ++ rest = cs := by
  obtain ⟨front, rfl⟩ := h
  simp [upTo]

/-- What follows the trigger at the start of a text, `before` being the character in front. -/
def matchAt? (t : Trigger) (before : Option Char) (cs : List Char) : Option (List Char) :=
  if Text.isBoundary before cs.head? then
    (t.flatMap (restsAfter · cs)).find? fun rest =>
      Text.isBoundary ((upTo cs rest).getLast? <|> before) rest.head?
  else none

theorem suffix_of_matchAt? {t : Trigger} {before : Option Char} {cs rest : List Char}
    (h : t.matchAt? before cs = some rest) : rest <:+ cs := by
  unfold matchAt? at h
  split at h
  · obtain ⟨choice, -, hrest⟩ := List.mem_flatMap.1 (List.mem_of_find?_eq_some h)
    exact suffix_of_mem_restsAfter hrest
  · cases h

/-- The matches in the rest of a text that begins at byte `index`. A match of no characters does
not count right after another match. -/
def matchesFrom (t : Trigger) (index : Nat) (before : Option Char) (afterMatch : Bool)
    (cs : List Char) : List Match :=
  match h : (t.matchAt? before cs).filter (fun rest => rest.length < cs.length) with
  | some rest =>
    have hlt : rest.length < cs.length := by simpa using (Option.filter_eq_some_iff.mp h).2
    let text := upTo cs rest
    ⟨index, text⟩ :: matchesFrom t (index + Text.byteLength text) text.getLast? true rest
  | none =>
    (if (t.matchAt? before cs).isSome && !afterMatch then [⟨index, []⟩] else []) ++
      match cs with
      | [] => []
      | c :: rest => matchesFrom t (index + c.utf8Size) (some c) false rest
termination_by cs.length

def findAll (t : Trigger) (cs : List Char) : List Match :=
  matchesFrom t 0 none false cs

theorem placed_matchesFrom (t : Trigger) (index : Nat) (before : Option Char) (afterMatch : Bool)
    (cs : List Char) (front : List Char) (hfront : Text.byteLength front = index) :
    Match.Placed (front ++ cs) (t.matchesFrom index before afterMatch cs) ∧
      ∀ m ∈ t.matchesFrom index before afterMatch cs, index ≤ m.index := by
  fun_induction matchesFrom t index before afterMatch cs generalizing front with
  | case1 index before afterMatch cs rest h hlt text ih =>
    have hsuffix : rest <:+ cs := suffix_of_matchAt? (Option.filter_eq_some_iff.1 h).1
    have hcs : text ++ rest = cs := upTo_append hsuffix
    obtain ⟨hplaced, hle⟩ := ih (front ++ text) (by rw [Text.byteLength_append, hfront])
    rw [List.append_assoc, hcs] at hplaced
    refine ⟨hplaced.cons ⟨front, rest, by simp [hcs], hfront⟩ hle, ?_⟩
    refine List.forall_mem_cons.2 ⟨Nat.le_refl _, fun m hm => ?_⟩
    exact Nat.le_trans (Nat.le_add_right ..) (hle m hm)
  | case2 index before afterMatch cs h ih =>
    have hempty : Text.StandsAt (front ++ cs) index [] := ⟨front, cs, by simp, hfront⟩
    cases cs with
    | nil =>
      split
      · exact ⟨Match.Placed.nil.cons hempty (by simp), by simp⟩
      · exact ⟨Match.Placed.nil, by simp⟩
    | cons c rest =>
      obtain ⟨hplaced, hle⟩ := ih (front ++ [c]) (by simp [hfront])
      have hle' := fun m hm => Nat.le_trans (Nat.le_add_right index c.utf8Size) (hle m hm)
      rw [List.append_assoc] at hplaced
      split
      · exact ⟨hplaced.cons hempty hle', List.forall_mem_cons.2 ⟨Nat.le_refl _, hle'⟩⟩
      · exact ⟨hplaced, hle'⟩

def pattern (t : Trigger) : Pattern where
  findAll := t.findAll
  placed cs := (placed_matchesFrom t 0 none false cs [] rfl).1

end Trigger

end CasualDate
