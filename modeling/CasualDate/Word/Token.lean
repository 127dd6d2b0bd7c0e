import CasualDate.Text.Alphanumeric
import CasualDate.Text.Slice
import CasualDate.Text.CharTable
import CasualDate.Word.Spelling

/-!
# Tokens

A text is split into tokens: each of the marks `, : / - .` by itself, and each longest run of
letters and numbers that does not change between ASCII digits and anything else. All other
characters only separate.
-/

namespace CasualDate

/-- A word and the bytes of the text that spell it. -/
structure Token where
  word : Word
  start : Nat
  stop : Nat
deriving DecidableEq

namespace Token

/-- What a character contributes to the tokens. -/
inductive Kind where
  | separator
  | mark (w : Word)
  | letter
  | digit
deriving DecidableEq

def kindOf (c : Char) : Kind :=
  if Text.isSpace c then .separator
  else if c = ',' then .mark .comma
  else if c = ':' then .mark .colon
  else if c = '/' then .mark .slash
  else if c = '-' then .mark .dash
  else if c = '.' then .mark .dot
  else if c.isDigit then .digit
  else if Text.isAlphanumeric c then .letter
  else .separator

/-- The rest of the run that a character of the given kind begins. -/
def runTail (k : Kind) (cs : List Char) : List Char :=
  cs.takeWhile fun c => kindOf c = k

def afterRun (k : Kind) (cs : List Char) : List Char :=
  cs.dropWhile fun c => kindOf c = k

theorem runTail_append_afterRun (k : Kind) (cs : List Char) :
    runTail k cs ++ afterRun k cs = cs :=
  List.takeWhile_append_dropWhile

theorem length_afterRun_le (k : Kind) (cs : List Char) : (afterRun k cs).length ≤ cs.length :=
  (List.dropWhile_sublist _).length_le

/-- The tokens of a text that begins at byte `start`. -/
def lexFrom (start : Nat) : List Char → List Token
  | [] => []
  | c :: cs =>
    match kindOf c with
    | .separator => lexFrom (start + c.utf8Size) cs
    | .mark w => ⟨w, start, start + c.utf8Size⟩ :: lexFrom (start + c.utf8Size) cs
    | k =>
      let run := c :: runTail k cs
      let stop := start + Text.byteLength run
      ⟨.ofRun run, start, stop⟩ :: lexFrom stop (afterRun k cs)
termination_by cs => cs.length
decreasing_by
  · simp
  · simp
  · have := length_afterRun_le k cs
    simp only [List.length_cons]
    omega

def lex (cs : List Char) : List Token :=
  lexFrom 0 cs

end Token

end CasualDate
