import CasualDate.Components
import CasualDate.Expr.Moment
import CasualDate.Word.Token

/-!
# Scanning a text for expressions

From each token that can begin an expression the longest one is read. One that names an instant is
found and the scan goes on behind it; otherwise the scan goes on at the next token. A number by
itself is passed over.
-/

namespace CasualDate

/-- Whether an expression can begin with the word. -/
def Word.startsExpression : Word → Bool
  | unknown | comma | colon | dot | dash | slash => false
  | andWord | onWord | atWord | ofWord | ordinalSuffix => false
  | _ => true

inductive Step where
  | found (index : Nat) (text : String) (e : MomentExpr) (value : Instant)
  | skipped (text : String) (e : Error)
  /-- The evaluation of an expression broke down; nothing behind it is looked at. -/
  | broken (cause : Breakdown)
deriving DecidableEq

namespace Step

/-- Why the scan ended at the step, if it did. -/
def breakdown? : Step → Option Breakdown
  | broken cause => some cause
  | _ => none

/-- The steps over the tokens that are left of a text. -/
def scanFrom (text : List Char) (reference : Instant) : List Token → List Step
  | [] => []
  | t :: ts =>
    if !t.word.startsExpression then scanFrom text reference ts
    else
      match MomentExpr.parse? ((t :: ts).map Token.word) with
      | none => scanFrom text reference ts
      | some p =>
        if p.value.isBareNumber then scanFrom text reference ts
        else
          let last := (t :: ts).getD (p.consumed - 1) t
          let span := String.ofList (Text.slice text t.start last.stop)
          match p.value.evaluate reference with
          | .ok value =>
            .found t.start span p.value value ::
              scanFrom text reference (ts.drop (p.consumed - 1))
          | .error (.refused e) => .skipped span e :: scanFrom text reference ts
          | .error (.broken cause) => [.broken cause]
termination_by ts => ts.length
decreasing_by
  · simp
  · simp
  · simp
  · simp only [List.length_drop, List.length_cons]
    omega
  · simp

def scan (text : String) (reference : Instant) : List Step :=
  scanFrom text.toList reference (Token.lex text.toList)

end Step

end CasualDate
