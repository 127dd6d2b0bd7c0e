/-!
# Decimal numbers

Numbers written with a least width and numbers read digit by digit. A minus sign counts in the
width: minus five at width four is `-005`.
-/

namespace CasualDate.Text

def decimal (n : Nat) : List Char :=
  Nat.toDigits 10 n

/-- The digits with zeros in front, at least `width` of them. -/
def padded (width n : Nat) : List Char :=
  List.replicate (width - (decimal n).length) '0' ++ decimal n

/-- An integer in at least `width` characters, of which a minus sign is one. -/
def paddedInt (width : Nat) : Int → List Char
  | .ofNat n => padded width n
  | .negSucc n => '-' :: padded (width - 1) (n + 1)

/-- An integer with its sign and at least `width - 1` digits. -/
def paddedSigned (width : Nat) : Int → List Char
  | .ofNat n => '+' :: padded (width - 1) n
  | .negSucc n => '-' :: padded (width - 1) (n + 1)

def digitValue (c : Char) : Nat :=
  c.toNat - 0x30

/-- The number that decimal digits stand for, the first being the most significant. -/
def digitsValue (cs : List Char) : Nat :=
  cs.foldl (fun n c => 10 * n + digitValue c) 0

/-- Counts stay below this bound, 2³². -/
def countLimit : Nat :=
  4294967296

/-- A number that text can count with. -/
abbrev Count := Fin countLimit

/-- The number as a count, if it is small enough. -/
def count? (n : Nat) : Option Count :=
  if h : n < countLimit then some ⟨n, h⟩ else none

/-- The count that a non-empty run of ASCII digits writes. -/
def readCount? (cs : List Char) : Option Count :=
  if !cs.isEmpty && cs.all Char.isDigit then count? (digitsValue cs) else none

end CasualDate.Text
