/-!
# Tables of characters

A Unicode property is stored as closed ranges of code points, ascending and disjoint, and looked up by
bisection. A case mapping is stored as runs of code points at a fixed step that all move by the same
shift. The property `White_Space` has so few characters that they are listed.
-/

namespace CasualDate.Text

/-- Closed ranges `(first, last)` of code points, ascending and disjoint. -/
structure RangeTable where
  ranges : Array (Nat × Nat)

namespace RangeTable

/-- Whether one of the ranges with an index in `[lo, hi)` holds `n`. -/
def search (t : RangeTable) (n lo hi : Nat) (h : hi ≤ t.ranges.size) : Bool :=
  if hlt : lo < hi then
    let mid := lo + (hi - lo) / 2
    have hmid : mid < t.ranges.size := by omega
    if n < t.ranges[mid].1 then t.search n lo mid (by omega)
    else if t.ranges[mid].2 < n then t.search n (mid + 1) hi h
    else true
  else false
termination_by hi - lo

/-- Whether the character's code point lies in one of the ranges. -/
def contains (t : RangeTable) (c : Char) : Bool :=
  t.search c.toNat 0 t.ranges.size (Nat.le_refl _)

end RangeTable

/-- The code points `first`, `first + step`, …, `last`, each mapped `shift` further on. -/
structure CaseRun where
  first : Nat
  last : Nat
  step : Nat
  shift : Int

namespace CaseRun

/-- Whether the run maps the code point. -/
def covers (r : CaseRun) (n : Nat) : Bool :=
  r.first ≤ n && n ≤ r.last && (n - r.first) % r.step == 0

/-- The character that the first run to cover `c` maps it to, or `c` itself. -/
def map (runs : List CaseRun) (c : Char) : Char :=
  match runs.find? (·.covers c.toNat) with
  | some r => Char.ofNat (c.toNat + r.shift).toNat
  | none => c

end CaseRun

/-- The characters with the property `White_Space`. -/
def isSpace (c : Char) : Bool :=
  let n := c.toNat
  (9 ≤ n && n ≤ 13) || n == 0x20 || n == 0x85 || n == 0xa0 || n == 0x1680 ||
    (0x2000 ≤ n && n ≤ 0x200a) || n == 0x2028 || n == 0x2029 || n == 0x202f || n == 0x205f ||
    n == 0x3000

/-- The characters without the white space at their two ends. -/
def trimChars (cs : List Char) : List Char :=
  ((cs.dropWhile isSpace).reverse.dropWhile isSpace).reverse

def trim (s : String) : String :=
  String.ofList (trimChars s.toList)

end CasualDate.Text
