import CasualDate.Text.Folding
import CasualDate.Text.Lowercase
import CasualDate.Text.Slice
import CasualDate.Text.CharTable
import CasualDate.Text.WordChar

/-!
# The case of ASCII letters

`Char.toLower` and `String.toLower` change letters of ASCII only, so a property of characters does not
depend on the case of these letters if it does not among the first 128 characters (`apply_toLower`).
All that texts are read by is of this kind (`readings_toLower`), and so the ways to read a text commute
with lower case.
-/

namespace CasualDate.Text

variable {c : Char}

theorem toLower_of_le (h : 128 ≤ c.toNat) : c.toLower = c := by
  unfold Char.toLower
  split
  · next hupper =>
    have hle : c.toNat ≤ 90 := UInt32.le_iff_toNat_le.1 hupper.2
    omega
  · rfl

/-- What does not depend on case among the first 128 characters does not depend on the case of
letters of ASCII. -/
theorem apply_toLower {α : Type} {f : Char → α}
    (hall : ∀ n < 128, f (Char.ofNat n).toLower = f (Char.ofNat n)) (c : Char) :
    f c.toLower = f c := by
  rcases Nat.lt_or_ge c.toNat 128 with hc | hc
  · have hchar := hall c.toNat hc
    rwa [Char.ofNat_toNat] at hchar
  · rw [toLower_of_le hc]

/-! ### Characters -/

/-- All that is read of a character by itself. -/
structure Readings where
  utf8Size : Nat
  isDigit : Bool
  isSpace : Bool
  isWordChar : Bool
  isHyphen : Bool
  isCapitalSigma : Bool
  isCaseIgnorable : Bool
  isCased : Bool
  toLower : Char
  foldChar : Char
  lowerChar : List Char
deriving DecidableEq

def readings (c : Char) : Readings where
  utf8Size := c.utf8Size
  isDigit := c.isDigit
  isSpace := isSpace c
  isWordChar := isWordChar c
  isHyphen := c = '-'
  isCapitalSigma := c = '\u03a3'
  isCaseIgnorable := caseIgnorableTable.contains c
  isCased := casedTable.contains c
  toLower := c.toLower
  foldChar := foldChar c
  lowerChar := lowerChar c

theorem readings_toLower (c : Char) : readings c.toLower = readings c :=
  apply_toLower (by decide +kernel) c

@[simp] theorem utf8Size_toLower (c : Char) : c.toLower.utf8Size = c.utf8Size :=
  congrArg Readings.utf8Size (readings_toLower c)

@[simp] theorem isDigit_toLower (c : Char) : c.toLower.isDigit = c.isDigit :=
  congrArg Readings.isDigit (readings_toLower c)

@[simp] theorem isSpace_toLower (c : Char) : isSpace c.toLower = isSpace c :=
  congrArg Readings.isSpace (readings_toLower c)

@[simp] theorem isWordChar_toLower (c : Char) : isWordChar c.toLower = isWordChar c :=
  congrArg Readings.isWordChar (readings_toLower c)

theorem hyphen_toLower (c : Char) : c.toLower = '-' ↔ c = '-' :=
  decide_eq_decide.1 (congrArg Readings.isHyphen (readings_toLower c))

theorem capitalSigma_toLower (c : Char) : c.toLower = '\u03a3' ↔ c = '\u03a3' :=
  decide_eq_decide.1 (congrArg Readings.isCapitalSigma (readings_toLower c))

@[simp] theorem foldChar_toLower (c : Char) : foldChar c.toLower = foldChar c :=
  congrArg Readings.foldChar (readings_toLower c)

@[simp] theorem sameLetter_toLower (l c : Char) : sameLetter l c.toLower = sameLetter l c := by
  rw [sameLetter, foldChar_toLower, sameLetter]

@[simp] theorem lowerChar_toLower (c : Char) : lowerChar c.toLower = lowerChar c :=
  congrArg Readings.lowerChar (readings_toLower c)

theorem isBoundary_toLower (before after : Option Char) :
    isBoundary (before.map Char.toLower) (after.map Char.toLower) = isBoundary before after := by
  simp [isBoundary, Option.any_map]

/-! ### Texts -/

variable {p : Char → Bool}

theorem takeWhile_toLower (h : ∀ c, p c.toLower = p c) (cs : List Char) :
    (cs.map Char.toLower).takeWhile p = (cs.takeWhile p).map Char.toLower := by
  have hp : p ∘ Char.toLower = p := funext h
  rw [List.takeWhile_map, hp]

theorem dropWhile_toLower (h : ∀ c, p c.toLower = p c) (cs : List Char) :
    (cs.map Char.toLower).dropWhile p = (cs.dropWhile p).map Char.toLower := by
  have hp : p ∘ Char.toLower = p := funext h
  rw [List.dropWhile_map, hp]

@[simp] theorem byteLength_toLower (cs : List Char) :
    byteLength (cs.map Char.toLower) = byteLength cs := by
  induction cs with
  | nil => rfl
  | cons c cs ih => simp [ih]

theorem dropBytes_toLower (n : Nat) (cs : List Char) :
    dropBytes n (cs.map Char.toLower) = (dropBytes n cs).map Char.toLower := by
  induction cs generalizing n with
  | nil => rfl
  | cons c cs ih =>
    rw [List.map_cons, dropBytes, dropBytes, utf8Size_toLower, ih]
    split <;> rfl

theorem takeBytes_toLower (n : Nat) (cs : List Char) :
    takeBytes n (cs.map Char.toLower) = (takeBytes n cs).map Char.toLower := by
  induction cs generalizing n with
  | nil => rfl
  | cons c cs ih =>
    rw [List.map_cons, takeBytes, takeBytes, utf8Size_toLower, ih]
    split <;> rfl

theorem slice_toLower (cs : List Char) (start stop : Nat) :
    slice (cs.map Char.toLower) start stop = (slice cs start stop).map Char.toLower := by
  rw [slice, dropBytes_toLower, takeBytes_toLower, slice]

@[simp] theorem toList_toLower (s : String) : s.toLower.toList = s.toList.map Char.toLower :=
  String.toList_map

theorem ofList_toLower (cs : List Char) :
    String.ofList (cs.map Char.toLower) = (String.ofList cs).toLower := by
  rw [← String.toList_inj, toList_toLower, String.toList_ofList, String.toList_ofList]

theorem toLower_toLower (s : String) : s.toLower.toLower = s.toLower := by
  rw [← String.toList_inj, toList_toLower, toList_toLower, List.map_map]
  exact List.map_congr_left fun c _ => congrArg Readings.toLower (readings_toLower c)

@[simp] theorem utf8ByteSize_toLower (s : String) : s.toLower.utf8ByteSize = s.utf8ByteSize := by
  rw [utf8ByteSize_eq, utf8ByteSize_eq, toList_toLower, byteLength_toLower]

theorem dropWord?_toLower (word cs : List Char) :
    dropWord? word (cs.map Char.toLower) = (dropWord? word cs).map (List.map Char.toLower) := by
  induction word generalizing cs with
  | nil => rfl
  | cons w word ih =>
    cases cs with
    | nil => rfl
    | cons c cs =>
      rw [List.map_cons, dropWord?, dropWord?, sameLetter_toLower, ih]
      split <;> rfl

theorem trim_toLower (s : String) : trim s.toLower = (trim s).toLower := by
  have hspace (cs : List Char) : (cs.map Char.toLower).dropWhile isSpace =
      (cs.dropWhile isSpace).map Char.toLower := dropWhile_toLower isSpace_toLower cs
  rw [trim, trim, ← ofList_toLower, toList_toLower, trimChars, trimChars, hspace,
    ← List.map_reverse, hspace, ← List.map_reverse]

theorem meetsCased_toLower (cs : List Char) : meetsCased (cs.map Char.toLower) = meetsCased cs := by
  have hignorable (c : Char) :
      caseIgnorableTable.contains c.toLower = caseIgnorableTable.contains c :=
    congrArg Readings.isCaseIgnorable (readings_toLower c)
  have hcased (c : Char) : casedTable.contains c.toLower = casedTable.contains c :=
    congrArg Readings.isCased (readings_toLower c)
  rw [meetsCased, dropWhile_toLower hignorable, List.head?_map, Option.any_map, meetsCased]
  simp only [hcased]

theorem lowerFrom_toLower (before cs : List Char) :
    lowerFrom (before.map Char.toLower) (cs.map Char.toLower) = lowerFrom before cs := by
  induction cs generalizing before with
  | nil => rfl
  | cons c cs ih =>
    rw [List.map_cons, lowerFrom, lowerFrom, meetsCased_toLower, meetsCased_toLower,
      lowerChar_toLower, ← List.map_cons, ih]
    simp only [capitalSigma_toLower]

theorem lower_toLower (s : String) : lower s.toLower = lower s := by
  rw [lower, toList_toLower, ← List.map_nil (f := Char.toLower), lowerFrom_toLower, lower]

end CasualDate.Text
