import CasualDate.Proofs.Text.Apart
import CasualDate.Proofs.Word.OfRun
import CasualDate.Shape

/-!
# Texts without a special shape

Every shape is begun by words with a certain pair of letters in them: "this", "next", "last day
of", "end of" and "mid". A text in which the letters of each are apart has no special shape
(`ofText_eq_other_of_apart`), such as one in which no pair of a fixed choice stands side by side
(`ofText_eq_other`).
-/

namespace CasualDate

namespace Shape

/-- Pairs of letters in the words of the shapes. -/
def pairs : List (Char × Char) :=
  [('h', 'i'), ('e', 'x'), ('o', 'f'), ('m', 'i')]

/-- The two characters are none of the pairs, in any case. -/
def Quiet (c d : Char) : Prop :=
  ∀ p ∈ pairs, (Text.sameLetter p.1 c && Text.sameLetter p.2 d) = false

instance (c d : Char) : Decidable (Quiet c d) :=
  inferInstanceAs (Decidable (∀ p ∈ pairs, _))

/-- The character is in none of the pairs. -/
def isSilent (c : Char) : Bool :=
  pairs.all fun p => !Text.sameLetter p.1 c && !Text.sameLetter p.2 c

variable {c d : Char} {cs : List Char}

theorem quiet_of_isSilent_left (h : isSilent c = true) : Quiet c d := by
  intro p hp
  have := List.all_eq_true.1 h p hp
  simp at this
  simp [this.1]

theorem quiet_of_isSilent_right (h : isSilent d = true) : Quiet c d := by
  intro p hp
  have := List.all_eq_true.1 h p hp
  simp at this
  simp [this.2]

theorem isSilent_of_isDigit (h : c.isDigit = true) : isSilent c = true := by
  have hall : Text.digits.all isSilent = true := by decide +kernel
  exact Text.of_isDigit hall h

theorem isChain_of_isSilent (h : ∀ c ∈ cs, isSilent c = true) : cs.IsChain Quiet := by
  induction cs with
  | nil => exact .nil
  | cons c cs ih =>
    obtain ⟨hc, hcs⟩ := List.forall_mem_cons.1 h
    exact (ih hcs).cons fun d _ => quiet_of_isSilent_left hc

theorem firstWordAfter?_eq_none {a b : Char} (front back : List Char)
    (h : Text.Apart (Text.sameLetter a) (Text.sameLetter b) cs) :
    firstWordAfter? (front ++ a :: b :: back) cs = none := by
  induction cs with
  | nil => rfl
  | cons c cs ih =>
    rw [firstWordAfter?, wordAfter?, Text.dropWord?_eq_none front back h, ih h.tail]
    rfl

theorem remainder?_eq_none (h : Text.Apart (Text.sameLetter 'o') (Text.sameLetter 'f') cs) :
    remainder? cs = none := by
  induction cs with
  | nil => rfl
  | cons c cs ih =>
    have hlast : Text.dropWord? "last day of".toList (c :: cs) = none :=
      Text.dropWord?_eq_none "last day ".toList [] h
    have hend : Text.dropWord? "end of".toList (c :: cs) = none :=
      Text.dropWord?_eq_none "end ".toList [] h
    rw [remainder?, hlast, hend]
    exact ih h.tail

theorem ofText_eq_other_of_apart {text : String}
    (hthis : Text.Apart (Text.sameLetter 'h') (Text.sameLetter 'i') text.toList)
    (hnext : Text.Apart (Text.sameLetter 'e') (Text.sameLetter 'x') text.toList)
    (hof : Text.Apart (Text.sameLetter 'o') (Text.sameLetter 'f') text.toList)
    (hmid : firstWordAfter? "mid".toList text.toList = none) : ofText text = other := by
  have hthis : firstWordAfter? "this".toList text.toList = none :=
    firstWordAfter?_eq_none ['t'] ['s'] hthis
  have hnext : firstWordAfter? "next".toList text.toList = none :=
    firstWordAfter?_eq_none ['n'] ['t'] hnext
  simp only [ofText, periodAfter?, hthis, hnext, hmid, remainder?_eq_none hof, Option.bind_none]

theorem apart_of_mem_pairs {a b : Char} (hpair : (a, b) ∈ pairs) (h : cs.IsChain Quiet) :
    Text.Apart (Text.sameLetter a) (Text.sameLetter b) cs :=
  h.imp fun _ _ hquiet => hquiet (a, b) hpair

theorem ofText_eq_other {text : String} (h : text.toList.IsChain Quiet) : ofText text = other :=
  ofText_eq_other_of_apart (apart_of_mem_pairs (by decide) h) (apart_of_mem_pairs (by decide) h)
    (apart_of_mem_pairs (by decide) h)
    (firstWordAfter?_eq_none [] ['d'] (apart_of_mem_pairs (a := 'm') (b := 'i') (by decide) h))

end Shape

end CasualDate
