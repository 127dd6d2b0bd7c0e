import CasualDate.Proofs.Text.Decimal
import CasualDate.Proofs.Text.Lowered
import CasualDate.Proofs.Token.Words

/-!
# Words that are written out

A run is the keyword that its lower case spells. If there is none it is a number, if it is all digits
and below the limit of counts, and else an unknown word (`ofRun_eq_iff`). A number in digits is one
word, with or without zeros in front: keywords are spelled in letters, so what it counts decides.
-/

namespace CasualDate

namespace Word

theorem isLower_of_ofSpelling? {s : String} {w : Word} (h : ofSpelling? s = some w) :
    s.toList ≠ [] ∧ ∀ c ∈ s.toList, c.isLower = true := by
  have hall : ∀ entry ∈ spellings, ∀ s ∈ entry.2,
      (!s.toList.isEmpty && s.toList.all Char.isLower) = true := by decide +kernel
  obtain ⟨entry, hfind, rfl⟩ := Option.map_eq_some_iff.1 h
  have hs : s ∈ entry.2 := by simpa using List.find?_some hfind
  simpa using hall entry (List.mem_of_find?_eq_some hfind) s hs

theorem ofSpelling?_of_isDigit {run : List Char} (h : ∀ c ∈ run, c.isDigit = true) :
    ofSpelling? (String.ofList run) = none := by
  rw [Option.eq_none_iff_forall_ne_some]
  intro w hw
  obtain ⟨hne, hlower⟩ := isLower_of_ofSpelling? hw
  rw [String.toList_ofList] at hne hlower
  obtain ⟨c, hc⟩ := List.exists_mem_of_ne_nil run hne
  have hletter := Text.toNat_of_isLower (hlower c hc)
  have hdigit := Char.isDigit_iff_toNat.1 (h c hc)
  have hnine : '9'.toNat = 57 := rfl
  omega

/-- A text can be lowered character by character before it is looked up. -/
theorem ofSpelling?_lower (run : List Char) : ofSpelling? (Text.lower (String.ofList run)) =
    ofSpelling? (String.ofList (run.flatMap Text.lowerChar)) := by
  have hascii {s : String} {w : Word} (h : ofSpelling? s = some w) :
      ∀ c ∈ s.toList, c.toNat < 128 := by
    intro c hc
    have hletter := Text.toNat_of_isLower ((isLower_of_ofSpelling? h).2 c hc)
    omega
  refine Option.ext fun w => ⟨fun h => ?_, fun h => ?_⟩
  · rwa [(Text.lower_eq_iff (hascii h)).1 rfl]
  · rwa [(Text.lower_eq_iff (hascii h)).2 rfl]

/-- What a run of letters or digits stands for: the keyword of its lower case if there is one, else
the number that it writes, else nothing known. -/
inductive StandsFor (run : List Char) : Word → Prop
  | keyword {w : Word} (h : ofSpelling? (Text.lower (String.ofList run)) = some w) : StandsFor run w
  | number {n : Text.Count} (hnone : ofSpelling? (Text.lower (String.ofList run)) = none)
      (hdigits : ∀ c ∈ run, c.isDigit = true) (hvalue : Text.digitsValue run = n) :
      StandsFor run (literal n)
  | unknown (hnone : ofSpelling? (Text.lower (String.ofList run)) = none)
      (hlarge : (∀ c ∈ run, c.isDigit = true) → Text.countLimit ≤ Text.digitsValue run) :
      StandsFor run unknown

theorem forall_isDigit_lowered_iff {run : List Char} :
    (∀ c ∈ run.flatMap Text.lowerChar, c.isDigit = true) ↔ ∀ c ∈ run, c.isDigit = true := by
  constructor
  · intro h c hc
    obtain ⟨d, hd⟩ := List.exists_mem_of_ne_nil _ (Text.lowerChar_ne_nil c)
    rw [← Text.isDigit_of_mem_lowerChar hd]
    exact h d (List.mem_flatMap.2 ⟨c, hc, hd⟩)
  · intro h d hd
    obtain ⟨c, hc, hmem⟩ := List.mem_flatMap.1 hd
    rw [Text.isDigit_of_mem_lowerChar hmem, h c hc]

theorem readCount?_lowered_eq_some_iff {run : List Char} {n : Text.Count} (hne : run ≠ []) :
    Text.readCount? (run.flatMap Text.lowerChar) = some n ↔
      (∀ c ∈ run, c.isDigit = true) ∧ Text.digitsValue run = n := by
  rw [Text.readCount?_eq_some_iff, forall_isDigit_lowered_iff]
  constructor
  · rintro ⟨-, hdigits, hvalue⟩
    rw [Text.flatMap_lowerChar_of_isDigit hdigits] at hvalue
    exact ⟨hdigits, hvalue⟩
  · rintro ⟨hdigits, hvalue⟩
    rw [Text.flatMap_lowerChar_of_isDigit hdigits]
    exact ⟨hne, hdigits, hvalue⟩

theorem standsFor_ofRun {run : List Char} (hne : run ≠ []) : StandsFor run (ofRun run) := by
  rw [ofRun]
  split
  · next w hw =>
    rw [← ofSpelling?_lower] at hw
    exact .keyword hw
  · next hnone =>
    rw [← ofSpelling?_lower] at hnone
    split
    · next n hn =>
      obtain ⟨hdigits, hvalue⟩ := (readCount?_lowered_eq_some_iff hne).1 hn
      exact .number hnone hdigits hvalue
    · next hn =>
      refine .unknown hnone fun hdigits => Nat.le_of_not_lt fun hlt => ?_
      have hread := (readCount?_lowered_eq_some_iff (n := ⟨_, hlt⟩) hne).2 ⟨hdigits, rfl⟩
      rw [hn] at hread
      cases hread

theorem StandsFor.unique {run : List Char} {v w : Word} (hv : StandsFor run v)
    (hw : StandsFor run w) : v = w := by
  cases hv with
  | keyword hv =>
    cases hw with
    | keyword hw => exact Option.some.inj (hv.symm.trans hw)
    | number hnone => simp [hv] at hnone
    | unknown hnone => simp [hv] at hnone
  | @number n hnone hdigits hn =>
    cases hw with
    | keyword hw => simp [hw] at hnone
    | @number m _ _ hm => exact congrArg literal (Fin.ext (hn.symm.trans hm))
    | unknown _ hlarge => exact absurd (hlarge hdigits) (Nat.not_le.2 (hn ▸ n.isLt))
  | unknown hnone hlarge =>
    cases hw with
    | keyword hw => simp [hw] at hnone
    | @number m _ hdigits hm => exact absurd (hlarge hdigits) (Nat.not_le.2 (hm ▸ m.isLt))
    | unknown => rfl

theorem ofRun_eq_iff {run : List Char} {w : Word} (hne : run ≠ []) :
    ofRun run = w ↔ StandsFor run w := by
  constructor
  · rintro rfl
    exact standsFor_ofRun hne
  · exact (standsFor_ofRun hne).unique

/-- The word that a number in digits is. -/
def ofNat (n : Nat) : Word :=
  match Text.count? n with
  | some n => literal n
  | none => unknown

theorem ofNat_eq {n : Nat} (h : n < Text.countLimit) : ofNat n = literal ⟨n, h⟩ := by
  simp [ofNat, Text.count?, h]

theorem ofRun_padded {width n : Nat} : ofRun (Text.padded width n) = ofNat n := by
  have hdigits : ∀ c ∈ Text.padded width n, c.isDigit = true := fun c hc =>
    Text.isDigit_of_mem_padded hc
  simp only [ofRun, Text.flatMap_lowerChar_of_isDigit hdigits, ofSpelling?_of_isDigit hdigits,
    Text.readCount?_padded]
  rfl

end Word

namespace Token

theorem kindOf_of_isDigit {c : Char} (h : c.isDigit = true) : kindOf c = .digit := by
  have hall : Text.digits.all (fun c => kindOf c = .digit) = true := by decide +kernel
  simpa using Text.of_isDigit hall h

theorem words_padded {width n : Nat} {rest : List Char}
    (hrest : ∀ c ∈ rest.head?, kindOf c ≠ .digit) :
    words (Text.padded width n ++ rest) = .ofNat n :: words rest := by
  rw [words_run Text.padded_ne_nil (fun c hc => kindOf_of_isDigit (Text.isDigit_of_mem_padded hc))
    (by simp) (by simp) hrest, Word.ofRun_padded]

end Token

end CasualDate
