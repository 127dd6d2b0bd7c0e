import CasualDate.Proofs.Text.Spelled
import CasualDate.Shape
import Mathlib.Data.Nat.Find

/-!
# Where a period is named

A shape with a period looks at the first place where "this" or "next" has a word after it, whatever
the word and even inside a longer one (`FirstWordAt`, `periodAfter?_eq_some_iff`). What a reader
takes for the phrase is a place where this word is the name of a period (`PhraseAt`). Each is a
place that the shape may look at, but it need not be the first (`PhraseAt.wordAt`).
-/

namespace CasualDate

namespace Period

variable {p : Period} {cs : List Char} {c : Char}

theorem isWordChar_of_spells (h : Text.SpellsAscii p.name.toList cs) (hc : c ∈ cs) :
    Text.isWordChar c = true := by
  have hall : p.name.toList.all Text.isWordChar = true := by
    cases p <;> rfl
  have hname (d : Char) (hd : d ∈ p.name.toList) : Text.isWordChar d.toLower = true := by
    rw [Text.isWordChar_toLower]
    exact List.all_eq_true.1 hall d hd
  rw [← Text.isWordChar_toLower]
  exact h.of_mem (p := fun c => Text.isWordChar c = true) hname hc

theorem ofName?_of_spells (h : Text.SpellsAscii p.name.toList cs) :
    ofName? (String.ofList cs) = some p := by
  have hlower : Text.lower (String.ofList cs) = Text.lower p.name := by
    rw [← Text.lower_toLower, ← Text.ofList_toLower, h, Text.ofList_toLower, String.ofList_toList,
      Text.lower_toLower]
  have hname : ofName? p.name = some p := by
    cases p <;> decide +kernel
  rw [ofName?, hlower, ← ofName?, hname]

end Period

namespace Shape

variable {trigger cs word : List Char} {m n : Nat} {p : Period}

/-- The text begins with the trigger in any case, a white space character and then this word. -/
def BeginsWith (trigger word cs : List Char) : Prop :=
  ∃ spelled space rest, cs = spelled ++ space :: (word ++ rest) ∧ Text.Spells trigger spelled ∧
    Text.isSpace space = true ∧ word ≠ [] ∧ (∀ c ∈ word, Text.isWordChar c = true) ∧
    ∀ c ∈ rest.head?, Text.isWordChar c = false

theorem wordAfter?_eq_some_iff :
    wordAfter? trigger cs = some word ↔ BeginsWith trigger word cs := by
  unfold wordAfter?
  constructor
  · intro h
    split at h
    · next c rest hdrop =>
      obtain ⟨spelled, rfl, hspelled⟩ := Text.dropWord?_eq_some_iff.1 hdrop
      obtain ⟨hspace, hword⟩ := Option.ite_none_right_eq_some.1 h
      obtain ⟨after, hafter, hall, hend⟩ := Text.takeWhile_eq_iff.1 (Option.some.inj hword)
      simp only [Bool.and_eq_true] at hspace
      refine ⟨spelled, c, after, by rw [hafter], hspelled, hspace.1, ?_, hall, hend⟩
      rintro rfl
      simp [Option.some.inj hword] at hspace
    · cases h
  · rintro ⟨spelled, space, rest, rfl, hspelled, hspace, hword, hall, hend⟩
    rw [Text.dropWord?_eq_some_iff.2 ⟨spelled, rfl, hspelled⟩]
    have htake : (word ++ rest).takeWhile Text.isWordChar = word :=
      Text.takeWhile_eq_iff.2 ⟨rest, rfl, hall, hend⟩
    simp [htake, hspace, hword]

/-- At this place the trigger has the word after it. -/
def WordAt (trigger cs : List Char) (n : Nat) (word : List Char) : Prop :=
  BeginsWith trigger word (cs.drop n)

/-- This is the first place where the trigger has a word after it. -/
def FirstWordAt (trigger cs : List Char) (n : Nat) (word : List Char) : Prop :=
  WordAt trigger cs n word ∧ ∀ m < n, ∀ w, ¬ WordAt trigger cs m w

instance : Decidable (BeginsWith trigger word cs) :=
  decidable_of_iff _ wordAfter?_eq_some_iff

instance : Decidable (WordAt trigger cs n word) :=
  inferInstanceAs (Decidable (BeginsWith ..))

theorem WordAt.word_eq {w : List Char} (h : WordAt trigger cs n word) (h' : WordAt trigger cs n w) :
    w = word :=
  Option.some.inj ((wordAfter?_eq_some_iff.2 h').symm.trans (wordAfter?_eq_some_iff.2 h))

theorem FirstWordAt.unique {w : List Char} (h : FirstWordAt trigger cs n word)
    (h' : FirstWordAt trigger cs m w) : m = n ∧ w = word := by
  obtain rfl : m = n := Nat.le_antisymm
    (Nat.le_of_not_lt fun hlt => h'.2 n hlt word h.1) (Nat.le_of_not_lt fun hlt => h.2 m hlt w h'.1)
  exact ⟨rfl, h.1.word_eq h'.1⟩

open Classical in
theorem WordAt.exists_first (h : WordAt trigger cs n word) :
    ∃ m ≤ n, ∃ w, FirstWordAt trigger cs m w := by
  have hex : ∃ n w, WordAt trigger cs n w := ⟨n, word, h⟩
  obtain ⟨w, hw⟩ := Nat.find_spec hex
  exact ⟨Nat.find hex, Nat.find_min' hex ⟨word, h⟩, w, hw,
    fun m hm w hw => Nat.find_min hex hm ⟨w, hw⟩⟩

theorem not_wordAt_nil : ¬ WordAt trigger [] n word := by
  rintro ⟨spelled, space, rest, heq, -⟩
  simp at heq

theorem exists_firstWordAt_cons {c : Char} : (∃ n, FirstWordAt trigger (c :: cs) n word) ↔
    WordAt trigger (c :: cs) 0 word ∨
      (∀ w, ¬ WordAt trigger (c :: cs) 0 w) ∧ ∃ n, FirstWordAt trigger cs n word := by
  constructor
  · rintro ⟨n, hn, hfirst⟩
    cases n with
    | zero => exact .inl hn
    | succ n =>
      exact .inr ⟨hfirst 0 (Nat.succ_pos n), n, hn,
        fun m hm => hfirst (m + 1) (Nat.succ_lt_succ hm)⟩
  · rintro (h | ⟨hnot, n, hn, hfirst⟩)
    · exact ⟨0, h, fun m hm => absurd hm (Nat.not_lt_zero m)⟩
    · refine ⟨n + 1, hn, fun m hm => ?_⟩
      cases m with
      | zero => exact hnot
      | succ m => exact hfirst m (Nat.lt_of_succ_lt_succ hm)

theorem firstWordAfter?_eq_some_iff :
    firstWordAfter? trigger cs = some word ↔ ∃ n, FirstWordAt trigger cs n word := by
  induction cs with
  | nil =>
    simp only [firstWordAfter?, reduceCtorEq, false_iff]
    rintro ⟨n, hn, -⟩
    exact not_wordAt_nil hn
  | cons c cs ih =>
    have hnone : wordAfter? trigger (c :: cs) = none ↔ ∀ w, ¬ WordAt trigger (c :: cs) 0 w := by
      simp only [Option.eq_none_iff_forall_ne_some, Ne, wordAfter?_eq_some_iff]
      rfl
    rw [exists_firstWordAt_cons, ← ih, ← hnone, WordAt, List.drop_zero, ← wordAfter?_eq_some_iff,
      firstWordAfter?]
    simp only [Option.orElse_eq_orElse, Option.orElse_eq_or, Option.or_eq_some_iff]

theorem periodAfter?_eq_some_iff {trigger text : String} :
    periodAfter? trigger text = some p ↔
      ∃ n word, FirstWordAt trigger.toList text.toList n word ∧
        Period.ofName? (String.ofList word) = some p := by
  simp only [periodAfter?, Option.bind_eq_some_iff, firstWordAfter?_eq_some_iff]
  constructor
  · rintro ⟨word, ⟨n, hn⟩, hp⟩
    exact ⟨n, word, hn, hp⟩
  · rintro ⟨n, word, hn, hp⟩
    exact ⟨word, ⟨n, hn⟩, hp⟩

theorem periodAfter?_eq_none_iff {trigger text : String} :
    periodAfter? trigger text = none ↔
      ∀ n word, FirstWordAt trigger.toList text.toList n word →
        Period.ofName? (String.ofList word) = none := by
  simp only [Option.eq_none_iff_forall_ne_some, Ne, periodAfter?_eq_some_iff]
  constructor
  · exact fun h n word hn p hp => h p ⟨n, word, hn, hp⟩
  · rintro h p ⟨n, word, hn, hp⟩
    exact h n word hn p hp

/-- At this place stands the phrase: the trigger, one white space character and the whole name of
the period, in any case. The trigger may be the end of a longer word. -/
def PhraseAt (trigger cs : List Char) (n : Nat) (p : Period) : Prop :=
  ∃ spelled space name rest, cs.drop n = spelled ++ space :: (name ++ rest) ∧
    Text.SpellsAscii trigger spelled ∧ Text.isSpace space = true ∧
    Text.SpellsAscii p.name.toList name ∧ ∀ c ∈ rest.head?, Text.isWordChar c = false

theorem PhraseAt.wordAt (h : PhraseAt trigger cs n p) :
    ∃ word, WordAt trigger cs n word ∧ Period.ofName? (String.ofList word) = some p := by
  obtain ⟨spelled, space, name, rest, hdrop, hspelled, hspace, hname, hend⟩ := h
  have hne : name ≠ [] := by
    rintro rfl
    revert hname
    cases p <;> decide
  exact ⟨name, ⟨spelled, space, rest, hdrop, hspelled.spells, hspace, hne,
    fun _ => Period.isWordChar_of_spells hname, hend⟩, Period.ofName?_of_spells hname⟩

/-- A phrase that stands in the text decides if the first place before it, if there is one, names
the same period. -/
theorem PhraseAt.periodAfter?_eq_some_iff {trigger text : String}
    (h : PhraseAt trigger.toList text.toList n p) :
    periodAfter? trigger text = some p ↔
      ∀ m < n, ∀ word, FirstWordAt trigger.toList text.toList m word →
        Period.ofName? (String.ofList word) = some p := by
  obtain ⟨word, hword, hp⟩ := h.wordAt
  rw [Shape.periodAfter?_eq_some_iff]
  constructor
  · rintro ⟨k, first, hk, hname⟩ m hm w hfirst
    obtain ⟨-, rfl⟩ := hk.unique hfirst
    exact hname
  · intro hbefore
    -- The phrase is a place, so there is a first one: the phrase itself, or one before it.
    obtain ⟨m, hle, w, hfirst⟩ := hword.exists_first
    refine ⟨m, w, hfirst, ?_⟩
    rcases Nat.lt_or_eq_of_le hle with hlt | rfl
    · exact hbefore m hlt w hfirst
    · rwa [hword.word_eq hfirst.1]

end Shape

end CasualDate
