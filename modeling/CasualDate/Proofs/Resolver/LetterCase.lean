import CasualDate.Proofs.Finder.LetterCase
import CasualDate.Proofs.Resolver.ByShape

/-!
# Phrases in any case

The words that make the shape of a phrase are looked for in any case, and what the shape takes from
the phrase is read in any case again. So texts that differ in the case of ASCII letters are answered
alike; a remainder in which no month is found is handed back as it is written
(`Resolver.answersAlike_of_toLower_eq`).
-/

namespace CasualDate

theorem Period.ofName?_toLower (s : String) : ofName? s.toLower = ofName? s := by
  rw [ofName?, Text.lower_toLower, ofName?]

/-! ### Shapes -/

namespace Shape

/-- The shape of a text of lower case. -/
def lowered : Shape → Shape
  | monthEnd remainder => monthEnd remainder.toLower
  | midMonth word => midMonth word.toLower
  | s => s

theorem wordAfter?_toLower (trigger cs : List Char) :
    wordAfter? trigger (cs.map Char.toLower) =
      (wordAfter? trigger cs).map (List.map Char.toLower) := by
  rw [wordAfter?, wordAfter?, Text.dropWord?_toLower]
  rcases Text.dropWord? trigger cs with _ | _ | ⟨c, rest⟩
  · rfl
  · rfl
  · show (if Text.isSpace c.toLower &&
        !((rest.map Char.toLower).takeWhile Text.isWordChar).isEmpty then _ else _) = _
    rw [Text.isSpace_toLower, Text.takeWhile_toLower Text.isWordChar_toLower, List.isEmpty_map]
    dsimp only
    split <;> rfl

theorem firstWordAfter?_toLower (trigger cs : List Char) :
    firstWordAfter? trigger (cs.map Char.toLower) =
      (firstWordAfter? trigger cs).map (List.map Char.toLower) := by
  induction cs with
  | nil => rfl
  | cons c cs ih =>
    rw [List.map_cons, firstWordAfter?, firstWordAfter?, ih, ← List.map_cons, wordAfter?_toLower]
    cases wordAfter? trigger (c :: cs) <;> rfl

theorem periodAfter?_toLower (trigger text : String) :
    periodAfter? trigger text.toLower = periodAfter? trigger text := by
  rw [periodAfter?, periodAfter?, Text.toList_toLower, firstWordAfter?_toLower]
  rcases firstWordAfter? trigger.toList text.toList with _ | word
  · rfl
  · show Period.ofName? (String.ofList (word.map Char.toLower)) = Period.ofName? (String.ofList word)
    rw [Text.ofList_toLower, Period.ofName?_toLower]

theorem remainder?_toLower (cs : List Char) :
    remainder? (cs.map Char.toLower) = (remainder? cs).map (List.map Char.toLower) := by
  have hline (c : Char) : (decide (c.toLower ≠ '\n') && decide (c.toLower ≠ '\r')) =
      (decide (c ≠ '\n') && decide (c ≠ '\r')) :=
    Text.apply_toLower (f := fun c => decide (c ≠ '\n') && decide (c ≠ '\r'))
      (by decide +kernel) c
  induction cs with
  | nil => rfl
  | cons c cs ih =>
    have hwords : (Text.dropWord? "last day of".toList ((c :: cs).map Char.toLower) <|>
          Text.dropWord? "end of".toList ((c :: cs).map Char.toLower)) =
        (Text.dropWord? "last day of".toList (c :: cs) <|>
          Text.dropWord? "end of".toList (c :: cs)).map (List.map Char.toLower) := by
      rw [Text.dropWord?_toLower, Text.dropWord?_toLower]
      cases Text.dropWord? "last day of".toList (c :: cs) <;> rfl
    rw [List.map_cons] at hwords ⊢
    rw [remainder?, remainder?, hwords, ih]
    rcases (Text.dropWord? "last day of".toList (c :: cs) <|>
      Text.dropWord? "end of".toList (c :: cs)) with _ | rest
    · rfl
    · show some (((rest.map Char.toLower).dropWhile Text.isSpace).takeWhile _) = some _
      rw [Text.dropWhile_toLower Text.isSpace_toLower, Text.takeWhile_toLower hline]

theorem ofText_toLower (text : String) : ofText text.toLower = (ofText text).lowered := by
  rw [ofText, ofText, periodAfter?_toLower, periodAfter?_toLower, Text.toList_toLower,
    remainder?_toLower, firstWordAfter?_toLower]
  rcases periodAfter? "this" text with _ | p
  · rcases periodAfter? "next" text with _ | p
    · rcases remainder? text.toList with _ | cs
      · rcases firstWordAfter? "mid".toList text.toList with _ | word
        · rfl
        · exact congrArg midMonth (Text.ofList_toLower word)
      · exact congrArg monthEnd (Text.ofList_toLower cs)
    · rfl
  · rfl

end Shape

/-! ### Answers -/

/-- The answers are the same, or both hand back a remainder, in one case or the other. -/
inductive AnswersAlike {α : Type} : Except Failure α → Except Failure α → Prop
  | same (x : Except Failure α) : AnswersAlike x x
  | malformed {s s' : String} (h : s.toLower = s'.toLower) :
    AnswersAlike (.error (.refused (.malformedRemainder s)))
      (.error (.refused (.malformedRemainder s')))

namespace AnswersAlike

variable {α β : Type} {x y z : Except Failure α}

theorem symm (h : AnswersAlike x y) : AnswersAlike y x := by
  rcases h with _ | h
  · exact .same x
  · exact .malformed h.symm

theorem trans (hxy : AnswersAlike x y) (hyz : AnswersAlike y z) : AnswersAlike x z := by
  rcases hxy with _ | hxy
  · exact hyz
  · rcases hyz with _ | hyz
    · exact .malformed hxy
    · exact .malformed (hxy.trans hyz)

theorem map (f : α → β) (h : AnswersAlike x y) : AnswersAlike (x.map f) (y.map f) := by
  rcases h with _ | h
  · exact .same _
  · exact .malformed h

end AnswersAlike

namespace Resolver

variable {r : Resolver} {text text' pattern : String} {weekStart : Weekday} {now : Instant}

theorem anchor_toLower (h : ∀ x ∈ r.finder.recognizers, x.IgnoresCase) :
    r.anchor text.toLower weekStart now = r.anchor text weekStart now := by
  have hfind := Finder.find_lowered h { text, reference := now, now }
  rw [Context.lowered] at hfind
  rw [anchor, anchor, hfind]
  rcases r.finder.find { text, reference := now, now } with failure | _ | ⟨c, cs⟩ <;> rfl

theorem toLower_midMonthPhrase (word : String) :
    (midMonthPhrase word).toLower = midMonthPhrase word.toLower := by
  rw [← String.toList_inj]
  simp [midMonthPhrase]

theorem monthEnd_toLower (h : ∀ x ∈ r.finder.recognizers, x.IgnoresCase) :
    AnswersAlike (r.monthEnd text.toLower now) (r.monthEnd text now) := by
  have hfind := Finder.find_lowered h { text, reference := now, now }
  rw [Context.lowered] at hfind
  have hmalformed : AnswersAlike (α := String)
      (.error (.refused (.malformedRemainder text.toLower)))
      (.error (.refused (.malformedRemainder text))) := .malformed (Text.toLower_toLower text)
  rw [monthEnd, monthEnd, hfind]
  rcases r.finder.find { text, reference := now, now } with failure | _ | ⟨c, cs⟩
  · exact .same _
  · exact hmalformed
  · -- The first date is the same, so the month and its end are.
    simp only [Except.map, List.map_cons, bind, Except.bind, Candidate.lowered]
    split
    · exact .same _
    · split
      · exact hmalformed
      · exact .same _

theorem resolveAt_toLower (h : ∀ x ∈ r.finder.recognizers, x.IgnoresCase) :
    AnswersAlike (r.resolveAt text.toLower weekStart pattern now)
      (r.resolveAt text weekStart pattern now) := by
  have hanchor : r.anchor text.toLower weekStart now = r.anchor text weekStart now :=
    anchor_toLower h
  have hshape := Shape.ofText_toLower text
  rcases heq : r.anchor text weekStart now with failure | ⟨certain, reference⟩
  · rw [resolveAt_eq_error heq, resolveAt_eq_error (hanchor.trans heq)]
    exact .same _
  · rw [heq] at hanchor
    rcases hs : Shape.ofText text with p | p | remainder | word | _ <;>
      rw [hs] at hshape
    · rw [resolveAt_endOfPeriod hs heq, resolveAt_endOfPeriod hshape hanchor]
      exact .same _
    · rw [resolveAt_onePeriodOn hs heq, resolveAt_onePeriodOn hshape hanchor]
      exact .same _
    · rw [resolveAt_monthEnd hs heq, resolveAt_monthEnd hshape hanchor]
      exact (monthEnd_toLower h).map _
    · have hfind := Finder.findDate_lowered h
        { text := midMonthPhrase word, reference := now, now, forward := true }
      rw [Context.lowered, toLower_midMonthPhrase] at hfind
      rw [resolveAt_midMonth hs heq, resolveAt_midMonth hshape hanchor, hfind]
      exact .same _
    · have hfind := Finder.findDate_lowered h { text, reference, now }
      rw [Context.lowered] at hfind
      rw [resolveAt_other hs heq, resolveAt_other hshape hanchor, hfind]
      exact .same _

/-- Texts that differ in the case of ASCII letters only are answered alike by a resolver with the
built-in recognizers, and what its finder finds in them differs in the case of the spans only. -/
theorem answersAlike_of_toLower_eq (hfinder : ∀ x ∈ r.finder.recognizers, x ∈ Recognizer.builtin)
    (h : text.toLower = text'.toLower) (weekStart : Weekday) (pattern : String) (now : Instant) :
    AnswersAlike (r.resolveAt text weekStart pattern now)
        (r.resolveAt text' weekStart pattern now) ∧
      ∀ (reference : Instant) (forward : Bool),
        (r.finder.find { text, reference, now, forward }).map (·.map Candidate.lowered) =
          (r.finder.find { text := text', reference, now, forward }).map
            (·.map Candidate.lowered) := by
  have hignores : ∀ x ∈ r.finder.recognizers, x.IgnoresCase :=
    fun x hx => Recognizer.ignoresCase_of_mem_builtin (hfinder x hx)
  refine ⟨?_, fun reference forward => ?_⟩
  · have hlowered : AnswersAlike (r.resolveAt text'.toLower weekStart pattern now)
        (r.resolveAt text' weekStart pattern now) := resolveAt_toLower hignores
    rw [← h] at hlowered
    exact (resolveAt_toLower hignores).symm.trans hlowered
  · rw [← Finder.find_lowered hignores, ← Finder.find_lowered hignores, Context.lowered,
      Context.lowered, h]

/-- "The END of Foo" is answered like "the end of foo". -/
theorem answersAlike_endOfFoo :
    let now : Instant := ⟨⟨738993, by decide, by decide⟩, .midnight⟩
    let r : Resolver := ⟨⟨Recognizer.builtin⟩, .gregorian, now⟩
    (∀ x ∈ r.finder.recognizers, x ∈ Recognizer.builtin) ∧
      "The END of Foo".toLower = "the end of foo".toLower ∧
      AnswersAlike (r.resolveAt "The END of Foo" .sunday "" now)
        (r.resolveAt "the end of foo" .sunday "" now) := by
  intro now r
  have hfinder : ∀ x ∈ r.finder.recognizers, x ∈ Recognizer.builtin := fun x hx => hx
  have hsame : "The END of Foo".toLower = "the end of foo".toLower := by
    rw [← String.toList_inj, Text.toList_toLower, Text.toList_toLower]
    decide
  exact ⟨hfinder, hsame, (answersAlike_of_toLower_eq hfinder hsame .sunday "" now).1⟩

end Resolver

end CasualDate
