import CasualDate.Proofs.Finder.Untriggered
import CasualDate.Proofs.Shape.Quiet
import CasualDate.Proofs.Token.Split

/-!
# Plain words and spaces

A phrase of several words with one space between them has the words of each, and what no word of it
puts side by side, the phrase does not either (`words_spaced`, `Plain.spaced`). If the words are
plain, the phrase has no special shape and no recognizer finds anything in it.
-/

namespace CasualDate

open Text

variable {cs : List Char} {ws : List (List Char)}

/-- The words with one space between them. -/
def spaced (ws : List (List Char)) : List Char :=
  [' '].intercalate ws

@[simp] theorem spaced_singleton : spaced [cs] = cs :=
  List.intercalate_singleton

@[simp] theorem spaced_cons_cons (as bs : List Char) (ws : List (List Char)) :
    spaced (as :: bs :: ws) = as ++ ' ' :: spaced (bs :: ws) := by
  rw [spaced, List.intercalate_cons_cons, List.append_assoc]
  rfl

namespace Token

theorem words_append_space (as bs : List Char) : words (as ++ ' ' :: bs) = words as ++ words bs := by
  rw [words, lex, lexFrom_append_separator (by decide), List.map_append, map_word_lexFrom,
    map_word_lexFrom]

theorem words_spaced (ws : List (List Char)) : words (spaced ws) = ws.flatMap words := by
  induction ws with
  | nil => exact words_nil
  | cons as ws ih =>
    cases ws with
    | nil => simp
    | cons bs ws =>
      rw [spaced_cons_cons, words_append_space, ih]
      rfl

theorem Tight.append_space {as bs : List Char} (has : Tight as) (hbs : Tight bs) :
    Tight (as ++ ' ' :: bs) := by
  constructor
  · obtain ⟨c, hc, hsep⟩ := (Option.any_eq_true ..).1 has.head
    rw [List.head?_append, hc]
    exact hsep
  · obtain ⟨c, hc, hsep⟩ := (Option.any_eq_true ..).1 hbs.last
    rw [List.getLast?_append, List.getLast?_cons, hc]
    exact hsep

theorem tight_padded (width n : Nat) : Tight (padded width n) := by
  have hkind : ∀ c ∈ padded width n, kindOf c ≠ .separator := fun c hc => by
    rw [kindOf_of_isDigit (isDigit_of_mem_padded hc)]
    rintro ⟨⟩
  refine ⟨?_, ?_⟩
  · rw [List.head?_eq_some_head padded_ne_nil]
    simpa using hkind _ (List.head_mem padded_ne_nil)
  · rw [List.getLast?_eq_some_getLast padded_ne_nil]
    simpa using hkind _ (List.getLast_mem padded_ne_nil)

theorem words_number (width : Nat) (n : Count) :
    words (padded width n) = [.literal n] := by
  have hwords : words (padded width n ++ []) = .ofNat n :: words [] :=
    words_padded (by simp)
  rwa [List.append_nil, Word.ofNat_eq n.isLt, words_nil] at hwords

end Token

/-- Pairs of letters that words of the shapes or of the built-in recognizers have in them. -/
def letterPairs : List (Char × Char) :=
  Recognizer.pairs ++ [('e', 'x'), ('o', 'f'), ('i', 'd')]

/-- The text begins and ends with parts of words and has in it none of the pairs, nor a suffix of an
ordinal behind a digit. -/
structure Plain (cs : List Char) : Prop where
  tight : Token.Tight cs
  apart : ∀ p ∈ letterPairs, Apart (sameLetter p.1) (sameLetter p.2) cs
  apartDigits : ∀ l ∈ Recognizer.suffixLetters, Apart Char.isDigit (sameLetter l) cs

instance (cs : List Char) : Decidable (Plain cs) :=
  decidable_of_iff (Token.Tight cs ∧
      letterPairs.all (fun p => Apart (sameLetter p.1) (sameLetter p.2) cs) = true ∧
      Recognizer.suffixLetters.all (fun l => Apart Char.isDigit (sameLetter l) cs) = true)
    ⟨fun h => ⟨h.1, by simpa using h.2.1, by simpa using h.2.2⟩,
      fun h => ⟨h.tight, by simpa using h.apart, by simpa using h.apartDigits⟩⟩

namespace Plain

theorem append_space {as bs : List Char} (has : Plain as) (hbs : Plain bs) :
    Plain (as ++ ' ' :: bs) := by
  have hpairs : letterPairs.all (fun p => !sameLetter p.1 ' ' && !sameLetter p.2 ' ') = true := by
    decide
  have hletters : Recognizer.suffixLetters.all (fun l => !sameLetter l ' ') = true := by decide
  simp only [List.all_eq_true, Bool.and_eq_true, Bool.not_eq_true'] at hpairs hletters
  refine ⟨has.tight.append_space hbs.tight, fun p hp => ?_, fun l hl => ?_⟩
  · exact (has.apart p hp).append_space (hpairs p hp).1 (hpairs p hp).2 (hbs.apart p hp)
  · exact (has.apartDigits l hl).append_space (by decide) (hletters l hl) (hbs.apartDigits l hl)

theorem spaced {as : List Char} (h : ∀ cs ∈ as :: ws, Plain cs) : Plain (spaced (as :: ws)) := by
  induction ws generalizing as with
  | nil =>
    rw [spaced_singleton]
    exact h as List.mem_cons_self
  | cons bs ws ih =>
    obtain ⟨has, hws⟩ := List.forall_mem_cons.1 h
    rw [spaced_cons_cons]
    exact has.append_space (ih hws)

theorem decimal (n : Nat) : Plain (decimal n) := by
  have hdigit : ∀ c ∈ Text.decimal n, c.isDigit = true := fun c hc => isDigit_of_mem_decimal hc
  have hpairs : letterPairs.all (fun p => digits.all fun c => !sameLetter p.1 c) = true := by decide
  have hletters : Recognizer.suffixLetters.all (fun l => digits.all fun c => !sameLetter l c) = true := by
    decide
  refine ⟨padded_zero ▸ Token.tight_padded 0 n, fun p hp => .of_forall (.inl fun c hc => ?_),
    fun l hl => .of_forall (.inr fun c hc => ?_)⟩
  · simpa using of_isDigit (List.all_eq_true.1 hpairs p hp) (hdigit c hc)
  · simpa using of_isDigit (List.all_eq_true.1 hletters l hl) (hdigit c hc)

theorem untriggered (h : Plain cs) : Untriggered cs :=
  ⟨fun p hp => h.apart p (List.mem_append_left _ hp), h.apartDigits⟩

theorem ofText_eq_other {text : String} (h : Plain text.toList) : Shape.ofText text = .other :=
  Shape.ofText_eq_other_of_apart (h.apart ('h', 'i') (by decide)) (h.apart ('e', 'x') (by decide))
    (h.apart ('o', 'f') (by decide))
    (Shape.firstWordAfter?_eq_none ['m'] [] (h.apart ('i', 'd') (by decide)))

end Plain

end CasualDate
