import CasualDate.Text.Folding
import Mathlib.Data.List.Chain

/-!
# Characters that do not stand side by side

A word cannot begin a text in which two neighbouring letters of it nowhere stand side by side
(`dropWord?_eq_none`), and texts with a space between them put nothing but the space side by side
(`Apart.append_space`).
-/

namespace CasualDate.Text

variable {p q : Char → Bool} {a b : Char} {as bs cs : List Char}

/-- No character of the first kind stands right before one of the second kind. -/
def Apart (p q : Char → Bool) (cs : List Char) : Prop :=
  cs.IsChain fun c d => (p c && q d) = false

instance (p q : Char → Bool) (cs : List Char) : Decidable (Apart p q cs) :=
  inferInstanceAs (Decidable (cs.IsChain _))

namespace Apart

theorem tail {c : Char} (h : Apart p q (c :: cs)) : Apart p q cs :=
  List.IsChain.tail h

theorem suffix (h : Apart p q cs) (hsuffix : bs <:+ cs) : Apart p q bs :=
  List.IsChain.suffix h hsuffix

theorem cons_cons {c d : Char} (h : Apart p q (c :: d :: cs)) : (p c && q d) = false :=
  (List.isChain_cons_cons.1 h).1

theorem of_forall (h : (∀ c ∈ cs, p c = false) ∨ ∀ c ∈ cs, q c = false) : Apart p q cs := by
  induction cs with
  | nil => exact .nil
  | cons c cs ih =>
    have htail : Apart p q cs := ih (h.imp (fun h => (List.forall_mem_cons.1 h).2)
      fun h => (List.forall_mem_cons.1 h).2)
    refine List.IsChain.cons htail fun d hd => ?_
    rcases h with h | h
    · rw [h c List.mem_cons_self, Bool.false_and]
    · rw [h d (List.mem_cons_of_mem c (List.mem_of_head? hd)), Bool.and_false]

theorem append_space (hp : p ' ' = false) (hq : q ' ' = false) (has : Apart p q as)
    (hbs : Apart p q bs) : Apart p q (as ++ ' ' :: bs) := by
  refine List.IsChain.append has (List.IsChain.cons hbs fun d _ => ?_) fun c _ d hd => ?_
  · rw [hp, Bool.false_and]
  · rw [← Option.some.inj hd, hq, Bool.and_false]

end Apart

/-- A word of which two neighbouring letters stand nowhere side by side. -/
theorem dropWord?_eq_none (front back : List Char)
    (h : Apart (sameLetter a) (sameLetter b) cs) : dropWord? (front ++ a :: b :: back) cs = none := by
  induction front generalizing cs with
  | nil =>
    match cs with
    | [] => rfl
    | [c] => simp only [List.nil_append, dropWord?]; split <;> rfl
    | c :: d :: cs =>
      have hapart := h.cons_cons
      simp only [List.nil_append, dropWord?]
      split
      · next hc =>
        rw [if_neg]
        simpa [hc] using hapart
      · rfl
  | cons w front ih =>
    cases cs with
    | nil => rfl
    | cons c cs =>
      simp only [List.cons_append, dropWord?]
      split
      · exact ih h.tail
      · rfl

end CasualDate.Text
