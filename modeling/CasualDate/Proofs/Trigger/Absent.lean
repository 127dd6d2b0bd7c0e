import CasualDate.Proofs.Text.Apart
import CasualDate.Trigger

/-!
# Triggers that do not occur

A choice of a trigger fits nowhere in a text in which two neighbouring letters of the choice, or
digits and the letter behind them, are apart. If that is so of all choices, the trigger has no match
(`findAll_eq_nil`).
-/

namespace CasualDate

open Text

namespace Trigger

variable {t : Trigger} {ps front back : List Piece} {cs rest : List Char} {a b : Char}

theorem restsAfter_append (ps qs : List Piece) (cs : List Char) :
    restsAfter (ps ++ qs) cs = (restsAfter ps cs).flatMap (restsAfter qs) := by
  induction ps generalizing cs with
  | nil => simp [restsAfter]
  | cons p ps ih =>
    rw [List.cons_append, restsAfter, restsAfter, List.flatMap_assoc]
    exact congrArg (fun f => (p.rests cs).flatMap f) (funext ih)

/-- The choice fits nowhere in the text. -/
def Misses (ps : List Piece) (cs : List Char) : Prop :=
  ∀ rest, rest <:+ cs → restsAfter ps rest = []

theorem misses_append (h : Misses ps cs) (front : List Piece) : Misses (front ++ ps) cs := by
  intro rest hrest
  rw [restsAfter_append, List.flatMap_eq_nil_iff]
  exact fun left hleft => h left ((suffix_of_mem_restsAfter hleft).trans hrest)

theorem exists_of_mem_afterOne {p : Char → Bool} (h : rest ∈ Piece.afterOne p cs) :
    ∃ c, p c = true ∧ cs = c :: rest := by
  cases cs with
  | nil => cases h
  | cons c cs =>
    rw [Piece.afterOne] at h
    split at h
    · next hc =>
      obtain rfl := List.mem_singleton.1 h
      exact ⟨c, hc, rfl⟩
    · cases h

/-- A letter does not fit behind a character that it is apart from. -/
theorem restsAfter_letter {p : Char → Bool} {c : Char} (hc : p c = true)
    (h : Apart p (sameLetter b) (c :: cs)) (back : List Piece) :
    restsAfter (.letter b :: back) cs = [] := by
  rw [restsAfter, List.flatMap_eq_nil_iff]
  intro rest hrest
  obtain ⟨d, hd, rfl⟩ := exists_of_mem_afterOne hrest
  have hapart := h.cons_cons
  rw [hc, hd] at hapart
  cases hapart

theorem misses_letters (h : Apart (sameLetter a) (sameLetter b) cs) (back : List Piece) :
    Misses (.letter a :: .letter b :: back) cs := by
  intro rest hrest
  rw [restsAfter, List.flatMap_eq_nil_iff]
  intro left hleft
  obtain ⟨c, hc, rfl⟩ := exists_of_mem_afterOne hleft
  exact restsAfter_letter hc (h.suffix hrest) back

theorem misses_digits (h : Apart Char.isDigit (sameLetter b) cs) (back : List Piece) :
    Misses (.digit :: .optionalDigit :: .letter b :: back) cs := by
  intro rest hrest
  rw [restsAfter, List.flatMap_eq_nil_iff]
  intro left hleft
  obtain ⟨c, hc, rfl⟩ := exists_of_mem_afterOne hleft
  rw [restsAfter, List.flatMap_eq_nil_iff]
  intro left' hleft'
  rcases List.mem_append.1 hleft' with hleft' | hleft'
  · obtain ⟨d, hd, rfl⟩ := exists_of_mem_afterOne hleft'
    exact restsAfter_letter hd (h.suffix hrest).tail back
  · obtain rfl := List.mem_singleton.1 hleft'
    exact restsAfter_letter hc (h.suffix hrest) back

theorem matchAt?_eq_none (h : ∀ ps ∈ t, Misses ps cs) (before : Option Char) :
    t.matchAt? before cs = none := by
  have hnil : t.flatMap (restsAfter · cs) = [] :=
    List.flatMap_eq_nil_iff.2 fun ps hps => h ps hps cs (List.suffix_refl cs)
  unfold matchAt?
  rw [hnil, List.find?_nil, ite_self]

theorem matchesFrom_eq_nil (h : ∀ ps ∈ t, Misses ps cs) (index : Nat) (before : Option Char)
    (afterMatch : Bool) : t.matchesFrom index before afterMatch cs = [] := by
  fun_induction matchesFrom t index before afterMatch cs with
  | case1 index before afterMatch cs rest hsome =>
    rw [matchAt?_eq_none h] at hsome
    cases hsome
  | case2 index before afterMatch cs hnone ih =>
    have hempty : (t.matchAt? before cs).isSome = false := by rw [matchAt?_eq_none h]; rfl
    rw [hempty, Bool.false_and, if_neg Bool.false_ne_true, List.nil_append]
    cases cs with
    | nil => rfl
    | cons c cs =>
      exact ih fun ps hps rest hrest => h ps hps rest (hrest.trans (List.suffix_cons c cs))

theorem findAll_eq_nil (h : ∀ ps ∈ t, Misses ps cs) : t.findAll cs = [] :=
  matchesFrom_eq_nil h 0 none false

end Trigger

end CasualDate
