import CasualDate.Word.Token

/-!
# Tokens stand in their text

The tokens of a text begin and end between its characters, hold at least one byte each and come
from left to right (`placed_lex`). `lexFrom` is followed with the part of the text in front of it,
whose byte length is the offset it counts from.
-/

namespace CasualDate.Token

/-- The tokens stand in the text, from left to right and without overlaps. -/
structure Placed (cs : List Char) (ts : List Token) : Prop where
  start : ∀ t ∈ ts, Text.IsOffset cs t.start
  stop : ∀ t ∈ ts, Text.IsOffset cs t.stop
  start_lt_stop : ∀ t ∈ ts, t.start < t.stop
  ordered : ts.Pairwise fun a b => a.stop ≤ b.start

namespace Placed

variable {cs : List Char} {ts us mid rest : List Token} {t : Token}

theorem nil : Placed cs [] :=
  ⟨by simp, by simp, by simp, .nil⟩

theorem sublist (h : Placed cs ts) (hsub : us.Sublist ts) : Placed cs us :=
  ⟨fun t ht => h.start t (hsub.subset ht), fun t ht => h.stop t (hsub.subset ht),
    fun t ht => h.start_lt_stop t (hsub.subset ht), h.ordered.sublist hsub⟩

theorem tail (h : Placed cs (t :: ts)) : Placed cs ts :=
  h.sublist (List.sublist_cons_self t ts)

/-- A token with the characters `run` in front of tokens that begin behind it. -/
theorem cons (h : Placed cs ts) (run : List Char) (hrun : run ≠ [])
    (hstop : t.stop = t.start + Text.byteLength run) (hat : Text.StandsAt cs t.start run)
    (hle : ∀ u ∈ ts, t.stop ≤ u.start) : Placed cs (t :: ts) := by
  have hpos : Text.byteLength run ≠ 0 := fun h => hrun (Text.eq_nil_of_byteLength_eq_zero h)
  refine ⟨?_, ?_, ?_, List.pairwise_cons.2 ⟨hle, h.ordered⟩⟩
  · exact List.forall_mem_cons.2 ⟨hat.isOffset_start, h.start⟩
  · exact List.forall_mem_cons.2 ⟨by rw [hstop]; exact hat.isOffset_stop, h.stop⟩
  · exact List.forall_mem_cons.2 ⟨by omega, h.start_lt_stop⟩

theorem start_le_stop (h : Placed cs (t :: ts)) {u : Token} (hu : u ∈ t :: ts) :
    t.start ≤ u.stop := by
  have ht := h.start_lt_stop t (by simp)
  rcases List.mem_cons.1 hu with rfl | hu
  · omega
  · have := (List.pairwise_cons.1 h.ordered).1 u hu
    have := h.start_lt_stop u (by simp [hu])
    omega

theorem start_le (h : Placed cs (t :: mid)) {u : Token} (hu : u ∈ t :: mid) : t.start ≤ u.start := by
  rcases List.mem_cons.1 hu with rfl | hu
  · exact Nat.le_refl _
  · have hlt := h.start_lt_stop t List.mem_cons_self
    exact Nat.le_trans (Nat.le_of_lt hlt) ((List.pairwise_cons.1 h.ordered).1 u hu)

theorem stop_le_getLast (h : Placed cs ts) (hne : ts ≠ []) {u : Token}
    (hu : u ∈ ts) : u.stop ≤ (ts.getLast hne).stop := by
  have heq := List.dropLast_concat_getLast hne
  have hordered : (ts.dropLast ++ [ts.getLast hne]).Pairwise fun a b => a.stop ≤ b.start := by
    rw [heq]
    exact h.ordered
  rw [← heq, List.mem_append, List.mem_singleton] at hu
  rcases hu with hu | hu
  · have hle := (List.pairwise_append.1 hordered).2.2 u hu _ (List.mem_singleton.2 rfl)
    exact Nat.le_trans hle (Nat.le_of_lt (h.start_lt_stop _ (List.getLast_mem hne)))
  · exact Nat.le_of_eq (congrArg Token.stop hu)

/-- Between the start of a token and the end of a later one are these two and the tokens between
them. -/
theorem filter_between (h : Placed cs (us ++ (t :: mid ++ rest))) :
    ((us ++ (t :: mid ++ rest)).filter fun u =>
      t.start ≤ u.start ∧ u.stop ≤ ((t :: mid).getLast (List.cons_ne_nil t mid)).stop) = t :: mid := by
  have hlt := h.start_lt_stop
  have hmid : Placed cs (t :: mid) :=
    h.sublist ((List.sublist_append_left _ rest).trans (List.sublist_append_right us _))
  obtain ⟨-, hback, hfront⟩ := List.pairwise_append.1 h.ordered
  have hrest := (List.pairwise_append.1 hback).2.2 _ (List.getLast_mem (List.cons_ne_nil t mid))
  rw [List.filter_append, List.filter_append, List.filter_eq_nil_iff.2, List.filter_eq_self.2,
    List.filter_eq_nil_iff.2, List.nil_append, List.append_nil]
  · intro u hu
    have := hrest u hu
    have := hlt u (by simp [hu])
    simp only [decide_eq_true_eq]
    omega
  · intro u hu
    exact decide_eq_true ⟨hmid.start_le hu, hmid.stop_le_getLast _ hu⟩
  · intro u hu
    have := hfront u hu t (by simp)
    have := hlt u (by simp [hu])
    simp only [decide_eq_true_eq]
    omega

end Placed

theorem placed_lexFrom (start : Nat) (cs front : List Char) (hfront : Text.byteLength front = start) :
    Placed (front ++ cs) (lexFrom start cs) ∧ ∀ t ∈ lexFrom start cs, start ≤ t.start := by
  fun_induction lexFrom start cs generalizing front with
  | case1 => exact ⟨Placed.nil, by simp⟩
  | case2 start c cs hc ih =>
    obtain ⟨hplaced, hle⟩ := ih (front ++ [c]) (by simp [hfront])
    rw [List.append_assoc] at hplaced
    exact ⟨hplaced, fun t ht => Nat.le_trans (Nat.le_add_right ..) (hle t ht)⟩
  | case3 start c cs w hc ih =>
    obtain ⟨hplaced, hle⟩ := ih (front ++ [c]) (by simp [hfront])
    rw [List.append_assoc] at hplaced
    refine ⟨hplaced.cons [c] (by simp) (by simp) ⟨front, cs, by simp, hfront⟩ hle, ?_⟩
    refine List.forall_mem_cons.2 ⟨Nat.le_refl _, fun t ht => ?_⟩
    exact Nat.le_trans (Nat.le_add_right ..) (hle t ht)
  | case4 start c cs hsep hmark run stop ih =>
    obtain ⟨hplaced, hle⟩ := ih (front ++ run) (by rw [Text.byteLength_append, hfront])
    have hcs : run ++ afterRun (kindOf c) cs = c :: cs := by simp [run, runTail_append_afterRun]
    have hat : Text.StandsAt (front ++ c :: cs) start run :=
      ⟨front, afterRun (kindOf c) cs, by rw [List.append_assoc, hcs], hfront⟩
    rw [List.append_assoc, hcs] at hplaced
    refine ⟨hplaced.cons run (by simp [run]) rfl hat hle, ?_⟩
    refine List.forall_mem_cons.2 ⟨Nat.le_refl _, fun t ht => ?_⟩
    exact Nat.le_trans (Nat.le_add_right ..) (hle t ht)

theorem placed_lex (cs : List Char) : Placed cs (lex cs) :=
  (placed_lexFrom 0 cs [] rfl).1

end CasualDate.Token
