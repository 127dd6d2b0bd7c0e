import CasualDate.Finder.Basic
import CasualDate.Proofs.Candidate.Outline
import Mathlib.Data.List.Nodup

/-!
# The order of candidates

Sorting is stable: a date that was found before others comes behind those that begin earlier and in
front of the rest (`exists_ordered_cons`). So it can be followed through a part of the text alone
(`filter_ordered`), and does not look at more of a candidate than its place
(`map_outline_filter_ordered`).
-/

namespace CasualDate.Finder

variable {c : Candidate} {cs ds : List Candidate} {n : Nat}

theorem mem_ordered : c ∈ ordered cs ↔ c ∈ cs ∧ c.date?.isSome = true := by
  simp [ordered]

theorem pairwise_ordered (cs : List Candidate) :
    (ordered cs).Pairwise fun a b => a.index ≤ b.index := by
  have h := @List.pairwise_mergeSort Candidate (fun a b => decide (a.index ≤ b.index))
    (fun a b c hab hbc => by simp at *; omega) (fun a b => by simp; omega)
    (cs.filter (·.date?.isSome))
  simpa [ordered] using h

/-- A date found before others comes behind those that begin earlier and in front of the rest. -/
theorem exists_ordered_cons (hdate : c.date?.isSome = true) (cs : List Candidate) :
    ∃ front back, ordered (c :: cs) = front ++ c :: back ∧ ordered cs = front ++ back ∧
      (∀ d ∈ front, d.index < c.index) ∧ ∀ d ∈ back, c.index ≤ d.index := by
  obtain ⟨front, back, hsorted, htail, hfront⟩ :=
    @List.mergeSort_cons Candidate (fun a b => decide (a.index ≤ b.index))
      (fun a b c hab hbc => by simp at *; omega) (fun a b => by simp; omega)
      c (cs.filter (·.date?.isSome))
  have hfilter : (c :: cs).filter (·.date?.isSome) = c :: cs.filter (·.date?.isSome) :=
    List.filter_cons_of_pos hdate
  have hordered : ordered (c :: cs) = front ++ c :: back := by rw [ordered, hfilter, hsorted]
  have hpairwise := pairwise_ordered (c :: cs)
  rw [hordered] at hpairwise
  refine ⟨front, back, hordered, htail, fun d hd => by simpa using hfront d hd, ?_⟩
  exact (List.pairwise_cons.1 (List.pairwise_append.1 hpairwise).2.1).1

theorem ordered_of_pairwise (hdate : ∀ c ∈ cs, c.date?.isSome = true)
    (h : cs.Pairwise fun a b => a.index ≤ b.index) : ordered cs = cs := by
  rw [ordered, List.filter_eq_self.2 hdate]
  exact List.mergeSort_of_pairwise (by simpa using h)

theorem ordered_of_perm (hdate : ∀ c ∈ cs, c.date?.isSome = true) (hperm : cs.Perm ds)
    (h : ds.Pairwise fun a b => a.index < b.index) : ordered cs = ds := by
  have hordered : (ordered cs).Perm ds := by
    rw [ordered, List.filter_eq_self.2 hdate]
    exact (List.mergeSort_perm ..).trans hperm
  have hnodup : (ds.map Candidate.index).Nodup := List.pairwise_map.2 (h.imp Nat.ne_of_lt)
  refine hordered.eq_of_pairwise (fun a b ha hb hab hba => ?_) (pairwise_ordered cs)
    (h.imp Nat.le_of_lt)
  exact List.inj_on_of_nodup_map hnodup (hordered.subset ha) hb (Nat.le_antisymm hab hba)

theorem mem_of_mem_collapse_ordered (h : c ∈ Candidate.collapse (ordered cs)) :
    c ∈ cs ∧ c.date?.isSome = true :=
  mem_ordered.1 (Candidate.collapse_sublist.subset h)

theorem ordered_cons (hdate : c.date?.isSome = true) (hle : ∀ d ∈ cs, c.index ≤ d.index) :
    ordered (c :: cs) = c :: ordered cs := by
  obtain ⟨front, back, hsorted, htail, hfront, -⟩ := exists_ordered_cons hdate cs
  have hnil : front = [] := by
    refine List.eq_nil_iff_forall_not_mem.2 fun d hd => ?_
    have hmem : d ∈ ordered cs := by
      rw [htail]
      exact List.mem_append_left _ hd
    exact absurd (hle d (mem_ordered.1 hmem).1) (Nat.not_le_of_lt (hfront d hd))
  rw [hsorted, htail, hnil]
  rfl

theorem eq_of_append_eq_append {front back front' back' : List Candidate}
    (h : front ++ back = front' ++ back') (hfront : ∀ d ∈ front, d.index < n)
    (hback : ∀ d ∈ back, n ≤ d.index) (hfront' : ∀ d ∈ front', d.index < n)
    (hback' : ∀ d ∈ back', n ≤ d.index) : front = front' ∧ back = back' := by
  have hkeep (front back : List Candidate) (hfront : ∀ d ∈ front, d.index < n)
      (hback : ∀ d ∈ back, n ≤ d.index) : (front ++ back).filter (·.index < n) = front := by
    have hnone : back.filter (·.index < n) = [] :=
      List.filter_eq_nil_iff.2 fun d hd => by simpa using hback d hd
    rw [List.filter_append, hnone, List.append_nil]
    exact List.filter_eq_self.2 fun d hd => by simpa using hfront d hd
  have heq : front = front' := by
    rw [← hkeep front back hfront hback, h, hkeep front' back' hfront' hback']
  exact ⟨heq, List.append_cancel_left (heq ▸ h)⟩

theorem filter_ordered (p : Candidate → Bool) (cs : List Candidate) :
    (ordered cs).filter p = ordered (cs.filter p) := by
  induction cs with
  | nil => simp [ordered]
  | cons c cs ih =>
    by_cases hdate : c.date?.isSome = true
    · obtain ⟨front, back, hsorted, htail, hfront, hback⟩ := exists_ordered_cons hdate cs
      rw [htail, List.filter_append] at ih
      by_cases hp : p c = true
      · obtain ⟨front', back', hsorted', htail', hfront', hback'⟩ :=
          exists_ordered_cons hdate (cs.filter p)
        obtain ⟨heq, heq'⟩ := eq_of_append_eq_append (ih.trans htail')
          (fun d hd => hfront d (List.mem_filter.1 hd).1)
          (fun d hd => hback d (List.mem_filter.1 hd).1) hfront' hback'
        rw [List.filter_cons_of_pos hp, hsorted, hsorted', List.filter_append,
          List.filter_cons_of_pos hp, heq, heq']
      · rw [List.filter_cons_of_neg hp, hsorted, List.filter_append, List.filter_cons_of_neg hp, ih]
    · have hdrop (ds : List Candidate) : ordered (c :: ds) = ordered ds := by
        have hfilter : (c :: ds).filter (·.date?.isSome) = ds.filter (·.date?.isSome) :=
          List.filter_cons_of_neg hdate
        rw [ordered, hfilter, ordered]
      by_cases hp : p c = true
      · rw [List.filter_cons_of_pos hp, hdrop, hdrop, ih]
      · rw [List.filter_cons_of_neg hp, hdrop, ih]

theorem eq_filter_append_filter (n : Nat) (h : cs.Pairwise fun a b => a.index ≤ b.index) :
    cs = cs.filter (·.index < n) ++ cs.filter (n ≤ ·.index) := by
  induction cs with
  | nil => rfl
  | cons c cs ih =>
    obtain ⟨hc, hcs⟩ := List.pairwise_cons.1 h
    by_cases hn : c.index < n
    · rw [List.filter_cons_of_pos (by simpa using hn),
        List.filter_cons_of_neg (by simpa using hn), List.cons_append, ← ih hcs]
    · have hfar : ∀ d ∈ c :: cs, n ≤ d.index :=
        List.forall_mem_cons.2 ⟨Nat.le_of_not_lt hn, fun d hd =>
          Nat.le_trans (Nat.le_of_not_lt hn) (hc d hd)⟩
      have hbefore : (c :: cs).filter (·.index < n) = [] :=
        List.filter_eq_nil_iff.2 fun d hd => by simpa using hfar d hd
      rw [hbefore, List.nil_append]
      exact (List.filter_eq_self.2 fun d hd => by simpa using hfar d hd).symm

theorem map_outline_ordered (h : Candidate.outlines cs = Candidate.outlines ds) :
    (ordered cs).map Candidate.outline = (ordered ds).map Candidate.outline := by
  have hsort (cs : List Candidate) : (ordered cs).map Candidate.outline =
      (Candidate.outlines cs).mergeSort fun a b => a.index ≤ b.index :=
    List.map_mergeSort fun a _ b _ => rfl
  rw [hsort, hsort, h]

/-- The part of the sorted candidates that begins before byte `n`, without the dates. -/
theorem map_outline_filter_ordered
    (h : (Candidate.outlines cs).filter (·.index < n) = (Candidate.outlines ds).filter (·.index < n)) :
    ((ordered cs).filter (·.index < n)).map Candidate.outline =
      ((ordered ds).filter (·.index < n)).map Candidate.outline := by
  rw [filter_ordered, filter_ordered]
  refine map_outline_ordered ?_
  rw [Candidate.outlines_filter, Candidate.outlines_filter, h]

end CasualDate.Finder
