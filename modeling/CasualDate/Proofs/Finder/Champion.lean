import CasualDate.Proofs.Finder.Ordered
import Mathlib.Data.List.MinMax

/-!
# Champions

Of the candidates that begin at one byte, collapsing heeds a single one: the longest, or the first of
several that are. Such a group can be replaced by its champion (`collapseFrom_group`), so an ordered
list collapses like the list of its champions, byte by byte (`Lined.collapse_eq`). How
the rest of a group is ordered does not matter.
-/

namespace CasualDate.Candidate

/-- Which of the two stays where they overlap, `kept` being the earlier one. -/
def longer (kept c : Candidate) : Candidate :=
  if c.isLonger kept then c else kept

/-- The candidates have texts and begin at byte `n`. -/
def IsGroup (n : Nat) (g : List Candidate) : Prop :=
  ∀ c ∈ g, c.index = n ∧ 0 < c.size

/-- The longest of the candidates that begin at byte `n`, the first of several. -/
def champion? (n : Nat) (cs : List Candidate) : Option Candidate :=
  (cs.filter (·.index = n)).argmax size

variable {kept c : Candidate} {g rest cs ds : List Candidate} {n m k : Nat}

theorem some_foldl_longer (kept : Candidate) (g : List Candidate) :
    some (g.foldl longer kept) = (kept :: g).argmax size := by
  rw [List.argmax, List.foldl_cons]
  show _ = g.foldl _ (some kept)
  induction g generalizing kept with
  | nil => rfl
  | cons c g ih =>
    rw [List.foldl_cons, List.foldl_cons, ih]
    congr 1
    simp only [longer, isLonger_iff, List.argAux]
    split <;> rfl

theorem foldl_longer (h : g.argmax size = some c) : g.foldl longer kept = longer kept c := by
  have hsome := some_foldl_longer kept g
  rw [List.argmax_cons, h] at hsome
  refine Option.some.inj (hsome.trans ?_)
  simp only [longer, isLonger_iff]
  split <;> rfl

namespace IsGroup

theorem tail (h : IsGroup n (c :: g)) : IsGroup n g :=
  fun d hd => h d (List.mem_cons_of_mem c hd)

theorem lt_stop (h : IsGroup n g) (hc : c ∈ g) : n < c.stop := by
  obtain ⟨rfl, hsize⟩ := h c hc
  exact Nat.lt_add_of_pos_right hsize

end IsGroup

/-- Once a group is overlapped, every one of it is compared with the longest so far. -/
theorem collapseFrom_append_of_lt (hg : IsGroup n g) (hkept : n < kept.stop) :
    collapseFrom kept (g ++ rest) = collapseFrom (g.foldl longer kept) rest := by
  induction g generalizing kept with
  | nil => rfl
  | cons c g ih =>
    have hover : kept.overlaps c = true := overlaps_iff.2 ((hg c (by simp)).1 ▸ hkept)
    rw [List.cons_append, collapseFrom, if_pos hover, List.foldl_cons, longer]
    split
    · exact ih hg.tail (hg.lt_stop (by simp))
    · exact ih hg.tail hkept

theorem collapseFrom_group (hg : IsGroup n g) (hc : g.argmax size = some c) :
    collapseFrom kept (g ++ rest) = collapseFrom kept (c :: rest) := by
  have hmem : c ∈ g := List.argmax_mem hc
  have hindex : c.index = n := (hg c hmem).1
  by_cases hkept : n < kept.stop
  · have hover : kept.overlaps c = true := overlaps_iff.2 (hindex ▸ hkept)
    rw [collapseFrom_append_of_lt hg hkept, foldl_longer hc, collapseFrom, if_pos hover, longer]
    split <;> rfl
  · cases g with
    | nil => cases hmem
    | cons d g =>
      have hd : ¬kept.overlaps d = true := fun h => hkept ((hg d (by simp)).1 ▸ overlaps_iff.1 h)
      have hover : ¬kept.overlaps c = true := fun h => hkept (hindex ▸ overlaps_iff.1 h)
      have hlongest : g.foldl longer d = c :=
        Option.some.inj ((some_foldl_longer d g).trans hc)
      rw [List.cons_append, collapseFrom, if_neg hd, collapseFrom, if_neg hover,
        collapseFrom_append_of_lt hg.tail (hg.lt_stop (by simp)), hlongest]

/-- Behind a candidate that ends where the text begins, collapsing begins anew. -/
theorem collapseFrom_of_stop_eq_zero (h : kept.stop = 0) (cs : List Candidate) :
    collapseFrom kept cs = kept :: collapse cs := by
  cases cs with
  | nil => rfl
  | cons c cs =>
    have hover : ¬kept.overlaps c = true := by
      rw [overlaps_iff, h]
      exact Nat.not_lt_zero _
    rw [collapseFrom, if_neg hover, collapse]

/-- The champions at the bytes from `m` on, `k` in number. -/
def championsFrom (m k : Nat) (cs : List Candidate) : List Candidate :=
  (List.range' m k).filterMap (champion? · cs)

theorem championsFrom_succ (m k : Nat) (cs : List Candidate) :
    championsFrom m (k + 1) cs = (champion? m cs).toList ++ championsFrom (m + 1) k cs := by
  rw [championsFrom, List.range'_succ, List.filterMap_cons]
  cases champion? m cs <;> rfl

theorem championsFrom_filter (m k : Nat) (cs : List Candidate) :
    championsFrom m k (cs.filter (m ≤ ·.index)) = championsFrom m k cs := by
  refine List.filterMap_congr fun n hn => congrArg (List.argmax size) ?_
  have hle : m ≤ n := (List.mem_range'_1.1 hn).1
  rw [List.filter_filter]
  refine List.filter_congr fun c _ => ?_
  by_cases hindex : c.index = n <;> simp [hindex, hle]

namespace Lined

theorem isGroup (h : Lined cs) (n : Nat) : IsGroup n (cs.filter (·.index = n)) := by
  intro c hc
  obtain ⟨hmem, hindex⟩ := List.mem_filter.1 hc
  exact ⟨by simpa using hindex, h.pos c hmem⟩

/-- What begins at byte `m` or later is the group at that byte and what begins behind it. -/
theorem eq_group_append (h : Lined cs) (hm : ∀ c ∈ cs, m ≤ c.index) :
    cs = cs.filter (·.index = m) ++ cs.filter (m + 1 ≤ ·.index) := by
  have hparts := Finder.eq_filter_append_filter (m + 1) h.ordered
  have hgroup : cs.filter (·.index < m + 1) = cs.filter (·.index = m) := by
    refine List.filter_congr fun c hc => ?_
    have := hm c hc
    rw [decide_eq_decide]
    omega
  rwa [hgroup] at hparts

theorem le_index_of_mem_filter (hc : c ∈ cs.filter (m ≤ ·.index)) : m ≤ c.index := by
  simpa using (List.mem_filter.1 hc).2

theorem collapseFrom_eq (h : Lined cs) (hm : ∀ c ∈ cs, m ≤ c.index)
    (hk : ∀ c ∈ cs, c.index < m + k) :
    collapseFrom kept cs = collapseFrom kept (championsFrom m k cs) := by
  induction k generalizing kept m cs with
  | zero =>
    obtain rfl : cs = [] := List.eq_nil_iff_forall_not_mem.2 fun c hc =>
      Nat.not_lt_of_le (hm c hc) (hk c hc)
    rfl
  | succ k ih =>
    have ih (kept : Candidate) : collapseFrom kept (cs.filter (m + 1 ≤ ·.index)) =
        collapseFrom kept (championsFrom (m + 1) k cs) := by
      rw [← championsFrom_filter]
      refine ih (h.sublist List.filter_sublist) (fun c hc => le_index_of_mem_filter hc) fun c hc => ?_
      have := hk c (List.mem_filter.1 hc).1
      omega
    rw [championsFrom_succ]
    nth_rewrite 1 [h.eq_group_append hm]
    cases hc : champion? m cs with
    | none =>
      rw [List.argmax_eq_none.1 hc]
      exact ih kept
    | some c =>
      rw [collapseFrom_group (h.isGroup m) hc]
      simp only [Option.toList_some, List.singleton_append, collapseFrom, ih]

/-- An ordered list collapses like the list of its champions. -/
theorem collapse_eq (h : Lined cs) (hm : ∀ c ∈ cs, m ≤ c.index) (hk : ∀ c ∈ cs, c.index < m + k) :
    collapse cs = collapse (championsFrom m k cs) := by
  cases cs with
  | nil => simp [championsFrom, champion?]
  | cons c cs =>
    let first : Candidate := { c with index := 0, text := "" }
    have hstop : first.stop = 0 := rfl
    have hfrom : collapseFrom first (c :: cs) = collapseFrom first (championsFrom m k (c :: cs)) :=
      h.collapseFrom_eq hm hk
    rw [collapseFrom_of_stop_eq_zero hstop, collapseFrom_of_stop_eq_zero hstop] at hfrom
    exact (List.cons.inj hfrom).2

theorem collapse_eq_of_champion?_eq (hcs : Lined cs) (hds : Lined ds) (hcs' : ∀ c ∈ cs, c.index < k)
    (hds' : ∀ d ∈ ds, d.index < k) (h : ∀ n, champion? n cs = champion? n ds) :
    collapse cs = collapse ds := by
  have hchampions : championsFrom 0 k cs = championsFrom 0 k ds :=
    List.filterMap_congr fun n _ => h n
  rw [hcs.collapse_eq (m := 0) (fun c _ => Nat.zero_le c.index) (by simpa using hcs'), hchampions,
    ← hds.collapse_eq (fun d _ => Nat.zero_le d.index) (by simpa using hds')]

end Lined

end CasualDate.Candidate
