import CasualDate.Candidate

/-!
# Collapsing overlaps

`collapse` keeps some of the candidates of an ordered list, in their order (`collapse_sublist`),
and what it keeps does not overlap (`pairwise_stop_le_collapse`). No invariant about the replaced
candidates is needed: a replacement begins no earlier than the candidate it replaces, hence not
before the end of the one kept in front of it. Places and lengths decide alone, so what lists have in
common besides these survives (`map_collapse_congr`).
-/

namespace CasualDate.Candidate

variable {kept c : Candidate} {cs : List Candidate}

theorem collapseFrom_sublist : (collapseFrom kept cs).Sublist (kept :: cs) := by
  induction cs generalizing kept with
  | nil => exact List.Sublist.refl _
  | cons c cs ih =>
    simp only [collapseFrom]
    split
    · split
      · exact ih.cons kept
      · exact ih.trans ((List.sublist_cons_self c cs).cons_cons kept)
    · exact ih.cons_cons kept

theorem collapse_sublist : (collapse cs).Sublist cs := by
  cases cs with
  | nil => exact List.Sublist.refl _
  | cons c cs => exact collapseFrom_sublist

theorem head?_collapseFrom (h : ∀ c ∈ cs, c.isLonger kept = false) :
    (collapseFrom kept cs).head? = some kept := by
  induction cs with
  | nil => rfl
  | cons c cs ih =>
    simp only [collapseFrom, h c (by simp), Bool.false_eq_true, if_false]
    split
    · exact ih fun c' hc' => h c' (by simp [hc'])
    · rfl

theorem pairwise_stop_le_collapseFrom
    (h : (kept :: cs).Pairwise fun a b => a.index ≤ b.index) :
    (collapseFrom kept cs).Pairwise fun a b => a.stop ≤ b.index := by
  induction cs generalizing kept with
  | nil => exact List.pairwise_singleton ..
  | cons c cs ih =>
    obtain ⟨hkept, hcs⟩ := List.pairwise_cons.1 h
    simp only [collapseFrom]
    split
    · split
      · exact ih hcs
      · exact ih (h.sublist ((List.sublist_cons_self c cs).cons_cons kept))
    · next hover =>
      refine List.pairwise_cons.2 ⟨fun d hd => ?_, ih hcs⟩
      have hle : kept.stop ≤ c.index := by simpa [overlaps] using hover
      rcases List.mem_cons.1 (collapseFrom_sublist.subset hd) with rfl | hd
      · exact hle
      · exact Nat.le_trans hle ((List.pairwise_cons.1 hcs).1 d hd)

theorem pairwise_stop_le_collapse (h : cs.Pairwise fun a b => a.index ≤ b.index) :
    (collapse cs).Pairwise fun a b => a.stop ≤ b.index := by
  cases cs with
  | nil => exact .nil
  | cons c cs => exact pairwise_stop_le_collapseFrom h

/-! ### Candidates with text -/

/-- The number of bytes of the candidate's text. -/
def size (c : Candidate) : Nat :=
  c.text.utf8ByteSize

theorem isLonger_iff : c.isLonger kept = true ↔ kept.size < c.size := by
  simp [isLonger, size]

theorem overlaps_iff : kept.overlaps c = true ↔ c.index < kept.stop := by
  simp [overlaps]

/-! ### Lists that collapse alike -/

section Congr

variable {γ : Type} {f g : Candidate → γ} {kept' : Candidate} {ds : List Candidate}

/-- Overlaps are settled by places and lengths, so lists that agree in these, whatever else they agree
in, still do when they are collapsed. -/
theorem map_collapseFrom_congr (hindex : ∀ c d, f c = g d → c.index = d.index)
    (hsize : ∀ c d, f c = g d → c.size = d.size) (hkept : f kept = g kept')
    (h : cs.map f = ds.map g) :
    (collapseFrom kept cs).map f = (collapseFrom kept' ds).map g := by
  induction cs generalizing kept kept' ds with
  | nil =>
    obtain rfl : ds = [] := List.map_eq_nil_iff.1 h.symm
    simpa [collapseFrom] using hkept
  | cons c cs ih =>
    obtain ⟨d, ds, rfl, hd, hds⟩ := List.map_eq_cons_iff.1 h.symm
    have hover : kept.overlaps c = kept'.overlaps d := by
      show decide (c.index < kept.index + kept.size) = decide (d.index < kept'.index + kept'.size)
      rw [hindex c d hd.symm, hindex kept kept' hkept, hsize kept kept' hkept]
    have hlonger : c.isLonger kept = d.isLonger kept' := by
      show decide (kept.size < c.size) = decide (kept'.size < d.size)
      rw [hsize c d hd.symm, hsize kept kept' hkept]
    rw [collapseFrom, collapseFrom, hover, hlonger]
    split
    · split
      · exact ih hd.symm hds.symm
      · exact ih hkept hds.symm
    · rw [List.map_cons, List.map_cons, hkept, ih hd.symm hds.symm]

theorem map_collapse_congr (hindex : ∀ c d, f c = g d → c.index = d.index)
    (hsize : ∀ c d, f c = g d → c.size = d.size) (h : cs.map f = ds.map g) :
    (collapse cs).map f = (collapse ds).map g := by
  cases cs with
  | nil =>
    obtain rfl : ds = [] := List.map_eq_nil_iff.1 h.symm
    rfl
  | cons c cs =>
    obtain ⟨d, ds, rfl, hd, hds⟩ := List.map_eq_cons_iff.1 h.symm
    exact map_collapseFrom_congr hindex hsize hd.symm hds.symm

end Congr

/-- The candidates come in the order of the text, and each has a text. -/
structure Lined (cs : List Candidate) : Prop where
  ordered : cs.Pairwise fun a b => a.index ≤ b.index
  pos : ∀ c ∈ cs, 0 < c.size

namespace Lined

variable {ds : List Candidate}

theorem sublist (h : Lined cs) (hsub : ds.Sublist cs) : Lined ds :=
  ⟨h.ordered.sublist hsub, fun d hd => h.pos d (hsub.subset hd)⟩

theorem tail (h : Lined (c :: cs)) : Lined cs :=
  h.sublist (List.sublist_cons_self c cs)

theorem le_index (h : Lined (c :: cs)) : ∀ d ∈ cs, c.index ≤ d.index :=
  (List.pairwise_cons.1 h.ordered).1

theorem lt_stop (h : Lined cs) (hc : c ∈ cs) : c.index < c.stop :=
  Nat.lt_add_of_pos_right (h.pos c hc)

end Lined

/-! ### Moving a candidate into the next year -/

@[simp] theorem index_forward (reference : Instant) : (c.forward reference).index = c.index := by
  unfold forward; split <;> rfl

@[simp] theorem text_forward (reference : Instant) : (c.forward reference).text = c.text := by
  unfold forward; split <;> rfl

@[simp] theorem stop_forward (reference : Instant) : (c.forward reference).stop = c.stop := by
  simp [stop]

theorem isSome_date?_forward (reference : Instant) (h : c.date?.isSome = true) :
    (c.forward reference).date?.isSome = true := by
  unfold forward
  split
  · next hmoved => exact (Bool.and_eq_true_iff.1 hmoved).2
  · exact h

end CasualDate.Candidate
