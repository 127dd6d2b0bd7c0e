import CasualDate.Proofs.Components.OnClock
import CasualDate.Proofs.Finder.WellPlaced

/-!
# Searches without recognizers

What the scan finds is in order and does not overlap, so a search without recognizers neither sorts
nor drops anything: it returns what the scan finds, up to moving it forward (`Finder.find_unaided`).
-/

namespace CasualDate

namespace Candidate

variable {cs : List Candidate} {kept : Candidate}

theorem collapseFrom_of_pairwise (h : (kept :: cs).Pairwise fun a b => a.stop ≤ b.index) :
    collapseFrom kept cs = kept :: cs := by
  induction cs generalizing kept with
  | nil => rfl
  | cons c cs ih =>
    obtain ⟨hkept, hcs⟩ := List.pairwise_cons.1 h
    have hover : kept.overlaps c = false := by simpa [overlaps] using hkept c (by simp)
    rw [collapseFrom, hover, if_neg Bool.false_ne_true, ih hcs]

theorem collapse_of_pairwise (h : cs.Pairwise fun a b => a.stop ≤ b.index) : collapse cs = cs := by
  cases cs with
  | nil => rfl
  | cons c cs => exact collapseFrom_of_pairwise h

/-- The candidate as a search with the context returns it. -/
def settled (ctx : Context) (c : Candidate) : Candidate :=
  if ctx.forward then c.forward ctx.reference else c

@[simp] theorem index_settled (ctx : Context) (c : Candidate) : (c.settled ctx).index = c.index := by
  unfold settled
  split
  · exact index_forward ctx.reference
  · rfl

@[simp] theorem text_settled (ctx : Context) (c : Candidate) : (c.settled ctx).text = c.text := by
  unfold settled
  split
  · exact text_forward ctx.reference
  · rfl

theorem settled_withIndex (ctx : Context) (n : Nat) (c : Candidate) :
    ({ c with index := n } : Candidate).settled ctx = { c.settled ctx with index := n } := by
  have hmoved : (({ c with index := n } : Candidate).isPast ctx.reference &&
      ({ c with index := n } : Candidate).nextYear.date?.isSome) =
        (c.isPast ctx.reference && c.nextYear.date?.isSome) := rfl
  rw [settled, settled, forward, forward, hmoved]
  split
  · split <;> rfl
  · rfl

end Candidate

namespace Step

variable {cs : List Char} {reference : Instant} {ts : List Token} {steps : List Step}
  {c : Candidate}

theorem exists_found_of_mem_filterMap (h : c ∈ steps.filterMap candidate?) :
    ∃ e value, found c.index c.text e value ∈ steps ∧
      c = ⟨c.index, c.text, .ofStated value e.stated, .grammar⟩ := by
  obtain ⟨step, hstep, hc⟩ := List.mem_filterMap.1 h
  cases step with
  | found index text e value =>
    cases hc
    exact ⟨e, value, hstep, rfl⟩
  | skipped | broken => cases hc

theorem isSome_date?_of_mem_filterMap (h : c ∈ steps.filterMap candidate?) :
    c.date?.isSome = true := by
  obtain ⟨e, value, -, heq⟩ := exists_found_of_mem_filterMap h
  rw [heq]
  simp [Candidate.date?]

/-- What the scan finds does not overlap: it goes on behind the last token of what it found. -/
theorem Scans.pairwise (hts : Token.Placed cs ts) (h : Scans cs reference ts steps) :
    (steps.filterMap candidate?).Pairwise fun a b => a.stop ≤ b.index := by
  induction h with
  | nil => exact .nil
  | pass _ _ ih => exact ih hts.tail
  | @found t ts rest e value steps hread hvalue hsteps ih =>
    have hplaced := hts.sublist (List.sublist_append_left (t :: ts) rest)
    refine List.pairwise_cons.2 ⟨fun d hd => ?_,
      ih (hts.sublist (List.sublist_append_right (t :: ts) rest))⟩
    obtain ⟨_, _, hfound, -⟩ := exists_found_of_mem_filterMap hd
    obtain ⟨us, u, mid, left, hrest, -, -, hindex, -⟩ := hsteps.exists_of_found_mem hfound
    have hu : u ∈ rest := by rw [hrest]; simp
    have hle := (List.pairwise_append.1 hts.ordered).2.2 _
      (List.getLast_mem (List.cons_ne_nil t ts)) u hu
    rw [hindex]
    exact Nat.le_trans (Nat.le_of_eq hplaced.standsAt_span.2) hle
  | skipped _ _ _ ih => exact ih hts.tail
  | broken => exact .nil

/-- What a scan finds, unless an evaluation broke down. -/
def candidates (steps : List Step) : Except Failure (List Candidate) :=
  match steps.findSome? breakdown? with
  | some cause => .error (.broken cause)
  | none => .ok (steps.filterMap candidate?)

end Step

namespace Finder

variable {cs : List Candidate}

theorem settle_of_pairwise (ctx : Context) (hdate : ∀ c ∈ cs, c.date?.isSome = true)
    (h : cs.Pairwise fun a b => a.stop ≤ b.index) : settle ctx cs = cs.map (·.settled ctx) := by
  have hindex : cs.Pairwise fun a b => a.index ≤ b.index :=
    h.imp fun hle => Nat.le_trans (Nat.le_add_right ..) hle
  rw [settle, ordered_of_pairwise hdate hindex, Candidate.collapse_of_pairwise h]
  by_cases hforward : ctx.forward = true <;> simp [Candidate.settled, hforward]

theorem find_unaided (ctx : Context) :
    (Finder.mk []).find ctx = do
      return (← Step.candidates (Step.scan ctx.text ctx.reference)).map (·.settled ctx) := by
  have hscan := Step.scans_scanFrom ctx.text.toList ctx.reference (Token.lex ctx.text.toList)
  have hattempts : (Finder.mk []).attempts ctx = [] := rfl
  have hsettle := settle_of_pairwise ctx
    (fun _ hc => Step.isSome_date?_of_mem_filterMap hc) (hscan.pairwise (Token.placed_lex _))
  simp only [find, proposals, Step.candidates, hattempts, List.filterMap_nil, List.append_nil]
  cases (Step.scan ctx.text ctx.reference).findSome? Step.breakdown? with
  | some cause => rfl
  | none => exact congrArg Except.ok hsettle

/-- Recognizers whose patterns do not occur take no part in a search. -/
theorem find_of_isEmpty_attempts {f : Finder} {ctx : Context}
    (h : (f.attempts ctx).isEmpty = true) : f.find ctx = (Finder.mk []).find ctx := by
  have hnone : f.attempts ctx = [] := List.isEmpty_iff.1 h
  have hunaided : (Finder.mk []).attempts ctx = [] := rfl
  rw [find, find, proposals, proposals, hnone, hunaided]

theorem eq_map_settled_of_find_unaided {ctx : Context} (h : (Finder.mk []).find ctx = .ok cs) :
    cs = ((Step.scan ctx.text ctx.reference).filterMap Step.candidate?).map (·.settled ctx) := by
  rw [find_unaided, Step.candidates] at h
  cases hcause : (Step.scan ctx.text ctx.reference).findSome? Step.breakdown? with
  | some cause =>
    rw [hcause] at h
    cases h
  | none =>
    rw [hcause] at h
    exact (Except.ok.inj h).symm

end Finder

end CasualDate
