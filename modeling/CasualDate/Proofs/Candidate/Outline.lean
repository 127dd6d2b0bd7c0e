import CasualDate.Proofs.Candidate.Collapse

/-!
# Candidates without their dates

Overlaps are settled by places and lengths alone, so lists that differ in their dates only collapse
alike (`map_outline_collapse`). Which candidate comes first is settled by those that begin before it
ends (`head?_collapse_append`).
-/

namespace CasualDate.Candidate

/-- Where a candidate stands, and whether it names its weekday. -/
structure Outline where
  index : Nat
  text : String
  namesWeekday : Bool
deriving DecidableEq

def outline (c : Candidate) : Outline :=
  ⟨c.index, c.text, c.fields.isCertain .weekday⟩

/-- The byte before which everything begins that can take the candidate's place. That is its end; a
candidate without text gives way to what begins where it stands. -/
def reach (c : Candidate) : Nat :=
  max c.stop (c.index + 1)

/-- The outlines of those that are dates. -/
def outlines (cs : List Candidate) : List Outline :=
  (cs.filter (·.date?.isSome)).map outline

variable {kept c d : Candidate} {cs ds front back front' back' : List Candidate} {n : Nat}

theorem outlines_cons (h : c.date?.isSome = true) (cs : List Candidate) :
    outlines (c :: cs) = c.outline :: outlines cs := by
  have hfilter : (c :: cs).filter (·.date?.isSome) = c :: cs.filter (·.date?.isSome) :=
    List.filter_cons_of_pos h
  rw [outlines, hfilter, List.map_cons, outlines]

theorem outlines_append (cs ds : List Candidate) : outlines (cs ++ ds) = outlines cs ++ outlines ds := by
  rw [outlines, List.filter_append, List.map_append, outlines, outlines]

theorem outlines_filter (n : Nat) (cs : List Candidate) :
    outlines (cs.filter (·.index < n)) = (outlines cs).filter (·.index < n) := by
  rw [outlines, outlines, List.filter_map, List.filter_filter, List.filter_filter]
  exact congrArg (List.map outline) (List.filter_congr fun _ _ => Bool.and_comm ..)

theorem index_eq_of_outline (h : c.outline = d.outline) : c.index = d.index :=
  congrArg Outline.index h

theorem text_eq_of_outline (h : c.outline = d.outline) : c.text = d.text :=
  congrArg Outline.text h

theorem isCertain_weekday_of_outline (h : c.outline = d.outline) :
    c.fields.isCertain .weekday = d.fields.isCertain .weekday :=
  congrArg Outline.namesWeekday h

theorem map_outline_collapse (h : cs.map outline = ds.map outline) :
    (collapse cs).map outline = (collapse ds).map outline :=
  map_collapse_congr (fun _ _ => index_eq_of_outline)
    (fun _ _ hcd => congrArg String.utf8ByteSize (text_eq_of_outline hcd)) h

theorem head?_collapseFrom_append (hback : ∀ d ∈ back, c.reach ≤ d.index) :
    (collapseFrom kept (front ++ back)).head? = some c ↔
      (collapseFrom kept front).head? = some c := by
  induction front generalizing kept with
  | nil =>
    constructor
    · intro h
      rcases List.mem_cons.1 (collapseFrom_sublist.subset (List.mem_of_head? h)) with rfl | hc
      · rfl
      · exact absurd (Nat.le_trans (Nat.le_max_right ..) (hback c hc)) (Nat.not_succ_le_self _)
    · intro h
      obtain rfl : kept = c := by simpa [collapseFrom] using h
      -- nothing in `back` overlaps the candidate, so the next one begins a new span
      cases back with
      | nil => rfl
      | cons d back =>
        have hle := Nat.le_trans (Nat.le_max_left ..) (hback d (by simp))
        have hover : kept.overlaps d = false := by simpa [overlaps] using hle
        simp [collapseFrom, hover]
  | cons d front ih =>
    simp only [List.cons_append, collapseFrom]
    split
    · split
      · exact ih
      · exact ih
    · rfl

/-- A candidate is first because of those that begin within its reach. -/
theorem head?_collapse_append (hback : ∀ d ∈ back, c.reach ≤ d.index) :
    (collapse (front ++ back)).head? = some c ↔ (collapse front).head? = some c := by
  cases front with
  | nil =>
    refine ⟨fun h => ?_, fun h => by cases h⟩
    have hc := collapse_sublist.subset (List.mem_of_head? h)
    exact absurd (Nat.le_trans (Nat.le_max_right ..) (hback c hc)) (Nat.not_succ_le_self _)
  | cons kept front => exact head?_collapseFrom_append hback

/-- The first candidate of a list is found in another list that is outlined alike within its
reach. -/
theorem exists_head?_collapse (hback : ∀ d ∈ back, c.reach ≤ d.index)
    (hback' : ∀ d ∈ back', c.reach ≤ d.index) (hfront : front.map outline = front'.map outline)
    (h : (collapse (front ++ back)).head? = some c) :
    ∃ d, (collapse (front' ++ back')).head? = some d ∧ d.outline = c.outline := by
  have houtline : ((collapse front').map outline).head? = some c.outline := by
    rw [← map_outline_collapse hfront, List.head?_map, (head?_collapse_append hback).1 h]
    rfl
  rw [List.head?_map] at houtline
  obtain ⟨d, hd, hdc⟩ := Option.map_eq_some_iff.1 houtline
  have hreach : d.reach = c.reach := by
    rw [reach, reach, stop, stop, index_eq_of_outline hdc, text_eq_of_outline hdc]
  exact ⟨d, (head?_collapse_append (hreach ▸ hback')).2 hd, hdc⟩

end CasualDate.Candidate
