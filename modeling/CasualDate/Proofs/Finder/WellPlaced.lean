import CasualDate.Proofs.Finder.Ordered
import CasualDate.Proofs.Finder.Scanned

/-!
# What a search returns is well placed

Whatever recognizers take part, the candidates of a search stand in the text where they say, are
dates, and come from left to right without overlaps (`wellPlaced_find`). The two sources of
candidates are followed separately: the scan through the offsets of the tokens, the recognizers
through those of their matches. Dropping, sorting, collapsing and moving forward keep what a
candidate says of its place.
-/

namespace CasualDate

namespace Candidate

/-- The candidate stands in the text where it says: its text is the slice from its index on. -/
def StandsIn (text : String) (c : Candidate) : Prop :=
  Text.StandsAt text.toList c.index c.text.toList

/-- The candidates stand in the text, are dates, and come in order without overlaps. -/
structure WellPlaced (text : String) (cs : List Candidate) : Prop where
  standsIn : ∀ c ∈ cs, c.StandsIn text
  isDate : ∀ c ∈ cs, c.date?.isSome = true
  ordered : cs.Pairwise fun a b => a.stop ≤ b.index

theorem StandsIn.stop_le {text : String} {c : Candidate} (h : c.StandsIn text) :
    c.stop ≤ text.utf8ByteSize := by
  have := Text.StandsAt.stop_le h
  rwa [← Text.utf8ByteSize_eq, ← Text.utf8ByteSize_eq] at this

end Candidate

namespace Step

theorem standsIn_of_mem_scan {text : String} {reference : Instant} {c : Candidate}
    (h : c ∈ (scan text reference).filterMap candidate?) : c.StandsIn text := by
  obtain ⟨step, hstep, hc⟩ := List.mem_filterMap.1 h
  cases step with
  | found index span e value =>
    cases hc
    exact (scans_scanFrom ..).standsAt_of_found_mem (Token.placed_lex _) hstep
  | skipped | broken => cases hc

end Step

theorem Recognizer.standsIn_of_mem_attempts {r : Recognizer} {ctx : Context} {a : Attempt}
    {c : Candidate} (ha : a ∈ r.attempts ctx) (hc : a.candidate? = some c) :
    c.StandsIn ctx.text := by
  obtain ⟨m, hm, rfl⟩ := List.mem_map.1 ha
  obtain ⟨fields, -, rfl⟩ := Option.map_eq_some_iff.1 hc
  have hat := (r.pattern.placed ctx.text.toList).standsAt m hm
  simpa [Candidate.StandsIn] using hat

namespace Finder

variable {f : Finder} {ctx : Context} {cs : List Candidate} {c : Candidate}

theorem standsIn_of_mem_attempts (h : c ∈ (f.attempts ctx).filterMap Attempt.candidate?) :
    c.StandsIn ctx.text := by
  obtain ⟨a, ha, hc⟩ := List.mem_filterMap.1 h
  obtain ⟨r, -, ha⟩ := List.mem_flatMap.1 ha
  exact r.standsIn_of_mem_attempts ha hc

theorem standsIn_of_mem_proposals (h : f.proposals ctx = .ok cs) (hc : c ∈ cs) :
    c.StandsIn ctx.text := by
  simp only [proposals] at h
  split at h
  · cases h
  · cases h
    rcases List.mem_append.1 hc with hc | hc
    · exact Step.standsIn_of_mem_scan hc
    · exact standsIn_of_mem_attempts hc

theorem isSome_date?_of_mem_settle (hc : c ∈ settle ctx cs) : c.date?.isSome = true := by
  unfold settle at hc
  split at hc
  · obtain ⟨d, hd, rfl⟩ := List.mem_map.1 hc
    exact d.isSome_date?_forward ctx.reference (mem_of_mem_collapse_ordered hd).2
  · exact (mem_of_mem_collapse_ordered hc).2

theorem wellPlaced_settle (h : ∀ c ∈ cs, c.StandsIn ctx.text) :
    Candidate.WellPlaced ctx.text (settle ctx cs) := by
  have hordered := Candidate.pairwise_stop_le_collapse (pairwise_ordered cs)
  refine ⟨fun c hc => ?_, fun c hc => isSome_date?_of_mem_settle hc, ?_⟩
  · unfold settle at hc
    split at hc
    · obtain ⟨d, hd, rfl⟩ := List.mem_map.1 hc
      simpa [Candidate.StandsIn] using h d (mem_of_mem_collapse_ordered hd).1
    · exact h c (mem_of_mem_collapse_ordered hc).1
  · unfold settle
    split
    · simpa [List.pairwise_map] using hordered
    · exact hordered

theorem exists_settle_of_find (h : f.find ctx = .ok cs) :
    ∃ proposed, f.proposals ctx = .ok proposed ∧ cs = settle ctx proposed := by
  unfold find at h
  cases hp : f.proposals ctx with
  | error e => rw [hp] at h; cases h
  | ok proposed =>
    rw [hp] at h
    exact ⟨proposed, rfl, (Except.ok.inj h).symm⟩

theorem isSome_date?_of_mem_find (h : f.find ctx = .ok cs) (hc : c ∈ cs) :
    c.date?.isSome = true := by
  obtain ⟨proposed, -, rfl⟩ := exists_settle_of_find h
  exact isSome_date?_of_mem_settle hc

/-- The candidates of a search stand in the text, are dates, and come from left to right without
overlaps. -/
theorem wellPlaced_find (h : f.find ctx = .ok cs) : Candidate.WellPlaced ctx.text cs := by
  obtain ⟨proposed, hp, rfl⟩ := exists_settle_of_find h
  exact wellPlaced_settle fun c hc => standsIn_of_mem_proposals hp hc

/-- The ordinal in "June 15th" gives way to the date that it is part of. -/
theorem wellPlaced_june15 :
    let now : Instant := ⟨⟨738993, by decide, by decide⟩, .midnight⟩
    let june15 : Instant := ⟨⟨739052, by decide, by decide⟩, .midnight⟩
    let found : Candidate :=
      ⟨8, "June 15th", .ofStated june15 { month := true, day := true }, .grammar⟩
    let ctx : Context := { text := "see you June 15th", reference := now, now, forward := true }
    (Finder.mk Recognizer.builtin).find ctx = .ok [found] ∧
      Candidate.WellPlaced "see you June 15th" [found] := by
  intro now june15 found ctx
  let ordinal : Candidate := ⟨13, "15th",
    ((Components.ofInstant now).assign .day 15).assign .month 4, .recognizer "ordinal-day"⟩
  have hproposals : (Finder.mk Recognizer.builtin).proposals ctx = .ok [found, ordinal] := by
    decide +kernel
  have hordered : ordered [found, ordinal] = [found, ordinal] :=
    ordered_of_pairwise (by decide +kernel) (by decide)
  have hfind : (Finder.mk Recognizer.builtin).find ctx = .ok [found] := by
    rw [find, hproposals]
    show Except.ok (settle ctx [found, ordinal]) = _
    rw [settle, hordered]
    decide +kernel
  exact ⟨hfind, wellPlaced_find hfind⟩

end Finder

end CasualDate
