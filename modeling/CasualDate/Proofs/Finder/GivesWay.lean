import CasualDate.Proofs.Finder.Offered
import Mathlib.Logic.Relation

/-!
# Dates that give way

Of two candidates that overlap one gives way to the other, which may give way to a third in its turn.
`Settles` says what can happen to the next candidate of a list, and the facts about clashes are
inductions on it. In the end a candidate is kept or has given way to one that is at least as long
(`exists_heir`), but the two overlap only if the latter begins before the end of the former. So no
date is lost without a longer one in its place exactly if this holds of all that a date gives way to,
directly or in turn (`losesNone_iff`). Three matches that overlap in a row, each longer than the one
before, lose the first (`find_teaTime`).
-/

namespace CasualDate

open Relation

namespace Candidate

@[simp] theorem size_settled (ctx : Context) (c : Candidate) : (c.settled ctx).size = c.size := by
  simp [size]

@[simp] theorem stop_settled (ctx : Context) (c : Candidate) : (c.settled ctx).stop = c.stop := by
  simp [stop]

/-- The two candidates overlap, whichever of them begins first. -/
def Meets (c d : Candidate) : Prop :=
  c.index < d.stop ∧ d.index < c.stop

instance (c d : Candidate) : Decidable (c.Meets d) :=
  inferInstanceAs (Decidable (_ ∧ _))

/-- In one of the clashes `c` gives way to `d`: `d` replaces it, or it is dropped for `d`. -/
def GivesWayIn (clashes : List Clash) (c d : Candidate) : Prop :=
  .replaced d c ∈ clashes ∨ .dropped c d ∈ clashes

/-- When the list is collapsed, `c` gives way to `d`. -/
def GivesWay (cs : List Candidate) : Candidate → Candidate → Prop :=
  GivesWayIn (clashes cs)

variable {kept c d s : Candidate} {cs found : List Candidate} {es : List Clash} {e : Clash}

theorem GivesWayIn.cons (h : GivesWayIn es c d) : GivesWayIn (e :: es) c d :=
  h.imp (List.mem_cons_of_mem e) (List.mem_cons_of_mem e)

theorem givesWayIn_nil : ¬GivesWayIn [] c d := by
  simp [GivesWayIn]

theorem givesWayIn_cons_replaced {new old : Candidate} :
    GivesWayIn (.replaced new old :: es) c d ↔ c = old ∧ d = new ∨ GivesWayIn es c d := by
  simp [GivesWayIn, or_assoc, and_comm]

theorem givesWayIn_cons_dropped {new old : Candidate} :
    GivesWayIn (.dropped new old :: es) c d ↔ c = new ∧ d = old ∨ GivesWayIn es c d := by
  simp [GivesWayIn, or_left_comm]

/-- What becomes of candidates behind `kept`: which ones are found, and which give way. -/
inductive Settles : Candidate → List Candidate → List Candidate → List Clash → Prop
  | last (kept : Candidate) : Settles kept [] [kept] []
  | replaced {kept c : Candidate} {cs found : List Candidate} {es : List Clash}
    (hover : c.index < kept.stop) (hlonger : kept.size < c.size) (hrest : Settles c cs found es) :
    Settles kept (c :: cs) found (.replaced c kept :: es)
  | dropped {kept c : Candidate} {cs found : List Candidate} {es : List Clash}
    (hover : c.index < kept.stop) (hle : c.size ≤ kept.size) (hrest : Settles kept cs found es) :
    Settles kept (c :: cs) found (.dropped c kept :: es)
  | apart {kept c : Candidate} {cs found : List Candidate} {es : List Clash}
    (hapart : kept.stop ≤ c.index) (hrest : Settles c cs found es) :
    Settles kept (c :: cs) (kept :: found) es

theorem settles (kept : Candidate) (cs : List Candidate) :
    Settles kept cs (collapseFrom kept cs) (clashesFrom kept cs) := by
  induction cs generalizing kept with
  | nil => exact .last kept
  | cons c cs ih =>
    simp only [collapseFrom, clashesFrom]
    split
    · next hover =>
      split
      · next hlonger => exact .replaced (overlaps_iff.1 hover) (isLonger_iff.1 hlonger) (ih c)
      · next hshorter =>
        exact .dropped (overlaps_iff.1 hover) (Nat.le_of_not_lt (mt isLonger_iff.2 hshorter)) (ih kept)
    · next hapart => exact .apart (Nat.le_of_not_lt (mt overlaps_iff.2 hapart)) (ih c)

/-- `s` is found in the place of `c`: it is at least as long, ends behind the beginning of `c`, and
`c` gives way to it in the end unless it is `c` itself. -/
structure IsHeir (es : List Clash) (found : List Candidate) (c s : Candidate) : Prop where
  mem : s ∈ found
  lt_stop : c.index < s.stop
  size_le : c.size ≤ s.size
  way : ReflTransGen (GivesWayIn es) c s

namespace IsHeir

theorem self (hc : c ∈ found) (hlt : c.index < c.stop) : IsHeir es found c c :=
  ⟨hc, hlt, Nat.le_refl _, .refl⟩

theorem clash (h : IsHeir es found c s) : IsHeir (e :: es) found c s :=
  ⟨h.mem, h.lt_stop, h.size_le, ReflTransGen.mono (fun _ _ => GivesWayIn.cons) _ _ h.way⟩

theorem behind (h : IsHeir es found c s) : IsHeir es (kept :: found) c s :=
  ⟨List.mem_cons_of_mem kept h.mem, h.lt_stop, h.size_le, h.way⟩

theorem head (h : IsHeir es found d s) (hway : GivesWayIn es c d) (hlt : c.index < s.stop)
    (hle : c.size ≤ d.size) : IsHeir es found c s :=
  ⟨h.mem, hlt, Nat.le_trans hle h.size_le, .head hway h.way⟩

end IsHeir

namespace Settles

theorem index_le (h : Settles kept cs found es) (hlined : Lined (kept :: cs)) (hs : s ∈ found) :
    kept.index ≤ s.index := by
  induction h with
  | last kept => exact Nat.le_of_eq (congrArg index (List.mem_singleton.1 hs)).symm
  | replaced _ _ _ ih =>
    exact Nat.le_trans (hlined.le_index _ (List.mem_cons_self ..)) (ih hlined.tail hs)
  | dropped _ _ _ ih => exact ih (hlined.sublist ((List.sublist_cons_self _ _).cons_cons _)) hs
  | apart _ _ ih =>
    rcases List.mem_cons.1 hs with rfl | hs
    · exact Nat.le_refl _
    · exact Nat.le_trans (hlined.le_index _ (List.mem_cons_self ..)) (ih hlined.tail hs)

theorem lt_stop {n : Nat} (h : Settles kept cs found es) (hlined : Lined (kept :: cs))
    (hkept : n < kept.stop) (hcs : ∀ c ∈ cs, n ≤ c.index) (hs : s ∈ found) : n < s.stop := by
  have hnext {c : Candidate} {cs : List Candidate} (hlined : Lined (c :: cs)) (hle : n ≤ c.index) :
      n < c.stop :=
    Nat.lt_of_le_of_lt hle (hlined.lt_stop (List.mem_cons_self ..))
  induction h with
  | last => exact List.mem_singleton.1 hs ▸ hkept
  | replaced _ _ _ ih =>
    obtain ⟨hc, hcs⟩ := List.forall_mem_cons.1 hcs
    exact ih hlined.tail (hnext hlined.tail hc) hcs hs
  | dropped _ _ _ ih =>
    exact ih (hlined.sublist ((List.sublist_cons_self _ _).cons_cons _)) hkept
      (List.forall_mem_cons.1 hcs).2 hs
  | apart _ _ ih =>
    obtain ⟨hc, hcs⟩ := List.forall_mem_cons.1 hcs
    rcases List.mem_cons.1 hs with rfl | hs
    · exact hkept
    · exact ih hlined.tail (hnext hlined.tail hc) hcs hs

theorem exists_heir (h : Settles kept cs found es) (hlined : Lined (kept :: cs))
    (hc : c ∈ kept :: cs) : ∃ s, IsHeir es found c s := by
  induction h generalizing c with
  | last kept => exact ⟨c, .self hc (hlined.lt_stop hc)⟩
  | @replaced kept d cs _ _ hover hlonger _ ih =>
    rcases List.mem_cons.1 hc with rfl | hc
    · obtain ⟨s, hs⟩ := ih hlined.tail (List.mem_cons_self ..)
      have hlt := Nat.lt_of_le_of_lt (hlined.le_index d (List.mem_cons_self ..)) hs.lt_stop
      exact ⟨s, hs.clash.head (.inl (List.mem_cons_self ..)) hlt (Nat.le_of_lt hlonger)⟩
    · obtain ⟨s, hs⟩ := ih hlined.tail hc
      exact ⟨s, hs.clash⟩
  | @dropped kept d cs _ _ hover hle hrest ih =>
    have hkept : Lined (kept :: cs) := hlined.sublist ((List.sublist_cons_self d cs).cons_cons kept)
    by_cases hcd : c = d
    · subst hcd
      obtain ⟨s, hs⟩ := ih hkept (List.mem_cons_self ..)
      have hlt := hrest.lt_stop hkept hover hlined.tail.le_index hs.mem
      exact ⟨s, hs.clash.head (.inr (List.mem_cons_self ..)) hlt hle⟩
    · obtain ⟨s, hs⟩ := ih hkept (by simpa [hcd] using hc)
      exact ⟨s, hs.clash⟩
  | apart _ _ ih =>
    rcases List.mem_cons.1 hc with rfl | hc
    · exact ⟨c, .self (List.mem_cons_self ..) (hlined.lt_stop (List.mem_cons_self ..))⟩
    · obtain ⟨s, hs⟩ := ih hlined.tail hc
      exact ⟨s, hs.behind⟩

theorem mem_of_givesWayIn (h : Settles kept cs found es) (hway : GivesWayIn es c d) :
    c ∈ kept :: cs := by
  induction h with
  | last => exact absurd hway givesWayIn_nil
  | replaced _ _ _ ih =>
    rcases givesWayIn_cons_replaced.1 hway with ⟨rfl, -⟩ | hway
    · exact List.mem_cons_self ..
    · exact List.mem_cons_of_mem _ (ih hway)
  | dropped _ _ _ ih =>
    rcases givesWayIn_cons_dropped.1 hway with ⟨rfl, -⟩ | hway
    · exact List.mem_cons_of_mem _ (List.mem_cons_self ..)
    · exact ((List.sublist_cons_self _ _).cons_cons _).subset (ih hway)
  | apart _ _ ih => exact List.mem_cons_of_mem _ (ih hway)

/-- A candidate that is found and ends behind the beginning of one that gives way begins no earlier
than what that one gives way to. -/
theorem index_le_of_givesWayIn (h : Settles kept cs found es) (hlined : Lined (kept :: cs))
    (hway : GivesWayIn es c d) (hs : s ∈ found) (hlt : c.index < s.stop) : d.index ≤ s.index := by
  induction h with
  | last => exact absurd hway givesWayIn_nil
  | replaced _ _ hrest ih =>
    rcases givesWayIn_cons_replaced.1 hway with ⟨-, rfl⟩ | hway
    · exact hrest.index_le hlined.tail hs
    · exact ih hlined.tail hway hs
  | @dropped kept x cs _ _ _ _ hrest ih =>
    have hkept : Lined (kept :: cs) := hlined.sublist ((List.sublist_cons_self x cs).cons_cons kept)
    rcases givesWayIn_cons_dropped.1 hway with ⟨-, rfl⟩ | hway
    · exact hrest.index_le hkept hs
    · exact ih hkept hway hs
  | apart hapart hrest ih =>
    rcases List.mem_cons.1 hs with rfl | hs
    · -- `s` ends before the candidates among which `c` gives way
      rcases List.mem_cons.1 (hrest.mem_of_givesWayIn hway) with rfl | hmem
      · omega
      · have := hlined.tail.le_index c hmem
        omega
    · exact ih hlined.tail hway hs

end Settles

/-- Every candidate is kept, or gives way in the end to one that is kept and is at least as long. -/
theorem exists_heir (h : Lined cs) (hc : c ∈ cs) : ∃ s, IsHeir (clashes cs) (collapse cs) c s := by
  cases cs with
  | nil => cases hc
  | cons kept cs => exact (settles kept cs).exists_heir h hc

theorem GivesWay.mem (h : GivesWay cs c d) : c ∈ cs := by
  cases cs with
  | nil => exact absurd h givesWayIn_nil
  | cons kept cs => exact (settles kept cs).mem_of_givesWayIn h

theorem GivesWay.index_le (h : Lined cs) (hway : GivesWay cs c d) (hs : s ∈ collapse cs)
    (hlt : c.index < s.stop) : d.index ≤ s.index := by
  cases cs with
  | nil => cases hs
  | cons kept cs => exact (settles kept cs).index_le_of_givesWayIn h hway hs hlt

theorem index_le_of_transGen (h : Lined cs) (hway : TransGen (GivesWay cs) c d)
    (hs : s ∈ collapse cs) (hlt : c.index < s.stop) : d.index ≤ s.index := by
  induction hway with
  | single hway => exact hway.index_le h hs hlt
  | tail _ hway ih =>
    exact hway.index_le h hs (Nat.lt_of_le_of_lt ih (h.lt_stop (collapse_sublist.subset hs)))

theorem mem_of_transGen (hway : TransGen (GivesWay cs) c d) : c ∈ cs := by
  obtain ⟨_, hway, -⟩ := TransGen.head'_iff.1 hway
  exact hway.mem

end Candidate

namespace Finder

variable {f : Finder} {ctx : Context} {found : List Candidate}

/-- Each date that was put forward and not found overlaps a date found that is at least as long. -/
def LosesNone (f : Finder) (ctx : Context) (found : List Candidate) : Prop :=
  ∀ c ∈ f.offers ctx, c.date?.isSome = true → c.settled ctx ∉ found →
    ∃ k ∈ found, c.Meets k ∧ c.size ≤ k.size

instance : Decidable (f.LosesNone ctx found) :=
  inferInstanceAs (Decidable (∀ c ∈ _, _))

/-- A search loses no date without a longer one in its place, exactly if whatever a date gives way
to, directly or in turn, begins before the date's end. -/
theorem losesNone_iff (hfind : f.find ctx = .ok found)
    (htext : ∀ r ∈ f.recognizers, r.TakesText ctx.text) :
    f.LosesNone ctx found ↔ ∀ c d,
      TransGen (Candidate.GivesWay (ordered (f.offers ctx))) c d → d.index < c.stop := by
  have hlined : Candidate.Lined (ordered (f.offers ctx)) := lined_ordered htext
  have hfound : (Candidate.collapse (ordered (f.offers ctx))).map (·.settled ctx) = found := by
    rw [← settle_eq]
    exact (find_eq_ok_iff.1 hfind).2
  subst hfound
  constructor
  · intro hnone c d hway
    obtain ⟨hoffer, hdate⟩ := mem_ordered.1 (Candidate.mem_of_transGen hway)
    by_cases hc : c.settled ctx ∈ (Candidate.collapse (ordered (f.offers ctx))).map (·.settled ctx)
    · obtain ⟨k, hk, heq⟩ := List.mem_map.1 hc
      have hindex : k.index = c.index := by simpa using congrArg Candidate.index heq
      have hstop : k.stop = c.stop := by simpa using congrArg Candidate.stop heq
      have hlt := hlined.lt_stop (Candidate.mem_of_transGen hway)
      have hle := Candidate.index_le_of_transGen hlined hway hk (by omega)
      omega
    · obtain ⟨_, hmem, ⟨hbefore, hbehind⟩, -⟩ := hnone c hoffer hdate hc
      obtain ⟨k, hk, rfl⟩ := List.mem_map.1 hmem
      simp only [Candidate.stop_settled, Candidate.index_settled] at hbefore hbehind
      exact Nat.lt_of_le_of_lt (Candidate.index_le_of_transGen hlined hway hk hbefore) hbehind
  · intro hways c hoffer hdate hc
    obtain ⟨s, hs⟩ := Candidate.exists_heir hlined (mem_ordered.2 ⟨hoffer, hdate⟩)
    have hkept := List.mem_map_of_mem (f := (·.settled ctx)) hs.mem
    have hbehind : s.index < c.stop := by
      rcases reflTransGen_iff_eq_or_transGen.1 hs.way with rfl | hway
      · exact absurd hkept hc
      · exact hways c s hway
    exact ⟨s.settled ctx, hkept, by simpa [Candidate.Meets] using ⟨hs.lt_stop, hbehind⟩,
      by simpa using hs.size_le⟩

/-- "tea time" gives way to "time table", which begins before its end and is found. -/
theorem losesNone_timeTable :
    let now : Instant := ⟨⟨738993, by decide, by decide⟩, .midnight⟩
    let teaTime := Recognizer.ofWord "first" "tea time" [.assign .day 1]
    let timeTable := Recognizer.ofWord "second" "time table" [.assign .day 2]
    let f := Finder.mk [teaTime, timeTable]
    let ctx : Context := { text := "tea time table", reference := now, now }
    let found : Candidate :=
      ⟨4, "time table", (Components.ofInstant now).assign .day 2, .recognizer "second"⟩
    f.find ctx = .ok [found] ∧ (∀ r ∈ f.recognizers, r.TakesText ctx.text) ∧
      f.LosesNone ctx [found] ∧
      ∀ c d, TransGen (Candidate.GivesWay (ordered (f.offers ctx))) c d → d.index < c.stop := by
  intro now teaTime timeTable f ctx found
  let lost : Candidate :=
    ⟨0, "tea time", (Components.ofInstant now).assign .day 1, .recognizer "first"⟩
  have hproposals : f.proposals ctx = .ok [lost, found] := by decide +kernel
  have hfind : f.find ctx = .ok [found] := by
    rw [find_of_proposals hproposals (by decide +kernel) (by decide)]
    decide +kernel
  have htext : ∀ r ∈ f.recognizers, r.TakesText ctx.text := by decide +kernel
  have hnone : f.LosesNone ctx [found] := by decide +kernel
  exact ⟨hfind, htext, hnone, (losesNone_iff hfind htext).1 hnone⟩

/-- Of three words that overlap in a row, each longer than the one before, only the last is found,
which does not overlap the first. -/
theorem find_teaTime :
    let now : Instant := ⟨⟨738993, by decide, by decide⟩, .midnight⟩
    let teaTime := Recognizer.ofWord "first" "tea time" [.assign .day 1]
    let timeTable := Recognizer.ofWord "second" "time table" [.assign .day 2]
    let tableManners := Recognizer.ofWord "third" "table manners" [.assign .day 3]
    let f := Finder.mk [teaTime, timeTable, tableManners]
    let ctx : Context := { text := "tea time table manners", reference := now, now }
    let found : Candidate :=
      ⟨9, "table manners", (Components.ofInstant now).assign .day 3, .recognizer "third"⟩
    f.find ctx = .ok [found] ∧ (∀ r ∈ f.recognizers, r.TakesText ctx.text) ∧
      ¬f.LosesNone ctx [found] := by
  intro now teaTime timeTable tableManners f ctx found
  let first : Candidate :=
    ⟨0, "tea time", (Components.ofInstant now).assign .day 1, .recognizer "first"⟩
  let second : Candidate :=
    ⟨4, "time table", (Components.ofInstant now).assign .day 2, .recognizer "second"⟩
  have hproposals : f.proposals ctx = .ok [first, second, found] := by decide +kernel
  refine ⟨?_, by decide +kernel, by decide +kernel⟩
  rw [find_of_proposals hproposals (by decide +kernel) (by decide)]
  decide +kernel

end Finder

end CasualDate
