import CasualDate.Proofs.Finder.Steady
import Mathlib.Data.List.Nodup

/-!
# What is put forward

The scan and the recognizers put candidates forward, and a search keeps some of them. What the scan
finds has a text, and so has what a recognizer finds whose matches are not empty: then the dates put
forward, in the order of the text, are `Candidate.Lined` (`lined_ordered`).
-/

namespace CasualDate

theorem Token.Placed.size_span_pos {cs : List Char} {t : Token} {ts : List Token}
    (h : Placed cs (t :: ts)) : 0 < (t.span cs ts).utf8ByteSize := by
  have hlast := List.getLast_mem (List.cons_ne_nil t ts)
  have hspan := h.standsAt_span.2
  have hstart := h.start_lt_stop t (by simp)
  have hstop := h.start_lt_stop _ hlast
  rcases List.mem_cons.1 hlast with heq | hmem
  · rw [heq] at hspan
    omega
  · have := (List.pairwise_cons.1 h.ordered).1 _ hmem
    omega

namespace Step

variable {text : String} {reference : Instant} {c : Candidate}

theorem size_pos_of_mem_scan (h : c ∈ (scan text reference).filterMap candidate?) : 0 < c.size := by
  obtain ⟨e, value, hfound, -⟩ := exists_found_of_mem_filterMap h
  obtain ⟨us, t, ts, rest, hlex, -, -, -, htext⟩ := (scans_scanFrom ..).exists_of_found_mem hfound
  have hsub : (t :: ts).Sublist (Token.lex text.toList) := by
    rw [hlex]
    exact (List.sublist_append_left _ rest).trans (List.sublist_append_right us _)
  rw [Candidate.size, htext]
  exact ((Token.placed_lex _).sublist hsub).size_span_pos

end Step

namespace Recognizer

variable {r : Recognizer} {text : String} {ctx : Context} {c d : Candidate}

/-- No match of the recognizer in the text is empty. -/
def TakesText (r : Recognizer) (text : String) : Prop :=
  ∀ m ∈ r.pattern.findAll text.toList, m.text ≠ []

instance : Decidable (r.TakesText text) :=
  inferInstanceAs (Decidable (∀ m ∈ _, _))

/-- What the recognizer puts forward. -/
def offers (r : Recognizer) (ctx : Context) : List Candidate :=
  (r.attempts ctx).filterMap Attempt.candidate?

theorem mem_offers : c ∈ r.offers ctx ↔ ∃ m ∈ r.pattern.findAll ctx.text.toList,
    ∃ fields, r.extract ctx m = some fields ∧
      c = ⟨m.index, String.ofList m.text, fields, .recognizer r.name⟩ := by
  simp only [offers, attempts, List.filterMap_map, List.mem_filterMap, Function.comp_apply,
    Attempt.candidate?, Option.map_eq_some_iff]
  refine exists_congr fun m => and_congr_right fun _ => exists_congr fun fields => ?_
  exact and_congr_right fun _ => eq_comm

theorem TakesText.size_pos (h : r.TakesText ctx.text) (hc : c ∈ r.offers ctx) : 0 < c.size := by
  obtain ⟨m, hm, fields, -, rfl⟩ := mem_offers.1 hc
  rw [Candidate.size, Text.utf8ByteSize_eq, String.toList_ofList]
  exact Nat.pos_of_ne_zero fun hzero => h m hm (Text.eq_nil_of_byteLength_eq_zero hzero)

theorem TakesText.eq_of_index_eq (h : r.TakesText ctx.text) (hc : c ∈ r.offers ctx)
    (hd : d ∈ r.offers ctx) (hindex : c.index = d.index) : c = d := by
  obtain ⟨m, hm, fields, hfields, rfl⟩ := mem_offers.1 hc
  obtain ⟨m', hm', fields', hfields', rfl⟩ := mem_offers.1 hd
  have hlt : (r.pattern.findAll ctx.text.toList).Pairwise fun a b => a.index < b.index := by
    refine ((r.pattern.placed _).ordered).imp_of_mem fun {a b} ha _ hle => ?_
    refine Nat.lt_of_lt_of_le (Nat.lt_add_of_pos_right ?_) hle
    exact Nat.pos_of_ne_zero fun hzero => h a ha (Text.eq_nil_of_byteLength_eq_zero hzero)
  have hnodup : ((r.pattern.findAll ctx.text.toList).map Match.index).Nodup :=
    List.pairwise_map.2 (hlt.imp Nat.ne_of_lt)
  obtain rfl : m = m' := List.inj_on_of_nodup_map hnodup hm hm' hindex
  obtain rfl : fields = fields' := Option.some.inj (hfields.symm.trans hfields')
  rfl

end Recognizer

namespace Finder

variable {f : Finder} {ctx : Context} {c : Candidate}

theorem find_eq (f : Finder) (ctx : Context) : f.find ctx =
    match (Step.scan ctx.text ctx.reference).findSome? Step.breakdown? with
    | some cause => .error (.broken cause)
    | none => .ok (settle ctx (f.offers ctx)) := by
  rw [find, proposals]
  cases (Step.scan ctx.text ctx.reference).findSome? Step.breakdown? <;> rfl

theorem settle_eq (ctx : Context) (cs : List Candidate) :
    settle ctx cs = (Candidate.collapse (ordered cs)).map (·.settled ctx) := by
  by_cases hforward : ctx.forward = true <;> simp [settle, Candidate.settled, hforward]

/-- Dates that are put forward in the order of the text are collapsed as they come. -/
theorem find_of_proposals {cs : List Candidate} (h : f.proposals ctx = .ok cs)
    (hdate : ∀ c ∈ cs, c.date?.isSome = true) (hindex : cs.Pairwise fun a b => a.index ≤ b.index) :
    f.find ctx = .ok ((Candidate.collapse cs).map (·.settled ctx)) := by
  rw [find, h]
  exact congrArg Except.ok (by rw [settle_eq, ordered_of_pairwise hdate hindex])

theorem offers_eq (f : Finder) (ctx : Context) :
    f.offers ctx = (Step.scan ctx.text ctx.reference).filterMap Step.candidate? ++
      f.recognizers.flatMap (·.offers ctx) := by
  rw [offers, attempts, List.filterMap_flatMap]
  rfl

theorem size_pos_of_mem_offers (h : ∀ r ∈ f.recognizers, r.TakesText ctx.text)
    (hc : c ∈ f.offers ctx) : 0 < c.size := by
  rw [offers_eq] at hc
  rcases List.mem_append.1 hc with hc | hc
  · exact Step.size_pos_of_mem_scan hc
  · obtain ⟨r, hr, hc⟩ := List.mem_flatMap.1 hc
    exact (h r hr).size_pos hc

theorem index_lt_of_mem_offers (h : ∀ r ∈ f.recognizers, r.TakesText ctx.text)
    (hc : c ∈ f.offers ctx) : c.index < ctx.text.utf8ByteSize := by
  have hstands : c.StandsIn ctx.text := by
    rcases List.mem_append.1 hc with hc | hc
    · exact Step.standsIn_of_mem_scan hc
    · exact standsIn_of_mem_attempts hc
  exact Nat.lt_of_lt_of_le (Nat.lt_add_of_pos_right (size_pos_of_mem_offers h hc)) hstands.stop_le

theorem lined_ordered (h : ∀ r ∈ f.recognizers, r.TakesText ctx.text) :
    Candidate.Lined (ordered (f.offers ctx)) :=
  ⟨pairwise_ordered _, fun _ hc => size_pos_of_mem_offers h (mem_ordered.1 hc).1⟩

end Finder

end CasualDate
