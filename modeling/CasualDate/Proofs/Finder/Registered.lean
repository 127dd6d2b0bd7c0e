import CasualDate.Proofs.Finder.Champion
import CasualDate.Proofs.Finder.Offered

/-!
# The order of recognizers

A search does not depend on the order of its recognizers, unless two of them put forward dates at
the same byte and of the same length (`find_eq_of_perm`). At each byte the champion decides, and among
dates of different lengths that is the same one in any order; the scan always comes first.
-/

namespace CasualDate

section Argmax

variable {α : Type} {size : α → Nat} {l l' : List α}

theorem argmax_eq_of_perm (h : l.Perm l') (hinj : ∀ a ∈ l, ∀ b ∈ l, size a = size b → a = b) :
    l.argmax size = l'.argmax size := by
  cases hl : l.argmax size with
  | none =>
    rw [List.argmax_eq_none] at hl
    rw [hl, List.nil_perm] at h
    rw [h, List.argmax_nil]
  | some a =>
    have ha := List.argmax_mem hl
    cases hl' : l'.argmax size with
    | none =>
      rw [List.argmax_eq_none] at hl'
      rw [hl', List.perm_nil] at h
      rw [h] at ha
      cases ha
    | some b =>
      have hb : b ∈ l := h.mem_iff.2 (List.argmax_mem hl')
      have hle : size b ≤ size a := List.le_of_mem_argmax hb hl
      have hge : size a ≤ size b := List.le_of_mem_argmax (h.mem_iff.1 ha) hl'
      rw [hinj a ha b hb (Nat.le_antisymm hge hle)]

theorem argmax_append_congr (front : List α) (h : l.argmax size = l'.argmax size) :
    (front ++ l).argmax size = (front ++ l').argmax size := by
  induction front with
  | nil => exact h
  | cons a front ih => rw [List.cons_append, List.cons_append, List.argmax_cons, List.argmax_cons, ih]

end Argmax

namespace Finder

variable {f g : Finder} {ctx : Context} {cs : List Candidate} {n : Nat}

theorem filter_index_ordered (n : Nat) (cs : List Candidate) :
    (ordered cs).filter (·.index = n) = (cs.filter (·.date?.isSome)).filter (·.index = n) := by
  have hsame : ∀ c ∈ (cs.filter (·.index = n)).filter (·.date?.isSome), c.index = n := fun c hc => by
    simpa using (List.mem_filter.1 (List.mem_filter.1 hc).1).2
  have hpairwise : ((cs.filter (·.index = n)).filter (·.date?.isSome)).Pairwise
      fun a b => decide (a.index ≤ b.index) = true :=
    List.pairwise_of_forall_mem_list fun a ha b hb => by simp [hsame a ha, hsame b hb]
  rw [filter_ordered, ordered, List.mergeSort_of_pairwise hpairwise, List.filter_filter,
    List.filter_filter]
  exact List.filter_congr fun c _ => Bool.and_comm ..

/-- No two dates of different recognizers begin at the same byte and are equally long. -/
def HasNoTies (f : Finder) (ctx : Context) : Prop :=
  ∀ r ∈ f.recognizers, ∀ r' ∈ f.recognizers, r ≠ r' → ∀ c ∈ r.offers ctx, ∀ c' ∈ r'.offers ctx,
    c.date?.isSome = true → c'.date?.isSome = true → c.index = c'.index → c.size ≠ c'.size

/-- The dates of all recognizers that begin at byte `n`. -/
def recognizedAt (f : Finder) (ctx : Context) (n : Nat) : List Candidate :=
  ((f.recognizers.flatMap (·.offers ctx)).filter (·.date?.isSome)).filter (·.index = n)

theorem eq_of_size_eq (htext : ∀ r ∈ f.recognizers, r.TakesText ctx.text) (hties : f.HasNoTies ctx) :
    ∀ c ∈ f.recognizedAt ctx n, ∀ d ∈ f.recognizedAt ctx n, c.size = d.size → c = d := by
  intro c hc d hd hsize
  simp only [recognizedAt, List.mem_filter, List.mem_flatMap, decide_eq_true_eq] at hc hd
  obtain ⟨⟨⟨r, hr, hc⟩, hdate⟩, rfl⟩ := hc
  obtain ⟨⟨⟨r', hr', hd⟩, hdate'⟩, hindex⟩ := hd
  by_cases heq : r = r'
  · subst heq
    exact (htext r hr).eq_of_index_eq hc hd hindex.symm
  · exact absurd hsize (hties r hr r' hr' heq c hc d hd hdate hdate' hindex.symm)

theorem champion?_ordered_offers_eq (hperm : f.recognizers.Perm g.recognizers)
    (htext : ∀ r ∈ f.recognizers, r.TakesText ctx.text) (hties : f.HasNoTies ctx) (n : Nat) :
    Candidate.champion? n (ordered (f.offers ctx)) =
      Candidate.champion? n (ordered (g.offers ctx)) := by
  have hrecognized : (f.recognizedAt ctx n).Perm (g.recognizedAt ctx n) :=
    ((hperm.flatMap_right _).filter _).filter _
  rw [Candidate.champion?, Candidate.champion?, filter_index_ordered, filter_index_ordered, offers_eq,
    offers_eq]
  simp only [List.filter_append]
  exact argmax_append_congr _ (argmax_eq_of_perm hrecognized (eq_of_size_eq htext hties))

/-- In whatever order its recognizers are registered, a search returns the same, if no two dates of
different recognizers begin at the same byte and are equally long. -/
theorem find_eq_of_perm (hperm : f.recognizers.Perm g.recognizers)
    (htext : ∀ r ∈ f.recognizers, r.TakesText ctx.text) (hties : f.HasNoTies ctx) :
    f.find ctx = g.find ctx := by
  have htext' : ∀ r ∈ g.recognizers, r.TakesText ctx.text := fun r hr =>
    htext r (hperm.mem_iff.2 hr)
  have hcollapse : Candidate.collapse (ordered (f.offers ctx)) =
      Candidate.collapse (ordered (g.offers ctx)) :=
    (lined_ordered htext).collapse_eq_of_champion?_eq (lined_ordered htext')
      (fun c hc => index_lt_of_mem_offers htext (mem_ordered.1 hc).1)
      (fun c hc => index_lt_of_mem_offers htext' (mem_ordered.1 hc).1)
      (champion?_ordered_offers_eq hperm htext hties)
  rw [find_eq, find_eq, settle_eq, settle_eq, hcollapse]

/-- A word and a phrase that begins with it: the phrase is the longer match in both orders. -/
theorem find_newYear_of_perm :
    let now : Instant := ⟨⟨738993, by decide, by decide⟩, .midnight⟩
    let word := Recognizer.ofWord "word" "new" [.assign .day 1]
    let phrase := Recognizer.ofWord "phrase" "new year" [.assign .day 1, .assign .month 1]
    let ctx : Context := { text := "a new year today", reference := now, now }
    [word, phrase].Perm [phrase, word] ∧ (∀ r ∈ [word, phrase], r.TakesText ctx.text) ∧
      (Finder.mk [word, phrase]).HasNoTies ctx ∧
      (Finder.mk [word, phrase]).find ctx = (Finder.mk [phrase, word]).find ctx := by
  intro now word phrase ctx
  have hperm : [word, phrase].Perm [phrase, word] := .swap ..
  have htext : ∀ r ∈ [word, phrase], r.TakesText ctx.text := by decide +kernel
  have hlengths : ∀ c ∈ word.offers ctx, ∀ d ∈ phrase.offers ctx, c.size ≠ d.size := by
    decide +kernel
  have hties : (Finder.mk [word, phrase]).HasNoTies ctx := by
    intro r hr r' hr' hne c hc d hd _ _ _
    simp only [List.mem_cons, List.not_mem_nil, or_false] at hr hr'
    rcases hr with rfl | rfl <;> rcases hr' with rfl | rfl
    · exact absurd rfl hne
    · exact hlengths c hc d hd
    · exact (hlengths d hd c hc).symm
    · exact absurd rfl hne
  exact ⟨hperm, htext, hties, find_eq_of_perm hperm htext hties⟩

end Finder

end CasualDate
