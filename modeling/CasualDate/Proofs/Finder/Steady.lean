import CasualDate.Proofs.Expr.Alike
import CasualDate.Proofs.Finder.Unaided
import Mathlib.Data.List.Infix

/-!
# Searches from two instants

The same text is searched from the current instant and from another reference. Where every
expression names an instant from the one exactly if it does from the other, both scans take the same
way through the tokens, and both searches come to the same first candidate, up to its date
(`Finder.exists_first_of_steady`). Only what begins within the candidate's reach matters.
-/

namespace CasualDate

namespace MomentExpr

variable {t : Token} {ts rest : List Token} {e : MomentExpr} {reference : Instant}

/-- The expression, other than a number, that is read from the first of the tokens on. -/
def at? (ts : List Token) : Option MomentExpr :=
  ((parse? (ts.map Token.word)).map (·.value)).filter fun e => !e.isBareNumber

theorem ReadsTokens.at?_eq (h : e.ReadsTokens t ts rest) : at? (t :: ts ++ rest) = some e := by
  obtain ⟨hlt, hparse⟩ := h.reads
  rw [at?, hparse]
  simp [Option.filter, h.notBare]

/-- Whether the expression names an instant, seen from the reference. -/
def hasValue (reference : Instant) (e : MomentExpr) : Bool :=
  (e.evaluate reference).isOk

theorem hasValue_iff : e.hasValue reference = true ↔ ∃ value, e.evaluate reference = .ok value := by
  unfold hasValue
  cases e.evaluate reference <;> simp [Except.isOk, Except.toBool]

/-- Whether the evaluation of the expression breaks down, seen from the reference. -/
def breaksDown (reference : Instant) (e : MomentExpr) : Bool :=
  match e.evaluate reference with
  | .error (.broken _) => true
  | _ => false

theorem breaksDown_eq_false (h : ∀ cause, e.evaluate reference ≠ .error (.broken cause)) :
    e.breaksDown reference = false := by
  unfold breaksDown
  split
  · next cause hcause => exact absurd hcause (h cause)
  · rfl

end MomentExpr

theorem Token.Placed.le_start {cs : List Char} {t : Token} {ts : List Token} {n : Nat}
    (h : Placed cs (t :: ts)) (hn : n ≤ t.start) : ∀ u ∈ t :: ts, n ≤ u.start := by
  refine List.forall_mem_cons.2 ⟨hn, fun u hu => ?_⟩
  have := h.start_lt_stop t (by simp)
  have := (List.pairwise_cons.1 h.ordered).1 u hu
  omega

namespace Step

/-- The expressions with `p` that are read from tokens do not break down from the reference, and those
that begin before byte `n` name an instant from there exactly if they do from `now`. -/
structure Steady (p : MomentExpr → Prop) (ts : List Token) (n : Nat) (now reference : Instant) :
    Prop where
  unbroken : ∀ us e, us <:+ ts → MomentExpr.at? us = some e → p e → e.breaksDown reference = false
  agrees : ∀ t us e, t :: us <:+ ts → MomentExpr.at? (t :: us) = some e → p e → t.start < n →
    e.hasValue reference = e.hasValue now

namespace Steady

variable {p : MomentExpr → Prop} {ts us : List Token} {n : Nat} {now reference : Instant}

theorem of_suffix (h : Steady p ts n now reference) (hsuffix : us <:+ ts) :
    Steady p us n now reference where
  unbroken vs e hvs := h.unbroken vs e (hvs.trans hsuffix)
  agrees t vs e hvs := h.agrees t vs e (hvs.trans hsuffix)

/-- Expressions that are known to be alike from both instants need not be asked for. -/
theorem of_alike (h : Steady p ts n now reference)
    (hp : ∀ e, ¬p e → Alike (e.evaluate reference) (e.evaluate now)) :
    Steady (fun _ => True) ts n now reference where
  unbroken us e hus he _ := by
    by_cases hpe : p e
    · exact h.unbroken us e hus he hpe
    · exact MomentExpr.breaksDown_eq_false (hp e hpe).ne_broken
  agrees t us e hus he _ hn := by
    by_cases hpe : p e
    · exact h.agrees t us e hus he hpe hn
    · exact (hp e hpe).isOk_eq

theorem ne_broken {t : Token} {rest : List Token} {e : MomentExpr} {cause : Breakdown}
    (h : Steady p (t :: ts ++ rest) n now reference) (hread : e.ReadsTokens t ts rest) (he : p e) :
    e.evaluate reference ≠ .error (.broken cause) := by
  intro hcause
  have hunbroken := h.unbroken _ e List.suffix_rfl hread.at?_eq he
  simp [MomentExpr.breaksDown, hcause] at hunbroken

theorem iff_forall_tails : Steady p ts n now reference ↔
    ∀ us ∈ ts.tails, ∀ e ∈ MomentExpr.at? us, p e → e.breaksDown reference = false ∧
      ∀ t ∈ us.head?, t.start < n → e.hasValue reference = e.hasValue now := by
  constructor
  · intro h us hus e he hpe
    have hsuffix := (List.mem_tails ..).1 hus
    refine ⟨h.unbroken us e hsuffix he hpe, fun t ht => ?_⟩
    obtain ⟨us, rfl⟩ := List.head?_eq_some_iff.1 ht
    exact h.agrees t us e hsuffix he hpe
  · intro h
    refine ⟨fun us e hus he hpe => (h us ((List.mem_tails ..).2 hus) e he hpe).1,
      fun t us e hus he hpe => ?_⟩
    exact (h (t :: us) ((List.mem_tails ..).2 hus) e he hpe).2 t rfl

instance [DecidablePred p] : Decidable (Steady p ts n now reference) :=
  decidable_of_iff' _ iff_forall_tails

end Steady

/-- What the steps find before byte `n`, without the dates. -/
def outlines (n : Nat) (steps : List Step) : List Candidate.Outline :=
  (Candidate.outlines (steps.filterMap candidate?)).filter (·.index < n)

variable {cs : List Char} {now reference : Instant} {t : Token} {ts : List Token}
  {steps : List Step} {n : Nat}

/-- The weekday is named by the expression, whatever it means. -/
theorem outlines_found {index : Nat} {text : String} {e : MomentExpr} {value : Instant}
    (hindex : index < n) : outlines n (found index text e value :: steps) =
      ⟨index, text, e.stated.weekday⟩ :: outlines n steps := by
  let c : Candidate := ⟨index, text, .ofStated value e.stated, .grammar⟩
  have houtline : c.outline = ⟨index, text, e.stated.weekday⟩ := by simp [c, Candidate.outline]
  have hcons : (found index text e value :: steps).filterMap candidate? =
      c :: steps.filterMap candidate? := rfl
  rw [outlines, hcons, Candidate.outlines_cons (by simp [c, Candidate.date?]), houtline,
    List.filter_cons_of_pos (by simpa using hindex), outlines]

namespace Scans

theorem outlines_eq_nil (hn : ∀ u ∈ ts, n ≤ u.start) (h : Scans cs reference ts steps) :
    outlines n steps = [] := by
  have hnone : (steps.filterMap candidate?).filter (·.index < n) = [] := by
    refine List.filter_eq_nil_iff.2 fun c hc => ?_
    obtain ⟨e, value, hfound, -⟩ := exists_found_of_mem_filterMap hc
    obtain ⟨us, u, mid, rest, rfl, -, -, hindex, -⟩ := h.exists_of_found_mem hfound
    have := hn u (by simp)
    simp only [decide_eq_true_eq]
    omega
  rw [outlines, ← Candidate.outlines_filter, hnone]
  rfl

theorem outlines_eq (hts : Token.Placed cs ts) (hsteady : Steady (fun _ => True) ts n now reference)
    (hwhole : steps.findSome? breakdown? = none) (h : Scans cs now ts steps) :
    outlines n (scanFrom cs reference ts) = outlines n steps := by
  -- Both scans read the same from a token; behind byte `n` they may part, but find nothing before it.
  induction h with
  | nil => rw [scanFrom_nil]
  | @pass t ts steps hpass _ ih =>
    rw [scanFrom_of_pass hpass]
    exact ih hts.tail (hsteady.of_suffix (List.suffix_cons t _)) hwhole
  | @found t ts rest e value steps hread hvalue hsteps ih =>
    by_cases hn : t.start < n
    · have hagrees := hsteady.agrees t (ts ++ rest) e List.suffix_rfl hread.at?_eq trivial hn
      obtain ⟨other, hother⟩ :=
        MomentExpr.hasValue_iff.1 (hagrees.trans (MomentExpr.hasValue_iff.2 ⟨value, hvalue⟩))
      rw [scanFrom_of_reads hread, hother]
      have hrest := ih (hts.sublist (List.sublist_append_right (t :: ts) rest))
        (hsteady.of_suffix (List.suffix_append (t :: ts) rest)) hwhole
      rw [outlines_found hn, outlines_found hn, hrest]
    · have hfar : ∀ u ∈ t :: ts ++ rest, n ≤ u.start := hts.le_start (Nat.le_of_not_lt hn)
      rw [(scans_scanFrom ..).outlines_eq_nil hfar,
        (Scans.found hread hvalue hsteps).outlines_eq_nil hfar]
  | @skipped t ts rest e error steps hread herror hsteps ih =>
    by_cases hn : t.start < n
    · have hagrees := hsteady.agrees t (ts ++ rest) e List.suffix_rfl hread.at?_eq trivial hn
      cases hother : e.evaluate reference with
      | ok value =>
        obtain ⟨_, hvalue⟩ :=
          MomentExpr.hasValue_iff.1 (hagrees.symm.trans (MomentExpr.hasValue_iff.2 ⟨value, hother⟩))
        rw [hvalue] at herror
        cases herror
      | error failure =>
        cases failure with
        | refused _ =>
          rw [scanFrom_of_reads hread, hother]
          exact ih hts.tail (hsteady.of_suffix (List.suffix_cons t _)) hwhole
        | broken cause => exact absurd hother (hsteady.ne_broken hread trivial)
    · have hfar : ∀ u ∈ t :: ts ++ rest, n ≤ u.start := hts.le_start (Nat.le_of_not_lt hn)
      rw [(scans_scanFrom ..).outlines_eq_nil hfar,
        (Scans.skipped hread herror hsteps).outlines_eq_nil hfar]
  | broken => simp [breakdown?] at hwhole

theorem findSome?_breakdown?_eq_none (hsteady : Steady (fun _ => True) ts n now reference)
    (h : Scans cs reference ts steps) : steps.findSome? breakdown? = none := by
  induction h with
  | nil => rfl
  | @pass t _ _ _ _ ih => exact ih (hsteady.of_suffix (List.suffix_cons t _))
  | @found t ts rest _ _ _ _ _ _ ih => exact ih (hsteady.of_suffix (List.suffix_append (t :: ts) rest))
  | @skipped t _ _ _ _ _ _ _ _ ih => exact ih (hsteady.of_suffix (List.suffix_cons t _))
  | broken hread hcause => exact absurd hcause (hsteady.ne_broken hread trivial)

end Scans

end Step

namespace Recognizer

variable {r : Recognizer} {text : String} {now reference : Instant}

/-- Whether the weekday is named, for a match that the recognizer gives a date for. -/
def dated? (r : Recognizer) (ctx : Context) (m : Match) : Option Bool :=
  ((r.extract ctx m).filter (·.date?.isSome)).map (·.isCertain .weekday)

/-- From both instants the recognizer gives dates for the same matches in a text, and names the
weekday of the same ones. -/
def Steady (r : Recognizer) (text : String) (now reference : Instant) : Prop :=
  ∀ m ∈ r.pattern.findAll text.toList,
    r.dated? { text, reference, now } m = r.dated? { text, reference := now, now } m

theorem outlines_attempts (r : Recognizer) (ctx : Context) :
    Candidate.outlines ((r.attempts ctx).filterMap Attempt.candidate?) =
      (r.pattern.findAll ctx.text.toList).filterMap fun m =>
        (r.dated? ctx m).map (⟨m.index, String.ofList m.text, ·⟩) := by
  simp only [Candidate.outlines, attempts, List.filterMap_map, List.filter_filterMap,
    List.map_filterMap]
  refine List.filterMap_congr fun m _ => ?_
  simp only [Function.comp_apply, Attempt.candidate?, dated?]
  cases r.extract ctx m with
  | none => rfl
  | some fields =>
    by_cases hdate : fields.date?.isSome <;>
      simp [hdate, Option.filter, Candidate.date?, Candidate.outline]

theorem Steady.outlines_attempts_eq (h : r.Steady text now reference) :
    Candidate.outlines ((r.attempts { text, reference, now }).filterMap Attempt.candidate?) =
      Candidate.outlines
        ((r.attempts { text, reference := now, now }).filterMap Attempt.candidate?) := by
  rw [outlines_attempts, outlines_attempts]
  exact List.filterMap_congr fun m hm => congrArg (Option.map _) (h m hm)

end Recognizer

namespace Finder

variable {f : Finder} {text : String} {now reference : Instant} {cs ds : List Candidate}
  {c : Candidate} {n : Nat}

theorem outlines_attempts_eq (h : ∀ r ∈ f.recognizers, r.Steady text now reference) :
    Candidate.outlines ((f.attempts { text, reference, now }).filterMap Attempt.candidate?) =
      Candidate.outlines
        ((f.attempts { text, reference := now, now }).filterMap Attempt.candidate?) := by
  simp only [Candidate.outlines, attempts, List.filterMap_flatMap, List.filter_flatMap,
    List.map_flatMap]
  exact List.flatMap_congr fun r hr => Recognizer.Steady.outlines_attempts_eq (h r hr)

/-- What the scan and the recognizers put forward. -/
def offers (f : Finder) (ctx : Context) : List Candidate :=
  (Step.scan ctx.text ctx.reference).filterMap Step.candidate? ++
    (f.attempts ctx).filterMap Attempt.candidate?

theorem find_eq_ok_iff {ctx : Context} : f.find ctx = .ok cs ↔
    (Step.scan ctx.text ctx.reference).findSome? Step.breakdown? = none ∧
      settle ctx (f.offers ctx) = cs := by
  rw [find, proposals]
  cases (Step.scan ctx.text ctx.reference).findSome? Step.breakdown? with
  | some cause => simp [Except.map]
  | none => simp [Except.map, offers]

theorem outlines_offers_eq (hwhole : (Step.scan text now).findSome? Step.breakdown? = none)
    (hsteady : Step.Steady (fun _ => True) (Token.lex text.toList) n now reference)
    (hrecognizers : ∀ r ∈ f.recognizers, r.Steady text now reference) :
    (Candidate.outlines (f.offers { text, reference, now })).filter (·.index < n) =
      (Candidate.outlines (f.offers { text, reference := now, now })).filter (·.index < n) := by
  have hscan : Step.outlines n (Step.scan text reference) = Step.outlines n (Step.scan text now) :=
    (Step.scans_scanFrom ..).outlines_eq (Token.placed_lex _) hsteady hwhole
  rw [Step.outlines, Step.outlines] at hscan
  rw [offers, offers, Candidate.outlines_append, Candidate.outlines_append, List.filter_append,
    List.filter_append, hscan, outlines_attempts_eq hrecognizers]

/-- A search from the reference comes to the same first candidate as one from the current instant,
up to its date. -/
theorem exists_first_of_steady (hfind : f.find { text, reference := now, now } = .ok cs)
    (hfirst : cs.head? = some c)
    (hsteady : Step.Steady (fun _ => True) (Token.lex text.toList) c.reach now reference)
    (hrecognizers : ∀ r ∈ f.recognizers, r.Steady text now reference) :
    ∃ ds d, f.find { text, reference, now } = .ok ds ∧ ds.head? = some d ∧
      d.outline = c.outline := by
  have hunbroken : (Step.scan text reference).findSome? Step.breakdown? = none :=
    (Step.scans_scanFrom ..).findSome?_breakdown?_eq_none hsteady
  obtain ⟨hwhole, rfl⟩ := find_eq_ok_iff.1 hfind
  have hnear := map_outline_filter_ordered (outlines_offers_eq hwhole hsteady hrecognizers)
  have hfar (cs : List Candidate) : ∀ d ∈ cs.filter (c.reach ≤ ·.index), c.reach ≤ d.index :=
    fun d hd => by simpa using (List.mem_filter.1 hd).2
  have hparts (cs : List Candidate) := eq_filter_append_filter c.reach (pairwise_ordered cs)
  simp only [settle, Bool.false_eq_true, if_false] at hfirst
  rw [hparts] at hfirst
  obtain ⟨d, hd, hdc⟩ := Candidate.exists_head?_collapse (hfar _) (hfar _) hnear.symm hfirst
  rw [← hparts] at hd
  refine ⟨_, d, find_eq_ok_iff.2 ⟨hunbroken, rfl⟩, ?_, hdc⟩
  simpa only [settle, Bool.false_eq_true, if_false] using hd

end Finder

end CasualDate
