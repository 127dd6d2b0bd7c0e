import CasualDate.Proofs.Candidate.Collapse
import CasualDate.Proofs.Finder.Offered
import CasualDate.Proofs.Token.Words
import CasualDate.Proofs.Trigger.LetterCase

/-!
# Searches in any case

A text and its lower case have the same tokens, so the scan finds the same expressions at the same
places (`Step.scan_toLower`), and so do recognizers that do not tell cases apart
(`Recognizer.IgnoresCase`), as the built-in ones. What is found differs in the case of its span only,
which has the same length, so overlaps are settled alike (`Finder.find_lowered`).
-/

namespace CasualDate

/-! ### Tokens -/

namespace Word

theorem ofRun_toLower (cs : List Char) : ofRun (cs.map Char.toLower) = ofRun cs := by
  rw [ofRun, List.flatMap_map]
  simp only [Text.lowerChar_toLower]
  rfl

end Word

namespace Token

theorem kindOf_toLower (c : Char) : kindOf c.toLower = kindOf c :=
  Text.apply_toLower (by decide +kernel) c

theorem lexFrom_toLower (start : Nat) (cs : List Char) :
    lexFrom start (cs.map Char.toLower) = lexFrom start cs := by
  fun_induction lexFrom start cs with
  | case1 => exact lexFrom_nil
  | case2 start c cs hc ih =>
    rw [List.map_cons, lexFrom_separator (by rw [kindOf_toLower, hc]), Text.utf8Size_toLower, ih]
  | case3 start c cs w hc ih =>
    rw [List.map_cons, lexFrom_mark (by rw [kindOf_toLower, hc]), Text.utf8Size_toLower, ih]
  | case4 start c cs hsep hmark run stop ih =>
    have hkind (k : Kind) (c : Char) : decide (kindOf c.toLower = k) = decide (kindOf c = k) := by
      rw [kindOf_toLower]
    have htail : runTail (kindOf c) (cs.map Char.toLower) =
        (runTail (kindOf c) cs).map Char.toLower := Text.takeWhile_toLower (hkind _) cs
    have hafter : afterRun (kindOf c) (cs.map Char.toLower) =
        (afterRun (kindOf c) cs).map Char.toLower := Text.dropWhile_toLower (hkind _) cs
    rw [List.map_cons, lexFrom_run (by rwa [kindOf_toLower]) (by simpa [kindOf_toLower] using hmark),
      kindOf_toLower, htail, hafter, ← List.map_cons, Word.ofRun_toLower, Text.byteLength_toLower, ih]

theorem span_toLower (cs : List Char) (t : Token) (ts : List Token) :
    t.span (cs.map Char.toLower) ts = (t.span cs ts).toLower := by
  rw [span, Text.slice_toLower, Text.ofList_toLower, span]

end Token

/-! ### Expressions -/

namespace Step

/-- The step in a text of lower case. -/
def lowered : Step → Step
  | found index text e value => found index text.toLower e value
  | skipped text e => skipped text.toLower e
  | broken cause => broken cause

theorem breakdown?_lowered (s : Step) : s.lowered.breakdown? = s.breakdown? := by
  cases s <;> rfl

theorem Scans.toLower {cs : List Char} {reference : Instant} {ts : List Token} {steps : List Step}
    (h : Scans cs reference ts steps) :
    Scans (cs.map Char.toLower) reference ts (steps.map lowered) := by
  induction h with
  | nil => exact .nil
  | pass hpass _ ih => exact .pass hpass ih
  | found hread hvalue _ ih =>
    rw [List.map_cons, lowered, ← Token.span_toLower]
    exact .found hread hvalue ih
  | skipped hread herror _ ih =>
    rw [List.map_cons, lowered, ← Token.span_toLower]
    exact .skipped hread herror ih
  | broken hread hcause => exact .broken hread hcause

theorem scan_toLower (text : String) (reference : Instant) :
    scan text.toLower reference = (scan text reference).map lowered := by
  rw [scan, Text.toList_toLower, Token.lex, Token.lexFrom_toLower]
  exact (scans_scanFrom ..).toLower.eq_scanFrom.symm

end Step

/-! ### Candidates -/

namespace Candidate

/-- The candidate in a text of lower case. -/
def lowered (c : Candidate) : Candidate :=
  { c with text := c.text.toLower }

theorem collapse_lowered (cs : List Candidate) :
    collapse (cs.map lowered) = (collapse cs).map lowered := by
  have hindex (c d : Candidate) (h : c.lowered = d) : c.index = d.index := by
    subst h
    rfl
  have hsize (c d : Candidate) (h : c.lowered = d) : c.size = d.size := by
    subst h
    exact (Text.utf8ByteSize_toLower c.text).symm
  have hmap := map_collapse_congr (f := lowered) (g := id) hindex hsize
    (List.map_id (cs.map lowered)).symm
  rw [hmap, List.map_id]

theorem forward_lowered (reference : Instant) (c : Candidate) :
    c.lowered.forward reference = (c.forward reference).lowered := by
  unfold forward
  have hpast : c.lowered.isPast reference = c.isPast reference := rfl
  have hnext : c.lowered.nextYear = c.nextYear.lowered := rfl
  have hdate : c.nextYear.lowered.date? = c.nextYear.date? := rfl
  rw [hpast, hnext, hdate]
  split <;> rfl

end Candidate

theorem Step.candidate?_lowered (s : Step) :
    s.lowered.candidate? = s.candidate?.map Candidate.lowered := by
  cases s <;> rfl

/-! ### Recognizers -/

def Context.lowered (ctx : Context) : Context :=
  { ctx with text := ctx.text.toLower }

namespace Recognizer

/-- In a text and its lower case the recognizer finds the same, but for the case of the spans. -/
def IgnoresCase (r : Recognizer) : Prop :=
  ∀ ctx : Context, r.offers ctx.lowered = (r.offers ctx).map Candidate.lowered

/-- A recognizer ignores case if its pattern does and what it makes of a match does not depend on
the case either. -/
theorem ignoresCase_of_trigger {r : Recognizer} {t : Trigger} (hpattern : r.pattern = t.pattern)
    (hextract : ∀ ctx m, r.extract ctx.lowered (Match.lowered m) = r.extract ctx m) :
    r.IgnoresCase := by
  intro ctx
  have hmatches : r.pattern.findAll ctx.lowered.text.toList =
      (r.pattern.findAll ctx.text.toList).map Match.lowered := by
    rw [hpattern, Context.lowered, Text.toList_toLower]
    exact t.findAll_toLower ctx.text.toList
  rw [offers, offers, attempts, attempts, hmatches, List.map_map, List.filterMap_map,
    List.filterMap_map, List.map_filterMap]
  refine List.filterMap_congr fun m _ => ?_
  simp only [Function.comp_apply, Attempt.candidate?, hextract]
  rw [Match.lowered, Text.ofList_toLower]
  cases r.extract ctx m <;> rfl

theorem ignoresCase_of_mem_builtin {r : Recognizer} (hr : r ∈ builtin) : r.IgnoresCase := by
  rcases List.mem_cons.1 hr with rfl | hr
  · exact ignoresCase_of_trigger rfl fun ctx m => rfl
  · obtain rfl := List.mem_singleton.1 hr
    refine ignoresCase_of_trigger (t := Ordinal.trigger) rfl fun ctx m => ?_
    have hread : Ordinal.read? (String.ofList m.lowered.text) =
        Ordinal.read? (String.ofList m.text) := by
      rw [Match.lowered, Text.ofList_toLower, Ordinal.read?_toLower]
    simp only [ordinalDay, hread]
    rfl

end Recognizer

/-! ### Searches -/

namespace Finder

variable {f : Finder}

theorem ordered_lowered (cs : List Candidate) :
    ordered (cs.map Candidate.lowered) = (ordered cs).map Candidate.lowered := by
  have hsort : (ordered cs).map Candidate.lowered =
      ((cs.filter (·.date?.isSome)).map Candidate.lowered).mergeSort fun a b => a.index ≤ b.index :=
    List.map_mergeSort fun a _ b _ => rfl
  rw [hsort, ordered, List.filter_map]
  rfl

theorem settle_lowered (ctx : Context) (cs : List Candidate) :
    settle ctx.lowered (cs.map Candidate.lowered) = (settle ctx cs).map Candidate.lowered := by
  simp only [settle, ordered_lowered, Candidate.collapse_lowered, Context.lowered]
  split
  · simp only [List.map_map]
    exact List.map_congr_left fun c _ => Candidate.forward_lowered ctx.reference c
  · rfl

theorem offers_lowered (h : ∀ r ∈ f.recognizers, r.IgnoresCase) (ctx : Context) :
    f.offers ctx.lowered = (f.offers ctx).map Candidate.lowered := by
  have hscanned : (Step.scan ctx.lowered.text ctx.lowered.reference).filterMap Step.candidate? =
      ((Step.scan ctx.text ctx.reference).filterMap Step.candidate?).map Candidate.lowered := by
    rw [Context.lowered, Step.scan_toLower, List.filterMap_map, List.map_filterMap]
    exact List.filterMap_congr fun s _ => s.candidate?_lowered
  have hrecognized : f.recognizers.flatMap (·.offers ctx.lowered) =
      (f.recognizers.flatMap (·.offers ctx)).map Candidate.lowered := by
    rw [List.map_flatMap]
    exact List.flatMap_congr fun r hr => h r hr ctx
  rw [offers_eq, offers_eq, List.map_append, hscanned, hrecognized]

/-- In a text and its lower case a finder finds the same, but for the case of the spans, if its
recognizers ignore case. -/
theorem find_lowered (h : ∀ r ∈ f.recognizers, r.IgnoresCase) (ctx : Context) :
    f.find ctx.lowered = (f.find ctx).map (·.map Candidate.lowered) := by
  have hbreakdown : (Step.scan ctx.lowered.text ctx.lowered.reference).findSome? Step.breakdown? =
      (Step.scan ctx.text ctx.reference).findSome? Step.breakdown? := by
    rw [Context.lowered, Step.scan_toLower, List.findSome?_map]
    exact congrArg (List.findSome? · _) (funext Step.breakdown?_lowered)
  rw [find_eq, find_eq, hbreakdown, offers_lowered h, settle_lowered]
  split <;> rfl

theorem findDate_lowered (h : ∀ r ∈ f.recognizers, r.IgnoresCase) (ctx : Context) :
    f.findDate ctx.lowered = f.findDate ctx := by
  rw [findDate, findDate, find_lowered h]
  rcases f.find ctx with failure | _ | ⟨c, cs⟩ <;> rfl

end Finder

end CasualDate
