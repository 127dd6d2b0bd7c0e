import CasualDate.Proofs.Finder.Unaided
import CasualDate.Proofs.Token.Split

/-!
# Unknown words part a text

What stands in front of an unknown word and what stands behind it are searched as two texts
(`Finder.find_barrier`): no expression is read across the word, the tokens of the two parts are those
of texts of their own, and the search behind the word differs in its offsets only.
-/

namespace CasualDate

namespace Candidate

/-- The candidate with its text `n` bytes further on. -/
def shift (n : Nat) (c : Candidate) : Candidate :=
  { c with index := n + c.index }

theorem settled_shift (ctx : Context) (n : Nat) (c : Candidate) :
    (c.shift n).settled ctx = (c.settled ctx).shift n := by
  rw [shift, settled_withIndex, shift, index_settled]

end Candidate

namespace MomentExpr.ReadsTokens

variable {t u : Token} {ts rest us : List Token} {e : MomentExpr}

theorem append_unknown (hu : u.word = .unknown) (us : List Token) (h : e.ReadsTokens t ts rest) :
    e.ReadsTokens t ts (rest ++ u :: us) := by
  refine ⟨reads_iff.2 ?_, h.notBare⟩
  have hrun := run_append_unknown ((t :: ts ++ rest).map Token.word) (us.map Token.word)
  rw [reads_iff.1 h.reads] at hrun
  simpa [hu] using hrun

theorem shift (n : Nat) (h : e.ReadsTokens t ts rest) :
    e.ReadsTokens (t.shift n) (ts.map (Token.shift n)) (rest.map (Token.shift n)) := by
  refine ⟨?_, h.notBare⟩
  simpa [Token.shift, Function.comp_def] using h.reads

end MomentExpr.ReadsTokens

theorem Token.Placed.span_append {as : List Char} {t : Token} {ts : List Token}
    (h : Placed as (t :: ts)) (bs : List Char) : t.span (as ++ bs) ts = t.span as ts := by
  have hlast := List.getLast_mem (List.cons_ne_nil t ts)
  rw [span, span,
    Text.slice_append_left (h.start t (by simp)) (h.stop _ hlast) (h.start_le_stop hlast)]

theorem Token.span_shift (as bs : List Char) (t : Token) (ts : List Token) :
    (t.shift (Text.byteLength as)).span (as ++ bs) (ts.map (shift (Text.byteLength as))) =
      t.span bs ts := by
  have hlast : ((t :: ts).map (shift (Text.byteLength as))).getLast (by simp) =
      ((t :: ts).getLast (List.cons_ne_nil t ts)).shift (Text.byteLength as) := by
    rw [List.getLast_map]
  rw [span, span]
  simp only [List.map_cons] at hlast
  rw [hlast]
  exact congrArg String.ofList (Text.slice_append_right as bs _ _)

namespace Step

/-- The step in a text with `n` more bytes in front. -/
def shift (n : Nat) : Step → Step
  | found index text e value => found (n + index) text e value
  | step => step

variable {as bs cs : List Char} {reference : Instant} {ts us : List Token} {u : Token}
  {steps steps' : List Step}

theorem breakdown?_shift (n : Nat) (step : Step) : (step.shift n).breakdown? = step.breakdown? := by
  cases step <;> rfl

theorem candidate?_shift (n : Nat) (step : Step) :
    (step.shift n).candidate? = step.candidate?.map (Candidate.shift n) := by
  cases step <;> rfl

namespace Scans

/-- Behind an unknown word the scan goes on unless it ended before. -/
theorem append_unknown (hu : u.word = .unknown) (h : Scans cs reference ts steps)
    (h' : Scans cs reference us steps') :
    Scans cs reference (ts ++ u :: us)
      (steps ++ if (steps.findSome? breakdown?).isSome then [] else steps') := by
  have hpass (ts : List Token)
      (hts : ∀ e rest, Reads MomentExpr.parse? (ts.map Token.word) e rest →
        e.isBareNumber = true) :
      ∀ e rest, Reads MomentExpr.parse? ((ts ++ u :: us).map Token.word) e rest →
        e.isBareNumber = true := by
    intro e rest hread
    have hrun := MomentExpr.run_append_unknown (ts.map Token.word) (us.map Token.word)
    rw [reads_iff, List.map_append, List.map_cons, hu, hrun, Option.map_eq_some_iff] at hread
    obtain ⟨⟨e', left⟩, hread, heq⟩ := hread
    cases heq
    exact hts _ left (reads_iff.2 hread)
  induction h with
  | nil =>
    refine .pass (hpass [] ?_) h'
    rintro e rest ⟨hlt, -⟩
    cases hlt
  | @pass t ts _ hp _ ih => exact .pass (hpass (t :: ts) hp) ih
  | found hread hvalue _ ih =>
    have hfound := Scans.found (hread.append_unknown hu us) hvalue ih
    simpa [breakdown?] using hfound
  | @skipped t ts rest _ _ _ hread herror _ ih =>
    rw [List.append_assoc] at ih
    have hskipped := Scans.skipped (hread.append_unknown hu us) herror ih
    simpa [breakdown?] using hskipped
  | @broken t ts rest _ cause hread hcause =>
    have hbroken : Scans cs reference (t :: ts ++ (rest ++ u :: us)) [.broken cause] :=
      .broken (hread.append_unknown hu us) hcause
    simpa [breakdown?] using hbroken

/-- The scan of a text does not depend on what stands behind its tokens. -/
theorem append_text (hts : Token.Placed as ts) (h : Scans as reference ts steps) (bs : List Char) :
    Scans (as ++ bs) reference ts steps := by
  induction h with
  | nil => exact .nil
  | pass hpass _ ih => exact .pass hpass (ih hts.tail)
  | @found t ts rest _ _ _ hread hvalue _ ih =>
    have hspan := (hts.sublist (List.sublist_append_left (t :: ts) rest)).span_append bs
    rw [← hspan]
    exact .found hread hvalue (ih (hts.sublist (List.sublist_append_right (t :: ts) rest)))
  | @skipped t ts rest _ _ _ hread herror _ ih =>
    have hspan := (hts.sublist (List.sublist_append_left (t :: ts) rest)).span_append bs
    rw [← hspan]
    exact .skipped hread herror (ih hts.tail)
  | broken hread hcause => exact .broken hread hcause

/-- The scan of a text does not depend on what stands in front of it, up to its offsets. -/
theorem shift (as : List Char) (h : Scans bs reference ts steps) :
    Scans (as ++ bs) reference (ts.map (Token.shift (Text.byteLength as)))
      (steps.map (Step.shift (Text.byteLength as))) := by
  induction h with
  | nil => exact .nil
  | @pass t ts _ hpass _ ih =>
    refine .pass ?_ ih
    simpa [Token.shift, Function.comp_def] using hpass
  | @found t ts rest _ _ _ hread hvalue _ ih =>
    have hfound := Scans.found (hread.shift (Text.byteLength as)) hvalue ih
    rw [Token.span_shift] at hfound
    simpa [Step.shift, Token.shift] using hfound
  | @skipped t ts rest _ _ _ hread herror _ ih =>
    rw [List.map_append] at ih
    have hskipped := Scans.skipped (hread.shift (Text.byteLength as)) herror ih
    rw [Token.span_shift] at hskipped
    simpa [Step.shift] using hskipped
  | @broken t ts rest _ cause hread hcause =>
    have hbroken : Scans (as ++ bs) reference (t.shift (Text.byteLength as) ::
        ts.map (Token.shift (Text.byteLength as)) ++ rest.map (Token.shift (Text.byteLength as)))
        [.broken cause] :=
      .broken (hread.shift (Text.byteLength as)) hcause
    simpa [Step.shift] using hbroken

end Scans

theorem candidates_append :
    candidates (steps ++ if (steps.findSome? breakdown?).isSome then [] else steps') = do
      return (← candidates steps) ++ (← candidates steps') := by
  unfold candidates
  cases h : steps.findSome? breakdown? with
  | some cause => simp [h]; rfl
  | none =>
    cases h' : steps'.findSome? breakdown? with
    | some cause => simp [h, h']; rfl
    | none => simp [h, h']; rfl

theorem candidates_shift (n : Nat) (steps : List Step) :
    candidates (steps.map (shift n)) = do
      return (← candidates steps).map (Candidate.shift n) := by
  have hbreakdown : (steps.map (shift n)).findSome? breakdown? = steps.findSome? breakdown? := by
    rw [List.findSome?_map]
    exact congrArg (steps.findSome? ·) (funext (breakdown?_shift n))
  have hcandidate : (steps.map (shift n)).filterMap candidate? =
      (steps.filterMap candidate?).map (Candidate.shift n) := by
    rw [List.filterMap_map, List.map_filterMap]
    exact congrArg (steps.filterMap ·) (funext (candidate?_shift n))
  rw [candidates, candidates, hbreakdown, hcandidate]
  cases steps.findSome? breakdown? <;> rfl

end Step

theorem Token.exists_lex_barrier (before after : List Char) {word : List Char}
    (hword : words word = [.unknown]) :
    ∃ u : Token, u.word = .unknown ∧
      lex (before ++ ' ' :: (word ++ ' ' :: after)) =
        lex before ++ u :: (lex after).map
          (shift (Text.byteLength (before ++ ' ' :: (word ++ [' '])))) := by
  have hspace : kindOf ' ' = .separator := by decide +kernel
  have hmap := map_word_lexFrom (0 + Text.byteLength (before ++ [' '])) word
  rw [hword] at hmap
  obtain ⟨u, hu, hunknown⟩ := List.map_eq_singleton_iff.1 hmap
  refine ⟨u, hunknown, ?_⟩
  rw [lex, lexFrom_append_separator hspace, lexFrom_append_separator hspace, hu, lex, lex,
    ← lexFrom_add]
  simp [Nat.add_assoc]

namespace Finder

/-- A search of a text with an unknown word in it returns what searches of the text before the word
and of the text behind it return. -/
theorem find_barrier (ctx : Context) (before after : String) {word : String}
    (hword : Token.words word.toList = [.unknown]) :
    (Finder.mk []).find { ctx with text := before ++ " " ++ word ++ " " ++ after } = do
      let cs ← (Finder.mk []).find { ctx with text := before }
      let ds ← (Finder.mk []).find { ctx with text := after }
      return cs ++ ds.map (Candidate.shift (before ++ " " ++ word ++ " ").utf8ByteSize) := by
  let front := before.toList ++ ' ' :: (word.toList ++ [' '])
  have hfront : (before ++ " " ++ word ++ " ").utf8ByteSize = Text.byteLength front := by
    rw [Text.utf8ByteSize_eq]
    simp [front]
  have htext : (before ++ " " ++ word ++ " " ++ after).toList =
      before.toList ++ ' ' :: (word.toList ++ ' ' :: after.toList) := by
    simp
  obtain ⟨u, hu, hlex⟩ := Token.exists_lex_barrier before.toList after.toList hword
  have hbefore := (Step.scans_scanFrom before.toList ctx.reference
    (Token.lex before.toList)).append_text (Token.placed_lex _)
      (' ' :: (word.toList ++ ' ' :: after.toList))
  have hafter := (Step.scans_scanFrom after.toList ctx.reference (Token.lex after.toList)).shift front
  rw [show front ++ after.toList = before.toList ++ ' ' :: (word.toList ++ ' ' :: after.toList) by
    simp [front]] at hafter
  have hscan := (hbefore.append_unknown hu hafter).eq_scanFrom
  rw [← hlex, ← htext] at hscan
  rw [find_unaided, find_unaided, find_unaided, hfront]
  simp only [Step.scan]
  rw [← hscan, Step.candidates_append, Step.candidates_shift]
  cases Step.candidates (Step.scanFrom before.toList ctx.reference (Token.lex before.toList)) with
  | error failure => rfl
  | ok cs =>
    cases Step.candidates (Step.scanFrom after.toList ctx.reference (Token.lex after.toList)) with
    | error failure => rfl
    | ok ds =>
      have hsettled :
          (cs ++ ds.map (Candidate.shift (Text.byteLength front))).map (·.settled ctx) =
            cs.map (·.settled ctx) ++
              (ds.map (·.settled ctx)).map (Candidate.shift (Text.byteLength front)) := by
        simp [Function.comp_def, Candidate.settled_shift]
      exact congrArg Except.ok hsettled

/-- "Foo" is no word of a date, so the dates on its sides are found for themselves. -/
theorem find_june5_foo_may6 :
    let now : Instant := ⟨⟨738993, by decide, by decide⟩, .midnight⟩
    let june5 : Instant := ⟨⟨739042, by decide, by decide⟩, .midnight⟩
    let may6 : Instant := ⟨⟨739012, by decide, by decide⟩, .midnight⟩
    Token.words "foo".toList = [.unknown] ∧
      (Finder.mk []).find
          { text := "june 5" ++ " " ++ "foo" ++ " " ++ "may 6", reference := now, now } =
        .ok [⟨0, "june 5", .ofStated june5 { month := true, day := true }, .grammar⟩,
          ⟨11, "may 6", .ofStated may6 { month := true, day := true }, .grammar⟩] := by
  intro now june5 may6
  have hword : Token.words "foo".toList = [.unknown] := by decide +kernel
  refine ⟨hword, ?_⟩
  rw [find_barrier { text := "", reference := now, now } "june 5" "may 6" hword, find_unaided,
    find_unaided]
  decide +kernel

end Finder

end CasualDate
