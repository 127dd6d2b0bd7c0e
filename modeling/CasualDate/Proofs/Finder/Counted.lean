import CasualDate.Proofs.Finder.Scanned
import CasualDate.Proofs.Reading.Counted.Moment

/-!
# Counting the tokens of a scan

A scan can go by the places of tokens: it cuts off the words from a token on, counts those that an
expression takes, and goes on as many tokens further (`Step.countedTurn`). Each turn finds the tokens
that it asks for and goes on at least one (`Step.exists_turn`), so that no more turns than tokens are
needed. All readers stay within their words in the same sense (`TakesWithin`), and both together
are `reading_staysWithin`.
-/

namespace CasualDate

/-- The counting reader, allowed one more nesting than there are words, answers without a fault what
the reader does and how many words that are: at least one and at most all of them. -/
structure TakesWithin {α : Type} (counted : Nat → Counted α)
    (reader : (ws : List Word) → Option (Parsed α ws)) (ws : List Word) : Prop where
  answers : ∀ depth, ws.length < depth →
    counted depth ws = .ok ((reader ws).map fun p => (p.value, p.consumed))
  bounds : ∀ depth a n, ws.length < depth → counted depth ws = .ok (some (a, n)) →
    1 ≤ n ∧ n ≤ ws.length ∧ Reads reader ws a (ws.drop n)

theorem TakesWithin.of_counts {α : Type} {counted : Nat → Counted α}
    {reader : (ws : List Word) → Option (Parsed α ws)} {ws : List Word}
    (h : ∀ depth, ws.length < depth → Counts (counted depth) (reading reader) ws) :
    TakesWithin counted reader ws where
  answers depth hdepth := by
    cases h depth hdepth with
    | none hc hf => rw [hc, run_reading_eq_none.1 hf, Option.map_none]
    | some a n rest hleaves hc hf =>
      obtain ⟨_, hread⟩ := reads_iff.2 hf
      have hlength := hleaves.length
      have hconsumed : ws.length - rest.length = n := by omega
      rw [hc, hread, Option.map_some, Parsed.consumed, hconsumed]
  bounds depth a n hdepth hcounted := by
    cases h depth hdepth with
    | none hc _ =>
      rw [hc] at hcounted
      cases hcounted
    | some _ _ rest hleaves hc hf =>
      rw [hc] at hcounted
      cases hcounted
      have hshorter := length_lt_of_run_reading hf
      have hlength := hleaves.length
      refine ⟨by omega, hleaves.le, ?_⟩
      rw [hleaves.drop]
      exact reads_iff.2 hf

namespace Step

variable {cs : List Char} {reference : Instant} {ts us mid rest : List Token} {t : Token}
  {e : MomentExpr} {i : Nat}

/-- What an expression of `n` tokens comes to, the first of them `t` at the place `i`, and at which
token the scan goes on. -/
def countedValue (cs : List Char) (reference : Instant) (t last : Token) (e : MomentExpr)
    (i n : Nat) : Option Step × Nat :=
  let span := String.ofList (Text.slice cs t.start last.stop)
  match e.evaluate reference with
  | .ok value => (some (.found t.start span e value), i + n)
  | .error (.refused error) => (some (.skipped span error), i + 1)
  | .error (.broken cause) => (some (.broken cause), i + 1)

/-- A turn of the scan at a token: what it comes to there, and at which token it goes on. -/
def countedTurn (cs : List Char) (reference : Instant) (ts : List Token) (i : Nat) :
    Except Fault (Option Step × Nat) := do
  match ts[i]? with
  | none => .error .outside
  | some t =>
    if t.word.startsExpression then
      match ← MomentExpr.counted (ts.length + 1) (← Counted.cut (ts.map Token.word) i) with
      | none => .ok (none, i + 1)
      | some (e, n) =>
        if n = 0 ∨ e.isBareNumber = true then .ok (none, i + 1)
        else
          match ts[i + n - 1]? with
          | none => .error .outside
          | some last => .ok (countedValue cs reference t last e i n)
    else .ok (none, i + 1)

/-- The turns from a token on, at most `turns` of them. Nothing is looked at behind a breakdown. -/
def countedScanFrom (cs : List Char) (reference : Instant) (ts : List Token) :
    Nat → Nat → Except Fault (List Step)
  | 0, i => if i < ts.length then .error .spent else .ok []
  | turns + 1, i =>
    if i < ts.length then do
      match ← countedTurn cs reference ts i with
      | (some (.broken cause), _) => .ok [.broken cause]
      | (step, next) => return step.toList ++ (← countedScanFrom cs reference ts turns next)
    else .ok []

def countedScan (text : String) (reference : Instant) : Except Fault (List Step) :=
  let ts := Token.lex text.toList
  countedScanFrom text.toList reference ts ts.length 0

/-- The steps of a scan that goes on at `next` after a step, if it is no breakdown. -/
def stepsFrom (cs : List Char) (reference : Instant) (ts : List Token) (next : Nat) :
    Option Step → List Step
  | some (.broken cause) => [.broken cause]
  | step => step.toList ++ scanFrom cs reference (ts.drop next)

theorem scanFrom_drop_of_pass (hdrop : ts.drop i = t :: us)
    (hpass : ∀ e left, Reads MomentExpr.parse? ((t :: us).map Token.word) e left →
      e.isBareNumber = true) :
    scanFrom cs reference (ts.drop i) = stepsFrom cs reference ts (i + 1) none := by
  have hnext : ts.drop (i + 1) = us := by rw [← List.drop_drop, hdrop, List.drop_one, List.tail_cons]
  rw [hdrop, scanFrom_of_pass hpass, stepsFrom, hnext]
  · rfl
  · rintro _ ⟨⟩

theorem scanFrom_drop_of_reads (hdrop : ts.drop i = t :: mid ++ rest)
    (hread : e.ReadsTokens t mid rest) :
    ∃ step next, countedValue cs reference t ((t :: mid).getLast (List.cons_ne_nil t mid)) e i
        (mid.length + 1) = (step, next) ∧ i < next ∧ next ≤ i + (mid.length + 1) ∧
      scanFrom cs reference (ts.drop i) = stepsFrom cs reference ts next step := by
  have hnext : ts.drop (i + 1) = mid ++ rest := by
    rw [← List.drop_drop, hdrop, List.drop_one, List.cons_append, List.tail_cons]
  have hbehind : ts.drop (i + (mid.length + 1)) = rest := by
    rw [← List.drop_drop, hdrop, ← List.length_cons, List.drop_left]
  rw [hdrop, scanFrom_of_reads hread, Token.span]
  cases hvalue : e.evaluate reference with
  | ok value =>
    refine ⟨_, _, by rw [countedValue, hvalue], by omega, by omega, ?_⟩
    rw [stepsFrom, hbehind]
    · rfl
    · rintro _ ⟨⟩
  | error failure =>
    cases failure with
    | refused error =>
      refine ⟨_, _, by rw [countedValue, hvalue], by omega, by omega, ?_⟩
      rw [stepsFrom, hnext]
      · rfl
      · rintro _ ⟨⟩
    | broken cause => exact ⟨_, _, by rw [countedValue, hvalue], by omega, by omega, rfl⟩

theorem getElem?_last (hdrop : ts.drop i = t :: mid ++ rest) :
    ts[i + (mid.length + 1) - 1]? = some ((t :: mid).getLast (List.cons_ne_nil t mid)) := by
  calc ts[i + (mid.length + 1) - 1]? = (ts.drop i)[mid.length]? := by
        rw [List.getElem?_drop]
        rfl
    _ = (t :: mid)[mid.length]? := by
        rw [hdrop, List.getElem?_append_left (by simp)]
    _ = some ((t :: mid).getLast (List.cons_ne_nil t mid)) := by
        rw [← List.getLast?_eq_some_getLast, List.getLast?_eq_getElem?]
        rfl

/-- A turn at a token finds the tokens that it asks for and goes on at a later place, still within
the text. It does what the scan does there. -/
theorem exists_turn (cs : List Char) (reference : Instant) (hi : i < ts.length) :
    ∃ step next, countedTurn cs reference ts i = .ok (step, next) ∧ i < next ∧ next ≤ ts.length ∧
      scanFrom cs reference (ts.drop i) = stepsFrom cs reference ts next step := by
  obtain ⟨t, us, hdrop⟩ : ∃ t us, ts.drop i = t :: us :=
    ⟨ts[i], ts.drop (i + 1), List.drop_eq_getElem_cons hi⟩
  have hget : ts[i]? = some t := by rw [← List.head?_drop, hdrop, List.head?_cons]
  have hlength : i + (t :: us).length = ts.length := by
    rw [← hdrop, List.length_drop]
    omega
  have hcut : Counted.cut (ts.map Token.word) i = .ok ((t :: us).map Token.word) := by
    rw [Counted.cut, if_pos (by rw [List.length_map]; omega), ← List.map_drop, hdrop]
  by_cases hstart : t.word.startsExpression = true
  case neg =>
    have hnone : MomentExpr.parse? ((t :: us).map Token.word) = none :=
      MomentExpr.parse?_eq_none (by simpa using hstart)
    refine ⟨none, i + 1, ?_, by omega, by omega, scanFrom_drop_of_pass hdrop fun e left hread => ?_⟩
    · simp only [countedTurn, hget, if_neg hstart]
    · rw [reads_iff, run_reading_eq_none.2 hnone] at hread
      cases hread
  have hdepth : ((t :: us).map Token.word).length < ts.length + 1 := by
    rw [List.length_map]
    omega
  cases MomentExpr.counts hdepth with
  | none hc hf =>
    refine ⟨none, i + 1, ?_, by omega, by omega, scanFrom_drop_of_pass hdrop fun e left hread => ?_⟩
    · simp only [countedTurn, hget, if_pos hstart, hcut, hc, ok_bind]
    · rw [reads_iff, hf] at hread
      cases hread
  | some e n left hleaves hc hf =>
    by_cases hbare : e.isBareNumber = true
    · refine ⟨none, i + 1, ?_, by omega, by omega, scanFrom_drop_of_pass hdrop fun e' left' hread => ?_⟩
      · simp only [countedTurn, hget, if_pos hstart, hcut, hc, ok_bind, if_pos (Or.inr hbare)]
      · rw [reads_iff, hf] at hread
        cases hread
        exact hbare
    · obtain ⟨mid, rest, rfl, rfl, hread⟩ := exists_readsTokens (reads_iff.2 hf) (by simpa using hbare)
      obtain rfl : n = mid.length + 1 := by
        have hcount := hleaves.length
        simp only [List.length_map, List.length_cons, List.length_append] at hcount
        omega
      obtain ⟨step, next, hvalue, hlt, hle, hscan⟩ := scanFrom_drop_of_reads hdrop hread
      refine ⟨step, next, ?_, hlt, ?_, hscan⟩
      · have hmore : ¬(mid.length + 1 = 0 ∨ e.isBareNumber = true) := by simp [hbare]
        simp only [countedTurn, hget, if_pos hstart, hcut, hc, ok_bind, if_neg hmore,
          getElem?_last hdrop, hvalue]
      · simp only [List.length_cons, List.length_append] at hlength
        omega

theorem countedScanFrom_eq (cs : List Char) (reference : Instant) (ts : List Token) {turns : Nat}
    (h : ts.length ≤ i + turns) :
    countedScanFrom cs reference ts turns i = .ok (scanFrom cs reference (ts.drop i)) := by
  induction turns generalizing i with
  | zero =>
    have hend : ¬i < ts.length := by omega
    rw [countedScanFrom, if_neg hend, List.drop_eq_nil_of_le (Nat.le_of_not_lt hend), scanFrom_nil]
  | succ turns ih =>
    by_cases hi : i < ts.length
    · obtain ⟨step, next, hturn, hlt, -, hscan⟩ := exists_turn cs reference hi
      have hrest := ih (show ts.length ≤ next + turns by omega)
      rw [countedScanFrom, if_pos hi, hturn, ok_bind, hscan]
      rcases step with _ | _ | _ | _ <;> simp only [hrest, stepsFrom]
      all_goals rfl
    · rw [countedScanFrom, if_neg hi, List.drop_eq_nil_of_le (Nat.le_of_not_lt hi), scanFrom_nil]

end Step

/-- Every turn of the scan goes on at a later token, and the turns, no more of them than tokens, come
to the steps of the scan without a fault. -/
structure ScansWithin (text : String) (reference : Instant) : Prop where
  advances : ∀ i < (Token.lex text.toList).length, ∃ step next,
    Step.countedTurn text.toList reference (Token.lex text.toList) i = .ok (step, next) ∧
      i < next ∧ next ≤ (Token.lex text.toList).length
  steps : Step.countedScan text reference = .ok (Step.scan text reference)

/-- All readers stay within the words that they are given, and the scan within its tokens. -/
theorem reading_staysWithin (ws : List Word) (text : String) (reference : Instant) :
    TakesWithin MomentExpr.counted MomentExpr.parse? ws ∧
      TakesWithin DateExpr.counted DateExpr.parse? ws ∧
      TakesWithin TimeExpr.counted TimeExpr.parse? ws ∧
      TakesWithin Duration.counted Duration.parse? ws ∧
      TakesWithin DateExpr.countedYear DateExpr.year? ws ∧
      TakesWithin Number.counted Number.parse? ws ∧ ScansWithin text reference := by
  refine ⟨.of_counts fun _ => MomentExpr.counts, .of_counts fun _ => DateExpr.counts,
    .of_counts fun _ => TimeExpr.counts, .of_counts fun _ => Duration.counts,
    .of_counts fun _ => DateExpr.counts_year, .of_counts fun _ => Number.counts, ?_, ?_⟩
  · intro i hi
    obtain ⟨step, next, hturn, hlt, hle, -⟩ := Step.exists_turn text.toList reference hi
    exact ⟨step, next, hturn, hlt, hle⟩
  · exact Step.countedScanFrom_eq _ reference _ (Nat.le_add_left _ _)

end CasualDate
