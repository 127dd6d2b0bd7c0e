import CasualDate.Finder.Scan
import CasualDate.Proofs.Reading.LooksFor
import CasualDate.Proofs.Token.Placed

/-!
# What the scan does

The scan as a relation between tokens and steps (`Step.Scans`), one rule for each thing that can
happen at a token. The rules name the tokens that an expression is read from and those that follow
them, where `scanFrom` counts words. Facts about the scan are inductions on `Scans`.
-/

namespace CasualDate

/-- The text from the token `t` to the last of `ts`. -/
def Token.span (cs : List Char) (t : Token) (ts : List Token) : String :=
  String.ofList (Text.slice cs t.start ((t :: ts).getLast (List.cons_ne_nil t ts)).stop)

theorem Token.Placed.standsAt_span {cs : List Char} {t : Token} {ts : List Token}
    (h : Placed cs (t :: ts)) :
    Text.StandsAt cs t.start (t.span cs ts).toList ∧
      t.start + (t.span cs ts).utf8ByteSize = ((t :: ts).getLast (List.cons_ne_nil t ts)).stop := by
  have hlast := List.getLast_mem (List.cons_ne_nil t ts)
  rw [Text.utf8ByteSize_eq, span, String.toList_ofList]
  exact Text.standsAt_slice (h.start t (by simp)) (h.stop _ hlast) (h.start_le_stop hlast)

/-- The tokens `t :: ts` in front of `rest` are read as `e`, which is more than a number. -/
structure MomentExpr.ReadsTokens (t : Token) (ts rest : List Token) (e : MomentExpr) : Prop where
  reads : Reads parse? ((t :: ts ++ rest).map Token.word) e (rest.map Token.word)
  notBare : e.isBareNumber = false

namespace Step

variable {cs : List Char} {reference : Instant} {t : Token} {ts rest : List Token}
  {e : MomentExpr} {steps : List Step}

inductive Scans (cs : List Char) (reference : Instant) : List Token → List Step → Prop
  | nil : Scans cs reference [] []
  /-- No expression but a number begins at the token. -/
  | pass {t : Token} {ts : List Token} {steps : List Step}
    (hpass : ∀ e rest, Reads MomentExpr.parse? ((t :: ts).map Token.word) e rest →
      e.isBareNumber = true)
    (hsteps : Scans cs reference ts steps) : Scans cs reference (t :: ts) steps
  | found {t : Token} {ts rest : List Token} {e : MomentExpr} {value : Instant} {steps : List Step}
    (hread : e.ReadsTokens t ts rest) (hvalue : e.evaluate reference = .ok value)
    (hsteps : Scans cs reference rest steps) :
    Scans cs reference (t :: ts ++ rest) (.found t.start (t.span cs ts) e value :: steps)
  | skipped {t : Token} {ts rest : List Token} {e : MomentExpr} {error : Error} {steps : List Step}
    (hread : e.ReadsTokens t ts rest) (herror : e.evaluate reference = .error (.refused error))
    (hsteps : Scans cs reference (ts ++ rest) steps) :
    Scans cs reference (t :: ts ++ rest) (.skipped (t.span cs ts) error :: steps)
  | broken {t : Token} {ts rest : List Token} {e : MomentExpr} {cause : Breakdown}
    (hread : e.ReadsTokens t ts rest) (hcause : e.evaluate reference = .error (.broken cause)) :
    Scans cs reference (t :: ts ++ rest) [.broken cause]

theorem scanFrom_nil : scanFrom cs reference [] = [] := by
  rw [scanFrom.eq_def]

theorem scanFrom_of_pass
    (hpass : ∀ e rest, Reads MomentExpr.parse? ((t :: ts).map Token.word) e rest →
      e.isBareNumber = true) :
    scanFrom cs reference (t :: ts) = scanFrom cs reference ts := by
  rw [scanFrom.eq_def]
  dsimp only
  split
  · rfl
  · split
    · rfl
    · next p hp => rw [if_pos (hpass p.value p.rest (.of_eq hp))]

theorem scanFrom_of_reads (hread : e.ReadsTokens t ts rest) :
    scanFrom cs reference (t :: ts ++ rest) =
      match e.evaluate reference with
      | .ok value => .found t.start (t.span cs ts) e value :: scanFrom cs reference rest
      | .error (.refused error) => .skipped (t.span cs ts) error :: scanFrom cs reference (ts ++ rest)
      | .error (.broken cause) => [.broken cause] := by
  have hstart := MomentExpr.startsExpression_of_reads hread.reads
  obtain ⟨hlt, hparse⟩ :
    Reads MomentExpr.parse? ((t :: (ts ++ rest)).map Token.word) e (rest.map Token.word) := hread.reads
  have hindex : ((t :: (ts ++ rest)).map Token.word).length - (rest.map Token.word).length - 1 =
      ts.length := by
    simp only [List.length_map, List.length_cons, List.length_append]
    omega
  have hlast : (t :: (ts ++ rest)).getD ts.length t =
      (t :: ts).getLast (List.cons_ne_nil t ts) := by
    rw [List.getLast_eq_getElem, ← List.cons_append, List.getD_eq_getElem?_getD,
      List.getElem?_append_left (by simp)]
    simp
  rw [List.cons_append, scanFrom.eq_def]
  simp only [hstart, hparse, hread.notBare, Parsed.consumed, hindex, hlast, List.drop_left]
  rfl

theorem exists_readsTokens {left : List Word}
    (hread : Reads MomentExpr.parse? ((t :: ts).map Token.word) e left)
    (hbare : e.isBareNumber = false) :
    ∃ us rest, ts = us ++ rest ∧ rest.map Token.word = left ∧ e.ReadsTokens t us rest := by
  obtain ⟨words, hwords⟩ := MomentExpr.looksFor.suffix (reads_iff.1 hread)
  obtain ⟨us, rest, hts, -, rfl⟩ := List.map_eq_append_iff.1 hwords.symm
  cases us with
  | nil =>
    obtain ⟨hlt, -⟩ := hread
    rw [hts, List.nil_append] at hlt
    exact absurd hlt (Nat.lt_irrefl _)
  | cons u us =>
    obtain ⟨rfl, rfl⟩ := List.cons.inj hts
    exact ⟨us, rest, rfl, rfl, hread, hbare⟩

theorem scans_scanFrom (cs : List Char) (reference : Instant) (ts : List Token) :
    Scans cs reference ts (scanFrom cs reference ts) := by
  induction hn : ts.length using Nat.strongRecOn generalizing ts with
  | ind n ih =>
    subst hn
    cases ts with
    | nil =>
      rw [scanFrom_nil]
      exact .nil
    | cons t ts =>
      have ih (us : List Token) (hle : us.length ≤ ts.length) :
          Scans cs reference us (scanFrom cs reference us) :=
        ih us.length (Nat.lt_succ_of_le hle) us rfl
      by_cases hpass : ∀ e rest, Reads MomentExpr.parse? ((t :: ts).map Token.word) e rest →
          e.isBareNumber = true
      · rw [scanFrom_of_pass hpass]
        exact .pass hpass (ih ts (Nat.le_refl _))
      · simp only [Classical.not_forall] at hpass
        obtain ⟨e, left, hleft, hbare⟩ := hpass
        obtain ⟨us, rest, rfl, -, hread⟩ := exists_readsTokens hleft (by simpa using hbare)
        rw [← List.cons_append, scanFrom_of_reads hread]
        cases hvalue : e.evaluate reference with
        | ok value => exact .found hread hvalue (ih rest (by simp))
        | error failure =>
          cases failure with
          | refused error => exact .skipped hread hvalue (ih (us ++ rest) (Nat.le_refl _))
          | broken cause => exact .broken hread hvalue

namespace Scans

theorem eq_scanFrom (h : Scans cs reference ts steps) : steps = scanFrom cs reference ts := by
  induction h with
  | nil => exact scanFrom_nil.symm
  | pass hpass _ ih => rw [ih, scanFrom_of_pass hpass]
  | found hread hvalue _ ih => rw [ih, scanFrom_of_reads hread, hvalue]
  | skipped hread herror _ ih => rw [ih, scanFrom_of_reads hread, herror]
  | broken hread hcause => rw [scanFrom_of_reads hread, hcause]

variable {index : Nat} {text : String} {value : Instant}

theorem exists_of_found_mem (h : Scans cs reference ts steps)
    (hmem : Step.found index text e value ∈ steps) :
    ∃ us t mid rest, ts = us ++ (t :: mid ++ rest) ∧ e.ReadsTokens t mid rest ∧
      e.evaluate reference = .ok value ∧ index = t.start ∧ text = t.span cs mid := by
  induction h with
  | nil => cases hmem
  | @pass t _ _ _ _ ih =>
    obtain ⟨us, t', mid, rest, rfl, hfound⟩ := ih hmem
    exact ⟨t :: us, t', mid, rest, rfl, hfound⟩
  | @found t ts rest _ _ _ hread hvalue _ ih =>
    rcases List.mem_cons.1 hmem with heq | hmem
    · obtain ⟨rfl, rfl, rfl, rfl⟩ := Step.found.inj heq
      exact ⟨[], t, ts, rest, rfl, hread, hvalue, rfl, rfl⟩
    · obtain ⟨us, t', mid, rest, rfl, hfound⟩ := ih hmem
      exact ⟨t :: ts ++ us, t', mid, rest, by simp, hfound⟩
  | @skipped t ts rest _ _ _ _ _ _ ih =>
    obtain ⟨us, t', mid, rest', hts, hfound⟩ := ih (by simpa using hmem)
    exact ⟨t :: us, t', mid, rest', by rw [List.cons_append, hts]; rfl, hfound⟩
  | broken => simp at hmem

theorem evaluate_of_found_mem (h : Scans cs reference ts steps)
    (hmem : Step.found index text e value ∈ steps) : e.evaluate reference = .ok value := by
  obtain ⟨_, _, _, _, -, -, hvalue, -, -⟩ := h.exists_of_found_mem hmem
  exact hvalue

theorem standsAt_of_found_mem (hts : Token.Placed cs ts) (h : Scans cs reference ts steps)
    (hmem : Step.found index text e value ∈ steps) : Text.StandsAt cs index text.toList := by
  obtain ⟨us, t, mid, rest, rfl, -, -, rfl, rfl⟩ := h.exists_of_found_mem hmem
  have hsub : (t :: mid).Sublist (us ++ (t :: mid ++ rest)) :=
    (List.sublist_append_left _ rest).trans (List.sublist_append_right us _)
  exact (hts.sublist hsub).standsAt_span.1

end Scans

end Step

end CasualDate
