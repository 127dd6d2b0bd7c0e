import CasualDate.Proofs.Expr.Breakdown
import CasualDate.Proofs.Finder.Steady

/-!
# When a search breaks down

A scan goes from token to token and ends early if an expression that it comes to breaks down
(`Step.breaksDown_iff`). Recognizers and what is done with the candidates afterwards never break
down, so a search does exactly if its scan does, and in years that are not negative it always
answers (`Finder.exists_find`).
-/

namespace CasualDate

namespace Step

variable {cs : List Char} {reference : Instant} {ts us : List Token} {steps : List Step}
  {cause : Breakdown}

/-- The scan of the tokens `ts` comes to the tokens `us`. -/
inductive Reaches (reference : Instant) : List Token → List Token → Prop
  | refl (ts : List Token) : Reaches reference ts ts
  | pass {t : Token} {ts us : List Token}
    (hpass : ∀ e rest, Reads MomentExpr.parse? ((t :: ts).map Token.word) e rest →
      e.isBareNumber = true)
    (h : Reaches reference ts us) : Reaches reference (t :: ts) us
  | found {t : Token} {ts rest us : List Token} {e : MomentExpr} {value : Instant}
    (hread : e.ReadsTokens t ts rest) (hvalue : e.evaluate reference = .ok value)
    (h : Reaches reference rest us) : Reaches reference (t :: ts ++ rest) us
  | skipped {t : Token} {ts rest us : List Token} {e : MomentExpr} {error : Error}
    (hread : e.ReadsTokens t ts rest) (herror : e.evaluate reference = .error (.refused error))
    (h : Reaches reference (ts ++ rest) us) : Reaches reference (t :: ts ++ rest) us

/-- The scan of the tokens comes to an expression with `p`. -/
def Meets (p : MomentExpr → Prop) (reference : Instant) (ts : List Token) : Prop :=
  ∃ t mid rest e, Reaches reference ts (t :: mid ++ rest) ∧
    MomentExpr.ReadsTokens t mid rest e ∧ p e

theorem Meets.of_reaches {p : MomentExpr → Prop} (h : Meets p reference us)
    (hreach : ∀ vs, Reaches reference us vs → Reaches reference ts vs) : Meets p reference ts := by
  obtain ⟨t, mid, rest, e, hus, hread, hp⟩ := h
  exact ⟨t, mid, rest, e, hreach _ hus, hread, hp⟩

theorem Scans.meets_of_breakdown (h : Scans cs reference ts steps)
    (hcause : steps.findSome? breakdown? = some cause) :
    Meets (fun e => e.evaluate reference = .error (.broken cause)) reference ts := by
  induction h with
  | nil => cases hcause
  | pass hpass _ ih => exact (ih hcause).of_reaches fun _ => .pass hpass
  | found hread hvalue _ ih => exact (ih hcause).of_reaches fun _ => .found hread hvalue
  | skipped hread herror _ ih => exact (ih hcause).of_reaches fun _ => .skipped hread herror
  | broken hread hbroken =>
    obtain rfl := Option.some.inj hcause
    exact ⟨_, _, _, _, .refl _, hread, hbroken⟩

theorem breakdown_of_reaches (h : Reaches reference ts us) :
    (scanFrom cs reference ts).findSome? breakdown? =
      (scanFrom cs reference us).findSome? breakdown? := by
  induction h with
  | refl => rfl
  | pass hpass _ ih => rw [scanFrom_of_pass hpass, ih]
  | found hread hvalue _ ih =>
    rw [scanFrom_of_reads hread, hvalue]
    exact ih
  | skipped hread herror _ ih =>
    rw [scanFrom_of_reads hread, herror]
    exact ih

theorem breaksDown_iff : (scanFrom cs reference ts).findSome? breakdown? = some cause ↔
    Meets (fun e => e.evaluate reference = .error (.broken cause)) reference ts := by
  constructor
  · exact (scans_scanFrom cs reference ts).meets_of_breakdown
  · rintro ⟨t, mid, rest, e, hreach, hread, hcause⟩
    rw [breakdown_of_reaches hreach, scanFrom_of_reads hread, hcause]
    rfl

end Step

namespace Finder

variable {f : Finder} {ctx : Context} {cause : Breakdown} {failure : Failure}

theorem find_eq_error_iff : f.find ctx = .error failure ↔ ∃ cause, failure = .broken cause ∧
    (Step.scan ctx.text ctx.reference).findSome? Step.breakdown? = some cause := by
  rw [find, proposals]
  cases (Step.scan ctx.text ctx.reference).findSome? Step.breakdown? with
  | none => simp [Except.map]
  | some cause => simp [Except.map, eq_comm]

/-- From a day off the ends of the range a search breaks down exactly if the scan comes to a date
with a two-digit year, counted from one of the ten years before year 0. -/
theorem find_eq_broken_iff (h : ctx.reference.date.HasRoom) : f.find ctx = .error (.broken cause) ↔
    cause = .noCentury ∧ -10 ≤ ctx.reference.date.year ∧ ctx.reference.date.year < 0 ∧
      Step.Meets (fun e => e.asksCentury = true) ctx.reference (Token.lex ctx.text.toList) := by
  have hscan : f.find ctx = .error (.broken cause) ↔
      (Step.scan ctx.text ctx.reference).findSome? Step.breakdown? = some cause := by
    rw [find_eq_error_iff]
    simp
  rw [hscan, Step.scan, Step.breaksDown_iff]
  simp only [Step.Meets, MomentExpr.evaluate_eq_broken_iff h]
  constructor
  · rintro ⟨t, mid, rest, e, hreach, hread, rfl, he, hlow, hhigh⟩
    exact ⟨rfl, hlow, hhigh, t, mid, rest, e, hreach, hread, he⟩
  · rintro ⟨rfl, hlow, hhigh, t, mid, rest, e, hreach, hread, he⟩
    exact ⟨t, mid, rest, e, hreach, hread, rfl, he, hlow, hhigh⟩

theorem exists_find (h : ctx.reference.date.HasRoom) (hyear : 0 ≤ ctx.reference.date.year) :
    ∃ cs, f.find ctx = .ok cs := by
  cases hfind : f.find ctx with
  | ok cs => exact ⟨cs, rfl⟩
  | error failure =>
    obtain ⟨cause, rfl, -⟩ := find_eq_error_iff.1 hfind
    obtain ⟨-, -, hneg, -⟩ := (find_eq_broken_iff h).1 hfind
    omega

theorem exists_findDate (h : ctx.reference.date.HasRoom) (hyear : 0 ≤ ctx.reference.date.year) :
    ∃ answer, f.findDate ctx = .ok answer := by
  obtain ⟨cs, hfind⟩ := f.exists_find h hyear
  exact ⟨_, by rw [findDate, hfind]; rfl⟩

end Finder

end CasualDate
