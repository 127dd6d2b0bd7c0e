import CasualDate.Proofs.Components.Stating
import CasualDate.Proofs.Finder.Unaided
import CasualDate.Journal

/-!
# Without recognizers there is nothing to merge

Candidates are merged in three steps: those that are no date are dropped, the others sorted, and of
those that overlap the longer ones kept. What the scan finds are dates already, in order and apart
from each other, so a search without recognizers returns them one for one, each with the instant
that its expression means and the fields that it states.
-/

namespace CasualDate

namespace Candidate

variable {cs : List Candidate} {kept : Candidate}

theorem clashesFrom_of_pairwise (h : (kept :: cs).Pairwise fun a b => a.stop ≤ b.index) :
    clashesFrom kept cs = [] := by
  induction cs generalizing kept with
  | nil => rfl
  | cons c cs ih =>
    obtain ⟨hkept, hcs⟩ := List.pairwise_cons.1 h
    have hover : kept.overlaps c = false := by simpa [overlaps] using hkept c List.mem_cons_self
    rw [clashesFrom, hover, if_neg Bool.false_ne_true, ih hcs]

theorem clashes_of_pairwise (h : cs.Pairwise fun a b => a.stop ≤ b.index) : clashes cs = [] := by
  cases cs with
  | nil => rfl
  | cons c cs => exact clashesFrom_of_pairwise h

end Candidate

namespace Step

variable {cs : List Char} {reference : Instant} {ts : List Token} {steps : List Step}

def isFound : Step → Bool
  | found .. => true
  | skipped .. | broken .. => false

/-- The candidate stands for the expression that the step found: it denotes what the expression means,
by whole seconds, and the fields that the expression states are stated. -/
inductive Yields (reference : Instant) : Step → Candidate → Prop
  | found {index : Nat} {text : String} {e : MomentExpr} {value : Instant} {fields : Components}
    (hvalue : e.evaluate reference = .ok value)
    (hledger : fields.ledger = (Ledger.ofInstant value).changes (e.stated.changes value))
    (hget : ∀ f, fields.get f = some (value.shown f))
    (hdate : fields.date? = some value.onClock)
    (hcertain : ∀ f, fields.isCertain f = e.stated.states f) :
    Yields reference (.found index text e value) ⟨index, text, fields, .grammar⟩

theorem yields_found {index : Nat} {text : String} {e : MomentExpr} {value : Instant}
    (hvalue : e.evaluate reference = .ok value) :
    Yields reference (.found index text e value) ⟨index, text, .ofStated value e.stated, .grammar⟩ :=
  .found hvalue (Components.ledger_ofStated value e.stated) Components.get_ofStated
    (Components.date?_ofStated e.stated) Components.isCertain_ofStated

/-- There is one candidate for each expression that is found, in the order of the scan. -/
theorem Scans.forall₂_yields (h : Scans cs reference ts steps) :
    List.Forall₂ (Yields reference) (steps.filter isFound) (steps.filterMap candidate?) := by
  induction h with
  | nil => exact .nil
  | pass _ _ ih => exact ih
  | found _ hvalue _ ih => exact .cons (yields_found hvalue) ih
  | skipped _ _ _ ih => exact ih
  | broken => exact .nil

end Step

namespace Finder

/-- Nothing is worth a line in the journal if the candidates are dates, in order and apart. -/
theorem settleEvents_of_pairwise {ctx : Context} {cs : List Candidate} (hforward : ctx.forward = false)
    (hdate : ∀ c ∈ cs, c.date?.isSome = true) (h : cs.Pairwise fun a b => a.stop ≤ b.index) :
    settleEvents ctx cs = [] := by
  have hindex : cs.Pairwise fun a b => a.index ≤ b.index :=
    h.imp fun hle => Nat.le_trans (Nat.le_add_right ..) hle
  have hinvalid : cs.filter (·.date?.isNone) = [] :=
    List.filter_eq_nil_iff.2 fun c hc => by simpa [Option.isSome_iff_ne_none] using hdate c hc
  simp only [settleEvents, ordered_of_pairwise hdate hindex, hinvalid, Candidate.clashes_of_pairwise h,
    hforward, List.map_nil, List.append_nil, if_neg Bool.false_ne_true]

theorem proposals_unaided (ctx : Context) :
    (Finder.mk []).proposals ctx = Step.candidates (Step.scan ctx.text ctx.reference) := by
  have hattempts : (Finder.mk []).attempts ctx = [] := rfl
  rw [proposals, Step.candidates, hattempts]
  cases (Step.scan ctx.text ctx.reference).findSome? Step.breakdown? with
  | some cause => rfl
  | none => exact congrArg Except.ok (List.append_nil _)

/-- A search without recognizers that moves nothing forward breaks down where its scan does. If that
comes to its end, the search returns just what was found: one candidate for each expression with a
meaning, in order, where none is dropped as no date and none gives way to another. -/
theorem find_unmerged (text : String) (reference now : Instant) :
    let ctx : Context := { text, reference, now }
    match (Step.scan text reference).findSome? Step.breakdown? with
    | some cause => (Finder.mk []).find ctx = .error (.broken cause)
    | none => ∃ cs, (Finder.mk []).find ctx = .ok cs ∧ (Finder.mk []).proposals ctx = .ok cs ∧
        settleEvents ctx cs = [] ∧
        List.Forall₂ (Step.Yields reference) ((Step.scan text reference).filter Step.isFound) cs := by
  intro ctx
  have hproposals : (Finder.mk []).proposals ctx = Step.candidates (Step.scan text reference) :=
    proposals_unaided ctx
  cases hcause : (Step.scan text reference).findSome? Step.breakdown? with
  | some cause =>
    rw [Step.candidates, hcause] at hproposals
    show (Finder.mk []).find ctx = .error (.broken cause)
    rw [find, hproposals]
    rfl
  | none =>
    have hscans := Step.scans_scanFrom text.toList reference (Token.lex text.toList)
    have hpairwise := hscans.pairwise (Token.placed_lex _)
    have hdate : ∀ c ∈ (Step.scan text reference).filterMap Step.candidate?, c.date?.isSome = true :=
      fun _ hc => Step.isSome_date?_of_mem_filterMap hc
    have hsettled : Candidate.settled ctx = id := funext fun _ => rfl
    rw [Step.candidates, hcause] at hproposals
    refine ⟨_, ?_, hproposals, settleEvents_of_pairwise rfl hdate hpairwise, hscans.forall₂_yields⟩
    rw [find, hproposals]
    show Except.ok (settle ctx _) = .ok _
    rw [settle_of_pairwise ctx hdate hpairwise, hsettled, List.map_id]

/-- `feb 30, 3` is no date, so the scan goes on. Of a reference at half a second the half is lost. -/
example :
    let now : Instant := ⟨⟨738993, by decide, by decide⟩, ⟨10, 30, 59, 500000000, by decide,
      by decide, by decide, by decide⟩⟩
    let hoursAgo : Instant := { now with time := ⟨7, 30, 59, 500000000, by decide, by decide,
      by decide, by decide⟩ }
    let ago := Components.ofStated hoursAgo { Stated.fullDate with time := true }
    (Finder.mk []).find { text := "feb 30, 3 hours ago", reference := now, now } =
        .ok [⟨8, "3 hours ago", ago, .grammar⟩] ∧ ago.date? = some hoursAgo.onClock := by
  intro now hoursAgo ago
  rw [find_unaided]
  decide +kernel

end Finder

end CasualDate
