import CasualDate.Proofs.Finder.WholeText
import CasualDate.Resolver

/-!
# Resolving a text that is one expression

The text is read twice: once from the current instant, to see whether it names a weekday, and once
from the instant that is then counted from. Both readings find the whole text first, so the
expression decides the answer alone.
-/

namespace CasualDate.Resolver

variable {r : Resolver} {text pattern : String} {e : MomentExpr} {weekStart : Weekday}
  {now reference first value : Instant}

theorem namesWeekday_find (h : e.Fills text) (hfirst : e.evaluate now = .ok first) :
    (r.finder.find { text, reference := now, now }).map namesWeekday = .ok e.stated.weekday := by
  obtain ⟨cs, hfind, hhead⟩ := Finder.head?_find (f := r.finder)
    (show e.Fills (Context.text { text, reference := now, now }) from h) hfirst rfl
  rw [hfind]
  simp [Except.map, namesWeekday, hhead]

/-- The first search decides where the second one starts. -/
theorem anchor_of_find {cs : List Candidate}
    (h : r.finder.find { text, reference := now, now } = .ok cs) :
    r.anchor text weekStart now =
      if namesWeekday cs then (startOfWeek now weekStart).map (true, ·) else .ok (false, now) := by
  rw [anchor, h]
  simp only [bind, Except.bind]
  cases namesWeekday cs with
  | false => rfl
  | true => cases startOfWeek now weekStart <;> rfl

theorem anchor_eq (h : e.Fills text) (hfirst : e.evaluate now = .ok first) :
    r.anchor text weekStart now =
      if e.stated.weekday then (startOfWeek now weekStart).map (true, ·) else .ok (false, now) := by
  have hnames := namesWeekday_find (r := r) h hfirst
  cases hfind : r.finder.find { text, reference := now, now } with
  | error failure => rw [hfind] at hnames; cases hnames
  | ok cs =>
    rw [hfind] at hnames
    rw [anchor_of_find hfind, Except.ok.inj hnames]

/-- The answer to a text without a special shape is the first date found from the reference. -/
theorem resolveAt_eq_ofDate? {certain : Bool} {answer : Option Instant}
    (hshape : Shape.ofText text = .other)
    (hanchor : r.anchor text weekStart now = .ok (certain, reference))
    (hfind : r.finder.findDate { text, reference, now } = .ok answer) :
    r.resolveAt text weekStart pattern now = .ok (.ofDate? answer) := by
  simp [resolveAt, hanchor, hshape, hfind, bind, Except.bind, pure, Except.pure]

theorem resolveAt_eq {certain : Bool} (h : e.Fills text) (hshape : Shape.ofText text = .other)
    (hanchor : r.anchor text weekStart now = .ok (certain, reference))
    (hvalue : e.evaluate reference = .ok value) :
    r.resolveAt text weekStart pattern now = .ok (.date value.onClock) :=
  resolveAt_eq_ofDate? hshape hanchor (Finder.findDate_eq h hvalue rfl)

end CasualDate.Resolver
