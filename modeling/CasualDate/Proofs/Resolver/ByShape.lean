import CasualDate.Proofs.Resolver.WholeText

/-!
# The answer by shape

Once the first search has led to a reference, the shape of the text alone decides what is computed.
Every kind of shape is answered with one computation, which fails as a whole if a part of it does.
-/

namespace CasualDate.Resolver

variable {r : Resolver} {text pattern remainder word : String} {weekStart : Weekday}
  {now reference : Instant} {certain : Bool} {p : Period}

/-- The instant that a calendar came to, written by the pattern in the resolver's calendar. -/
def rendered (r : Resolver) (pattern : String) (x : Except Failure Instant) :
    Except Failure Resolved :=
  x >>= fun t => (orRefuse (t.format pattern r.calendar)).map .formatted

theorem resolveAt_eq_error {failure : Failure}
    (hanchor : r.anchor text weekStart now = .error failure) :
    r.resolveAt text weekStart pattern now = .error failure := by
  rw [resolveAt, hanchor]
  rfl

theorem resolveAt_endOfPeriod (hshape : Shape.ofText text = .endOfPeriod p)
    (hanchor : r.anchor text weekStart now = .ok (certain, reference)) :
    r.resolveAt text weekStart pattern now = r.rendered pattern (r.calendar.endOf now p) := by
  simp only [resolveAt, hanchor, hshape]
  rfl

theorem resolveAt_onePeriodOn (hshape : Shape.ofText text = .onePeriodOn p)
    (hanchor : r.anchor text weekStart now = .ok (certain, reference)) :
    r.resolveAt text weekStart pattern now = r.rendered pattern (r.calendar.addOne now p) := by
  simp only [resolveAt, hanchor, hshape]
  rfl

theorem resolveAt_monthEnd (hshape : Shape.ofText text = .monthEnd remainder)
    (hanchor : r.anchor text weekStart now = .ok (certain, reference)) :
    r.resolveAt text weekStart pattern now = (r.monthEnd remainder now).map .formatted := by
  simp only [resolveAt, hanchor, hshape]
  rfl

/-- The middle of a month is the first date found ahead. -/
theorem resolveAt_midMonth (hshape : Shape.ofText text = .midMonth word)
    (hanchor : r.anchor text weekStart now = .ok (certain, reference)) :
    r.resolveAt text weekStart pattern now =
      (r.finder.findDate { text := midMonthPhrase word, reference := now, now, forward := true }).map
        Resolved.ofDate? := by
  simp only [resolveAt, hanchor, hshape, bind, Except.bind, pure, Except.pure]
  cases r.finder.findDate { text := midMonthPhrase word, reference := now, now, forward := true } <;>
    rfl

theorem resolveAt_other (hshape : Shape.ofText text = .other)
    (hanchor : r.anchor text weekStart now = .ok (certain, reference)) :
    r.resolveAt text weekStart pattern now =
      (r.finder.findDate { text, reference, now }).map .ofDate? := by
  simp only [resolveAt, hanchor, hshape]
  rfl

end CasualDate.Resolver
