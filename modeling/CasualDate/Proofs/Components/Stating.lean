import CasualDate.Proofs.Components.History
import CasualDate.Proofs.Components.OnClock

/-!
# Components of what is stated

The components of an instant that an expression names come about one change at a time: all fields are
filled in, then those that the expression spells out are stated in their order, with the weekday
written anew after each of them (`ledger_ofStated`). In the end every field shows the instant,
whichever of them are stated, and the stated ones are those that are spelled out.
-/

namespace CasualDate

namespace Stated

/-- Whether the field is spelled out. Hour, minute and second are so together. -/
def states (s : Stated) : Field → Bool
  | .year => s.year
  | .month => s.month
  | .day => s.day
  | .weekday => s.weekday
  | .hour | .minute | .second => s.time

/-- The fields that are spelled out, one after the other with what the instant shows. -/
def changes (s : Stated) (t : Instant) : List Components.Change :=
  (Field.all.filter s.states).map fun f => .assign f (t.shown f)

end Stated

namespace Components

variable {t : Instant} {s : Stated}

theorem changes_stated (t : Instant) (s : Stated) :
    (ofInstant t).changes (s.changes t) = ofStated t s := by
  obtain ⟨year, month, day, weekday, time⟩ := s
  cases year <;> cases month <;> cases day <;> cases weekday <;> cases time <;> rfl

theorem ledger_ofStated (t : Instant) (s : Stated) :
    (ofStated t s).ledger = (Ledger.ofInstant t).changes (s.changes t) := by
  rw [← changes_stated, ledger_changes, ledger_ofInstant]

theorem isCertain_ofStated (f : Field) : (ofStated t s).isCertain f = s.states f := by
  cases f with
  | weekday => exact isCertain_weekday_ofStated s
  | _ => rfl

theorem get_ofStated (f : Field) : (ofStated t s).get f = some (t.shown f) := by
  cases f with
  | weekday =>
    have hday : (ofStated t s).day? = some t.date := t.date.ofCivil?_civil
    rw [get, hday]
    cases h : s.weekday <;> simp [ofStated, h, Instant.shown]
  | _ => rfl

end Components

end CasualDate
