import CasualDate.Error

/-!
# Computations that succeed

A computation of several steps has an answer if each step has one, and a failure never turns into an
answer. So an answer can be followed back through the steps.
-/

namespace CasualDate

variable {ε α β : Type} {x : Except ε α} {f : α → Except ε β} {a : α} {b : β}

theorem ok_bind (a : α) (f : α → Except ε β) : .ok a >>= f = f a := rfl

theorem bind_eq_ok_iff : x >>= f = .ok b ↔ ∃ a, x = .ok a ∧ f a = .ok b := by
  cases x <;> simp [bind, Except.bind]

/-- What each step keeps between two runs of the same steps, the runs keep. -/
theorem foldlM_related {σ : Type} {g : σ → α → Except ε σ} {R : σ → σ → Prop} {xs : List α}
    {s s' r r' : σ}
    (hstep : ∀ x ∈ xs, ∀ {s s' r r'}, R s' s → g s x = .ok r → g s' x = .ok r' → R r' r)
    (h : R s' s) (hr : xs.foldlM g s = .ok r) (hr' : xs.foldlM g s' = .ok r') : R r' r := by
  induction xs generalizing s s' with
  | nil =>
    cases hr
    cases hr'
    exact h
  | cons x xs ih =>
    rw [List.forall_mem_cons] at hstep
    rw [List.foldlM_cons, bind_eq_ok_iff] at hr hr'
    obtain ⟨v, hv, hr⟩ := hr
    obtain ⟨v', hv', hr'⟩ := hr'
    exact ih hstep.2 (hstep.1 h hv hv') hr hr'

theorem orRefuse_eq_ok_iff {x : Except Error α} : orRefuse x = .ok a ↔ x = .ok a := by
  cases x with
  | ok b =>
    show (Except.ok b : Except Failure α) = .ok a ↔ _
    rw [Except.ok.injEq, Except.ok.injEq]
  | error e => exact iff_of_false (by rintro ⟨⟩) (by rintro ⟨⟩)

theorem orRefuse_inj {x y : Except Error α} : orRefuse x = orRefuse y ↔ x = y := by
  refine ⟨fun h => ?_, fun h => h ▸ rfl⟩
  cases x <;> cases y <;> cases h <;> rfl

theorem orOffCalendar_eq_ok_iff {o : Option α} : orOffCalendar o = .ok a ↔ o = some a := by
  cases o <;> simp [orOffCalendar]

end CasualDate
