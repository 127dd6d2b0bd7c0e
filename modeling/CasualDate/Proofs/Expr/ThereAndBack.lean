import CasualDate.Proofs.Expr.FixedLength

/-!
# There and back

The amounts of a duration are counted in the order they are written, both ways in time, so the way
back takes the first step first and passes other instants than the way there. With units of one
length it leads back all the same, as the minutes add up to as many (`Duration.shift_opposite_of_lt`).
Only a leap second cannot be reached again once it is left: no amount ends at one
(`Duration.eq_zero_of_leap`).
-/

namespace CasualDate

namespace Duration

variable {dir : Direction} {t u : Instant} {part : Nat × TimeUnit} {parts : List (Nat × TimeUnit)}
  {d : Duration}

/-- The other way in time. -/
def Direction.opposite : Direction → Direction
  | forward => backward
  | backward => forward

theorem Direction.apply_opposite (dir : Direction) (n : Nat) : dir.opposite.apply n = -dir.apply n := by
  cases dir with
  | forward => rfl
  | backward => exact (Int.neg_neg _).symm

theorem shift_opposite_of_lt (hd : d.isFixed = true) (hsecond : t.time.second < 60)
    (h : d.shift dir t = .ok u) : d.shift dir.opposite u = .ok t := by
  have hthere := (shift_eq_ok_iff_of_isFixed hd hsecond).1 h
  have hsecond' : u.time.second < 60 := hthere.second_eq ▸ hsecond
  rw [shift_eq_ok_iff_of_isFixed hd hsecond', Direction.apply_opposite]
  exact hthere.symm

theorem foldlM_step_of_zero (hfixed : ∀ part ∈ parts, part.2.isFixed = true)
    (hzero : ∀ part ∈ parts, part.1 = 0) : parts.foldlM (step dir) t = .ok t := by
  induction parts with
  | nil => rfl
  | cons part parts ih =>
    rw [List.forall_mem_cons] at hfixed hzero
    have hminutes : dir.apply (minutesOf part) = 0 :=
      Direction.apply_eq_zero_iff.2 ((minutesOf_eq_zero_iff hfixed.1).2 hzero.1)
    have hstep : step dir t part = .ok t := by
      rw [step_eq_ok_iff_of_isFixed hfixed.1, hminutes]
      exact t.addMinutes?_zero
    rw [List.foldlM_cons, bind_eq_ok_iff]
    exact ⟨t, hstep, ih hfixed.2 hzero.2⟩

theorem shift_of_zero (hd : d.isFixed = true) (hzero : ∀ part ∈ d.parts, part.1 = 0) :
    d.shift dir t = .ok t :=
  foldlM_step_of_zero (isFixed_iff.1 hd) hzero

/-- What ends at a leap second has counted nothing. -/
theorem eq_zero_of_leap (hd : d.isFixed = true) (h : d.shift dir u = .ok t)
    (hleap : t.time.second = 60) : ∀ part ∈ d.parts, part.1 = 0 := by
  intro part hpart
  have hminutes := ((second_shift_eq_iff h).1 hleap).2 part hpart
  exact (minutesOf_eq_zero_iff (isFixed_iff.1 hd part hpart)).1 hminutes

/-- Days, weeks, hours and minutes lead back to where they were counted from, both ways in time,
exactly if that is no leap second or nothing was counted. -/
theorem shift_opposite_iff (hd : d.isFixed = true) (h : d.shift dir t = .ok u) :
    d.shift dir.opposite u = .ok t ↔ t.time.second < 60 ∨ ∀ part ∈ d.parts, part.1 = 0 := by
  constructor
  · intro hback
    have hle := t.time.second_le
    by_cases hleap : t.time.second = 60
    · exact .inr (eq_zero_of_leap hd hback hleap)
    · exact .inl (by omega)
  · rintro (hsecond | hzero)
    · exact shift_opposite_of_lt hd hsecond h
    · have hu : u = t := Except.ok.inj (h.symm.trans (shift_of_zero hd hzero))
      rw [hu]
      exact shift_of_zero hd hzero

/-- "two weeks and an hour and 90 minutes" from a morning in April -/
theorem shift_opposite_twoWeeks :
    let d : Duration := .both (.count 2 .week) (.both (.one .hour) (.count 90 .minute))
    let t : Instant := ⟨⟨738993, by decide, by decide⟩, ⟨10, 30, 0, 0, by decide, by decide,
      by decide, by decide⟩⟩
    let u : Instant := ⟨⟨739007, by decide, by decide⟩, ⟨13, 0, 0, 0, by decide, by decide,
      by decide, by decide⟩⟩
    d.isFixed = true ∧ d.shift .forward t = .ok u ∧ d.shift .backward u = .ok t := by
  intro d t u
  have hd : d.isFixed = true := rfl
  have h : d.shift .forward t = .ok u := by decide +kernel
  have hsecond : t.time.second < 60 := by decide
  exact ⟨hd, h, (shift_opposite_iff hd h).2 (.inl hsecond)⟩

/-- A minute back from a leap second and a minute on ends behind it, in the next minute. -/
theorem shift_opposite_leap :
    let d : Duration := .count 1 .minute
    let t : Instant := ⟨⟨738993, by decide, by decide⟩, ⟨10, 30, 60, 500000000, by decide,
      by decide, by decide, by decide⟩⟩
    d.isFixed = true ∧ ∃ u, d.shift .backward t = .ok u ∧ d.shift .forward u ≠ .ok t ∧
      (d.shift .forward u).map Instant.iso = .ok "2024-04-17 10:31:00.500" := by
  intro d t
  let u : Instant := ⟨⟨738993, by decide, by decide⟩, ⟨10, 30, 0, 500000000, by decide, by decide,
    by decide, by decide⟩⟩
  have h : d.shift .backward t = .ok u := by decide +kernel
  have hne : d.shift .forward u ≠ .ok t := by decide +kernel
  have hiso : (d.shift .forward u).map Instant.iso = .ok "2024-04-17 10:31:00.500" := by
    decide +kernel
  exact ⟨rfl, u, h, hne, hiso⟩

end Duration

end CasualDate
