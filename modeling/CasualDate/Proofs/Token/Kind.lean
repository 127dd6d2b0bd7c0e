import CasualDate.Proofs.Word.OfRun

/-!
# Kinds of characters

The kind of a character says whether it is a mark, an ASCII digit, another letter or number, or none
of them, in which case it only separates: white space and marks are not alphanumeric, and ASCII
digits are. Two neighbours belong to one run if both are alphanumeric and both or neither of them are
ASCII digits, which is to say that they are of one kind (`joined_iff`, `uniform_iff`).
-/

namespace CasualDate.Token

variable {a b c : Char} {as bs cs run : List Char} {w : Word}

/-- The characters that are words by themselves. -/
def marks : List (Char × Word) :=
  [(',', .comma), (':', .colon), ('/', .slash), ('-', .dash), ('.', .dot)]

theorem kindOf_of_mem_marks (h : (c, w) ∈ marks) : kindOf c = .mark w := by
  simp only [marks, List.mem_cons, Prod.mk.injEq, List.not_mem_nil, or_false] at h
  rcases h with ⟨rfl, rfl⟩ | ⟨rfl, rfl⟩ | ⟨rfl, rfl⟩ | ⟨rfl, rfl⟩ | ⟨rfl, rfl⟩ <;> rfl

theorem isAlphanumeric_of_mem_marks (h : (c, w) ∈ marks) : Text.isAlphanumeric c = false := by
  simp only [marks, List.mem_cons, Prod.mk.injEq, List.not_mem_nil, or_false] at h
  rcases h with ⟨rfl, rfl⟩ | ⟨rfl, rfl⟩ | ⟨rfl, rfl⟩ | ⟨rfl, rfl⟩ | ⟨rfl, rfl⟩ <;> rfl

theorem isAlphanumeric_of_isSpace (h : Text.isSpace c = true) : Text.isAlphanumeric c = false :=
  Text.of_isSpace (p := fun c => Text.isAlphanumeric c = false) (by decide +kernel) h

theorem isAlphanumeric_of_isDigit (h : c.isDigit = true) : Text.isAlphanumeric c = true :=
  Text.isAlphanumeric_of_isAlphanum (by simp [Char.isAlphanum, h])

theorem kindOf_eq_mark_iff : kindOf c = .mark w ↔ (c, w) ∈ marks := by
  refine ⟨fun h => ?_, kindOf_of_mem_marks⟩
  unfold kindOf at h
  split_ifs at h <;> cases h <;> subst c <;> simp [marks]

theorem kindOf_of_isAlphanumeric (h : Text.isAlphanumeric c = true) :
    kindOf c = if c.isDigit then .digit else .letter := by
  have hspace : ¬Text.isSpace c = true := fun hc => by simp [isAlphanumeric_of_isSpace hc] at h
  have hmark : ∀ w, (c, w) ∉ marks := fun w hc => by simp [isAlphanumeric_of_mem_marks hc] at h
  simp only [marks, List.mem_cons, Prod.mk.injEq, List.not_mem_nil, or_false] at hmark
  rw [kindOf, if_neg hspace]
  repeat rw [if_neg (by rintro rfl; simp at hmark)]
  rw [if_pos h]

theorem isAlphanumeric_iff :
    Text.isAlphanumeric c = true ↔ kindOf c = .letter ∨ kindOf c = .digit := by
  constructor
  · intro h
    rw [kindOf_of_isAlphanumeric h]
    split
    · exact .inr rfl
    · exact .inl rfl
  · intro h
    by_contra hc
    have hdigit : ¬c.isDigit = true := fun hd => hc (isAlphanumeric_of_isDigit hd)
    unfold kindOf at h
    rw [if_neg hdigit, if_neg hc] at h
    split_ifs at h <;> simp at h

theorem isAlphanumeric_of_separator (h : kindOf c = .separator) : Text.isAlphanumeric c = false := by
  rw [← Bool.not_eq_true, isAlphanumeric_iff, h]
  simp

theorem kindOf_of_isSpace (h : Text.isSpace c = true) : kindOf c = .separator := by
  rw [kindOf, if_pos h]

theorem mem_marks_of_lookup (h : marks.lookup c = some w) : (c, w) ∈ marks := by
  obtain ⟨front, back, heq, -⟩ := List.lookup_eq_some_iff.1 h
  rw [heq]
  exact List.mem_append_right _ List.mem_cons_self

theorem kindOf_eq_separator (halpha : Text.isAlphanumeric c = false) (hmark : marks.lookup c = none) :
    kindOf c = .separator := by
  rw [← Bool.not_eq_true, isAlphanumeric_iff, not_or] at halpha
  cases h : kindOf c with
  | separator => rfl
  | mark w =>
    have hother := List.lookup_eq_none_iff.1 hmark _ (kindOf_eq_mark_iff.1 h)
    simp at hother
  | letter => exact absurd h halpha.1
  | digit => exact absurd h halpha.2

/-- Neighbours in one run: letters or numbers, where ASCII digits stand next to ASCII digits. -/
structure Joined (a b : Char) : Prop where
  left : Text.isAlphanumeric a = true
  right : Text.isAlphanumeric b = true
  isDigit_eq : a.isDigit = b.isDigit

theorem joined_iff :
    Joined a b ↔ kindOf a = kindOf b ∧ (kindOf a = .letter ∨ kindOf a = .digit) := by
  rw [← isAlphanumeric_iff]
  constructor
  · rintro ⟨ha, hb, hab⟩
    rw [kindOf_of_isAlphanumeric ha, kindOf_of_isAlphanumeric hb, hab]
    exact ⟨rfl, ha⟩
  · rintro ⟨hab, ha⟩
    have hb := isAlphanumeric_iff.1 ha
    rw [hab, ← isAlphanumeric_iff] at hb
    rw [kindOf_of_isAlphanumeric ha, kindOf_of_isAlphanumeric hb] at hab
    refine ⟨ha, hb, ?_⟩
    cases hda : a.isDigit <;> cases hdb : b.isDigit <;> simp [hda, hdb] at hab <;> rfl

/-- No run goes on from the first text into the second. -/
def Seam (as bs : List Char) : Prop :=
  ∀ a ∈ as.getLast?, ∀ b ∈ bs.head?, ¬Joined a b

theorem seam_nil_left : Seam [] bs := by
  simp [Seam]

theorem seam_append_left_iff (hbs : bs ≠ []) : Seam (as ++ bs) cs ↔ Seam bs cs := by
  rw [Seam, Seam, List.getLast?_append_of_ne_nil _ hbs]

theorem seam_append_right_iff (hbs : bs ≠ []) : Seam as (bs ++ cs) ↔ Seam as bs := by
  rw [Seam, Seam, List.head?_append_of_ne_nil _ hbs]

theorem seam_of_head (h : Text.isAlphanumeric b = false) : Seam as (b :: bs) := by
  rintro a - c hc ⟨-, halpha, -⟩
  cases hc
  rw [h] at halpha
  cases halpha

theorem seam_of_last (h : Text.isAlphanumeric a = false) : Seam (as ++ [a]) bs := by
  rw [seam_append_left_iff (List.cons_ne_nil a [])]
  rintro c hc b - ⟨halpha, -⟩
  obtain rfl : a = c := Option.some.inj hc
  rw [h] at halpha
  cases halpha

/-- Some characters that all belong to one run. -/
structure Uniform (run : List Char) : Prop where
  ne_nil : run ≠ []
  joined : ∀ a ∈ run, ∀ b ∈ run, Joined a b

theorem uniform_iff :
    Uniform run ↔ run ≠ [] ∧ ∃ k : Kind, (k = .letter ∨ k = .digit) ∧ ∀ c ∈ run, kindOf c = k := by
  constructor
  · rintro ⟨hne, hjoined⟩
    obtain ⟨a, ha⟩ := List.exists_mem_of_ne_nil run hne
    refine ⟨hne, kindOf a, (joined_iff.1 (hjoined a ha a ha)).2, fun c hc => ?_⟩
    exact (joined_iff.1 (hjoined c hc a ha)).1
  · rintro ⟨hne, k, hk, hrun⟩
    refine ⟨hne, fun a ha b hb => ?_⟩
    rw [joined_iff, hrun a ha, hrun b hb]
    exact ⟨rfl, hk⟩

theorem Uniform.not_seam (h : Uniform (as ++ bs)) (has : as ≠ []) (hbs : bs ≠ []) : ¬Seam as bs := by
  intro hseam
  have hjoined := h.joined (as.getLast has) (List.mem_append_left _ (List.getLast_mem has)) (bs.head hbs)
    (List.mem_append_right _ (List.head_mem hbs))
  exact hseam _ (List.getLast?_eq_some_getLast has) _ (List.head?_eq_some_head hbs) hjoined

theorem Uniform.append (has : Uniform as) (hbs : Uniform bs) (hseam : ¬Seam as bs) :
    Uniform (as ++ bs) := by
  obtain ⟨hne, k, hk, hleft⟩ := uniform_iff.1 has
  obtain ⟨-, l, -, hright⟩ := uniform_iff.1 hbs
  simp only [Seam, not_forall, not_not] at hseam
  obtain ⟨a, ha, b, hb, hjoined⟩ := hseam
  have hkl : k = l := by
    rw [← hleft a (List.mem_of_getLast? ha), ← hright b (List.mem_of_head? hb)]
    exact (joined_iff.1 hjoined).1
  refine uniform_iff.2 ⟨List.append_ne_nil_of_left_ne_nil hne bs, k, hk, fun c hc => ?_⟩
  rcases List.mem_append.1 hc with hc | hc
  · exact hleft c hc
  · rw [hright c hc, hkl]

theorem uniform_singleton (h : Text.isAlphanumeric c = true) : Uniform [c] := by
  refine ⟨List.cons_ne_nil _ _, ?_⟩
  rintro a ha b hb
  rw [List.mem_singleton.1 ha, List.mem_singleton.1 hb]
  exact ⟨h, h, rfl⟩

end CasualDate.Token
