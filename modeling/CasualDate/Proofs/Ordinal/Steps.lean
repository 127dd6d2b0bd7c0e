import CasualDate.Proofs.Ordinal.Writes

/-!
# How an ordinal is read

The reader looks for a number in front of a suffix (`dropSuffix?_eq_some_iff`) and else for the parts of
the text, with a hyphen between them, in the list of words. Two parts get their hyphen whatever stands
between them (`hyphenated_append`), and none of their characters is lost (`mem_hyphenated`).
-/

namespace CasualDate.Ordinal

open Text

variable {ds cs first last stem suffix : List Char} {s : String} {c : Char} {k : Count}

/-! ### The steps of the reader -/

theorem dropSuffix?_eq_some_iff :
    dropSuffix? cs = some stem ↔ ∃ suffix ∈ suffixes, cs = stem ++ suffix := by
  unfold dropSuffix?
  constructor
  · intro h
    split at h
    · next hsuffix =>
      obtain rfl := Option.some.inj h
      exact ⟨_, List.contains_iff_mem.1 hsuffix, (List.take_append_drop ..).symm⟩
    · cases h
  · rintro ⟨suffix, hsuffix, rfl⟩
    simp [length_of_mem_suffixes hsuffix, hsuffix]

theorem readDigits?_eq_none (hc : c ∈ cs) (hdigit : c.isDigit = false) (hplus : c ≠ '+') :
    readDigits? cs = none := by
  have hcount {cs : List Char} (hc : c ∈ cs) : readCount? cs = none := by
    have hall : cs.all Char.isDigit = false := List.all_eq_false.2 ⟨c, hc, by simp [hdigit]⟩
    rw [readCount?, hall, Bool.and_false, if_neg Bool.false_ne_true]
  unfold readDigits?
  split
  · next cs =>
    rcases List.mem_cons.1 hc with rfl | hc
    · exact absurd rfl hplus
    · exact hcount hc
  · exact hcount hc

theorem digitsValue_le (hcount : ds.length = 1 ∨ ds.length = 2) (hds : ∀ d ∈ ds, d.isDigit = true) :
    digitsValue ds ≤ 99 := by
  match ds, hcount with
  | [a], _ =>
    have ha := digitValue_le (hds a (by simp))
    simp only [digitsValue, List.foldl_cons, List.foldl_nil]
    omega
  | [a, b], _ =>
    have ha := digitValue_le (hds a (by simp))
    have hb := digitValue_le (hds b (by simp))
    simp only [digitsValue, List.foldl_cons, List.foldl_nil]
    omega

theorem readDigits?_of_isDigit (hcount : ds.length = 1 ∨ ds.length = 2)
    (hds : ∀ d ∈ ds, d.isDigit = true) : ∃ k, readDigits? ds = some k ∧ k.val = digitsValue ds := by
  have hlt : digitsValue ds < countLimit :=
    lt_countLimit (Nat.le_trans (digitsValue_le hcount hds) (by decide))
  have hempty : ds.isEmpty = false := by
    cases ds with
    | nil => simp at hcount
    | cons => rfl
  have hread : readCount? ds = some ⟨digitsValue ds, hlt⟩ := by
    rw [readCount?, hempty, List.all_eq_true.2 hds, Bool.not_false, Bool.and_self, if_pos rfl, count?,
      dif_pos hlt]
  refine ⟨⟨digitsValue ds, hlt⟩, ?_, rfl⟩
  unfold readDigits?
  split
  · next ds =>
    exact absurd (hds '+' List.mem_cons_self) (by decide)
  · exact hread

/-- What has no suffix with a number in front is looked up in the list of words. -/
theorem read?_of_forall (hlower : (lower (trim s)).toList = cs)
    (h : ∀ stem, ∀ suffix ∈ suffixes, cs = stem ++ suffix → readDigits? stem = none) :
    read? s = (words.find? fun w => w.1.toList = hyphenated cs).map Prod.snd := by
  have hbind : (dropSuffix? cs).bind readDigits? = none := by
    rw [Option.bind_eq_none_iff]
    intro stem hstem
    obtain ⟨suffix, hsuffix, heq⟩ := dropSuffix?_eq_some_iff.1 hstem
    exact h stem suffix hsuffix heq
  unfold read?
  dsimp only
  rw [hlower, hbind]

theorem read?_of_digits (hlower : (lower (trim s)).toList = ds ++ suffix) (hsuffix : suffix ∈ suffixes)
    (hds : readDigits? ds = some k) : read? s = some k.val := by
  have hdrop : dropSuffix? (ds ++ suffix) = some ds :=
    dropSuffix?_eq_some_iff.2 ⟨suffix, hsuffix, rfl⟩
  unfold read?
  dsimp only
  rw [hlower, hdrop, Option.bind_some, hds]

/-! ### The parts of a text -/

theorem splitParts_cons_separator (hc : IsSeparator c) (cs : List Char) :
    splitParts (c :: cs) = [] :: splitParts cs := by
  rw [splitParts, List.foldr_cons, if_pos (by simpa [IsSeparator] using hc), splitParts]

theorem splitParts_cons {part : List Char} {parts : List (List Char)} (hc : ¬IsSeparator c)
    (h : splitParts cs = part :: parts) : splitParts (c :: cs) = (c :: part) :: parts := by
  rw [splitParts] at h
  rw [splitParts, List.foldr_cons, if_neg (by simpa [IsSeparator] using hc), h]

theorem splitParts_eq_singleton (h : ∀ c ∈ cs, ¬IsSeparator c) : splitParts cs = [cs] := by
  induction cs with
  | nil => rfl
  | cons c cs ih =>
    rw [List.forall_mem_cons] at h
    exact splitParts_cons h.1 (ih h.2)

theorem splitParts_append (h : ∀ c ∈ first, ¬IsSeparator c) (hc : IsSeparator c) (cs : List Char) :
    splitParts (first ++ c :: cs) = first :: splitParts cs := by
  induction first with
  | nil => exact splitParts_cons_separator hc cs
  | cons d first ih =>
    rw [List.forall_mem_cons] at h
    exact splitParts_cons h.1 (ih h.2)

theorem hyphenated_eq_self (h : ∀ c ∈ cs, ¬IsSeparator c) : hyphenated cs = cs := by
  rw [hyphenated, splitParts_eq_singleton h]
  cases cs with
  | nil => rfl
  | cons c cs => simp [List.intercalate]

/-- Whatever stands between two words, they get a hyphen. -/
theorem hyphenated_append (hfirst : ∀ c ∈ first, ¬IsSeparator c) (hlast : ∀ c ∈ last, ¬IsSeparator c)
    (hne : first ≠ [] ∧ last ≠ []) (hc : IsSeparator c) :
    hyphenated (first ++ c :: last) = first ++ '-' :: last := by
  rw [hyphenated, splitParts_append hfirst hc, splitParts_eq_singleton hlast]
  simp [List.intercalate, hne.1, hne.2]

theorem exists_splitParts_eq_cons (cs : List Char) :
    ∃ part parts, splitParts cs = part :: parts := by
  induction cs with
  | nil => exact ⟨[], [], rfl⟩
  | cons c cs ih =>
    by_cases hc : IsSeparator c
    · exact ⟨[], _, splitParts_cons_separator hc cs⟩
    · obtain ⟨part, parts, hparts⟩ := ih
      exact ⟨_, _, splitParts_cons hc hparts⟩

theorem exists_mem_splitParts (hc : ¬IsSeparator c) (h : c ∈ cs) :
    ∃ part ∈ splitParts cs, c ∈ part := by
  induction cs with
  | nil => cases h
  | cons d cs ih =>
    by_cases hd : IsSeparator d
    · rw [splitParts_cons_separator hd]
      obtain ⟨part, hpart, hmem⟩ := ih ((List.mem_cons.1 h).resolve_left fun heq => hc (heq ▸ hd))
      exact ⟨part, List.mem_cons_of_mem _ hpart, hmem⟩
    · obtain ⟨first, parts, hparts⟩ := exists_splitParts_eq_cons cs
      rw [splitParts_cons hd hparts]
      rcases List.mem_cons.1 h with rfl | h
      · exact ⟨_, List.mem_cons_self, List.mem_cons_self⟩
      · obtain ⟨part, hpart, hmem⟩ := ih h
        rw [hparts] at hpart
        rcases List.mem_cons.1 hpart with rfl | hpart
        · exact ⟨_, List.mem_cons_self, List.mem_cons_of_mem _ hmem⟩
        · exact ⟨part, List.mem_cons_of_mem _ hpart, hmem⟩

theorem mem_intercalate {part : List Char} {parts : List (List Char)} (hpart : part ∈ parts)
    (h : c ∈ part) (between : List Char) : c ∈ between.intercalate parts := by
  induction parts with
  | nil => cases hpart
  | cons front parts ih =>
    cases parts with
    | nil =>
      obtain rfl := List.mem_singleton.1 hpart
      simpa [List.intercalate] using h
    | cons next parts =>
      have hsplit : between.intercalate (front :: next :: parts) =
          front ++ between ++ between.intercalate (next :: parts) := by
        simp [List.intercalate]
      rw [hsplit]
      rcases List.mem_cons.1 hpart with rfl | hpart
      · simp [h]
      · exact List.mem_append_right _ (ih hpart)

theorem mem_hyphenated (hc : ¬IsSeparator c) (h : c ∈ cs) : c ∈ hyphenated cs := by
  obtain ⟨part, hpart, hmem⟩ := exists_mem_splitParts hc h
  have hfilter : part ∈ (splitParts cs).filter (!·.isEmpty) :=
    List.mem_filter.2 ⟨hpart, by simpa using List.ne_nil_of_mem hmem⟩
  exact mem_intercalate hfilter hmem ['-']

theorem read?_eq_none_of_longS (h : longS ∈ (lower (trim s)).toList) : read? s = none := by
  have hsuffixes : ∀ suffix ∈ suffixes, longS ∉ suffix := by decide
  have hwords {w : String} {n : Nat} (hw : (w, n) ∈ words) : longS ∉ w.toList := fun hmem =>
    absurd (isLower_of_mem_words hw hmem (by decide)) (by decide)
  rw [read?_of_forall rfl]
  · rw [Option.map_eq_none_iff, List.find?_eq_none]
    intro w hw heq
    have hmem := mem_hyphenated (by decide) h
    rw [← of_decide_eq_true heq] at hmem
    exact hwords hw hmem
  · intro stem suffix hsuffix heq
    rw [heq, List.mem_append] at h
    exact readDigits?_eq_none (h.resolve_right (hsuffixes suffix hsuffix)) (by decide) (by decide)

theorem read?_of_isLower (hlower : (lower (trim s)).toList = cs)
    (hl : ∀ l ∈ cs.head?, l.isLower = true) :
    read? s = (words.find? fun w => w.1.toList = hyphenated cs).map Prod.snd := by
  refine read?_of_forall hlower fun stem suffix hsuffix heq => ?_
  cases stem with
  | nil => rfl
  | cons d stem =>
    have hletter : d.isDigit = false ∧ d ≠ '+' :=
      of_isLower (p := fun d => d.isDigit = false ∧ d ≠ '+') (by decide) (hl d (by simp [heq]))
    exact readDigits?_eq_none List.mem_cons_self hletter.1 hletter.2

end CasualDate.Ordinal
