import CasualDate.Proofs.Token.Kind

/-!
# Texts split between tokens

A text that is split between two characters of different runs has the tokens of its parts, where
those of the second part stand behind the first (`lexFrom_append`, `lexFrom_add`). The other way
round, some of the tokens of a text that follow each other are the tokens of the text from the first
of them to the last (`exists_tight_of_lex_eq`).
-/

namespace CasualDate.Token

variable {c : Char} {cs bs : List Char} {k : Kind} {start : Nat} {ts us : List Token}

/-- The token behind `n` further bytes. -/
def shift (n : Nat) (t : Token) : Token :=
  ⟨t.word, n + t.start, n + t.stop⟩

theorem lexFrom_add (n start : Nat) (cs : List Char) :
    lexFrom (n + start) cs = (lexFrom start cs).map (shift n) := by
  fun_induction lexFrom start cs with
  | case1 => simp
  | case2 start c cs hc ih => rw [lexFrom_separator hc, Nat.add_assoc, ih]
  | case3 start c cs w hc ih =>
    rw [lexFrom_mark hc, Nat.add_assoc, ih, List.map_cons]
    rfl
  | case4 start c cs hsep hmark run stop ih =>
    rw [lexFrom_run hsep hmark, Nat.add_assoc, ih, List.map_cons]
    rfl

theorem kindOf_of_mem_run (c : Char) (cs : List Char) :
    ∀ d ∈ c :: runTail (kindOf c) cs, kindOf d = kindOf c := by
  refine List.forall_mem_cons.2 ⟨rfl, fun d hd => ?_⟩
  simpa using List.all_eq_true.1 List.all_takeWhile d hd

theorem kindOf_head?_afterRun : ∀ d ∈ (afterRun k cs).head?, kindOf d ≠ k := by
  intro d hd
  have := List.head?_dropWhile_not (fun c => decide (kindOf c = k)) cs
  rw [← afterRun, hd] at this
  simpa using this

theorem isLetterOrDigit_of_run (hsep : kindOf c ≠ .separator) (hmark : ∀ w, kindOf c ≠ .mark w) :
    kindOf c = .letter ∨ kindOf c = .digit := by
  cases h : kindOf c with
  | separator => exact absurd h hsep
  | mark w => exact absurd h (hmark w)
  | letter => exact .inl rfl
  | digit => exact .inr rfl

theorem lexFrom_of_uniform (h : Uniform cs) :
    lexFrom start cs = [⟨.ofRun cs, start, start + Text.byteLength cs⟩] := by
  obtain ⟨hne, k, hk, hrun⟩ := uniform_iff.1 h
  have hsep : k ≠ .separator := by rcases hk with rfl | rfl <;> simp
  have hmark : ∀ w, k ≠ .mark w := by rcases hk with rfl | rfl <;> simp
  have hlex : lexFrom start (cs ++ []) = ⟨.ofRun cs, start, start + Text.byteLength cs⟩ ::
      lexFrom (start + Text.byteLength cs) [] := lexFrom_append_run hne hrun hsep hmark (by simp)
  rwa [List.append_nil, lexFrom_nil] at hlex

/-- A text is split wherever the characters on the two sides do not belong to one run. -/
theorem lexFrom_append (hseam : Seam cs bs) :
    lexFrom start (cs ++ bs) = lexFrom start cs ++ lexFrom (start + Text.byteLength cs) bs := by
  fun_induction lexFrom start cs with
  | case1 start => simp
  | case2 start d cs hd ih =>
    have hcs : Seam cs bs := fun a ha => hseam a (List.mem_getLast?_cons ha)
    rw [List.cons_append, lexFrom_separator hd, ih hcs, Text.byteLength_cons, Nat.add_assoc]
  | case3 start d cs w hd ih =>
    have hcs : Seam cs bs := fun a ha => hseam a (List.mem_getLast?_cons ha)
    rw [List.cons_append, lexFrom_mark hd, ih hcs, List.cons_append, Text.byteLength_cons,
      Nat.add_assoc]
  | case4 start d cs hsep hmark run stop ih =>
    have hcs : d :: cs = run ++ afterRun (kindOf d) cs := by simp [run, runTail_append_afterRun]
    rw [hcs] at hseam
    have hafter : Seam (afterRun (kindOf d) cs) bs := fun a ha =>
      hseam a (by rw [List.getLast?_append, Option.mem_def.1 ha]; rfl)
    have hrest : ∀ e ∈ (afterRun (kindOf d) cs ++ bs).head?, kindOf e ≠ kindOf d := by
      intro e he heq
      cases hempty : afterRun (kindOf d) cs with
      | cons b rest =>
        rw [hempty] at he
        exact kindOf_head?_afterRun e (by rw [hempty]; exact he) heq
      | nil =>
        -- The run reaches the seam, and `e` stands behind it.
        rw [hempty] at he hseam
        have hlast := List.getLast?_eq_some_getLast (List.cons_ne_nil d (runTail (kindOf d) cs))
        have hmem := kindOf_of_mem_run d cs _ (List.mem_of_getLast? hlast)
        refine hseam _ (by simpa [run] using hlast) e he (joined_iff.2 ?_)
        rw [hmem, heq]
        exact ⟨rfl, isLetterOrDigit_of_run hsep hmark⟩
    rw [hcs, List.append_assoc,
      lexFrom_append_run (List.cons_ne_nil _ _) (kindOf_of_mem_run d cs) hsep hmark hrest, ih hafter,
      Text.byteLength_append run, ← Nat.add_assoc]
    rfl

theorem lexFrom_append_separator (hc : kindOf c = .separator) :
    lexFrom start (cs ++ c :: bs) =
      lexFrom start cs ++ lexFrom (start + Text.byteLength (cs ++ [c])) bs := by
  have hseam : Seam cs (c :: bs) := seam_of_head (isAlphanumeric_of_separator hc)
  rw [lexFrom_append hseam, lexFrom_separator hc, Text.byteLength_append, ← Nat.add_assoc]
  simp

/-- A text can be split between any two tokens, right behind the first of them. -/
theorem exists_split_of_lexFrom_eq (start : Nat) (cs : List Char) :
    ∀ us, lexFrom start cs = us ++ ts → ∃ as bs, cs = as ++ bs ∧ lexFrom start as = us ∧
      lexFrom (start + Text.byteLength as) bs = ts ∧
      ∀ c ∈ as.getLast?, kindOf c ≠ .separator := by
  fun_induction lexFrom start cs with
  | case1 start =>
    intro us h
    obtain ⟨rfl, rfl⟩ := List.append_eq_nil_iff.1 h.symm
    exact ⟨[], [], rfl, lexFrom_nil, lexFrom_nil, by simp⟩
  | case2 start c cs hc ih =>
    intro us h
    cases us with
    | nil => exact ⟨[], c :: cs, rfl, lexFrom_nil, (lexFrom_separator hc).trans h, by simp⟩
    | cons u us =>
      obtain ⟨as, bs, rfl, has, hbs, hlast⟩ := ih _ h
      refine ⟨c :: as, bs, rfl, by rw [lexFrom_separator hc, has],
        by rw [Text.byteLength_cons, ← Nat.add_assoc, hbs], ?_⟩
      cases as with
      | nil => simp at has
      | cons d as => rwa [List.getLast?_cons_cons]
  | case3 start c cs w hc ih =>
    intro us h
    cases us with
    | nil => exact ⟨[], c :: cs, rfl, lexFrom_nil, (lexFrom_mark hc).trans h, by simp⟩
    | cons u us =>
      obtain ⟨rfl, htail⟩ := List.cons.inj h
      obtain ⟨as, bs, rfl, has, hbs, hlast⟩ := ih _ htail
      refine ⟨c :: as, bs, rfl, by rw [lexFrom_mark hc, has],
        by rw [Text.byteLength_cons, ← Nat.add_assoc, hbs], ?_⟩
      cases as with
      | nil => simp [hc]
      | cons d as => rwa [List.getLast?_cons_cons]
  | case4 start c cs hsep hmark run stop ih =>
    intro us h
    cases us with
    | nil => exact ⟨[], c :: cs, rfl, lexFrom_nil, (lexFrom_run hsep hmark).trans h, by simp⟩
    | cons u us =>
      obtain ⟨rfl, htail⟩ := List.cons.inj h
      obtain ⟨as, bs, hafter, has, hbs, hlast⟩ := ih _ htail
      have hrest : ∀ d ∈ as.head?, kindOf d ≠ kindOf c := by
        intro d hd
        have hmem : d ∈ (afterRun (kindOf c) cs).head? := by
          rw [hafter, List.head?_append, hd]
          rfl
        exact kindOf_head?_afterRun d hmem
      refine ⟨run ++ as, bs, ?_, ?_, ?_, ?_⟩
      · rw [List.append_assoc, ← hafter]
        simp [run, runTail_append_afterRun]
      · rw [lexFrom_append_run (List.cons_ne_nil _ _) (kindOf_of_mem_run c cs) hsep hmark hrest]
        rw [show start + Text.byteLength (c :: runTail (kindOf c) cs) = stop from rfl, has]
      · rw [Text.byteLength_append, ← Nat.add_assoc, hbs]
      · intro d hd
        rw [List.getLast?_append, Option.mem_def, Option.or_eq_some_iff] at hd
        rcases hd with hd | ⟨-, hd⟩
        · exact hlast d hd
        · rw [kindOf_of_mem_run c cs d (List.mem_of_getLast? hd)]
          exact hsep

theorem exists_lexFrom_eq_of_head (start : Nat) (cs : List Char) :
    ∃ as bs, cs = as ++ bs ∧ lexFrom start cs = lexFrom (start + Text.byteLength as) bs ∧
      ∀ c ∈ bs.head?, kindOf c ≠ .separator := by
  induction cs generalizing start with
  | nil => exact ⟨[], [], rfl, rfl, by simp⟩
  | cons c cs ih =>
    by_cases hc : kindOf c = .separator
    · obtain ⟨as, bs, rfl, hlex, hhead⟩ := ih (start + c.utf8Size)
      exact ⟨c :: as, bs, rfl, by rw [lexFrom_separator hc, hlex, Text.byteLength_cons,
        Nat.add_assoc], hhead⟩
    · exact ⟨[], c :: cs, rfl, rfl, by simpa using hc⟩

/-- Tokens that follow each other are the tokens of the text from the first to the last of them. -/
theorem exists_tight_of_lex_eq {t : Token} {vs : List Token}
    (h : lex cs = us ++ ((t :: ts) ++ vs)) :
    ∃ as ms bs, cs = as ++ ms ++ bs ∧ Tight ms ∧ words ms = (t :: ts).map word ∧
      Text.byteLength as = t.start ∧
      Text.byteLength (as ++ ms) = ((t :: ts).getLast (List.cons_ne_nil t ts)).stop := by
  obtain ⟨as, rest, rfl, -, hrest, -⟩ := exists_split_of_lexFrom_eq _ _ _ h
  obtain ⟨front, bs, rfl, hfront, -, hlast⟩ := exists_split_of_lexFrom_eq _ _ _ hrest
  obtain ⟨seps, ms, rfl, hms, hhead⟩ := exists_lexFrom_eq_of_head (0 + Text.byteLength as) front
  rw [hfront, Nat.zero_add, ← Text.byteLength_append] at hms
  cases ms with
  | nil => simp at hms
  | cons c ms =>
    have hsep := hhead c rfl
    have hstart := start_head?_lexFrom (Text.byteLength (as ++ seps)) ms hsep
    have htight : Tight (c :: ms) := by
      refine ⟨by simpa using hsep, ?_⟩
      simpa [List.getLast?_append, List.getLast?_cons] using hlast
    have hstop := stop_getLast?_lexFrom (Text.byteLength (as ++ seps)) htight.last
    rw [← hms] at hstart hstop
    rw [List.getLast?_eq_some_getLast (List.cons_ne_nil t ts)] at hstop
    refine ⟨as ++ seps, c :: ms, bs, by simp, htight, ?_, (Option.some.inj hstart).symm, ?_⟩
    · rw [hms, map_word_lexFrom]
    · rw [Text.byteLength_append]
      exact (Option.some.inj hstop).symm

end CasualDate.Token
