import CasualDate.Proofs.Token.Placed

/-!
# The words of a text

The words of a text do not depend on where it stands, so a text is split word by word from the
front: a separator adds nothing, a mark is one word, and so is a run up to its end
(`words_separator`, `words_mark`, `words_run`). A text with no separator at either end is filled by
its tokens (`lex_of_tight`).
-/

namespace CasualDate.Token

variable {c : Char} {cs run rest : List Char} {k : Kind} {start : Nat}

@[simp] theorem lexFrom_nil : lexFrom start [] = [] := by
  rw [lexFrom.eq_def]

theorem lexFrom_separator (h : kindOf c = .separator) :
    lexFrom start (c :: cs) = lexFrom (start + c.utf8Size) cs := by
  simp only [lexFrom.eq_def start (c :: cs), h]

theorem lexFrom_mark {w : Word} (h : kindOf c = .mark w) :
    lexFrom start (c :: cs) =
      ⟨w, start, start + c.utf8Size⟩ :: lexFrom (start + c.utf8Size) cs := by
  simp only [lexFrom.eq_def start (c :: cs), h]

theorem lexFrom_run (hsep : kindOf c ≠ .separator) (hmark : ∀ w, kindOf c ≠ .mark w) :
    lexFrom start (c :: cs) =
      ⟨.ofRun (c :: runTail (kindOf c) cs), start,
          start + Text.byteLength (c :: runTail (kindOf c) cs)⟩ ::
        lexFrom (start + Text.byteLength (c :: runTail (kindOf c) cs)) (afterRun (kindOf c) cs) := by
  rw [lexFrom.eq_def]
  dsimp only
  split
  · exact absurd ‹_› hsep
  · exact absurd ‹_› (hmark _)
  · rfl

def words (cs : List Char) : List Word :=
  (lex cs).map word

theorem map_word_lexFrom (start : Nat) (cs : List Char) : (lexFrom start cs).map word = words cs := by
  suffices h : ∀ n, (lexFrom start cs).map word = (lexFrom n cs).map word from h 0
  fun_induction lexFrom start cs with
  | case1 => intro n; rw [lexFrom_nil]
  | case2 start c cs hc ih => intro n; rw [lexFrom_separator hc, ih (n + c.utf8Size)]
  | case3 start c cs w hc ih =>
    intro n
    rw [lexFrom_mark hc, List.map_cons, List.map_cons, ih (n + c.utf8Size)]
  | case4 start c cs hsep hmark run stop ih =>
    intro n
    rw [lexFrom_run hsep hmark, List.map_cons, List.map_cons, ih (n + Text.byteLength run)]

@[simp] theorem words_nil : words [] = [] := by
  simp [words, lex]

theorem words_separator (h : kindOf c = .separator) : words (c :: cs) = words cs := by
  rw [words, lex, lexFrom_separator h, map_word_lexFrom]

theorem words_mark {w : Word} (h : kindOf c = .mark w) : words (c :: cs) = w :: words cs := by
  rw [words, lex, lexFrom_mark h, List.map_cons, map_word_lexFrom]

theorem lexFrom_append_run (hne : run ≠ []) (hrun : ∀ c ∈ run, kindOf c = k) (hsep : k ≠ .separator)
    (hmark : ∀ w, k ≠ .mark w) (hrest : ∀ c ∈ rest.head?, kindOf c ≠ k) :
    lexFrom start (run ++ rest) =
      ⟨.ofRun run, start, start + Text.byteLength run⟩ ::
        lexFrom (start + Text.byteLength run) rest := by
  obtain ⟨c, cs, rfl⟩ := List.exists_cons_of_ne_nil hne
  obtain ⟨hc, hcs⟩ := List.forall_mem_cons.1 hrun
  have htail : runTail k (cs ++ rest) = cs := by
    rw [runTail, List.takeWhile_append_of_pos (by simpa using hcs)]
    cases rest with
    | nil => simp
    | cons d rest => simp [hrest d rfl]
  have hafter : afterRun k (cs ++ rest) = rest := by
    rw [afterRun, List.dropWhile_append_of_pos (by simpa using hcs)]
    cases rest with
    | nil => rfl
    | cons d rest => simp [hrest d rfl]
  subst hc
  rw [List.cons_append, lexFrom_run hsep hmark, htail, hafter]

theorem words_run (hne : run ≠ []) (hrun : ∀ c ∈ run, kindOf c = k) (hsep : k ≠ .separator)
    (hmark : ∀ w, k ≠ .mark w) (hrest : ∀ c ∈ rest.head?, kindOf c ≠ k) :
    words (run ++ rest) = .ofRun run :: words rest := by
  rw [words, lex, lexFrom_append_run hne hrun hsep hmark hrest, List.map_cons, map_word_lexFrom]

/-! ### Texts filled by their tokens -/

/-- The text neither begins nor ends with a separator. -/
structure Tight (cs : List Char) : Prop where
  head : cs.head?.any (kindOf · ≠ .separator) = true
  last : cs.getLast?.any (kindOf · ≠ .separator) = true

instance : Decidable (Tight cs) :=
  decidable_of_iff (cs.head?.any (kindOf · ≠ .separator) = true ∧
      cs.getLast?.any (kindOf · ≠ .separator) = true)
    ⟨fun h => ⟨h.1, h.2⟩, fun h => ⟨h.head, h.last⟩⟩

theorem start_head?_lexFrom (start : Nat) (cs : List Char) (h : kindOf c ≠ .separator) :
    (lexFrom start (c :: cs)).head?.map Token.start = some start := by
  rw [lexFrom.eq_def]
  dsimp only
  split
  · exact absurd ‹_› h
  · rfl
  · rfl

theorem stop_getLast?_cons {t : Token} {ts : List Token} {n : Nat}
    (h : ts.getLast?.map Token.stop = some n) : (t :: ts).getLast?.map Token.stop = some n := by
  cases ts with
  | nil => cases h
  | cons u ts => rwa [List.getLast?_cons_cons]

theorem stop_getLast?_lexFrom (start : Nat)
    (h : cs.getLast?.any (kindOf · ≠ .separator) = true) :
    (lexFrom start cs).getLast?.map Token.stop = some (start + Text.byteLength cs) := by
  fun_induction lexFrom start cs with
  | case1 => simp at h
  | case2 start c cs hc ih =>
    cases cs with
    | nil => simp [hc] at h
    | cons d cs =>
      rw [ih (by simpa using h), Text.byteLength_cons c, Nat.add_assoc]
  | case3 start c cs w hc ih =>
    cases cs with
    | nil => simp
    | cons d cs =>
      rw [Text.byteLength_cons c, ← Nat.add_assoc]
      exact stop_getLast?_cons (ih (by simpa using h))
  | case4 start c cs hsep hmark run stop ih =>
    have hcs : c :: cs = run ++ afterRun (kindOf c) cs := by simp [run, runTail_append_afterRun]
    rw [hcs] at h
    rw [hcs, Text.byteLength_append, ← Nat.add_assoc]
    cases hrest : afterRun (kindOf c) cs with
    | nil => simp [stop]
    | cons d rest =>
      rw [hrest] at h ih
      rw [List.getLast?_append, List.getLast?_cons, Option.some_or, ← List.getLast?_cons] at h
      exact stop_getLast?_cons (ih h)

theorem lex_of_tight (h : Tight cs) :
    ∃ t ts, lex cs = t :: ts ∧ t.start = 0 ∧
      ((t :: ts).getLast (List.cons_ne_nil t ts)).stop = Text.byteLength cs := by
  obtain ⟨c, hc, hsep⟩ := (Option.any_eq_true ..).1 h.head
  obtain ⟨cs, rfl⟩ := List.head?_eq_some_iff.1 hc
  have hstart := start_head?_lexFrom 0 cs (by simpa using hsep)
  have hstop := stop_getLast?_lexFrom 0 h.last
  rw [Nat.zero_add] at hstop
  unfold lex
  cases hts : lexFrom 0 (c :: cs) with
  | nil => rw [hts] at hstart; cases hstart
  | cons t ts =>
    rw [hts] at hstart hstop
    rw [List.getLast?_eq_some_getLast (List.cons_ne_nil t ts)] at hstop
    exact ⟨t, ts, rfl, Option.some.inj hstart, Option.some.inj hstop⟩

end CasualDate.Token
