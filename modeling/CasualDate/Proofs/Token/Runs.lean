import CasualDate.Proofs.Token.OnePass

/-!
# The tokens are the marks and the longest runs

What a text's tokens are is said without saying how they are found: each mark by itself, and each
run of letters and numbers that is not a part of a longer one, where no run holds an ASCII digit and
another character. A mark has its own word, and a run the word that it stands for. These are all
tokens of the text and its only ones, from left to right (`tokenises_lex`).
-/

namespace CasualDate.Token

variable {before run after cs : List Char} {ts us : List Token} {t : Token} {start : Nat}

/-- `run` is a longest run of the text, between `before` and `after`. -/
structure IsRun (before run after : List Char) : Prop where
  uniform : Uniform run
  longest : ∀ front back, front <:+ before → back <+: after → Uniform (front ++ run ++ back) →
    front = [] ∧ back = []

theorem isRun_iff : IsRun before run after ↔ Uniform run ∧ Seam before run ∧ Seam run after := by
  constructor
  · rintro ⟨huniform, hlongest⟩
    refine ⟨huniform, ?_, ?_⟩
    · intro a ha b hb hjoined
      obtain ⟨init, rfl⟩ := List.getLast?_eq_some_iff.1 ha
      have hlong : Uniform ([a] ++ run) :=
        (uniform_singleton hjoined.left).append huniform fun hseam => hseam a rfl b hb hjoined
      have hnil := hlongest [a] [] (List.suffix_append ..) List.nil_prefix (by simpa using hlong)
      simp at hnil
    · intro a ha b hb hjoined
      obtain ⟨rest, rfl⟩ := List.head?_eq_some_iff.1 hb
      have hlong : Uniform (run ++ [b]) :=
        huniform.append (uniform_singleton hjoined.right) fun hseam => hseam a ha b rfl hjoined
      have hnil := hlongest [] [b] List.nil_suffix ⟨rest, rfl⟩ (by simpa using hlong)
      simp at hnil
  · rintro ⟨huniform, hleft, hright⟩
    have hrun := huniform.ne_nil
    refine ⟨huniform, fun front back hfront hback hlong => ⟨?_, ?_⟩⟩
    · by_contra hne
      obtain ⟨init, rfl⟩ := hfront
      rw [List.append_assoc] at hlong
      refine hlong.not_seam hne (by simp [hrun]) ((seam_append_right_iff hrun).2 ?_)
      exact (seam_append_left_iff hne).1 hleft
    · by_contra hne
      obtain ⟨rest, rfl⟩ := hback
      refine hlong.not_seam (by simp [hrun]) hne ((seam_append_left_iff hrun).2 ?_)
      exact (seam_append_right_iff hne).1 hright

/-- The token is a mark of the text, or a longest run with what it stands for. -/
inductive IsTokenOf (cs : List Char) : Token → Prop
  | mark {before after : List Char} {c : Char} {w : Word} (htext : cs = before ++ c :: after)
      (hmark : (c, w) ∈ marks) :
      IsTokenOf cs ⟨w, Text.byteLength before, Text.byteLength before + c.utf8Size⟩
  | run {before run after : List Char} {w : Word} (htext : cs = before ++ run ++ after)
      (hrun : IsRun before run after) (hword : Word.StandsFor run w) :
      IsTokenOf cs ⟨w, Text.byteLength before, Text.byteLength before + Text.byteLength run⟩

/-- All tokens of the text and no others, from left to right. -/
structure Tokenises (cs : List Char) (ts : List Token) : Prop where
  mem_iff : ∀ t, t ∈ ts ↔ IsTokenOf cs t
  ordered : ts.Pairwise fun a b => a.stop ≤ b.start

theorem isTokenOf_of_mem_lexFrom (front : List Char) (hfront : Text.byteLength front = start)
    (hseam : Seam front cs) : ∀ t ∈ lexFrom start cs, IsTokenOf (front ++ cs) t := by
  fun_induction lexFrom start cs generalizing front with
  | case1 => simp
  | case2 start c cs hc ih =>
    have hrest := ih (front ++ [c]) (by simp [hfront]) (seam_of_last (isAlphanumeric_of_separator hc))
    rwa [List.append_assoc] at hrest
  | case3 start c cs w hc ih =>
    have hmark := kindOf_eq_mark_iff.1 hc
    have hrest := ih (front ++ [c]) (by simp [hfront]) (seam_of_last (isAlphanumeric_of_mem_marks hmark))
    rw [List.append_assoc] at hrest
    refine List.forall_mem_cons.2 ⟨?_, hrest⟩
    rw [← hfront]
    exact .mark rfl hmark
  | case4 start c cs hsep hmark run stop ih =>
    have hcs : c :: cs = run ++ afterRun (kindOf c) cs := by simp [run, runTail_append_afterRun]
    have huniform : Uniform run :=
      uniform_iff.2 ⟨List.cons_ne_nil _ _, kindOf c, isLetterOrDigit_of_run hsep hmark,
        kindOf_of_mem_run c cs⟩
    have hright : Seam run (afterRun (kindOf c) cs) := by
      intro a ha b hb hjoined
      have hkind := kindOf_of_mem_run c cs a (List.mem_of_getLast? ha)
      exact kindOf_head?_afterRun b hb ((joined_iff.1 hjoined).1.symm.trans hkind)
    have hrest := ih (front ++ run) (by rw [Text.byteLength_append, hfront])
      ((seam_append_left_iff huniform.ne_nil).2 hright)
    rw [hcs, seam_append_right_iff huniform.ne_nil] at hseam
    rw [hcs, ← List.append_assoc]
    refine List.forall_mem_cons.2 ⟨?_, hrest⟩
    rw [show stop = start + Text.byteLength run from rfl, ← hfront]
    exact .run rfl (isRun_iff.2 ⟨huniform, hseam, hright⟩) (Word.standsFor_ofRun huniform.ne_nil)

theorem IsTokenOf.mem_lex (h : IsTokenOf cs t) : t ∈ lex cs := by
  cases h with
  | mark htext hmark =>
    rw [htext, lex, lexFrom_append (seam_of_head (isAlphanumeric_of_mem_marks hmark)),
      lexFrom_mark (kindOf_of_mem_marks hmark), Nat.zero_add]
    exact List.mem_append_right _ List.mem_cons_self
  | @run before run after w htext hrun hword =>
    obtain ⟨huniform, hleft, hright⟩ := isRun_iff.1 hrun
    rw [← seam_append_right_iff huniform.ne_nil] at hleft
    rw [htext, List.append_assoc, lex, lexFrom_append hleft, lexFrom_append hright,
      lexFrom_of_uniform huniform, Word.ofRun_eq_iff huniform.ne_nil |>.2 hword, Nat.zero_add]
    exact List.mem_append_right _ List.mem_cons_self

theorem IsTokenOf.start_lt_stop (h : IsTokenOf cs t) : t.start < t.stop :=
  (placed_lex cs).start_lt_stop t h.mem_lex

theorem tokenises_lex (cs : List Char) : Tokenises cs (lex cs) :=
  ⟨fun _ => ⟨isTokenOf_of_mem_lexFrom [] rfl seam_nil_left _, IsTokenOf.mem_lex⟩,
    (placed_lex cs).ordered⟩

namespace Tokenises

theorem nodup (h : Tokenises cs ts) : ts.Nodup := by
  refine h.ordered.imp_of_mem fun {a b} ha _ hle heq => ?_
  have hlt := ((h.mem_iff a).1 ha).start_lt_stop
  rw [heq] at hle hlt
  omega

theorem unique (hts : Tokenises cs ts) (hus : Tokenises cs us) : ts = us := by
  have hperm : ts.Perm us := (List.perm_ext_iff_of_nodup hts.nodup hus.nodup).2 fun t => by
    rw [hts.mem_iff, hus.mem_iff]
  refine hperm.eq_of_pairwise (fun a b ha hb hab hba => ?_) hts.ordered hus.ordered
  have hlt := ((hts.mem_iff a).1 ha).start_lt_stop
  have hlt' := ((hus.mem_iff b).1 hb).start_lt_stop
  omega

end Tokenises

/-- A text has its marks and its longest runs as tokens, each once and from left to right, and nothing
else. They stand between its characters, hold at least one and do not overlap, and one pass over the
text finds them. -/
theorem lex_finds_longest_runs (cs : List Char) :
    (∀ ts, lex cs = ts ↔ Tokenises cs ts) ∧ Placed cs (lex cs) ∧ onePass cs = lex cs := by
  refine ⟨fun ts => ⟨?_, (tokenises_lex cs).unique⟩, placed_lex cs, onePass_eq_lex cs⟩
  rintro rfl
  exact tokenises_lex cs

/-- A capital I with a dot is one character of two bytes, though it is two in lower case. -/
example : lex "21st-\u0130".toList =
    [⟨.literal ⟨21, by decide⟩, 0, 2⟩, ⟨.ordinalSuffix, 2, 4⟩, ⟨.dash, 4, 5⟩, ⟨.unknown, 5, 7⟩] := by
  decide +kernel

end CasualDate.Token
