import CasualDate.Proofs.Token.Split

/-!
# Tokens in one pass

The tokens can be found character by character, without looking ahead: a pass keeps the lower case of
the run that it is in and the place where this run begins, and pushes the word of the run when
something ends it. Whatever character comes next, the tokens so far and those of the pending run
followed by the rest of the text stay the same (`Pass.Finds.read`), so a whole pass finds the tokens
of the text (`onePass_eq_lex`).
-/

namespace CasualDate.Token

/-- The tokens so far, and the lower case of the run that is being read with its first byte. -/
structure Pass where
  tokens : List Token
  run : List Char
  start : Nat

namespace Pass

/-- The word of what is pending. -/
def word (p : Pass) : Word :=
  match Word.ofSpelling? (String.ofList p.run) with
  | some w => w
  | none =>
    match Text.readCount? p.run with
    | some n => .literal n
    | none => .unknown

/-- Ends the run at byte `i`, if there is one. -/
def push (p : Pass) (i : Nat) : Pass :=
  if p.run.isEmpty then p else ⟨p.tokens ++ [⟨p.word, p.start, i⟩], [], p.start⟩

/-- Ends the run where ASCII digits and others meet. -/
def turn (p : Pass) (i : Nat) (c : Char) : Pass :=
  if p.run.getLast?.any fun d => d.isDigit != c.isDigit then p.push i else p

/-- Reads a character that is no white space. -/
def take (p : Pass) (i : Nat) (c : Char) : Pass :=
  match marks.lookup c with
  | some w => { p.push i with tokens := (p.push i).tokens ++ [⟨w, i, i + c.utf8Size⟩] }
  | none =>
    if !Text.isAlphanumeric c then p.push i
    else ⟨p.tokens, p.run ++ Text.lowerChar c, if p.run.isEmpty then i else p.start⟩

/-- Reads the character at byte `i`. -/
def read (p : Pass) (i : Nat) (c : Char) : Pass :=
  if Text.isSpace c then p.push i else (p.turn i c).take i c

/-- Reads the rest of a text, from byte `i` on. -/
def readAll (p : Pass) (i : Nat) : List Char → Pass
  | [] => p.push i
  | c :: cs => (p.read i c).readAll (i + c.utf8Size) cs

variable {p : Pass} {b i : Nat} {c : Char} {r cs : List Char} {whole : List Char → List Token}

/-- The characters `r` are pending, which begin at byte `b`. -/
structure Pending (p : Pass) (b : Nat) (r : List Char) : Prop where
  run : p.run = r.flatMap Text.lowerChar
  start : r ≠ [] → p.start = b
  uniform : r ≠ [] → Uniform r

/-- At byte `i` the pass has found what it can: with any rest of the text, `whole rest` are the tokens
so far and those of what is pending and the rest. -/
def Finds (p : Pass) (i : Nat) (whole : List Char → List Token) : Prop :=
  ∃ b r, Pending p b r ∧ b + Text.byteLength r = i ∧
    ∀ rest, whole rest = p.tokens ++ lexFrom b (r ++ rest)

theorem flatMap_lowerChar_eq_nil_iff : r.flatMap Text.lowerChar = [] ↔ r = [] := by
  cases r with
  | nil => simp
  | cons c r => simp [Text.lowerChar_ne_nil]

theorem pending_nil (h : p.run = []) (b : Nat) : Pending p b [] :=
  ⟨h, fun hne => absurd rfl hne, fun hne => absurd rfl hne⟩

theorem run_push (p : Pass) (i : Nat) : (p.push i).run = [] := by
  unfold push
  split
  · next h => exact List.isEmpty_iff.1 h
  · rfl

theorem finds_of_run_eq_nil (hrun : p.run = []) (h : ∀ rest, whole rest = p.tokens ++ lexFrom i rest) :
    Finds p i whole :=
  ⟨i, [], pending_nil hrun i, rfl, h⟩

namespace Pending

theorem isEmpty_iff (h : Pending p b r) : p.run.isEmpty = true ↔ r = [] := by
  rw [List.isEmpty_iff, h.run, flatMap_lowerChar_eq_nil_iff]

theorem tokens_push (h : Pending p b r) :
    (p.push (b + Text.byteLength r)).tokens = p.tokens ++ lexFrom b r := by
  unfold push
  split
  · next hrun => rw [h.isEmpty_iff.1 hrun, lexFrom_nil, List.append_nil]
  · next hrun =>
    have hne : r ≠ [] := fun hr => hrun (h.isEmpty_iff.2 hr)
    have hword : p.word = .ofRun r := by
      rw [word, h.run]
      rfl
    rw [lexFrom_of_uniform (h.uniform hne), hword, h.start hne]

/-- At a seam nothing is lost by a push. -/
theorem tokens_append (h : Pending p b r) (hseam : Seam r cs) :
    p.tokens ++ lexFrom b (r ++ cs) =
      (p.push (b + Text.byteLength r)).tokens ++ lexFrom (b + Text.byteLength r) cs := by
  rw [lexFrom_append hseam, h.tokens_push, List.append_assoc]

theorem any_getLast? (h : Pending p b r) (f : Bool → Bool) :
    p.run.getLast?.any (fun d => f d.isDigit) = r.getLast?.any fun a => f a.isDigit := by
  rw [h.run]
  rcases List.eq_nil_or_concat' r with rfl | ⟨init, a, rfl⟩
  · rfl
  · have hne := Text.lowerChar_ne_nil a
    rw [List.flatMap_append, List.flatMap_singleton, List.getLast?_append_of_ne_nil _ hne,
      List.getLast?_concat, List.getLast?_eq_some_getLast hne, Option.any_some, Option.any_some,
      Text.isDigit_of_mem_lowerChar (List.getLast_mem hne)]

/-- After a turn, what is pending may go on with the next character. -/
theorem turn (h : Pending p b r) (c : Char) :
    ∃ b' r', Pending (p.turn (b + Text.byteLength r) c) b' r' ∧
      b' + Text.byteLength r' = b + Text.byteLength r ∧ (∀ a ∈ r'.getLast?, a.isDigit = c.isDigit) ∧
      ∀ rest, p.tokens ++ lexFrom b (r ++ c :: rest) =
        (p.turn (b + Text.byteLength r) c).tokens ++ lexFrom b' (r' ++ c :: rest) := by
  unfold Pass.turn
  rw [h.any_getLast? (· != c.isDigit)]
  split
  · next hturn =>
    obtain ⟨a, ha, hdigit⟩ := (Option.any_eq_true ..).1 hturn
    refine ⟨b + Text.byteLength r, [], pending_nil (run_push ..) _, rfl, by simp, fun rest => ?_⟩
    refine h.tokens_append ?_
    rintro a' ha' d hd ⟨-, -, hsame⟩
    cases hd
    rw [ha] at ha'
    cases ha'
    rw [hsame] at hdigit
    simp at hdigit
  · next hturn =>
    refine ⟨b, r, h, rfl, fun a ha => ?_, fun rest => rfl⟩
    rw [Option.mem_def.1 ha] at hturn
    simpa using hturn

theorem extend (h : Pending p b r) (hsame : ∀ a ∈ r.getLast?, a.isDigit = c.isDigit)
    (hc : Text.isAlphanumeric c = true) :
    Pending ⟨p.tokens, p.run ++ Text.lowerChar c,
      if p.run.isEmpty then b + Text.byteLength r else p.start⟩ b (r ++ [c]) := by
  have hrun : p.run ++ Text.lowerChar c = (r ++ [c]).flatMap Text.lowerChar := by
    rw [h.run, List.flatMap_append, List.flatMap_singleton]
  by_cases hr : r = []
  · refine ⟨hrun, fun _ => ?_, fun _ => ?_⟩
    · rw [if_pos (h.isEmpty_iff.2 hr), hr]
      rfl
    · rw [hr]
      exact uniform_singleton hc
  · refine ⟨hrun, fun _ => ?_, fun _ => ?_⟩
    · rw [if_neg (mt h.isEmpty_iff.1 hr), h.start hr]
    · refine (h.uniform hr).append (uniform_singleton hc) fun hseam => ?_
      have hlast := List.getLast?_eq_some_getLast hr
      have hmem := List.getLast_mem hr
      exact hseam _ hlast c rfl ⟨((h.uniform hr).joined _ hmem _ hmem).left, hc, hsame _ hlast⟩

theorem take (h : Pending p b r) (hsame : ∀ a ∈ r.getLast?, a.isDigit = c.isDigit) :
    Finds (p.take (b + Text.byteLength r) c) (b + Text.byteLength r + c.utf8Size)
      fun rest => p.tokens ++ lexFrom b (r ++ c :: rest) := by
  unfold Pass.take
  split
  · next w hw =>
    have hc := mem_marks_of_lookup hw
    refine finds_of_run_eq_nil (run_push ..) fun rest => ?_
    rw [h.tokens_append (seam_of_head (isAlphanumeric_of_mem_marks hc)),
      lexFrom_mark (kindOf_of_mem_marks hc), List.append_assoc, List.singleton_append]
  · next hnone =>
    split
    · next halpha =>
      have hother : Text.isAlphanumeric c = false := by simpa using halpha
      refine finds_of_run_eq_nil (run_push ..) fun rest => ?_
      rw [h.tokens_append (seam_of_head hother), lexFrom_separator (kindOf_eq_separator hother hnone)]
    · next halpha =>
      refine ⟨b, r ++ [c], h.extend hsame (by simpa using halpha), ?_, fun rest => by simp⟩
      rw [Text.byteLength_append, Text.byteLength_cons, Text.byteLength_nil, Nat.add_zero,
        Nat.add_assoc]

end Pending

theorem Finds.read (h : Finds p i whole) (c : Char) :
    Finds (p.read i c) (i + c.utf8Size) fun rest => whole (c :: rest) := by
  obtain ⟨b, r, hr, rfl, hwhole⟩ := h
  unfold Pass.read
  split
  · next hspace =>
    have hother := isAlphanumeric_of_isSpace hspace
    refine finds_of_run_eq_nil (run_push ..) fun rest => ?_
    rw [hwhole, hr.tokens_append (seam_of_head hother), lexFrom_separator (kindOf_of_isSpace hspace)]
  · obtain ⟨b', r', hr', hplace, hsame, htokens⟩ := hr.turn c
    have htake := hr'.take hsame
    rw [hplace] at htake
    simpa only [hwhole, htokens] using htake

theorem Finds.readAll (h : Finds p i whole) (cs : List Char) : (p.readAll i cs).tokens = whole cs := by
  induction cs generalizing p i whole with
  | nil =>
    obtain ⟨b, r, hr, rfl, hwhole⟩ := h
    show (p.push (b + Text.byteLength r)).tokens = whole []
    rw [hwhole, List.append_nil, hr.tokens_push]
  | cons c cs ih => exact ih (h.read c)

end Pass

/-- The tokens of a text, found in one pass over its characters. -/
def onePass (cs : List Char) : List Token :=
  (Pass.readAll ⟨[], [], 0⟩ 0 cs).tokens

theorem onePass_eq_lex (cs : List Char) : onePass cs = lex cs := by
  have hstart : Pass.Finds ⟨[], [], 0⟩ 0 lex := Pass.finds_of_run_eq_nil rfl fun _ => rfl
  exact hstart.readAll cs

end CasualDate.Token
