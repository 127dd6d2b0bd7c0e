import CasualDate.Proofs.Error.Answers
import CasualDate.Proofs.Reading.LooksFor

/-!
# Readers that count

A reader can answer how many words it takes in place of those that it leaves. Then the words are
looked at by their places, the words from a place on are cut off for the next reader, and a place
behind the end is a fault (`Fault.outside`), as are readings nested more deeply than allowed
(`Fault.spent`). `Counts` says that such a reader takes what a reading reads, without a fault; then it
does so from every place on that can be come to (`Counts.readFrom`).
-/

namespace CasualDate

/-- Why a reader that counts fails. -/
inductive Fault where
  /-- A place was asked for that lies behind the end. -/
  | outside
  /-- More readings inside one another, or more turns, than allowed. -/
  | spent
deriving DecidableEq

/-- A reader that answers how many words it takes. -/
abbrev Counted (α : Type) := List Word → Except Fault (Option (α × Nat))

namespace Counted

variable {α β : Type}

/-- The words from a place on. -/
def cut (ws : List Word) (n : Nat) : Except Fault (List Word) :=
  if n ≤ ws.length then .ok (ws.drop n) else .error .outside

/-- Reads from a place on, and answers the place that it comes to. -/
def readFrom (c : Counted α) (ws : List Word) (n : Nat) : Except Fault (Option (α × Nat)) := do
  return (← c (← cut ws n)).map fun r => (r.1, n + r.2)

/-- The place behind `w`, if `w` stands at the place. -/
def pass (w : Word) (ws : List Word) (n : Nat) : Nat :=
  if ws[n]? = some w then n + 1 else n

/-- Reads the first word, if it has a value. -/
def first (f : Word → Option α) : Counted α := fun ws =>
  .ok ((ws.head?.bind f).map (·, 1))

def map (f : α → β) (c : Counted α) : Counted β := fun ws => do
  return (← c ws).map fun r => (f r.1, r.2)

def andThen (c : Counted α) (d : α → Counted β) : Counted β := fun ws => do
  match ← c ws with
  | some (a, n) => (d a).readFrom ws n
  | none => .ok none

def orElse (c d : Counted α) : Counted α := fun ws => do
  match ← c ws with
  | some found => .ok (some found)
  | none => d ws

/-- Goes on with `d` unless `c` has decided what is read, be it nothing. -/
def unlessDecided (c : List Word → Except Fault (Option (Option (α × Nat)))) (d : Counted α) :
    Counted α := fun ws => do
  match ← c ws with
  | some answer => .ok answer
  | none => d ws

end Counted

/-- Without the first `n` words, `rest` is left. -/
structure Leaves (ws : List Word) (n : Nat) (rest : List Word) : Prop where
  le : n ≤ ws.length
  drop : ws.drop n = rest

namespace Leaves

open Counted

variable {ws rest left : List Word} {n m : Nat} {w : Word}

theorem zero (ws : List Word) : Leaves ws 0 ws :=
  ⟨Nat.zero_le _, rfl⟩

theorem cut (h : Leaves ws n rest) : cut ws n = .ok rest := by
  rw [Counted.cut, if_pos h.le, h.drop]

theorem getElem? (h : Leaves ws n rest) : ws[n]? = rest.head? := by
  rw [← h.drop, List.head?_drop]

theorem length (h : Leaves ws n rest) : n + rest.length = ws.length := by
  have := h.le
  rw [← h.drop, List.length_drop]
  omega

theorem length_lt (h : Leaves ws n rest) {depth : Nat} (hdepth : ws.length < depth) :
    rest.length < depth := by
  have := h.length
  omega

theorem add (h : Leaves ws n rest) (hm : Leaves rest m left) : Leaves ws (n + m) left := by
  have hlength := h.length
  have := hm.le
  refine ⟨by omega, ?_⟩
  rw [← List.drop_drop, h.drop, hm.drop]

theorem cons (w : Word) (ws : List Word) : Leaves (w :: ws) 1 ws :=
  ⟨by simp, rfl⟩

theorem succ (h : Leaves ws n (w :: rest)) : Leaves ws (n + 1) rest :=
  h.add (cons w rest)

theorem pass (h : Leaves ws n rest) (w : Word) : Leaves ws (pass w ws n) (skipWord w rest) := by
  rw [Counted.pass, h.getElem?]
  cases rest with
  | nil => exact h
  | cons v rest =>
    by_cases hv : v = w
    · simpa [skipWord, hv] using h.succ
    · simpa [skipWord, hv] using h

end Leaves

open Reading

variable {α β : Type} {ws rest : List Word} {n : Nat}

/-- An answer about the words `ws` says what is read: the same value, and the place from which on the
words are left. -/
inductive Agrees (ws : List Word) (answer : Except Fault (Option (α × Nat)))
    (result : Option (α × List Word)) : Prop
  | none (hc : answer = .ok none) (hf : result = none)
  | some (a : α) (n : Nat) (rest : List Word) (hleaves : Leaves ws n rest)
    (hc : answer = .ok (some (a, n))) (hf : result = some (a, rest))

namespace Agrees

variable {answer answer' : Except Fault (Option (α × Nat))} {result result' : Option (α × List Word)}

theorem congr (h : Agrees ws answer result) (hc : answer' = answer) (hf : result' = result) :
    Agrees ws answer' result' :=
  hc ▸ hf ▸ h

theorem of_option (o : Option α) (hleaves : Leaves ws n rest) (hc : answer = .ok (o.map (·, n)))
    (hf : result = o.map (·, rest)) : Agrees ws answer result := by
  cases o with
  | none => exact .none hc hf
  | some a => exact .some a n rest hleaves hc hf

end Agrees

/-- The reader takes of the words `ws` what the reading reads, without a fault. -/
abbrev Counts (c : Counted α) (f : Reading α) (ws : List Word) : Prop :=
  Agrees ws (c ws) (f.run ws)

namespace Counts

variable {c d : Counted α} {f g : Reading α}

theorem readFrom (h : Counts c f rest) (hleaves : Leaves ws n rest) :
    Agrees ws (c.readFrom ws n) (f.run rest) := by
  have hread : c.readFrom ws n = c rest >>= fun r => pure (r.map fun r => (r.1, n + r.2)) := by
    rw [Counted.readFrom, hleaves.cut]
    rfl
  cases h with
  | none hc hf => exact .none (by rw [hread, hc]; rfl) hf
  | some a m left hleft hc hf =>
    exact .some a (n + m) left (hleaves.add hleft) (by rw [hread, hc]; rfl) hf

theorem first (p : Word → Option α) (ws : List Word) : Counts (Counted.first p) (word p) ws := by
  cases ws with
  | nil => exact .none rfl rfl
  | cons w ws =>
    cases hw : p w with
    | none => exact .none (by simp [Counted.first, hw]) (by simp [hw])
    | some a => exact .some a 1 ws (.cons w ws) (by simp [Counted.first, hw]) (by simp [hw])

theorem map {k : α → β} {p : Reading β} (h : Counts c f ws)
    (hp : p.run ws = (f.run ws).map fun r => (k r.1, r.2)) : Counts (c.map k) p ws := by
  cases h with
  | none hc hf => exact .none (by rw [Counted.map, hc]; rfl) (by rw [hp, hf]; rfl)
  | some a n rest hleaves hc hf =>
    exact .some (k a) n rest hleaves (by rw [Counted.map, hc]; rfl) (by rw [hp, hf]; rfl)

theorem andThen {d : α → Counted β} {k : α → Reading β} (h : Counts c f ws)
    (hd : ∀ a rest, f.run ws = .some (a, rest) → Counts (d a) (k a) rest) :
    Counts (c.andThen d) (f >>= k) ws := by
  cases h with
  | none hc hf => exact .none (by rw [Counted.andThen, hc]; rfl) (run_of_none hf k)
  | some a n rest hleaves hc hf =>
    exact ((hd a rest hf).readFrom hleaves).congr (by rw [Counted.andThen, hc]; rfl) (by simp [hf])

theorem orElse (h : Counts c f ws) (hd : Counts d g ws) : Counts (c.orElse d) (f <|> g) ws := by
  cases h with
  | none hc hf => exact hd.congr (by rw [Counted.orElse, hc]; rfl) (by simp [hf])
  | some a n rest hleaves hc hf =>
    exact .some a n rest hleaves (by rw [Counted.orElse, hc]; rfl) (by simp [hf])

end Counts

/-- What the reader decides on the words `ws` is what the reading reads. It decides that nothing is
read only if `g` reads nothing either. -/
inductive Decides (c : List Word → Except Fault (Option (Option (α × Nat)))) (f g : Reading α)
    (ws : List Word) : Prop
  | none (hc : c ws = .ok none) (hf : f.run ws = none)
  | nothing (hc : c ws = .ok (some none)) (hf : f.run ws = none) (hg : g.run ws = none)
  | some (a : α) (n : Nat) (rest : List Word) (hleaves : Leaves ws n rest)
    (hc : c ws = .ok (some (some (a, n)))) (hf : f.run ws = some (a, rest))

theorem Decides.unlessDecided {c : List Word → Except Fault (Option (Option (α × Nat)))}
    {d : Counted α} {f g : Reading α} (h : Decides c f g ws) (hd : Counts d g ws) :
    Counts (Counted.unlessDecided c d) (f <|> g) ws := by
  cases h with
  | none hc hf => exact hd.congr (by rw [Counted.unlessDecided, hc]; rfl) (by simp [hf])
  | nothing hc hf hg =>
    exact .none (by rw [Counted.unlessDecided, hc]; rfl) (by simp [hf, hg])
  | some a n rest hleaves hc hf =>
    exact .some a n rest hleaves (by rw [Counted.unlessDecided, hc]; rfl) (by simp [hf])

end CasualDate
