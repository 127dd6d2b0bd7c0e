import CasualDate.Word.Parsed

/-!
# Numbers

Numbers in digits and in words: "forty-two", "two hundred and five", "3 million". Each part is
read by itself: `double?` reads what is below one hundred, `triple?` what is below one thousand,
and `parse?` joins such parts by the words for thousands, millions and billions. A number that is
too large to count with is not read.
-/

namespace CasualDate.Number

/-- A word that is a number below ten. -/
def ones? : (ws : List Word) → Option (Parsed Nat ws) :=
  readWord? fun
    | .literal n => if n.val < 10 then some n.val else none
    | .numeral n => if n.value < 10 then some n.value else none
    | _ => none

/-- A number below one hundred: one word, or tens and ones with or without a dash. -/
def double? : (ws : List Word) → Option (Parsed Nat ws)
  | .numeral n :: ws =>
    let tens : Parsed Nat (.numeral n :: ws) := .ofHead n.value
    if n.value < 20 then some tens
    else
      match ones? (tens.skip .dash).rest with
      | some p => some ((p.map (n.value + ·)).widen (tens.skip .dash).shorter)
      | none => some (tens.skip .dash)
  | .literal n :: _ => if n.val < 100 then some (.ofHead n.val) else none
  | _ => none

/-- "hundred", alone or with a number below one hundred, "and" between them asking for it. -/
def hundreds? (k : Nat) : (ws : List Word) → Option (Parsed Nat ws)
  | .hundred :: .andWord :: ws =>
    (double? ws).map fun p => (p.map (k * 100 + ·)).behind.behind
  | .hundred :: ws =>
    match double? ws with
    | some p => some (p.map (k * 100 + ·)).behind
    | none => some (.ofHead (k * 100))
  | _ => none

def triple? (ws : List Word) : Option (Parsed Nat ws) :=
  (ones? ws).bind (fun p => (hundreds? p.value p.rest).map (·.widen p.shorter))
    <|> hundreds? 1 ws
    <|> double? ws
    <|> readWord? (fun
      | .literal n => if 100 ≤ n.val ∧ n.val < 1000 then some n.val else none
      | _ => none) ws

mutual

def parse? (ws : List Word) : Option (Parsed Nat ws) :=
  (match triple? ws with
    | some p => (scaled? p.value p.rest).map (·.widen p.shorter)
    | none => none)
    <|> scaled? 1 ws
    <|> triple? ws
    <|> readWord? (fun
      | .literal n => if 1000 ≤ n.val then some n.val else none
      | _ => none) ws
termination_by 2 * ws.length + 1
decreasing_by
  · have := p.shorter; omega
  · omega

/-- A word for thousands or more, multiplied by `k`, and the number that follows it, "and" between
them asking for one. -/
def scaled? (k : Nat) (ws : List Word) : Option (Parsed Nat ws) :=
  match ws with
  | .scale s :: .andWord :: rest =>
    match parse? rest with
    | some p => (Text.count? (k * s.value + p.value)).map fun n =>
        (p.map fun _ => n.val).behind.behind
    | none => none
  | .scale s :: rest =>
    match parse? rest with
    | some p => (Text.count? (k * s.value + p.value)).map fun n => (p.map fun _ => n.val).behind
    | none => (Text.count? (k * s.value)).map fun n => .ofHead n.val
  | _ => none
termination_by 2 * ws.length
decreasing_by
  · simp only [List.length_cons]; omega
  · simp only [List.length_cons]; omega

end

end CasualDate.Number
