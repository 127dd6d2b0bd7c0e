import CasualDate.Proofs.Text.Decimal
import Mathlib.Tactic.Ring

/-!
# Numbers in the order of their digits

Written with the same number of digits, numbers come in the order in which their texts come, and in
which the bytes of their texts come (`padded_lt_iff`, `bytes_lt_iff`): texts are compared at the
first place where they differ, and there the greater digit stands for more than all that follow it.
-/

namespace CasualDate.Text

theorem append_lt_append_iff {α : Type} [LT α] [Std.Irrefl (· < · : α → α → Prop)]
    {as bs cs ds : List α} (h : as.length = bs.length) :
    as ++ cs < bs ++ ds ↔ as < bs ∨ as = bs ∧ cs < ds := by
  induction as generalizing bs with
  | nil =>
    obtain rfl := List.length_eq_zero_iff.1 h.symm
    simp
  | cons a as ih =>
    obtain ⟨b, bs, rfl⟩ := List.exists_cons_of_length_eq_add_one h.symm
    have hlength : as.length = bs.length := Nat.succ.inj h
    rw [List.cons_append, List.cons_append, List.cons_lt_cons_iff, List.cons_lt_cons_iff,
      ih hlength, List.cons.injEq]
    constructor
    · rintro (hlt | ⟨rfl, hlt | ⟨rfl, hlt⟩⟩)
      · exact .inl (.inl hlt)
      · exact .inl (.inr ⟨rfl, hlt⟩)
      · exact .inr ⟨⟨rfl, rfl⟩, hlt⟩
    · rintro ((hlt | ⟨rfl, hlt⟩) | ⟨⟨rfl, rfl⟩, hlt⟩)
      · exact .inl hlt
      · exact .inr ⟨rfl, .inl hlt⟩
      · exact .inr ⟨rfl, .inr ⟨rfl, hlt⟩⟩

/-! ### Digits -/

variable {c d : Char} {as bs : List Char} {m n width : Nat}

theorem digitValue_lt_iff (hc : c.isDigit = true) (hd : d.isDigit = true) :
    digitValue c < digitValue d ↔ c < d := by
  have hlow : 48 ≤ c.toNat := (Char.isDigit_iff_toNat.1 hc).1
  have hlow' : 48 ≤ d.toNat := (Char.isDigit_iff_toNat.1 hd).1
  rw [Char.lt_def, UInt32.lt_iff_toNat_lt]
  show c.toNat - 48 < d.toNat - 48 ↔ c.toNat < d.toNat
  omega

theorem digitValue_inj (hc : c.isDigit = true) (hd : d.isDigit = true) :
    digitValue c = digitValue d ↔ c = d := by
  have hlow : 48 ≤ c.toNat := (Char.isDigit_iff_toNat.1 hc).1
  have hlow' : 48 ≤ d.toNat := (Char.isDigit_iff_toNat.1 hd).1
  rw [← Char.toNat_inj]
  show c.toNat - 48 = d.toNat - 48 ↔ c.toNat = d.toNat
  omega

theorem digitsValue_cons (c : Char) (cs : List Char) :
    digitsValue (c :: cs) = digitValue c * 10 ^ cs.length + digitsValue cs := by
  -- What has been read so far counts ten times more with each digit that follows.
  suffices h : ∀ n, cs.foldl (fun n c => 10 * n + digitValue c) n =
      n * 10 ^ cs.length + digitsValue cs by
    rw [digitsValue, List.foldl_cons, h, Nat.mul_zero, Nat.zero_add]
  induction cs with
  | nil => simp [digitsValue]
  | cons d cs ih =>
    intro n
    have hfirst : digitsValue (d :: cs) = digitValue d * 10 ^ cs.length + digitsValue cs := by
      rw [digitsValue, List.foldl_cons, ih, Nat.mul_zero, Nat.zero_add]
    rw [List.foldl_cons, ih, hfirst, List.length_cons, Nat.pow_succ]
    ring

theorem digitsValue_lt (h : ∀ c ∈ as, c.isDigit = true) : digitsValue as < 10 ^ as.length := by
  induction as with
  | nil => simp [digitsValue]
  | cons c as ih =>
    obtain ⟨hc, has⟩ := List.forall_mem_cons.1 h
    have hle := Nat.mul_le_mul_right (10 ^ as.length) (digitValue_le hc)
    have hlt := ih has
    rw [digitsValue_cons, List.length_cons, Nat.pow_succ]
    omega

theorem digits_lt_iff (hlength : as.length = bs.length) (has : ∀ c ∈ as, c.isDigit = true)
    (hbs : ∀ c ∈ bs, c.isDigit = true) : as < bs ↔ digitsValue as < digitsValue bs := by
  induction as generalizing bs with
  | nil =>
    obtain rfl := List.length_eq_zero_iff.1 hlength.symm
    simp
  | cons a as ih =>
    obtain ⟨b, bs, rfl⟩ := List.exists_cons_of_length_eq_add_one hlength.symm
    obtain ⟨ha, has⟩ := List.forall_mem_cons.1 has
    obtain ⟨hb, hbs⟩ := List.forall_mem_cons.1 hbs
    have hlength : as.length = bs.length := Nat.succ.inj hlength
    have hbelow := digitsValue_lt has
    have hbelow' := digitsValue_lt hbs
    rw [List.cons_lt_cons_iff, ← digitValue_lt_iff ha hb, ← digitValue_inj ha hb,
      ih hlength has hbs, digitsValue_cons, digitsValue_cons, hlength]
    rw [hlength] at hbelow
    rcases Nat.lt_trichotomy (digitValue a) (digitValue b) with hlt | heq | hgt
    · have hle := Nat.mul_le_mul_right (10 ^ bs.length) hlt
      rw [Nat.succ_mul] at hle
      exact ⟨fun _ => by omega, fun _ => .inl hlt⟩
    · rw [heq]
      omega
    · have hle := Nat.mul_le_mul_right (10 ^ bs.length) hgt
      rw [Nat.succ_mul] at hle
      omega

/-! ### Padded numbers -/

theorem length_padded (hwidth : 0 < width) (h : n < 10 ^ width) : (padded width n).length = width := by
  have hle := (Nat.length_toDigits_le_iff (by decide) hwidth).2 h
  simp only [padded, decimal, List.length_append, List.length_replicate]
  omega

theorem padded_inj : padded width m = padded width n ↔ m = n := by
  constructor
  · intro h
    rw [← digitsValue_padded (n := m), h, digitsValue_padded]
  · rintro rfl
    rfl

theorem padded_lt_iff (hwidth : 0 < width) (hm : m < 10 ^ width) (hn : n < 10 ^ width) :
    padded width m < padded width n ↔ m < n := by
  rw [digits_lt_iff (by rw [length_padded hwidth hm, length_padded hwidth hn])
    (fun _ => isDigit_of_mem_padded) (fun _ => isDigit_of_mem_padded), digitsValue_padded,
    digitsValue_padded]

/-- An integer is known by what is written, as only those below zero have a sign. -/
theorem paddedInt_inj {i j : Int} : paddedInt width i = paddedInt width j ↔ i = j := by
  have hsign (k : Nat) (n : Nat) : '-' ∉ padded k n := fun hmem =>
    absurd (isDigit_of_mem_padded hmem) (by decide)
  constructor
  · intro h
    cases i with
    | ofNat m =>
      cases j with
      | ofNat n => rw [padded_inj.1 h]
      | negSucc n =>
        have hmem : '-' ∈ paddedInt width (.negSucc n) := List.mem_cons_self
        rw [← h] at hmem
        exact absurd hmem (hsign width m)
    | negSucc m =>
      cases j with
      | ofNat n =>
        have hmem : '-' ∈ paddedInt width (.negSucc m) := List.mem_cons_self
        rw [h] at hmem
        exact absurd hmem (hsign width n)
      | negSucc n => rw [Nat.succ.inj (padded_inj.1 (List.cons.inj h).2)]
  · rintro rfl
    rfl

/-! ### Bytes -/

/-- The bytes of the text. -/
def bytes (s : String) : List UInt8 :=
  s.toUTF8.data.toList

theorem bytes_ofList (cs : List Char) :
    bytes (String.ofList cs) = cs.flatMap String.utf8EncodeChar := by
  show (String.ofList cs).toByteArray.data.toList = _
  rw [String.toByteArray_ofList, List.utf8Encode]
  simp

theorem utf8EncodeChar_of_lt (h : c.toNat < 128) : String.utf8EncodeChar c = [c.val.toUInt8] := by
  refine String.utf8EncodeChar_eq_singleton (Char.utf8Size_eq_one_iff.2 ?_)
  exact UInt32.le_iff_toNat_le.2 (Nat.le_of_lt_succ h)

theorem bytes_lt_iff (has : ∀ c ∈ as, c.toNat < 128) (hbs : ∀ c ∈ bs, c.toNat < 128) :
    bytes (String.ofList as) < bytes (String.ofList bs) ↔ as < bs := by
  rw [bytes_ofList, bytes_ofList]
  induction as generalizing bs with
  | nil =>
    cases bs with
    | nil => simp
    | cons b bs => simp [utf8EncodeChar_of_lt (hbs b (by simp))]
  | cons a as ih =>
    cases bs with
    | nil => simp
    | cons b bs =>
      obtain ⟨ha, has⟩ := List.forall_mem_cons.1 has
      obtain ⟨hb, hbs⟩ := List.forall_mem_cons.1 hbs
      have hlt : a.val.toUInt8 < b.val.toUInt8 ↔ a < b := by
        rw [UInt8.lt_iff_toNat_lt, Char.lt_def, UInt32.lt_iff_toNat_lt]
        show a.toNat % 256 < b.toNat % 256 ↔ a.toNat < b.toNat
        omega
      have heq : a.val.toUInt8 = b.val.toUInt8 ↔ a = b := by
        rw [← UInt8.toNat_inj, ← Char.toNat_inj]
        show a.toNat % 256 = b.toNat % 256 ↔ a.toNat = b.toNat
        omega
      rw [List.flatMap_cons, List.flatMap_cons, utf8EncodeChar_of_lt ha, utf8EncodeChar_of_lt hb,
        List.singleton_append, List.singleton_append, List.cons_lt_cons_iff, List.cons_lt_cons_iff,
        hlt, heq, ih has hbs]

end CasualDate.Text
