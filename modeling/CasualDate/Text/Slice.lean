/-!
# Byte offsets

Positions in a text are byte offsets in its UTF-8 form. A slice between two character boundaries
is the characters that lie between them.
-/

namespace CasualDate.Text

/-- The number of bytes of a text. -/
def byteLength : List Char → Nat
  | [] => 0
  | c :: cs => c.utf8Size + byteLength cs

@[simp] theorem byteLength_nil : byteLength [] = 0 := rfl

@[simp] theorem byteLength_cons (c : Char) (cs : List Char) :
    byteLength (c :: cs) = c.utf8Size + byteLength cs := rfl

@[simp] theorem byteLength_append (as bs : List Char) :
    byteLength (as ++ bs) = byteLength as + byteLength bs := by
  induction as with
  | nil => simp
  | cons a as ih => simp [ih, Nat.add_assoc]

/-- The text after its first `n` bytes. -/
def dropBytes (n : Nat) : List Char → List Char
  | [] => []
  | c :: cs => if n = 0 then c :: cs else dropBytes (n - c.utf8Size) cs

/-- The text of the first `n` bytes. -/
def takeBytes (n : Nat) : List Char → List Char
  | [] => []
  | c :: cs => if n = 0 then [] else c :: takeBytes (n - c.utf8Size) cs

/-- The text from byte `start` up to byte `stop`. -/
def slice (cs : List Char) (start stop : Nat) : List Char :=
  takeBytes (stop - start) (dropBytes start cs)

theorem dropBytes_append (as bs : List Char) : dropBytes (byteLength as) (as ++ bs) = bs := by
  induction as with
  | nil => cases bs <;> simp [dropBytes]
  | cons a as ih =>
    have hne : a.utf8Size ≠ 0 := Nat.ne_of_gt a.utf8Size_pos
    simp [dropBytes, hne, ih]

theorem takeBytes_append (as bs : List Char) : takeBytes (byteLength as) (as ++ bs) = as := by
  induction as with
  | nil => cases bs <;> simp [takeBytes]
  | cons a as ih =>
    have hne : a.utf8Size ≠ 0 := Nat.ne_of_gt a.utf8Size_pos
    simp [takeBytes, hne, ih]

theorem slice_append (as bs cs : List Char) :
    slice (as ++ bs ++ cs) (byteLength as) (byteLength (as ++ bs)) = bs := by
  rw [slice, List.append_assoc, dropBytes_append, byteLength_append, Nat.add_sub_cancel_left,
    takeBytes_append]

theorem utf8ByteSize_eq (s : String) : s.utf8ByteSize = byteLength s.toList := by
  have h : ∀ cs : List Char, (String.ofList cs).utf8ByteSize = byteLength cs := by
    intro cs
    induction cs with
    | nil => simp
    | cons c cs ih =>
      rw [← List.singleton_append, String.ofList_append, String.utf8ByteSize_append, ih]
      simp
  rw [← h, String.ofList_toList]

/-! ### Where things stand in a text -/

/-- `word` stands in the text at byte `index`. -/
def StandsAt (cs : List Char) (index : Nat) (word : List Char) : Prop :=
  ∃ before after, cs = before ++ word ++ after ∧ byteLength before = index

/-- Byte `n` lies between two characters of the text or at one of its ends. -/
def IsOffset (cs : List Char) (n : Nat) : Prop :=
  ∃ before after, cs = before ++ after ∧ byteLength before = n

theorem eq_nil_of_byteLength_eq_zero {cs : List Char} (h : byteLength cs = 0) : cs = [] := by
  cases cs with
  | nil => rfl
  | cons c cs => have := c.utf8Size_pos; simp at h; omega

namespace StandsAt

variable {cs word : List Char} {index : Nat}

theorem slice_eq (h : StandsAt cs index word) :
    slice cs index (index + byteLength word) = word := by
  obtain ⟨before, after, rfl, rfl⟩ := h
  rw [← byteLength_append, slice_append]

theorem stop_le (h : StandsAt cs index word) : index + byteLength word ≤ byteLength cs := by
  obtain ⟨before, after, rfl, rfl⟩ := h
  simp only [byteLength_append]
  omega

theorem isOffset_start (h : StandsAt cs index word) : IsOffset cs index := by
  obtain ⟨before, after, rfl, rfl⟩ := h
  exact ⟨before, word ++ after, by simp, rfl⟩

theorem isOffset_stop (h : StandsAt cs index word) : IsOffset cs (index + byteLength word) := by
  obtain ⟨before, after, rfl, rfl⟩ := h
  exact ⟨before ++ word, after, rfl, by simp⟩

end StandsAt

theorem standsAt_slice {cs : List Char} {start stop : Nat} (hstart : IsOffset cs start)
    (hstop : IsOffset cs stop) (hle : start ≤ stop) :
    StandsAt cs start (slice cs start stop) ∧ start + byteLength (slice cs start stop) = stop := by
  obtain ⟨before, after, rfl, rfl⟩ := hstart
  obtain ⟨before', after', heq, rfl⟩ := hstop
  obtain ⟨mid, rfl, rfl⟩ | ⟨mid, rfl, rfl⟩ := List.append_eq_append_iff.1 heq
  · rw [← List.append_assoc, slice_append]
    exact ⟨⟨before, after', rfl, rfl⟩, by simp⟩
  · have hmid : mid = [] :=
      eq_nil_of_byteLength_eq_zero (by rw [byteLength_append] at hle; omega)
    have hslice : slice (before' ++ after) (byteLength before') (byteLength before') = [] := by
      simpa using slice_append before' [] after
    simp only [hmid, List.append_nil, hslice]
    exact ⟨⟨before', after, by simp, rfl⟩, rfl⟩

theorem slice_append_left {as bs : List Char} {start stop : Nat} (hstart : IsOffset as start)
    (hstop : IsOffset as stop) (hle : start ≤ stop) :
    slice (as ++ bs) start stop = slice as start stop := by
  obtain ⟨⟨before, after, heq, hbefore⟩, hstop'⟩ := standsAt_slice hstart hstop hle
  have hat : StandsAt (as ++ bs) start (slice as start stop) :=
    ⟨before, after ++ bs, by rw [← List.append_assoc, ← heq], hbefore⟩
  rw [← hat.slice_eq, hstop']

theorem slice_append_right (as bs : List Char) (start stop : Nat) :
    slice (as ++ bs) (byteLength as + start) (byteLength as + stop) = slice bs start stop := by
  have hdrop : dropBytes (byteLength as + start) (as ++ bs) = dropBytes start bs := by
    induction as with
    | nil => simp
    | cons a as ih =>
      have hpos := a.utf8Size_pos
      rw [List.cons_append, dropBytes, if_neg (by simp only [byteLength_cons]; omega), ← ih]
      congr 1
      simp only [byteLength_cons]
      omega
  rw [slice, slice, hdrop]
  congr 1
  omega

end CasualDate.Text
