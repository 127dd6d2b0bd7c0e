import CasualDate.Text.Decimal

/-!
# Lines and columns

A table is written as a line for each row, with a tab between the columns. It is read back if no
column holds a tab or a line feed (`rows_writeRow`). A column that does is never read back, whatever
was written: what is cut at a character does not hold it (`isColumn_of_mem_rows`).
-/

namespace CasualDate.Text

/-- The text cut at each of a character. -/
def cutAt (mark : Char) (s : String) : List String :=
  (s.toList.splitOn mark).map String.ofList

/-- The lines of a text, each of which ends with a line feed. Text behind the last one is a line too. -/
def lines (s : String) : List String :=
  if (cutAt '\n' s).getLast? = some "" then (cutAt '\n' s).dropLast else cutAt '\n' s

/-- The columns of each line. -/
def rows (s : String) : List (List String) :=
  (lines s).map (cutAt '\t')

/-- Whether the character is neither a tab nor a line feed. -/
def IsInColumn (c : Char) : Prop :=
  c ≠ '\t' ∧ c ≠ '\n'
deriving Decidable

/-- Neither a tab nor a line feed is in the text. -/
def IsColumn (s : String) : Prop :=
  ∀ c ∈ s.toList, IsInColumn c

instance (s : String) : Decidable (IsColumn s) :=
  List.decidableBAll IsInColumn s.toList

/-- The columns as a line. -/
def writeRow (row : List String) : String :=
  "\t".intercalate row ++ "\n"

variable {s cell : String} {row : List String} {table : List (List String)} {mark : Char}

/-! ### Cutting -/

theorem of_mem_splitOn {α : Type} [BEq α] [LawfulBEq α] {a : α} {xs piece : List α}
    (h : piece ∈ xs.splitOn a) : ∀ x ∈ piece, x ≠ a ∧ x ∈ xs := by
  induction xs generalizing piece with
  | nil =>
    rw [List.splitOn_nil, List.mem_singleton] at h
    subst h
    exact List.forall_mem_nil _
  | cons y ys ih =>
    have hbehind {piece : List α} (h : piece ∈ ys.splitOn a) :
        ∀ x ∈ piece, x ≠ a ∧ x ∈ y :: ys :=
      fun x hx => ⟨(ih h x hx).1, List.mem_cons_of_mem y (ih h x hx).2⟩
    rw [List.splitOn_cons_eq_if_modifyHead] at h
    split at h
    · rcases List.mem_cons.1 h with rfl | h
      · exact List.forall_mem_nil _
      · exact hbehind h
    · next hne =>
      obtain ⟨first, others, hsplit⟩ := List.exists_cons_of_ne_nil (List.splitOn_ne_nil a ys)
      rw [hsplit] at hbehind
      rw [hsplit, List.modifyHead_cons, List.mem_cons] at h
      rcases h with rfl | h
      · rw [List.forall_mem_cons]
        exact ⟨⟨by simpa using hne, List.mem_cons_self⟩, hbehind List.mem_cons_self⟩
      · exact hbehind (List.mem_cons_of_mem first h)

theorem of_mem_cutAt (h : cell ∈ cutAt mark s) : ∀ c ∈ cell.toList, c ≠ mark ∧ c ∈ s.toList := by
  obtain ⟨piece, hpiece, rfl⟩ := List.mem_map.1 h
  rw [String.toList_ofList]
  exact of_mem_splitOn hpiece

theorem mem_cutAt_of_mem_lines {line : String} (h : line ∈ lines s) : line ∈ cutAt '\n' s := by
  unfold lines at h
  split at h
  · exact (List.dropLast_subset _) h
  · exact h

theorem isColumn_of_mem_rows (hrow : row ∈ rows s) (hcell : cell ∈ row) : IsColumn cell := by
  intro c hc
  obtain ⟨line, hline, rfl⟩ := List.mem_map.1 hrow
  obtain ⟨htab, hmem⟩ := of_mem_cutAt hcell c hc
  obtain ⟨hfeed, -⟩ := of_mem_cutAt (mem_cutAt_of_mem_lines hline) c hmem
  exact ⟨htab, hfeed⟩

/-! ### Writing -/

theorem forall_mem_intercalate {p : Char → Prop} {between : String} {parts : List String}
    (hbetween : ∀ c ∈ between.toList, p c) (h : ∀ part ∈ parts, ∀ c ∈ part.toList, p c) :
    ∀ c ∈ (between.intercalate parts).toList, p c := by
  match parts with
  | [] => simp
  | [part] => simpa using h
  | part :: next :: parts =>
    rw [List.forall_mem_cons] at h
    have hrest := forall_mem_intercalate hbetween h.2
    intro c hc
    simp only [String.intercalate_cons_cons, String.toList_append, List.mem_append] at hc
    rcases hc with (hc | hc) | hc
    · exact h.1 c hc
    · exact hbetween c hc
    · exact hrest c hc

theorem cutAt_intercalate (hne : row ≠ []) (h : ∀ cell ∈ row, IsColumn cell) :
    cutAt '\t' ("\t".intercalate row) = row := by
  have hcells : ∀ cell ∈ row.map String.toList, '\t' ∉ cell := by
    intro _ hmem htab
    obtain ⟨cell, hcell, rfl⟩ := List.mem_map.1 hmem
    exact (h cell hcell '\t' htab).1 rfl
  have htoList : ("\t".intercalate row).toList = ['\t'].intercalate (row.map String.toList) :=
    String.toList_intercalate
  rw [cutAt, htoList, List.splitOn_intercalate '\t' hcells (by simpa using hne), List.map_map]
  simp [Function.comp_def]

theorem cutAt_append {front : String} (back : String) (h : mark ∉ front.toList) :
    cutAt mark (front ++ String.singleton mark ++ back) = front :: cutAt mark back := by
  have htoList : (front ++ String.singleton mark ++ back).toList =
      front.toList ++ mark :: back.toList := by simp
  rw [cutAt, htoList, List.splitOn_append_cons_self_of_not_mem h, List.map_cons, String.ofList_toList]
  rfl

theorem intercalate_empty_cons (s : String) (rest : List String) :
    "".intercalate (s :: rest) = s ++ "".intercalate rest := by
  cases rest <;> simp

/-- Each line ends where the next one begins, and nothing is behind the last one. -/
theorem cutAt_writeRow (h : ∀ row ∈ table, ∀ cell ∈ row, IsColumn cell) :
    cutAt '\n' ("".intercalate (table.map writeRow)) = table.map ("\t".intercalate ·) ++ [""] := by
  induction table with
  | nil => rfl
  | cons row table ih =>
    rw [List.forall_mem_cons] at h
    have hline : '\n' ∉ ("\t".intercalate row).toList := by
      intro hfeed
      have hbetween : ∀ c ∈ "\t".toList, c ≠ '\n' := by simp
      have hall := forall_mem_intercalate (p := (· ≠ '\n')) hbetween
        fun cell hcell c hc => (h.1 cell hcell c hc).2
      exact hall '\n' hfeed rfl
    rw [List.map_cons, intercalate_empty_cons, List.map_cons, List.cons_append, ← ih h.2]
    exact cutAt_append _ hline

theorem rows_writeRow (hne : ∀ row ∈ table, row ≠ [])
    (h : ∀ row ∈ table, ∀ cell ∈ row, IsColumn cell) :
    rows ("".intercalate (table.map writeRow)) = table := by
  have hlines : lines ("".intercalate (table.map writeRow)) = table.map ("\t".intercalate ·) := by
    rw [lines, cutAt_writeRow h, if_pos List.getLast?_concat, List.dropLast_concat]
  rw [rows, hlines, List.map_map]
  exact (List.map_congr_left fun row hrow => cutAt_intercalate (hne row hrow) (h row hrow)).trans
    (List.map_id table)

end CasualDate.Text
