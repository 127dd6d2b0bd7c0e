import CasualDate.CommandLine.Run
import CasualDate.Proofs.Finder.Forward
import CasualDate.Proofs.Finder.Offered
import CasualDate.Proofs.Reading.SpellsOut
import CasualDate.Proofs.Resolver.Ahead
import CasualDate.Proofs.Text.Columns

/-!
# The listing of candidates

The candidates of a text are written as a table of four columns, with a line for each candidate. All
columns but the text of the candidate are free of tabs and line feeds, and none of them is missing:
what is found has a date and spells out a field. So the table is read back exactly if no candidate has
a tab or a line feed in its text (`Options.rows_listing_iff`), where any space can stand between
words.
-/

namespace CasualDate

namespace Finder

variable {ctx : Context} {cs : List Candidate} {c : Candidate}

theorem exists_isCertain_of_mem_offers (h : c ∈ (Finder.mk Recognizer.builtin).offers ctx) :
    ∃ f, c.fields.isCertain f = true := by
  rw [offers_eq] at h
  rcases List.mem_append.1 h with h | h
  · obtain ⟨e, value, hfound, heq⟩ := Step.exists_found_of_mem_filterMap h
    obtain ⟨_, _, _, _, -, hread, -⟩ :=
      (Step.scans_scanFrom ctx.text.toList ctx.reference _).exists_of_found_mem hfound
    obtain ⟨f, hf⟩ := MomentExpr.spellsOut_of_reads hread.reads
    have hcertain := (Components.isCertain_ofStated (t := value) (s := e.stated) f).trans hf
    exact ⟨f, by rw [heq]; exact hcertain⟩
  · obtain ⟨r, hr, h⟩ := List.mem_flatMap.1 h
    obtain ⟨m, -, fields, hfields, rfl⟩ := Recognizer.mem_offers.1 h
    obtain ⟨day, month, rfl⟩ := Recognizer.exists_of_mem_builtin hr hfields
    exact ⟨.day, rfl⟩

theorem exists_isCertain_of_mem_find (h : (Finder.mk Recognizer.builtin).find ctx = .ok cs)
    (hc : c ∈ cs) : ∃ f, c.fields.isCertain f = true := by
  obtain ⟨-, rfl⟩ := find_eq_ok_iff.1 h
  rw [settle_eq] at hc
  obtain ⟨d, hd, rfl⟩ := List.mem_map.1 hc
  obtain ⟨f, hf⟩ := exists_isCertain_of_mem_offers (mem_of_mem_collapse_ordered hd).1
  refine ⟨f, ?_⟩
  unfold Candidate.settled
  split
  · rw [Candidate.isCertain_forward]
    exact hf
  · exact hf

end Finder

/-! ### Columns -/

namespace Text

variable {s t : String} {c : Char} {n width : Nat}

theorem IsColumn.append (hs : IsColumn s) (ht : IsColumn t) : IsColumn (s ++ t) := by
  intro c hc
  rcases List.mem_append.1 (String.toList_append ▸ hc) with hc | hc
  · exact hs c hc
  · exact ht c hc

theorem isInColumn_of_isDigit (h : c.isDigit = true) : IsInColumn c := by
  have hall : digits.all (fun c => decide (IsInColumn c)) = true := by decide
  exact of_decide_eq_true (of_isDigit hall h)

theorem isColumn_decimal (n : Nat) : IsColumn (toString n) := by
  intro c hc
  have hdigit : c ∈ decimal n := by
    rw [decimal, ← Nat.toList_repr]
    exact hc
  exact isInColumn_of_isDigit (isDigit_of_mem_decimal hdigit)

theorem isInColumn_padded (width n : Nat) : ∀ c ∈ padded width n, IsInColumn c :=
  fun _ hc => isInColumn_of_isDigit (isDigit_of_mem_padded hc)

theorem isInColumn_paddedInt (width : Nat) (n : Int) : ∀ c ∈ paddedInt width n, IsInColumn c := by
  cases n with
  | ofNat n => exact isInColumn_padded width n
  | negSucc n => exact List.forall_mem_cons.2 ⟨by decide, isInColumn_padded _ _⟩

theorem isInColumn_paddedSigned (width : Nat) (n : Int) :
    ∀ c ∈ paddedSigned width n, IsInColumn c := by
  cases n with
  | ofNat n => exact List.forall_mem_cons.2 ⟨by decide, isInColumn_padded _ _⟩
  | negSucc n => exact List.forall_mem_cons.2 ⟨by decide, isInColumn_padded _ _⟩

end Text

open Text

theorem Date.isColumn_iso (d : Date) : IsColumn d.iso := by
  rw [IsColumn, iso, String.toList_ofList]
  simp only [List.forall_mem_append, List.forall_mem_cons]
  refine ⟨⟨?_, by decide, isInColumn_padded _ _⟩, by decide, isInColumn_padded _ _⟩
  split
  · exact isInColumn_paddedInt _ _
  · exact isInColumn_paddedSigned _ _

theorem TimeOfDay.isColumn_iso (t : TimeOfDay) : IsColumn t.iso := by
  rw [IsColumn, iso, String.toList_ofList]
  simp only [List.forall_mem_append, List.forall_mem_cons]
  refine ⟨⟨⟨isInColumn_padded _ _, by decide, isInColumn_padded _ _⟩, by decide,
    isInColumn_padded _ _⟩, ?_⟩
  split
  · exact List.forall_mem_nil _
  · split
    · exact List.forall_mem_cons.2 ⟨by decide, isInColumn_padded _ _⟩
    · split
      · exact List.forall_mem_cons.2 ⟨by decide, isInColumn_padded _ _⟩
      · exact List.forall_mem_cons.2 ⟨by decide, isInColumn_padded _ _⟩

theorem Field.isColumn_name (f : Field) : IsColumn f.name := by
  cases f <;> decide

/-- The date and the time of day as `2024-04-17T10:30:00`. -/
def Instant.timestamp (t : Instant) : String :=
  t.date.iso ++ "T" ++ t.time.iso

theorem Instant.isColumn_timestamp (t : Instant) : IsColumn t.timestamp :=
  (t.date.isColumn_iso.append (by decide)).append t.time.isColumn_iso

namespace Candidate

variable {c : Candidate}

/-- Where the candidate stands, its text, its date, and the fields that are stated. -/
def columns (c : Candidate) : List String :=
  [toString c.index, c.text, (c.date?.map Instant.timestamp).getD "",
    ",".intercalate (c.fields.certainFields.map Field.name)]

theorem isColumn_of_mem_columns (htext : IsColumn c.text) : ∀ cell ∈ c.columns, IsColumn cell := by
  have hdate : IsColumn ((c.date?.map Instant.timestamp).getD "") := by
    cases c.date? with
    | none => decide
    | some t => exact t.isColumn_timestamp
  have hfields : IsColumn (",".intercalate (c.fields.certainFields.map Field.name)) := by
    have hbetween : IsColumn "," := by decide
    refine forall_mem_intercalate hbetween fun name hname => ?_
    obtain ⟨f, -, rfl⟩ := List.mem_map.1 hname
    exact f.isColumn_name
  simp only [columns, List.forall_mem_cons]
  exact ⟨isColumn_decimal _, htext, hdate, hfields, List.forall_mem_nil _⟩

end Candidate

namespace CommandLine

variable {c : Candidate}

theorem candidateLine_eq (h : ∃ f, c.fields.isCertain f = true) :
    candidateLine c = writeRow c.columns := by
  obtain ⟨f, hf⟩ := h
  have hmem : f ∈ c.fields.certainFields := by
    refine List.mem_filter.2 ⟨?_, hf⟩
    cases f <;> decide
  unfold candidateLine Candidate.columns
  cases hfields : c.fields.certainFields with
  | nil => exact absurd (hfields ▸ hmem) List.not_mem_nil
  | cons g gs =>
    cases c.date? <;> rfl

namespace Options

/-- The dates that the listing is about. -/
def found (o : Options) (now : Instant) : Except Failure (List Candidate) :=
  (o.resolver now).finder.find { text := o.text, reference := now, now }

variable {o : Options} {now : Instant} {cs : List Candidate}

theorem stdout_listCandidates (h : o.found now = .ok cs) :
    (o.listCandidates now).stdout = "".intercalate ((cs.map Candidate.columns).map writeRow) := by
  have hout : (o.listCandidates now).stdout = "".intercalate (cs.map candidateLine) := by
    unfold found at h
    rw [listCandidates, h]
  have hfinder : (o.resolver now).finder = ⟨Recognizer.builtin⟩ := Resolver.finder_build _ _ _
  rw [found, hfinder] at h
  rw [hout, List.map_map]
  exact congrArg _ (List.map_congr_left fun c hc =>
    candidateLine_eq (Finder.exists_isCertain_of_mem_find h hc))

theorem stdout_listCandidates_of_error {failure : Failure} (h : o.found now = .error failure) :
    (o.listCandidates now).stdout = "" := by
  unfold found at h
  rw [listCandidates, h]
  cases failure <;> rfl

/-- The table of the candidates is read back exactly if each text is a column. -/
theorem rows_listCandidates_iff (h : o.found now = .ok cs) :
    rows (o.listCandidates now).stdout = cs.map Candidate.columns ↔ ∀ c ∈ cs, IsColumn c.text := by
  rw [stdout_listCandidates h]
  constructor
  · intro hrows c hc
    have hrow : c.columns ∈ cs.map Candidate.columns := List.mem_map_of_mem hc
    rw [← hrows] at hrow
    exact isColumn_of_mem_rows hrow (List.mem_cons_of_mem _ List.mem_cons_self)
  · intro htext
    refine rows_writeRow ?_ ?_
    · intro row hrow
      obtain ⟨c, -, rfl⟩ := List.mem_map.1 hrow
      exact List.cons_ne_nil _ _
    · intro row hrow
      obtain ⟨c, hc, rfl⟩ := List.mem_map.1 hrow
      exact Candidate.isColumn_of_mem_columns (htext c hc)

/-- The listing is read back, a line for each candidate and a column for each part of it, exactly if no
candidate has a tab or a line feed in its text. Nothing is written where the search breaks down. -/
theorem rows_listing_iff (ho : o.candidates = true) (now : Instant) :
    (∃ failure, o.found now = .error failure ∧ (o.runAt now).stdout = "") ∨
      ∃ cs, o.found now = .ok cs ∧
        (rows (o.runAt now).stdout = cs.map Candidate.columns ↔ ∀ c ∈ cs, IsColumn c.text) := by
  rw [runAt, if_pos ho]
  cases h : o.found now with
  | error failure => exact .inl ⟨failure, rfl, stdout_listCandidates_of_error h⟩
  | ok cs => exact .inr ⟨cs, rfl, rows_listCandidates_iff h⟩

/-- "lunch next friday then Christmas" -/
theorem rows_listing_lunch :
    let now : Instant := ⟨⟨738993, by decide, by decide⟩, ⟨10, 30, 0, 0, by decide, by decide,
      by decide, by decide⟩⟩
    let o : Options := ⟨"YYYY-MM-DD", .sunday, "en", .gregorian, some now, none, true,
      "lunch next friday then Christmas"⟩
    let friday : Candidate :=
      ⟨6, "next friday", .ofStated ⟨⟨739002, by decide, by decide⟩, now.time⟩ { weekday := true },
        .grammar⟩
    let christmas : Candidate :=
      ⟨23, "Christmas", ((Components.ofInstant now).assign .day 25).assign .month 12,
        .recognizer "holiday"⟩
    o.candidates = true ∧ o.found now = .ok [friday, christmas] ∧
      rows (o.runAt now).stdout = [friday.columns, christmas.columns] := by
  intro now o friday christmas
  have hproposed : (o.resolver now).finder.proposals { text := o.text, reference := now, now } =
      .ok [friday, christmas] := by decide +kernel
  have hfound : o.found now = .ok [friday, christmas] := by
    rw [found, Finder.find_of_proposals hproposed (by decide +kernel) (by decide)]
    decide +kernel
  have htext : ∀ c ∈ [friday, christmas], IsColumn c.text := by decide +kernel
  rcases rows_listing_iff (o := o) rfl now with ⟨failure, herror, -⟩ | ⟨cs, hcs, hiff⟩
  · rw [hfound] at herror
    cases herror
  · rw [hfound] at hcs
    cases hcs
    exact ⟨rfl, hfound, hiff.2 htext⟩

/-- A tab between the words of a candidate makes a fifth column of it. -/
theorem rows_listing_tab :
    let now : Instant := ⟨⟨738993, by decide, by decide⟩, ⟨10, 30, 0, 0, by decide, by decide,
      by decide, by decide⟩⟩
    let friday : Candidate :=
      ⟨0, "next\tfriday", .ofStated ⟨⟨739002, by decide, by decide⟩, now.time⟩ { weekday := true },
        .grammar⟩
    let args := ["--now", "2024-04-17T10:30:00", "--candidates", "next\tfriday"]
    (Finder.mk Recognizer.builtin).find { text := "next\tfriday", reference := now, now } =
        .ok [friday] ∧
      friday.columns = ["0", "next\tfriday", "2024-04-26T10:30:00", "weekday"] ∧
      rows (CommandLine.run args ⟨now, fun _ => none⟩).stdout =
        [["0", "next", "friday", "2024-04-26T10:30:00", "weekday"]] ∧
      rows (CommandLine.run args ⟨now, fun _ => none⟩).stdout ≠ [friday.columns] := by
  decide +kernel

end Options

end CommandLine

end CasualDate
