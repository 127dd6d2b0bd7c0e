import CasualDate.Layout
import CasualDate.Ordinal
import CasualDate.Proofs.Reckoning.Lawful
import CasualDate.Proofs.Word.OfRun

/-!
# Reading what a pattern writes

A field is written as a number, a number with its ordinal suffix or one of the names below, so it
stands for one or two words whatever follows, as long as that is no letter or digit. A pattern that
keeps its fields apart is therefore read back word by word (`words_render`).
-/

namespace CasualDate.Layout

/-- The character can stand beside a letter or digit without prolonging its run. -/
def isGap (c : Char) : Bool :=
  Token.kindOf c ≠ .letter ∧ Token.kindOf c ≠ .digit

/-- The month with a number from 1 to 12. -/
def monthOf (n : Nat) : Month :=
  Month.all.getD (n - 1) .january

/-- The names that fields are written by, with the words that they are. -/
def names : List (List Char × Word) :=
  (Month.all.flatMap fun m =>
    [(m.name.toList, .month m), (m.name.toList.take 3, .month m)]) ++
  ([.sunday, .monday, .tuesday, .wednesday, .thursday, .friday, .saturday].flatMap fun d =>
    [(d.name.toList, .weekday d), (d.name.toList.take 3, .weekday d)]) ++
  [(['A', 'M'], .meridiem .am), (['a', 'm'], .meridiem .am), (['P', 'M'], .meridiem .pm),
    (['p', 'm'], .meridiem .pm)]

/-- How a field is written, and the words that it is read as. -/
inductive Written : List Char → List Word → Prop where
  | number (width n : Nat) : Written (Text.padded width n) [.ofNat n]
  | ordinal (n : Nat) {suffix : List Char} (h : suffix ∈ Ordinal.suffixes) :
    Written (Text.decimal n ++ suffix) [.ofNat n, .ordinalSuffix]
  | name {run : List Char} {w : Word} (h : (run, w) ∈ names) : Written run [w]

/-- A run of letters that is one word. -/
structure IsWord (run : List Char) (w : Word) : Prop where
  ne_nil : run ≠ []
  letters : ∀ c ∈ run, Token.kindOf c = .letter
  ofRun : Word.ofRun run = w

theorem isWord_of_mem_names {run : List Char} {w : Word} (h : (run, w) ∈ names) : IsWord run w := by
  have hall : ∀ entry ∈ names, entry.1 ≠ [] ∧
      entry.1.all (fun c => Token.kindOf c = .letter) = true ∧ Word.ofRun entry.1 = entry.2 := by
    decide +kernel
  obtain ⟨hne, hletters, hrun⟩ := hall _ h
  exact ⟨hne, by simpa using hletters, hrun⟩

theorem isWord_of_mem_suffixes {suffix : List Char} (h : suffix ∈ Ordinal.suffixes) :
    IsWord suffix .ordinalSuffix := by
  have hall : ∀ suffix ∈ Ordinal.suffixes, suffix ≠ [] ∧
      suffix.all (fun c => Token.kindOf c = .letter) = true ∧
        Word.ofRun suffix = .ordinalSuffix := by
    decide +kernel
  obtain ⟨hne, hletters, hrun⟩ := hall _ h
  exact ⟨hne, by simpa using hletters, hrun⟩

theorem IsWord.words {run rest : List Char} {w : Word} (h : IsWord run w)
    (hrest : ∀ c ∈ rest.head?, isGap c = true) :
    Token.words (run ++ rest) = w :: Token.words rest := by
  have hletter : ∀ c ∈ rest.head?, Token.kindOf c ≠ .letter := fun c hc =>
    (by simpa [isGap] using hrest c hc : _ ∧ _).1
  rw [Token.words_run h.ne_nil h.letters (by simp) (by simp) hletter, h.ofRun]

namespace Written

variable {cs rest : List Char} {ws : List Word}

theorem words (h : Written cs ws) (hrest : ∀ c ∈ rest.head?, isGap c = true) :
    Token.words (cs ++ rest) = ws ++ Token.words rest := by
  cases h with
  | number width n =>
    exact Token.words_padded fun c hc => (by simpa [isGap] using hrest c hc : _ ∧ _).2
  | @ordinal n suffix hsuffix =>
    have hword := isWord_of_mem_suffixes hsuffix
    have hletter : ∀ c ∈ (suffix ++ rest).head?, Token.kindOf c ≠ .digit := by
      obtain ⟨d, ds, rfl⟩ := List.exists_cons_of_ne_nil hword.ne_nil
      simp [hword.letters d (by simp)]
    rw [← Text.padded_zero, List.append_assoc, Token.words_padded hletter, hword.words hrest]
    rfl
  | name hname => exact (isWord_of_mem_names hname).words hrest

theorem ne_nil (h : Written cs ws) : cs ≠ [] := by
  cases h with
  | number => exact Text.padded_ne_nil
  | ordinal => simp [Text.decimal_ne_nil]
  | name hname => exact (isWord_of_mem_names hname).ne_nil

theorem kindOf_ne_separator (h : Written cs ws) {c : Char} (hc : c ∈ cs) :
    Token.kindOf c ≠ .separator := by
  cases h with
  | number => simp [Token.kindOf_of_isDigit (Text.isDigit_of_mem_padded hc)]
  | ordinal n hsuffix =>
    rcases List.mem_append.1 hc with hc | hc
    · simp [Token.kindOf_of_isDigit (Text.isDigit_of_mem_decimal hc)]
    · simp [(isWord_of_mem_suffixes hsuffix).letters c hc]
  | name hname => simp [(isWord_of_mem_names hname).letters c hc]

end Written

/-! ### Fields -/

def Field.words (t : Instant) : Field → List Word
  | year => [.ofNat t.date.year.toNat]
  | shortYear => [.ofNat (t.date.year % 100).toNat]
  | monthName | shortMonthName => [.month (monthOf t.date.month)]
  | paddedMonth | month => [.ofNat t.date.month]
  | paddedDay | day => [.ofNat t.date.day]
  | dayWithSuffix => [.ofNat t.date.day, .ordinalSuffix]
  | weekdayName | shortWeekdayName => [.weekday t.date.weekday]
  | weekdayNumber => [.ofNat t.date.weekday.index]
  | paddedHour | hour => [.ofNat t.time.hour]
  | paddedHour12 | hour12 => [.ofNat (clockHour t.time.hour)]
  | paddedMinute | minute => [.ofNat t.time.minute]
  | paddedSecond | second => [.ofNat t.time.clockSecond]
  | upperMeridiem | lowerMeridiem => [.meridiem (if t.time.hour < 12 then .am else .pm)]

theorem written_decimal (n : Nat) : Written (Text.decimal n) [.ofNat n] := by
  rw [← Text.padded_zero]
  exact .number 0 n

theorem ordinalSuffix_mem (n : Nat) : (ordinalSuffix n).toList ∈ Ordinal.suffixes := by
  unfold ordinalSuffix
  split
  · decide
  · split <;> decide

theorem monthName_mem {n : Nat} (hpos : 1 ≤ n) (hle : n ≤ 12) :
    ((Calendar.gregorian.monthName n).toList, Word.month (monthOf n)) ∈ names ∧
      ((Calendar.gregorian.monthName n).toList.take 3, Word.month (monthOf n)) ∈ names := by
  have hall : ∀ n ∈ List.range' 1 12,
      ((Calendar.gregorian.monthName n).toList, Word.month (monthOf n)) ∈ names ∧
        ((Calendar.gregorian.monthName n).toList.take 3, Word.month (monthOf n)) ∈ names := by
    decide +kernel
  exact hall n (List.mem_range'_1.2 ⟨hpos, Nat.lt_succ_of_le hle⟩)

theorem weekdayName_mem (d : Weekday) :
    (d.name.toList, Word.weekday d) ∈ names ∧ (d.name.toList.take 3, Word.weekday d) ∈ names := by
  cases d <;> decide +kernel

theorem Field.written {t : Instant} (hyear : 0 ≤ t.date.year) (f : Field) :
    Written (f.render .gregorian t.date.civil t) (f.words t) := by
  have hmonth := monthName_mem t.date.month_pos t.date.month_le
  have hday := weekdayName_mem t.date.weekday
  cases f with
  | year =>
    have hnat : t.date.civil.year = Int.ofNat t.date.year.toNat := (Int.toNat_of_nonneg hyear).symm
    rw [render, hnat]
    exact .number 4 _
  | shortYear | paddedMonth | paddedDay | paddedHour | paddedHour12 | paddedMinute |
    paddedSecond => exact .number 2 _
  | month | day | weekdayNumber | hour | hour12 | minute | second => exact written_decimal _
  | dayWithSuffix => exact .ordinal _ (ordinalSuffix_mem _)
  | monthName => exact .name hmonth.1
  | shortMonthName => exact .name hmonth.2
  | weekdayName => exact .name hday.1
  | shortWeekdayName => exact .name hday.2
  | upperMeridiem =>
    rw [render, words]
    split
    · exact .name (by decide)
    · exact .name (by decide)
  | lowerMeridiem =>
    rw [render, words]
    split
    · exact .name (by decide)
    · exact .name (by decide)

/-! ### Patterns -/

/-- The fields are kept apart by text without letters and digits. -/
def keepsApart : List Piece → Bool
  | [] => true
  | .text cs :: ps => cs.all isGap && keepsApart ps
  | .field _ :: ps =>
    (match ps with
      | [] => true
      | .field _ :: _ => false
      | .text cs :: _ => !cs.isEmpty) && keepsApart ps

def Piece.words (t : Instant) : Piece → List Word
  | .field f => f.words t
  | .text cs => Token.words cs

theorem words_append_of_isGap {cs rest : List Char} (h : ∀ c ∈ cs, isGap c = true) :
    Token.words (cs ++ rest) = Token.words cs ++ Token.words rest := by
  induction cs with
  | nil => simp
  | cons c cs ih =>
    obtain ⟨hc, hcs⟩ := List.forall_mem_cons.1 h
    rw [List.cons_append]
    cases hk : Token.kindOf c with
    | separator => rw [Token.words_separator hk, Token.words_separator hk, ih hcs]
    | mark w => rw [Token.words_mark hk, Token.words_mark hk, ih hcs, List.cons_append]
    | letter | digit => simp [isGap, hk] at hc

theorem exists_text_of_keepsApart {f : Field} {ps : List Piece} (h : keepsApart (.field f :: ps) = true)
    (t : Instant) {c : Char}
    (hc : (ps.flatMap (·.render .gregorian t.date.civil t)).head? = some c) :
    ∃ cs, .text cs ∈ ps ∧ c ∈ cs ∧ isGap c = true := by
  cases ps with
  | nil => cases hc
  | cons q ps =>
    cases q with
    | field => simp [keepsApart] at h
    | text cs =>
      cases cs with
      | nil => simp [keepsApart] at h
      | cons d ds =>
        obtain rfl : d = c := by simpa [Piece.render] using hc
        simp only [keepsApart, List.all_cons, Bool.and_eq_true] at h
        exact ⟨d :: ds, by simp, by simp, h.2.1.1⟩

/-- A pattern that keeps its fields apart is read back word by word. -/
theorem words_render {t : Instant} (hyear : 0 ≤ t.date.year) {ps : List Piece}
    (h : keepsApart ps = true) :
    Token.words (ps.flatMap (·.render .gregorian t.date.civil t)) = ps.flatMap (·.words t) := by
  induction ps with
  | nil => simp
  | cons p ps ih =>
    rw [List.flatMap_cons, List.flatMap_cons]
    cases p with
    | text cs =>
      simp only [keepsApart, Bool.and_eq_true, List.all_eq_true] at h
      rw [← ih h.2]
      exact words_append_of_isGap h.1
    | field f =>
      have hps : keepsApart ps = true := (Bool.and_eq_true_iff.1 h).2
      rw [← ih hps]
      refine (f.written hyear).words fun c hc => ?_
      obtain ⟨-, -, -, hgap⟩ := exists_text_of_keepsApart h t hc
      exact hgap

end CasualDate.Layout
