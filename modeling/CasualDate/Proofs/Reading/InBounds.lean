import CasualDate.Layout
import CasualDate.Proofs.Expr.Alike
import CasualDate.Proofs.Reckoning.Named
import CasualDate.Proofs.Token.Placed

/-!
# Reading stays in bounds

Expressions are cut out of their text by tokens that were counted, and patterns by the letters of
fields and by brackets; numbers are added up word by word. Nothing of this leaves the text or the
pattern, and no number reaches the bound of counts (`ReadsInBounds`).
-/

namespace CasualDate

namespace Number

variable {ws : List Word} {k : Nat}

theorem value_lt_of_ones? {p : Parsed Nat ws} (h : ones? ws = some p) : p.value < 10 := by
  cases ws with
  | nil => cases h
  | cons w ws =>
    obtain ⟨n, hn, rfl⟩ := Option.map_eq_some_iff.1 h
    cases w with
    | literal | numeral =>
      obtain ⟨hlt, hn⟩ := Option.ite_none_right_eq_some.1 hn
      obtain rfl := Option.some.inj hn
      exact hlt
    | _ => cases hn

theorem value_lt_of_double? {p : Parsed Nat ws} (h : double? ws = some p) : p.value < 100 := by
  cases ws with
  | nil => cases h
  | cons w ws =>
    cases w with
    | numeral n =>
      have hnumeral : n.value ≤ 90 := by cases n <;> decide
      simp only [double?] at h
      split at h
      · cases h
        exact Nat.lt_of_le_of_lt hnumeral (by decide)
      · split at h
        · next ones hones =>
          cases h
          have := value_lt_of_ones? hones
          simp only [Parsed.widen, Parsed.map]
          omega
        · cases h
          exact Nat.lt_of_le_of_lt hnumeral (by decide)
    | literal n =>
      obtain ⟨hlt, hn⟩ := Option.ite_none_right_eq_some.1 h
      obtain rfl := Option.some.inj hn
      exact hlt
    | _ => cases h

theorem value_lt_of_hundreds? {p : Parsed Nat ws} (hk : k < 10) (h : hundreds? k ws = some p) :
    p.value < 1000 := by
  unfold hundreds? at h
  split at h
  · obtain ⟨q, hq, rfl⟩ := Option.map_eq_some_iff.1 h
    have := value_lt_of_double? hq
    simp only [Parsed.behind, Parsed.widen, Parsed.map]
    omega
  · split at h
    · next q hq =>
      cases h
      have := value_lt_of_double? hq
      simp only [Parsed.behind, Parsed.widen, Parsed.map]
      omega
    · cases h
      simp only [Parsed.ofHead]
      omega
  · cases h

theorem value_lt_of_triple? {p : Parsed Nat ws} (h : triple? ws = some p) : p.value < 1000 := by
  simp only [triple?, Option.orElse_eq_orElse, Option.orElse_eq_or, Option.or_eq_some_iff] at h
  rcases h with h | ⟨-, h | ⟨-, h | ⟨-, h⟩⟩⟩
  · obtain ⟨ones, hones, h⟩ := Option.bind_eq_some_iff.1 h
    obtain ⟨q, hq, rfl⟩ := Option.map_eq_some_iff.1 h
    have hlt := value_lt_of_hundreds? (value_lt_of_ones? hones) hq
    exact hlt
  · exact value_lt_of_hundreds? (by decide) h
  · exact Nat.lt_trans (value_lt_of_double? h) (by decide)
  · cases ws with
    | nil => cases h
    | cons w ws =>
      obtain ⟨n, hn, rfl⟩ := Option.map_eq_some_iff.1 h
      cases w with
      | literal =>
        obtain ⟨⟨-, hlt⟩, hn⟩ := Option.ite_none_right_eq_some.1 hn
        obtain rfl := Option.some.inj hn
        exact hlt
      | _ => cases hn

theorem value_lt_of_scaled? {p : Parsed Nat ws} (h : scaled? k ws = some p) :
    p.value < Text.countLimit := by
  rw [scaled?.eq_def] at h
  split at h
  · split at h
    · obtain ⟨n, -, rfl⟩ := Option.map_eq_some_iff.1 h
      exact n.isLt
    · cases h
  · split at h
    · obtain ⟨n, -, rfl⟩ := Option.map_eq_some_iff.1 h
      exact n.isLt
    · obtain ⟨n, -, rfl⟩ := Option.map_eq_some_iff.1 h
      exact n.isLt
  · cases h

theorem value_lt_of_parse? {p : Parsed Nat ws} (h : parse? ws = some p) :
    p.value < Text.countLimit := by
  simp only [parse?, Option.orElse_eq_orElse, Option.orElse_eq_or, Option.or_eq_some_iff] at h
  rcases h with h | ⟨-, h | ⟨-, h | ⟨-, h⟩⟩⟩
  · split at h
    · obtain ⟨q, hq, rfl⟩ := Option.map_eq_some_iff.1 h
      have hlt := value_lt_of_scaled? hq
      exact hlt
    · cases h
  · exact value_lt_of_scaled? h
  · exact Nat.lt_trans (value_lt_of_triple? h) (by decide)
  · cases ws with
    | nil => cases h
    | cons w ws =>
      obtain ⟨n, hn, rfl⟩ := Option.map_eq_some_iff.1 h
      cases w with
      | literal m =>
        obtain ⟨-, hn⟩ := Option.ite_none_right_eq_some.1 hn
        obtain rfl := Option.some.inj hn
        exact m.isLt
      | _ => cases hn

end Number

theorem DateExpr.lt_of_fullYear {reference : Int} {year full : Nat} (hyear : year < Text.countLimit)
    (h : fullYear reference year = .ok full) : full < Text.countLimit := by
  unfold fullYear at h
  unfold Text.countLimit at *
  split at h
  · cases h
    exact hyear
  · split at h
    · cases h
    · split at h <;> cases h <;> omega

theorem Layout.Field.byteLength_letters (f : Layout.Field) :
    Text.byteLength f.letters = f.letters.length := by
  cases f <;> rfl

/-- Expressions are cut out between characters, and so are the parts of a pattern; numbers stay
below their bounds. -/
structure ReadsInBounds (text pattern : String) : Prop where
  /-- The last token that an expression uses is one of the text's, and ends between characters. -/
  expression : ∀ t ts, t :: ts <:+ Token.lex text.toList →
    ∀ p, MomentExpr.parse? ((t :: ts).map Token.word) = some p →
      ∃ last, (t :: ts)[p.consumed - 1]? = some last ∧ Text.IsOffset text.toList t.start ∧
        Text.IsOffset text.toList last.stop ∧ t.start ≤ last.stop
  triple : ∀ ts, ts <:+ Token.lex text.toList →
    ∀ p, Number.triple? (ts.map Token.word) = some p → p.value < 1000
  number : ∀ ts, ts <:+ Token.lex text.toList →
    ∀ p, Number.parse? (ts.map Token.word) = some p → p.value < Text.countLimit
  /-- Years are completed within the bound, if the current year is not negative. -/
  year : ∀ today : Date, 0 ≤ today.year → today.year + 10 < Text.countLimit ∧
    ∀ ts, ts <:+ Token.lex text.toList → ∀ p, Number.parse? (ts.map Token.word) = some p →
      ∃ full, DateExpr.fullYear today.year p.value = .ok full ∧ full < Text.countLimit
  /-- A field is cut off by as many bytes as it has letters. -/
  field : ∀ cs, cs <:+ pattern.toList → ∀ f, Layout.Field.atStart? cs = some f →
    Text.StandsAt cs 0 f.letters ∧ Text.byteLength f.letters = f.letters.length
  /-- Text in brackets is cut out in front of the closing one, which is cut off as one byte. -/
  bracket : ∀ cs, '[' :: cs <:+ pattern.toList → ']' ∈ cs →
    Text.IsOffset ('[' :: cs) (1 + Text.byteLength (cs.takeWhile (· ≠ ']'))) ∧
      Text.IsOffset ('[' :: cs) (1 + Text.byteLength (cs.takeWhile (· ≠ ']')) + 1)

theorem readsInBounds (text pattern : String) : ReadsInBounds text pattern where
  expression t ts hsuffix p hp := by
    have hplaced := (Token.placed_lex text.toList).sublist hsuffix.sublist
    have hlt : p.consumed - 1 < (t :: ts).length := by
      have := p.consumed_pos
      have := p.consumed_le
      simp only [List.length_map] at this
      omega
    refine ⟨_, List.getElem?_eq_getElem hlt, hplaced.start t (by simp),
      hplaced.stop _ (List.getElem_mem hlt), hplaced.start_le_stop (List.getElem_mem hlt)⟩
  triple ts _ p hp := Number.value_lt_of_triple? hp
  number ts _ p hp := Number.value_lt_of_parse? hp
  year today hyear := by
    refine ⟨?_, fun ts _ p hp => ?_⟩
    · have := today.year_le
      unfold Text.countLimit
      omega
    · have hout : ¬(-10 ≤ today.year ∧ today.year < 0) := by omega
      obtain ⟨full, hfull⟩ := DateExpr.exists_fullYear p.value hout
      exact ⟨full, hfull, DateExpr.lt_of_fullYear (Number.value_lt_of_parse? hp) hfull⟩
  field cs _ f hf := by
    have hprefix : f.letters <+: cs := by
      simpa using List.find?_some hf
    obtain ⟨rest, rfl⟩ := hprefix
    exact ⟨⟨[], rest, rfl, rfl⟩, f.byteLength_letters⟩
  bracket cs _ hclose := by
    obtain ⟨inner, after, rfl, hopen⟩ := List.eq_append_cons_of_mem hclose
    have hinner : (inner ++ ']' :: after).takeWhile (· ≠ ']') = inner := by
      rw [List.takeWhile_append_of_pos fun c hc => by simpa using ne_of_mem_of_not_mem hc hopen]
      simp
    rw [hinner]
    have hstop : Text.byteLength ('[' :: inner ++ [']']) = 1 + Text.byteLength inner + 1 := by
      rw [Text.byteLength_append]
      rfl
    exact ⟨⟨'[' :: inner, ']' :: after, rfl, rfl⟩, ⟨'[' :: inner ++ [']'], after, by simp, hstop⟩⟩

end CasualDate
