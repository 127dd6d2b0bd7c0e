import CasualDate.Proofs.Layout.Written
import CasualDate.Proofs.Shape.Quiet

/-!
# Patterns whose output is read back

A pattern that goes from field to field, keeps its fields apart and writes nothing else that could
be part of a special shape is `Readable`: what it writes is filled by its words, they are the words
of its pieces, and it has no special shape (`format_spec`).
-/

namespace CasualDate.Layout

open Shape

def Piece.isField : Piece → Bool
  | .field _ => true
  | .text _ => false

/-- What a pattern writes that begins and ends with a field is filled by its words. -/
theorem tight_render {t : Instant} (hyear : 0 ≤ t.date.year) {ps : List Piece}
    (hhead : ps.head?.any (·.isField) = true) (hlast : ps.getLast?.any (·.isField) = true) :
    Token.Tight (ps.flatMap (·.render .gregorian t.date.civil t)) := by
  have hkind : ∀ (f : Field), ∀ c ∈ f.render .gregorian t.date.civil t,
      Token.kindOf c ≠ .separator := fun f c hc => (f.written hyear).kindOf_ne_separator hc
  constructor
  · obtain ⟨p, hp, hfield⟩ := (Option.any_eq_true ..).1 hhead
    obtain ⟨ps, rfl⟩ := List.head?_eq_some_iff.1 hp
    cases p with
    | text => cases hfield
    | field f =>
      obtain ⟨c, cs, hcs⟩ := List.exists_cons_of_ne_nil (f.written hyear).ne_nil
      simpa [Piece.render, hcs] using hkind f c (by simp [hcs])
  · obtain ⟨p, hp, hfield⟩ := (Option.any_eq_true ..).1 hlast
    obtain ⟨ps, rfl⟩ := List.getLast?_eq_some_iff.1 hp
    cases p with
    | text => cases hfield
    | field f =>
      obtain ⟨cs, c, hcs⟩ := List.eq_nil_or_concat _ |>.resolve_left (f.written hyear).ne_nil
      simpa [Piece.render, hcs] using hkind f c (by simp [hcs])

theorem Written.isChain_quiet {cs : List Char} {ws : List Word} (h : Written cs ws) :
    cs.IsChain Quiet := by
  cases h with
  | number =>
    exact isChain_of_isSilent fun c hc => isSilent_of_isDigit (Text.isDigit_of_mem_padded hc)
  | ordinal n hsuffix =>
    have hdigit : ∀ c ∈ Text.decimal n, isSilent c = true := fun c hc =>
      isSilent_of_isDigit (Text.isDigit_of_mem_decimal hc)
    have hall : ∀ suffix ∈ Ordinal.suffixes, suffix.IsChain Quiet := by decide +kernel
    refine (isChain_of_isSilent hdigit).append (hall _ hsuffix) fun c hc d _ => ?_
    exact quiet_of_isSilent_left (hdigit c (List.mem_of_getLast? hc))
  | name hname =>
    have hall : ∀ entry ∈ names, entry.1.IsChain Quiet := by decide +kernel
    exact hall _ hname

/-- The piece is a field or silent text. -/
def Piece.isSilent : Piece → Bool
  | .field _ => true
  | .text cs => cs.all Shape.isSilent

theorem isChain_quiet_render {t : Instant} (hyear : 0 ≤ t.date.year) {ps : List Piece}
    (h : keepsApart ps = true) (hsilent : ∀ p ∈ ps, p.isSilent = true) :
    (ps.flatMap (·.render .gregorian t.date.civil t)).IsChain Quiet := by
  induction ps with
  | nil => exact .nil
  | cons p ps ih =>
    have hps : keepsApart ps = true := by
      cases p <;> exact (Bool.and_eq_true_iff.1 h).2
    have hrest := ih hps fun q hq => hsilent q (List.mem_cons_of_mem p hq)
    rw [List.flatMap_cons]
    cases p with
    | text cs =>
      have hcs := List.all_eq_true.1 (hsilent (.text cs) (by simp))
      refine (isChain_of_isSilent hcs).append hrest fun c hc d _ => ?_
      exact quiet_of_isSilent_left (hcs c (List.mem_of_getLast? hc))
    | field f =>
      refine (f.written hyear).isChain_quiet.append hrest fun c _ d hd => ?_
      obtain ⟨cs, hcs, hmem, -⟩ := exists_text_of_keepsApart h t hd
      have htext := List.all_eq_true.1 (hsilent (.text cs) (List.mem_cons_of_mem _ hcs))
      exact quiet_of_isSilent_right (htext d hmem)

/-- What the pattern writes can be read back. -/
structure Readable (pattern : String) : Prop where
  keepsApart : keepsApart (pieces pattern.toList) = true
  silent : ∀ p ∈ pieces pattern.toList, p.isSilent = true
  head : (pieces pattern.toList).head?.any (·.isField) = true
  last : (pieces pattern.toList).getLast?.any (·.isField) = true

/-- The words that a pattern writes of an instant. -/
def writtenWords (t : Instant) (pattern : String) : List Word :=
  (pieces pattern.toList).flatMap (·.words t)

theorem writtenWords_eq {t : Instant} {pattern : String} (ps : List Piece)
    (h : pieces pattern.toList = ps) : writtenWords t pattern = ps.flatMap (·.words t) := by
  rw [writtenWords, h]

theorem words_text :
    Token.words ['/'] = [.slash] ∧ Token.words ['-'] = [.dash] ∧ Token.words ['.'] = [.dot] ∧
      Token.words [','] = [.comma] ∧ Token.words [':'] = [.colon] ∧ Token.words [' '] = [] := by
  decide +kernel

theorem format_spec {t : Instant} {pattern : String} (h : Readable pattern)
    (hnonneg : 0 ≤ t.date.year) (hle : t.date.year ≤ 9999) :
    ∃ text, t.format pattern .gregorian = .ok text ∧ Token.Tight text.toList ∧
      Token.words text.toList = writtenWords t pattern ∧ ofText text = .other := by
  have hlocal : Calendar.gregorian.toLocal t.date = .ok t.date.civil := by
    rw [Calendar.toLocal, if_pos ⟨by omega, hle⟩]
    rfl
  refine ⟨_, by rw [Instant.format, hlocal]; rfl, ?_, ?_, ?_⟩
  · rw [String.toList_ofList]
    exact tight_render hnonneg h.head h.last
  · rw [String.toList_ofList]
    exact words_render hnonneg h.keepsApart
  · refine ofText_eq_other ?_
    rw [String.toList_ofList]
    exact isChain_quiet_render hnonneg h.keepsApart h.silent

end CasualDate.Layout
