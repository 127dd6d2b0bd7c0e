import CasualDate.Proofs.Grammar.Published
import CasualDate.Proofs.Reading.LooksFor
import Mathlib.Data.List.Infix

/-!
# Readings of sentences

What a reading takes from the front of the words is a sentence of some kind, `Derives`, as far as no
mark in it or behind it dangles: a reading may take a colon or a dash before it knows whether anything
follows. Compositions of readings take compositions of sentences.
-/

namespace CasualDate

open Grammar

/-- The words begin with a colon and no number behind it, or with tens and a dash and no ones behind
it. -/
def Word.dangles : List Word → Bool
  | .colon :: back => !back.head?.any beginsNumber
  | .numeral n :: .dash :: back => 20 ≤ n.value && !back.head?.any fun w => (Number.one? w).isSome
  | _ => false

/-- No colon in the words dangles, and no dash behind tens. -/
def Joined (ws : List Word) : Prop :=
  ∀ us, us <:+ ws → Word.dangles us = false

instance (ws : List Word) : Decidable (Joined ws) :=
  decidable_of_iff (ws.tails.all fun us => !Word.dangles us) (by simp [Joined])

theorem Joined.suffix {us ws : List Word} (h : Joined ws) (hus : us <:+ ws) : Joined us :=
  fun vs hvs => h vs (hvs.trans hus)

theorem Joined.right {us vs : List Word} (h : Joined (us ++ vs)) : Joined vs :=
  h.suffix (List.suffix_append us vs)

theorem exists_append_skipWord (w : Word) (ws : List Word) :
    ∃ us, Opt (· = [w]) us ∧ ws = us ++ skipWord w ws := by
  cases ws with
  | nil => exact ⟨[], .inl rfl, rfl⟩
  | cons v ws =>
    by_cases hv : v = w
    · subst hv
      exact ⟨[v], .inr rfl, by simp [skipWord]⟩
    · exact ⟨[], .inl rfl, by simp [skipWord, hv]⟩

namespace Reading

variable {α β : Type} {ws rest : List Word} {f : Reading α}

/-- What the reading takes from the front of the words and what it leaves are of the kind, if no mark
dangles from there up to any of the words that it leaves. -/
def Derives (f : Reading α) (S : α → List Word → List Word → Prop) (ws : List Word) : Prop :=
  ∀ a rest, f.run ws = some (a, rest) →
    ∃ us, ws = us ++ rest ∧ ∀ next, next <+: rest → Joined (us ++ next) → S a us rest

namespace Derives

variable {S T : α → List Word → List Word → Prop} {U : β → List Word → List Word → Prop}

theorem mono (h : Derives f S ws) (hST : ∀ a us rest, S a us rest → T a us rest) :
    Derives f T ws := by
  intro a rest hrun
  obtain ⟨us, rfl, hus⟩ := h a rest hrun
  exact ⟨us, rfl, fun next hnext hjoined => hST a us rest (hus next hnext hjoined)⟩

theorem pure {a : α} (h : S a [] ws) : Derives (pure a) S ws := by
  rintro b rest hrun
  cases hrun
  exact ⟨[], rfl, fun _ _ _ => h⟩

theorem failure : Derives (failure : Reading α) S ws := by
  rintro a rest ⟨⟩

theorem option {o : Option α} (h : ∀ a, o = some a → S a [] ws) : Derives (option o) S ws := by
  intro a rest hrun
  obtain ⟨b, hb, heq⟩ := Option.map_eq_some_iff.1 hrun
  cases heq
  exact ⟨[], rfl, fun _ _ _ => h a hb⟩

theorem word {p : Word → Option α} (h : ∀ w a rest, p w = some a → S a [w] rest) :
    Derives (Reading.word p) S ws := by
  intro a rest hrun
  obtain ⟨w, rfl, hw⟩ := exists_of_run_word hrun
  exact ⟨[w], rfl, fun _ _ _ => h w a rest hw⟩

theorem exactly {w : Word} : Derives (exactly w) (fun _ us _ => us = [w]) ws := by
  refine word fun v a _ hv => ?_
  obtain ⟨rfl, -⟩ := Option.ite_none_right_eq_some.1 hv
  rfl

theorem skip {w : Word} : Derives (skip w) (fun _ us _ => Opt (· = [w]) us) ws := by
  intro a rest hrun
  cases hrun
  obtain ⟨us, hus, heq⟩ := exists_append_skipWord w ws
  exact ⟨us, heq, fun _ _ _ => hus⟩

theorem unlessNext {p : Word → Bool} : Derives (unlessNext p) (fun _ us _ => us = []) ws := by
  intro a rest hrun
  rw [run_unlessNext] at hrun
  split at hrun
  · cases hrun
  · cases hrun
    exact ⟨[], rfl, fun _ _ _ => rfl⟩

theorem orElse {g : Reading α} (hf : Derives f S ws) (hg : Derives g S ws) :
    Derives (f <|> g) S ws := by
  intro a rest hrun
  rw [run_orElse, Option.or_eq_some_iff] at hrun
  rcases hrun with hrun | ⟨-, hrun⟩
  · exact hf a rest hrun
  · exact hg a rest hrun

theorem run_append {a : α} {b : β} {mid : List Word} {g : Reading β}
    (hf : Derives f S ws) (hrun : f.run ws = some (a, mid)) (hrun' : g.run mid = some (b, rest))
    (hg : ∀ us, Derives g (fun b vs rest => S a us mid → U b (us ++ vs) rest) mid) :
    ∃ us, ws = us ++ rest ∧ ∀ next, next <+: rest → Joined (us ++ next) → U b us rest := by
  obtain ⟨us, rfl, hus⟩ := hf a mid hrun
  obtain ⟨vs, rfl, hvs⟩ := hg us b rest hrun'
  refine ⟨us ++ vs, (List.append_assoc ..).symm, fun next hnext hjoined => ?_⟩
  rw [List.append_assoc] at hjoined
  exact hvs next hnext hjoined.right
    (hus (vs ++ next) ((List.prefix_append_right_inj vs).2 hnext) hjoined)

theorem bind {g : α → Reading β} (hf : Derives f S ws) (hg : ∀ a mid, f.run ws = some (a, mid) →
    ∀ us, Derives (g a) (fun b vs rest => S a us mid → U b (us ++ vs) rest) mid) :
    Derives (f >>= g) U ws := by
  intro b rest hrun
  rw [StateT.run_bind] at hrun
  obtain ⟨⟨a, mid⟩, ha, hrun⟩ := Option.bind_eq_some_iff.1 hrun
  exact hf.run_append ha hrun (hg a mid ha)

theorem ifReads {g : α → Reading β} {h : Reading β} (hf : Derives f S ws)
    (hg : ∀ a mid, f.run ws = some (a, mid) →
      ∀ us, Derives (g a) (fun b vs rest => S a us mid → U b (us ++ vs) rest) mid)
    (hh : Derives h U ws) : Derives (ifReads f g h) U ws := by
  intro b rest hrun
  rw [run_ifReads] at hrun
  split at hrun
  · next a mid ha => exact hf.run_append ha hrun (hg a mid ha)
  · exact hh b rest hrun

end Derives

end Reading

end CasualDate
