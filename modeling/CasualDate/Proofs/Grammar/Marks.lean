import CasualDate.Proofs.Grammar.Published
import CasualDate.Proofs.Reading.LooksFor

/-!
# Marks in sentences

What the commas, dots and last words of the sentences are, so that words can be seen not to be one:
no sentence ends with a dash or a colon (`DateTime.closed`), two commas are in a sentence only with a
year behind one of them (`DateTime.fewCommas`), and where dates of two numbers have no dot there is
never just one (`DateTime.count_dot_ne_one`).
-/

namespace CasualDate.Grammar

variable {d : Dialect} {us vs ws : List Word} {w : Word} {n k : Nat}

/-! ## Words of numbers -/

theorem Ones.isInNumber (h : Ones w n) : w.isInNumber = true := by
  cases h <;> rfl

theorem Teens.isInNumber (h : Teens w n) : w.isInNumber = true := by
  cases h <;> rfl

theorem Tens.isInNumber (h : Tens w n) : w.isInNumber = true := by
  cases h
  rfl

theorem Double.isInNumber (h : Double us n) : us.all Word.isInNumber = true := by
  cases h with
  | ones h => exact List.all_eq_true.2 (List.forall_mem_singleton.2 h.isInNumber)
  | dashed hv hw => simp only [List.all_cons, hv.isInNumber, hw.isInNumber]; rfl
  | joined hv hw => simp only [List.all_cons, hv.isInNumber, hw.isInNumber]; rfl
  | tens h => exact List.all_eq_true.2 (List.forall_mem_singleton.2 h.isInNumber)
  | teens h => exact List.all_eq_true.2 (List.forall_mem_singleton.2 h.isInNumber)
  | literal => rfl

theorem Triple.isInNumber (h : Triple us n) : us.all Word.isInNumber = true := by
  cases h with
  | onesHundredAnd hw h | onesHundredWith hw h =>
    simp only [List.all_cons, hw.isInNumber, h.isInNumber]
    rfl
  | onesHundred hw =>
    simp only [List.all_cons, hw.isInNumber]
    rfl
  | hundredAnd h | hundredWith h | double h => exact h.isInNumber
  | hundred | literal => rfl

theorem Num.isInNumber (h : Num us n) : us.all Word.isInNumber = true := by
  induction h with
  | tripleScaleAnd s hu hv ih | tripleScaleWith s hu hv ih =>
    rw [List.all_append, hu.isInNumber]
    exact ih
  | tripleScale s hu =>
    rw [List.all_append, hu.isInNumber]
    rfl
  | scaleAnd s hv ih | scaleWith s hv ih => exact ih
  | triple hu => exact hu.isInNumber
  | scale | literal => rfl

theorem Num.count_eq_zero (h : Num us n) (hw : w.isInNumber = false) : us.count w = 0 := by
  refine List.count_eq_zero.2 fun hmem => ?_
  rw [List.all_eq_true.1 h.isInNumber w hmem] at hw
  cases hw

theorem Double.eq_of_literal {c : Text.Count} (h : Double [.literal c] n) : n = c.val := by
  cases h with
  | ones h | teens h =>
    cases h
    rfl
  | tens h => cases h
  | literal => rfl

theorem Triple.eq_of_literal {c : Text.Count} (h : Triple [.literal c] n) : n = c.val := by
  cases h with
  | double h => exact h.eq_of_literal
  | literal => rfl

theorem Num.eq_of_literal {c : Text.Count} (h : Num [.literal c] n) : n = c.val := by
  generalize hus : [Word.literal c] = us at h
  cases h with
  | triple h =>
    subst hus
    exact h.eq_of_literal
  | literal =>
    cases hus
    rfl
  | _ => simp [List.singleton_eq_append_iff] at hus

/-! ## Last words -/

/-- The words end with one that is no dash and no colon. -/
def Closed (ws : List Word) : Prop :=
  ws.getLast?.any (fun w => w ≠ .dash ∧ w ≠ .colon) = true

theorem Closed.append (h : Closed vs) : Closed (us ++ vs) := by
  cases hlast : vs.getLast? with
  | none => simp [Closed, hlast] at h
  | some w => simpa [Closed, hlast] using h

theorem Closed.cons (h : Closed us) : Closed (w :: us) :=
  (h.append : Closed ([w] ++ us))

theorem Closed.append_opt {S : List Word → Prop} (h : Closed us) (hS : ∀ {vs}, S vs → Closed vs)
    (hvs : Opt S vs) : Closed (us ++ vs) := by
  rcases hvs with rfl | hvs
  · rwa [List.append_nil]
  · exact (hS hvs).append

theorem Ones.closed (h : Ones w n) : Closed [w] := by
  cases h <;> exact rfl

theorem Double.closed (h : Double us n) : Closed us := by
  cases h with
  | ones h => exact h.closed
  | dashed _ hw => exact hw.closed.cons.cons
  | joined _ hw => exact hw.closed.cons
  | tens h | teens h => cases h <;> exact rfl
  | literal => exact rfl

theorem Triple.closed (h : Triple us n) : Closed us := by
  cases h with
  | onesHundredAnd _ h => exact h.closed.cons.cons.cons
  | onesHundredWith _ h | hundredAnd h => exact h.closed.cons.cons
  | onesHundred => exact Closed.cons rfl
  | hundredWith h => exact h.closed.cons
  | double h => exact h.closed
  | hundred | literal => exact rfl

theorem Num.closed (h : Num us n) : Closed us := by
  induction h with
  | tripleScaleAnd _ _ _ ih => exact ih.cons.cons.append
  | tripleScaleWith _ _ _ ih => exact ih.cons.append
  | tripleScale => exact Closed.append rfl
  | scaleAnd _ _ ih => exact ih.cons.cons
  | scaleWith _ _ ih => exact ih.cons
  | triple hu => exact hu.closed
  | scale | literal => exact rfl

theorem Num.ne_nil (h : Num us n) : us ≠ [] := by
  rintro rfl
  exact Bool.false_ne_true h.closed

theorem Year.closed (h : Year d us) : Closed us := by
  cases h with
  | behindComma hu => exact hu.closed.cons
  | num hu => exact hu.closed

theorem Time.closed (h : Time us) : Closed us := by
  cases h with
  | num hu => exact hu.closed
  | clock _ hv => exact hv.closed.cons.append
  | clockHalf | half => exact Closed.append rfl
  | midnight | noon => exact rfl

theorem Duration.closed {a : List TimeUnit} (h : Duration us a) : Closed us := by
  induction h with
  | num => exact Closed.append rfl
  | indefinite | the => exact Closed.cons rfl
  | both _ _ _ ih => exact ih.cons.append

theorem Date.closed (h : Date d us) : Closed us := by
  induction h with
  | threeNums _ _ _ hn => exact hn.closed.cons.append
  | twoNums _ _ hv => exact hv.closed.cons.append
  | monthDay m hu hs hy =>
    refine Closed.append_opt (Closed.append_opt hu.closed.cons ?_ hs) Year.closed hy
    rintro _ rfl
    exact rfl
  | dayMonth m _ _ _ _ hy =>
    rw [List.append_cons]
    exact Closed.append_opt (Closed.append rfl) Year.closed hy
  | monthYear m hu => exact hu.closed.cons
  | ago => exact Closed.append rfl
  | after _ _ ih | fromDate _ _ ih => exact ih.cons.append
  | relativeWeekday | relativeUnit => exact Closed.cons rfl
  | today | tomorrow | yesterday | month | weekday => exact rfl

theorem DateTime.closed (h : DateTime d us) : Closed us := by
  induction h with
  | time hu => exact hu.closed
  | date hu => exact hu.closed
  | timeCommaDate _ hv | timeOnDate _ hv => exact hv.closed.cons.append
  | timeDate _ hv => exact hv.closed.append
  | dateTime _ hv => exact hv.closed.append
  | dateCommaTime _ hv | dateAtTime _ hv => exact hv.closed.cons.append
  | after _ _ ih | fromMoment _ _ ih | before _ _ ih => exact ih.cons.append
  | ago => exact Closed.append rfl
  | inDuration hu => exact hu.closed.cons
  | now => exact rfl

/-! ## Commas and dots -/

/-- Two dots, or a comma with a year of four digits behind it. -/
def Marked (ws : List Word) : Prop :=
  2 ≤ ws.count .dot ∨ ∃ us n, .comma :: us <:+: ws ∧ Num us n ∧ n ≤ 9999

theorem Marked.of_infix (h : Marked us) (hsub : us <:+: ws) : Marked ws := by
  rcases h with h | ⟨zs, n, hzs, hn⟩
  · exact .inl (Nat.le_trans h (hsub.sublist.count_le _))
  · exact .inr ⟨zs, n, hzs.trans hsub, hn⟩

/-- No dot and no more than `k` commas, but for words that are marked. -/
def Regular (k : Nat) (ws : List Word) : Prop :=
  ws.count .dot = 0 ∧ ws.count .comma ≤ k ∨ Marked ws

namespace Regular

theorem append_left (hu : Regular 0 us) (hv : Regular k vs) : Regular k (us ++ vs) := by
  rcases hu with ⟨hdot, hcomma⟩ | hu
  · rcases hv with ⟨hdot', hcomma'⟩ | hv
    · exact .inl (by rw [List.count_append, List.count_append]; omega)
    · exact .inr (hv.of_infix (List.suffix_append us vs).isInfix)
  · exact .inr (hu.of_infix (List.prefix_append us vs).isInfix)

theorem append_right (hu : Regular k us) (hv : Regular 0 vs) : Regular k (us ++ vs) := by
  rcases hu with ⟨hdot, hcomma⟩ | hu
  · rcases hv with ⟨hdot', hcomma'⟩ | hv
    · exact .inl (by rw [List.count_append, List.count_append]; omega)
    · exact .inr (hv.of_infix (List.suffix_append us vs).isInfix)
  · exact .inr (hu.of_infix (List.prefix_append us vs).isInfix)

theorem cons (hw : w ≠ .dot ∧ w ≠ .comma) (hu : Regular k us) : Regular k (w :: us) :=
  (append_left (.inl (by simp [hw])) hu : Regular k ([w] ++ us))

theorem cons_comma (hu : Regular 0 us) : Regular 1 (.comma :: us) :=
  (append_right (.inl (by decide)) hu : Regular 1 ([.comma] ++ us))

theorem weaken (hu : Regular 0 us) : Regular 1 us :=
  hu.imp_left fun ⟨hdot, hcomma⟩ => ⟨hdot, Nat.le_succ_of_le hcomma⟩

end Regular

theorem Opt.regular {S : List Word → Prop} (hS : ∀ {us}, S us → Regular 0 us) (h : Opt S us) :
    Regular 0 us := by
  rcases h with rfl | h
  · exact .inl (by decide)
  · exact hS h

theorem Num.regular (h : Num us n) : Regular 0 us :=
  .inl ⟨h.count_eq_zero rfl, Nat.le_of_eq (h.count_eq_zero rfl)⟩

theorem Year.regular (h : Year published us) : Regular 0 us := by
  cases h with
  | @behindComma us n hu hyear => exact .inr (.inr ⟨us, n, List.infix_rfl, hu, hyear.2⟩)
  | num hu => exact hu.regular

theorem Time.regular (h : Time us) : Regular 0 us := by
  cases h with
  | num hu => exact hu.regular
  | clock hu hv => exact .append_left hu.regular (.cons (by decide) hv.regular)
  | clockHalf hu hv half =>
    exact .append_right (.append_left hu.regular (.cons (by decide) hv.regular)) (.inl (by simp))
  | half hu half => exact .append_right hu.regular (.inl (by simp))
  | midnight | noon => exact .inl (by decide)

theorem Duration.regular {a : List TimeUnit} (h : Duration us a) : Regular 0 us := by
  induction h with
  | num hu u => exact .append_right hu.regular (.inl (by simp))
  | indefinite | the => exact .inl (by simp)
  | both _ _ ihu ihv => exact .append_left ihu (.cons (by decide) ihv)

theorem Date.regular (h : Date published us) : Regular 0 us := by
  induction h with
  | @threeNums us vs ws k m n w hw hu hv hn =>
    by_cases hdot : w = .dot
    · subst hdot
      exact .inr (.inl (by simp only [List.count_append, List.count_cons_self]; omega))
    · have hcomma : w ≠ .comma := by
        rintro rfl
        exact absurd hw (by decide)
      exact .append_right (.append_left hu.regular (.cons ⟨hdot, hcomma⟩ hv.regular))
        (.cons ⟨hdot, hcomma⟩ hn.regular)
  | twoNums hw hu hv =>
    obtain rfl := hw
    exact .append_left hu.regular (.cons (by decide) hv.regular)
  | monthDay m hu hs hy =>
    refine .append_right (.append_right (.cons (by simp) hu.regular) (hs.regular ?_))
      (hy.regular Year.regular)
    rintro _ rfl
    exact .inl (by decide)
  | dayMonth m ht hu hs ho hy =>
    refine .append_left (.append_left (.append_left (.append_left (ht.regular ?_) hu.regular)
      (hs.regular ?_)) (ho.regular ?_)) (.cons (by simp) (hy.regular Year.regular))
    all_goals
      rintro _ rfl
      exact .inl (by decide)
  | monthYear m hu => exact .cons (by simp) hu.regular
  | ago hu => exact .append_right hu.regular (.inl (by decide))
  | after hu _ ih | fromDate hu _ ih => exact .append_left hu.regular (.cons (by decide) ih)
  | today | tomorrow | yesterday => exact .inl (by decide)
  | month | relativeWeekday | relativeUnit | weekday => exact .inl (by simp)

/-- Between a date and a time there may be a comma that no year follows. -/
theorem DateTime.regular (h : DateTime published us) : Regular 1 us := by
  induction h with
  | time hu => exact hu.regular.weaken
  | timeCommaDate hu hv => exact .append_left hu.regular (.cons_comma hv.regular)
  | timeDate hu hv => exact .append_left hu.regular hv.regular.weaken
  | timeOnDate hu hv => exact .append_left hu.regular (.cons (by decide) hv.regular.weaken)
  | date hu => exact hu.regular.weaken
  | dateTime hu hv => exact .append_left hu.regular hv.regular.weaken
  | dateCommaTime hu hv => exact .append_left hu.regular (.cons_comma hv.regular)
  | dateAtTime hu hv => exact .append_left hu.regular (.cons (by decide) hv.regular.weaken)
  | after hu _ ih | fromMoment hu _ ih | before hu _ ih =>
    exact .append_left hu.regular (.cons (by decide) ih)
  | ago hu => exact .append_left hu.regular (.inl (by decide))
  | inDuration hu => exact .cons (by decide) hu.regular.weaken
  | now => exact .inl (by decide)

theorem not_dateTime_of_dot {a b : Text.Count} :
    ¬ DateTime published [.literal a, .dot, .literal b] := by
  intro h
  rcases h.regular with ⟨hdot, -⟩ | hdot | ⟨us, n, hus, -⟩
  · simp at hdot
  · simp at hdot
  · simp [List.infix_cons_iff] at hus

/-- Five digits behind a comma are no year, and in front of a time no part of it. -/
theorem not_dateTime_of_lt {m : Month} {a y : Text.Count} (hy : 9999 < y.val) :
    ¬ DateTime published [.month m, .literal a, .comma, .literal y, .comma, .noon] := by
  intro h
  rcases h.regular with ⟨-, hcomma⟩ | hdot | ⟨us, n, hus, hn, hle⟩
  · simp at hcomma
  · simp at hdot
  · have hfollows : us <+: [.literal y, .comma, .noon] ∨ us <+: [.noon] := by
      simpa [List.infix_cons_iff] using hus
    have hnumber := hn.isInNumber
    match us with
    | [] => exact hn.ne_nil rfl
    | [v] =>
      rcases hfollows with hv | hv
      · obtain rfl := (List.cons_prefix_cons.1 hv).1
        have := hn.eq_of_literal
        omega
      · obtain rfl := (List.cons_prefix_cons.1 hv).1
        cases hnumber
    | v :: u :: us =>
      rcases hfollows with hv | hv
      · obtain ⟨rfl, hu⟩ := List.cons_prefix_cons.1 hv
        obtain rfl := (List.cons_prefix_cons.1 hu).1
        cases hnumber
      · simp at hv

end CasualDate.Grammar
