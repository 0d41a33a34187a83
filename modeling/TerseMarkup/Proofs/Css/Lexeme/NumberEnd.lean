import TerseMarkup.Proofs.Css.Lexeme.NameEnd

/-! Where numbers end.

A number with its unit that has been read up to its end reads the same before like texts
(`Alike.readNumber_append`). It sees up to three characters: a sign behind an `e` belongs to the
number only if digits follow. -/
namespace TerseMarkup.Css

section Alike

variable {r r' : Text}

theorem Stops.digitsLength_eq (h : Stops r) : Lexeme.digitsLength r = 0 := by
  cases r with
  | nil => rfl
  | cons c r =>
    have hdigit : c.isDigit = false := h.any_head (p := Char.isDigit) rfl
    simp [Lexeme.digitsLength, hdigit]

theorem Alike.digitsLength_eq (h : Alike r r') :
    Lexeme.digitsLength r = Lexeme.digitsLength r' := by
  induction h with
  | stop hr hr' => rw [hr.digitsLength_eq, hr'.digitsLength_eq]
  | cons c h ih =>
    unfold Lexeme.digitsLength at *
    cases hc : c.isDigit <;> simp [hc, ih]
  | ident hr hr' =>
    obtain ⟨c, t, rfl, hc⟩ := hr.head
    obtain ⟨c', t', rfl, hc'⟩ := hr'.head
    simp [Lexeme.digitsLength, not_isDigit_of_isIdentHead hc, not_isDigit_of_isIdentHead hc']
  | string r r' hq hq' =>
    rcases isQuote_iff.mp hq with rfl | rfl <;> rcases isQuote_iff.mp hq' with rfl | rfl <;> rfl

theorem fractionLength_cons (c : Char) (s : Text) :
    Lexeme.fractionLength (c :: s) =
      if c = '.' ∧ Lexeme.startsWithDigit s then Lexeme.digitsLength s + 1 else 0 := by
  unfold Lexeme.fractionLength
  split <;> simp_all

theorem fractionLength_of_isIdentHead {c : Char} (hc : isIdentHead c = true) (s : Text) :
    Lexeme.fractionLength (c :: s) = 0 := by
  rw [fractionLength_cons, if_neg]
  rintro ⟨rfl, -⟩
  cases hc

theorem Stops.fractionLength_eq (h : Stops r) : Lexeme.fractionLength r = 0 := by
  cases r with
  | nil => rfl
  | cons c r =>
    rw [fractionLength_cons, if_neg]
    rintro ⟨rfl, -⟩
    cases h '.' rfl

theorem Alike.fractionLength_eq (h : Alike r r') :
    Lexeme.fractionLength r = Lexeme.fractionLength r' := by
  cases h with
  | stop hr hr' => rw [hr.fractionLength_eq, hr'.fractionLength_eq]
  | cons c h =>
    rw [fractionLength_cons, fractionLength_cons, h.startsWithDigit_eq, h.digitsLength_eq]
  | ident hr hr' =>
    obtain ⟨c, t, rfl, hc⟩ := hr.head
    obtain ⟨c', t', rfl, hc'⟩ := hr'.head
    rw [fractionLength_of_isIdentHead hc, fractionLength_of_isIdentHead hc']
  | string r r' hq hq' =>
    rcases isQuote_iff.mp hq with rfl | rfl <;> rcases isQuote_iff.mp hq' with rfl | rfl <;> rfl

theorem signLength_cons (c : Char) (s : Text) :
    Lexeme.signLength (c :: s) = if c = '+' ∨ c = '-' then 1 else 0 := by
  unfold Lexeme.signLength
  split <;> simp_all

theorem signLength_of_ne {c : Char} (hplus : c ≠ '+') (hhyphen : c ≠ '-') (s : Text) :
    Lexeme.signLength (c :: s) = 0 := by
  rw [signLength_cons, if_neg (by simp [hplus, hhyphen])]

theorem Stops.startsWithDigit_eq (h : Stops r) :
    Lexeme.startsWithDigit (r.drop (Lexeme.signLength r)) = false := by
  cases r with
  | nil => rfl
  | cons c r =>
    have hsign : (c == '+' || c == '-') = false := h.any_head (p := fun c => c == '+' || c == '-') rfl
    simp only [Bool.or_eq_false_iff, beq_eq_false_iff_ne] at hsign
    rw [signLength_of_ne hsign.1 hsign.2]
    exact h.any_head (p := Char.isDigit) rfl

/-- Digits behind a sign, or without one. -/
theorem Alike.drop_signLength (h : Alike r r') :
    Lexeme.startsWithDigit (r.drop (Lexeme.signLength r)) =
        Lexeme.startsWithDigit (r'.drop (Lexeme.signLength r')) ∧
      (Lexeme.startsWithDigit (r.drop (Lexeme.signLength r)) = true →
        Lexeme.signLength r = Lexeme.signLength r' ∧
          Lexeme.digitsLength (r.drop (Lexeme.signLength r)) =
            Lexeme.digitsLength (r'.drop (Lexeme.signLength r'))) := by
  have ident {r : Text} (h : startsIdent r = true) :
      Lexeme.startsWithDigit (r.drop (Lexeme.signLength r)) = false := by
    cases r with
    | nil => rfl
    | cons c t =>
      by_cases hhyphen : c = '-'
      · subst hhyphen
        rw [startsIdent_hyphen] at h
        cases t with
        | nil => rfl
        | cons d t => exact not_isDigit_of_isIdentHead (by simpa using h)
      · have hc := isIdentHead_of_startsIdent h
        rw [signLength_of_ne (by rintro rfl; cases hc) hhyphen]
        exact not_isDigit_of_isIdentHead hc
  cases h with
  | stop hr hr' =>
    rw [hr.startsWithDigit_eq, hr'.startsWithDigit_eq]
    exact ⟨rfl, fun h => by cases h⟩
  | ident hr hr' =>
    rw [ident hr.1, ident hr'.1]
    exact ⟨rfl, fun h => by cases h⟩
  | string r r' hq hq' =>
    rcases isQuote_iff.mp hq with rfl | rfl <;> rcases isQuote_iff.mp hq' with rfl | rfl <;>
      exact ⟨rfl, fun h => by cases h⟩
  | cons c h =>
    by_cases hplus : c = '+'
    · subst hplus
      exact ⟨h.startsWithDigit_eq, fun _ => ⟨rfl, h.digitsLength_eq⟩⟩
    · by_cases hhyphen : c = '-'
      · subst hhyphen
        exact ⟨h.startsWithDigit_eq, fun _ => ⟨rfl, h.digitsLength_eq⟩⟩
      · rw [signLength_of_ne hplus hhyphen, signLength_of_ne hplus hhyphen]
        exact ⟨(h.cons c).startsWithDigit_eq, fun _ => ⟨rfl, (h.cons c).digitsLength_eq⟩⟩

theorem Alike.exponentLength_cons (h : Alike r r') (c : Char) :
    Lexeme.exponentLength (c :: r) = Lexeme.exponentLength (c :: r') := by
  obtain ⟨hdigit, hlength⟩ := h.drop_signLength
  rw [Lexeme.exponentLength, Lexeme.exponentLength]
  simp only [← hdigit]
  split
  · split
    · obtain ⟨hsign, hdigits⟩ := hlength ‹_›
      rw [hdigits, hsign]
    · rfl
  · rfl

theorem exponentLength_of_not_startsIdent (h : startsIdent r = false) :
    Lexeme.exponentLength r = 0 := by
  cases r with
  | nil => rfl
  | cons c t =>
    rw [Lexeme.exponentLength, if_neg]
    rintro (rfl | rfl) <;> rw [startsIdent_of_ne (by decide) (by decide)] at h <;> cases h

/-- A sign, digits, and a fraction. -/
def mantissaLength (s : Text) : Nat :=
  let n := Lexeme.signLength s
  let n := n + Lexeme.digitsLength (s.drop n)
  n + Lexeme.fractionLength (s.drop n)

def numberLength (s : Text) : Nat :=
  mantissaLength s + Lexeme.exponentLength (s.drop (mantissaLength s))

theorem readNumber_eq (s : Text) :
    Lexeme.readNumber s =
      let rest := s.drop (numberLength s)
      if rest.head? = some '%' then (.percentage, numberLength s + 1)
      else if startsIdent rest then (.dimension, numberLength s + (name rest).2)
      else (.number, numberLength s) := rfl

theorem Alike.drop_append (h : Alike r r') {t : Text} {n : Nat} (hn : n ≤ t.length) :
    Alike ((t ++ r).drop n) ((t ++ r').drop n) := by
  rw [List.drop_append_of_le_length hn, List.drop_append_of_le_length hn]
  exact h.append _

theorem Alike.mantissaLength_append (h : Alike r r') {c : Char} {t : Text}
    (hlength : mantissaLength (c :: t ++ r) ≤ (c :: t).length) :
    mantissaLength (c :: t ++ r') = mantissaLength (c :: t ++ r) := by
  unfold mantissaLength at hlength ⊢
  simp only at hlength ⊢
  have hsign : Lexeme.signLength (c :: t ++ r') = Lexeme.signLength (c :: t ++ r) := by
    rw [List.cons_append, List.cons_append, signLength_cons, signLength_cons]
  generalize Lexeme.signLength (c :: t ++ r) = n at *
  rw [hsign, ← (h.drop_append (by omega : n ≤ (c :: t).length)).digitsLength_eq]
  generalize n + Lexeme.digitsLength ((c :: t ++ r).drop n) = n at *
  rw [← (h.drop_append (by omega : n ≤ (c :: t).length)).fractionLength_eq]

/-- The number ends before `r`, and no identifier starts there if it ends with `t`. -/
theorem Alike.numberLength_append (h : Alike r r') {c : Char} {t : Text}
    (hlength : numberLength (c :: t ++ r) ≤ (c :: t).length)
    (hend : numberLength (c :: t ++ r) = (c :: t).length → startsIdent r = false) :
    numberLength (c :: t ++ r') = numberLength (c :: t ++ r) := by
  unfold numberLength at hlength hend ⊢
  rw [h.mantissaLength_append (by omega)]
  generalize mantissaLength (c :: t ++ r) = n at *
  have hn : n ≤ (c :: t).length := by omega
  rw [List.drop_append_of_le_length hn] at hlength hend ⊢
  rw [List.drop_append_of_le_length hn]
  cases hrest : (c :: t).drop n with
  | cons d u => exact congrArg _ (h.append u |>.exponentLength_cons d).symm
  | nil =>
    have hlast : n = (c :: t).length := Nat.le_antisymm hn (List.drop_eq_nil_iff.mp hrest)
    rw [hrest, List.nil_append] at hlength hend
    have hr : startsIdent r = false := hend (by omega)
    rw [List.nil_append, List.nil_append, exponentLength_of_not_startsIdent hr,
      exponentLength_of_not_startsIdent (h.startsIdent_eq ▸ hr)]

/-- **A number that has been read up to its end** reads the same before like texts. -/
theorem Alike.readNumber_append (h : Alike r r') (hnil : r = [] → r' = []) {c : Char} {t : Text}
    (hlength : (Lexeme.readNumber (c :: t ++ r)).2 = (c :: t).length) :
    Lexeme.readNumber (c :: t ++ r') = Lexeme.readNumber (c :: t ++ r) := by
  rw [readNumber_eq] at hlength
  rw [readNumber_eq, readNumber_eq]
  generalize hn : numberLength (c :: t ++ r) = n at hlength
  simp only at hlength
  have hle : n ≤ (c :: t).length := by
    split at hlength
    · exact Nat.le_of_succ_le (Nat.le_of_eq hlength)
    · split at hlength
      · exact hlength ▸ Nat.le_add_right _ _
      · exact Nat.le_of_eq hlength
  have hend : n = (c :: t).length → startsIdent r = false := by
    intro hlast
    rw [Bool.eq_false_iff]
    intro hr
    rw [hlast, List.drop_left] at hlength
    rw [if_pos hr] at hlength
    split at hlength
    · simp at hlength
    · cases r with
      | nil => cases hr
      | cons d r =>
        have := nameFrom_pos r hr
        simp only [name] at hlength
        omega
  rw [h.numberLength_append (hn ▸ hle) (hn ▸ hend), hn]
  have hrest := h.drop_append hle
  have hpercent := hrest.head?_eq_some (d := '%') rfl rfl rfl
  simp only [hpercent, hrest.startsIdent_eq] at hlength ⊢
  split
  · rfl
  · rw [if_neg ‹_›] at hlength
    split
    · rw [if_pos ‹_›] at hlength
      rw [List.drop_append_of_le_length hle] at hlength ⊢
      rw [List.drop_append_of_le_length hle, name, name, h.nameFrom_append hnil]
      rw [List.length_drop]
      exact Nat.eq_sub_of_add_eq' hlength
    · rfl

end Alike

end TerseMarkup.Css
