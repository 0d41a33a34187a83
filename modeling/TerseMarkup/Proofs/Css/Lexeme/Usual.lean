import TerseMarkup.Proofs.Css.Lexeme.Standing

/-! Lexemes that are spelled in one way.

Some tokens leave no choice how they are spelled, so whoever prints them anew prints what was read.
Dots, square brackets and closing parentheses are the ones that a selector prints, curly brackets
those that a rule prints (`Standing.usual`). -/
namespace TerseMarkup.Css

namespace Lexeme

/-- A dot, square and curly brackets and a closing parenthesis are spelled in one way. -/
structure Usual (l : Lexeme) : Prop where
  delim : ∀ c, l.token = .delim c → l.text = [c]
  openSquare : l.token = .opening .square → l.text = ['[']
  closeSquare : l.token = .closing .square → l.text = [']']
  closeParen : l.token = .closing .paren → l.text = [')']
  openCurly : l.token = .opening .curly → l.text = ['{']
  closeCurly : l.token = .closing .curly → l.text = ['}']

/-- The same of a token and its length, read at a character. -/
structure UsualAt (c : Char) (p : Token × Nat) : Prop where
  delim : ∀ d, p.1 = .delim d → c = d ∧ p.2 = 1
  openSquare : p.1 = .opening .square → c = '[' ∧ p.2 = 1
  closeSquare : p.1 = .closing .square → c = ']' ∧ p.2 = 1
  closeParen : p.1 = .closing .paren → c = ')' ∧ p.2 = 1
  openCurly : p.1 = .opening .curly → c = '{' ∧ p.2 = 1
  closeCurly : p.1 = .closing .curly → c = '}' ∧ p.2 = 1

private theorem of_ite {p : Prop} [Decidable p] {a b : Token × Nat} {P : Token × Nat → Prop}
    (ha : p → P a) (hb : ¬ p → P b) : P (if p then a else b) := by
  split
  · exact ha ‹_›
  · exact hb ‹_›

theorem usualAt_other {t : Token} (hdelim : ∀ d, t ≠ .delim d) (hopening : ∀ b, t ≠ .opening b)
    (hclosing : ∀ b, t ≠ .closing b) (c : Char) (n : Nat) : UsualAt c (t, n) :=
  ⟨fun d h => absurd h (hdelim d), fun h => absurd h (hopening _), fun h => absurd h (hclosing _),
    fun h => absurd h (hclosing _), fun h => absurd h (hopening _), fun h => absurd h (hclosing _)⟩

theorem usualAt_delim (c : Char) : UsualAt c (.delim c, 1) :=
  ⟨fun _ h => ⟨Token.delim.inj h, rfl⟩, by simp, by simp, by simp, by simp, by simp⟩

theorem usualAt_read (c : Char) (r : Text) : UsualAt c (read c r) := by
  have other {t : Token} (n : Nat) (hdelim : ∀ d, t ≠ .delim d) (hopening : ∀ b, t ≠ .opening b)
      (hclosing : ∀ b, t ≠ .closing b) := usualAt_other hdelim hopening hclosing c n
  unfold read
  refine of_ite (fun _ => other _ (by simp) (by simp) (by simp)) fun _ => ?_
  refine of_ite (fun _ => ?_) fun _ => ?_
  · unfold readString
    split <;> exact other _ (by simp) (by simp) (by simp)
  refine of_ite (fun h => ?_) fun _ => ?_
  · subst h
    refine of_ite (fun _ => other _ (by simp) (by simp) (by simp)) fun _ => ?_
    exact of_ite (fun _ => other _ (by simp) (by simp) (by simp)) fun _ => usualAt_delim '#'
  refine of_ite (fun h => ?_) fun _ => ?_
  · subst h
    exact of_ite (fun _ => other _ (by simp) (by simp) (by simp)) fun _ => usualAt_delim '@'
  iterate 6 refine of_ite (fun h => h ▸ ⟨by simp, by simp, by simp, by simp, by simp, by simp⟩) fun _ => ?_
  iterate 3 refine of_ite (fun _ => other _ (by simp) (by simp) (by simp)) fun _ => ?_
  refine of_ite (fun _ => ?_) fun _ => ?_
  · exact of_ite (fun _ => other _ (by simp) (by simp) (by simp)) fun _ => usualAt_delim c
  iterate 2 refine of_ite (fun _ => other _ (by simp) (by simp) (by simp)) fun _ => ?_
  refine of_ite (fun _ => ?_) fun _ => ?_
  · rw [readNumber_eq]
    refine of_ite (fun _ => other _ (by simp) (by simp) (by simp)) fun _ => ?_
    exact of_ite (fun _ => other _ (by simp) (by simp) (by simp)) fun _ =>
      other _ (by simp) (by simp) (by simp)
  refine of_ite (fun _ => other _ (by simp) (by simp) (by simp)) fun _ => ?_
  refine of_ite (fun _ => ?_) fun _ => usualAt_delim c
  rw [readIdentLike_eq]
  refine of_ite (fun _ => of_ite (fun _ => ?_) fun _ => ?_) fun _ => ?_
  · split
    · next good k hurl => cases good <;> exact other _ (by simp) (by simp) (by simp)
    · exact other _ (by simp) (by simp) (by simp)
  · exact other _ (by simp) (by simp) (by simp)
  · exact other _ (by simp) (by simp) (by simp)

theorem StandsBefore.usual {l : Lexeme} {r : Text} (h : l.StandsBefore r) : l.Usual := by
  obtain ⟨c, t, htext, hread⟩ := h
  have husual := usualAt_read c (t ++ r)
  rw [hread] at husual
  have one {d : Char} (h : c = d ∧ t.length + 1 = 1) : l.text = [d] := by
    rw [htext, h.1, List.eq_nil_of_length_eq_zero (Nat.succ.inj h.2)]
  exact ⟨fun d h => one (husual.delim d h), fun h => one (husual.openSquare h),
    fun h => one (husual.closeSquare h), fun h => one (husual.closeParen h),
    fun h => one (husual.openCurly h), fun h => one (husual.closeCurly h)⟩

theorem Standing.usual {ls : List Lexeme} (h : Standing ls) : ∀ l ∈ ls, l.Usual := by
  induction ls with
  | nil => simp
  | cons l ls ih =>
    intro l' hl'
    obtain rfl | hl' := List.mem_cons.mp hl'
    · exact h.1.usual
    · exact ih h.2 l' hl'

end Lexeme

end TerseMarkup.Css
