import TerseMarkup.Proofs.Css.Nesting

/-! What is still open where a text ends.

The brackets of the blocks that are never closed are those that the lexemes leave on a stack
(`unclosedAll_ofLexemes`). A block that is never closed stands last on its level, so a closed block
has only closed ones inside (`endsAll_read`). -/
namespace TerseMarkup.Css

/-- The brackets that are open behind a token. -/
def Token.openBehind (brackets : List Bracket) (t : Token) : List Bracket :=
  match t.opens? with
  | some b => brackets ++ [b]
  | none => if brackets.getLast?.any (t == .closing ·) then brackets.dropLast else brackets

namespace Component

/-- Whether everything before the innermost open block, and on its level, is closed. -/
def SoFarClosed (outer : List OpenBlock) (level : List Component) : Prop :=
  unclosedAll level = [] ∧ ∀ o ∈ outer, unclosedAll o.before = []

section SoFarClosed

variable {outer : List OpenBlock} {level : List Component}

theorem unclosedAll_append (xs ys : List Component) :
    unclosedAll (xs ++ ys) = unclosedAll xs ++ unclosedAll ys := by
  induction xs with
  | nil => rfl
  | cons x xs ih => rw [List.cons_append, unclosedAll, unclosedAll, ih, List.append_assoc]

theorem unclosedAll_reverse_eq_nil {cs : List Component} :
    unclosedAll cs.reverse = [] ↔ unclosedAll cs = [] := by
  induction cs with
  | nil => rfl
  | cons c cs ih => simp [unclosedAll_append, unclosedAll, ih, and_comm]

theorem SoFarClosed.open (h : SoFarClosed outer level) (l : Lexeme) (b : Bracket) :
    SoFarClosed (⟨l, b, level⟩ :: outer) [] := ⟨rfl, List.forall_mem_cons.mpr h⟩

theorem SoFarClosed.plain (h : SoFarClosed outer level) (l : Lexeme) :
    SoFarClosed outer (.plain l :: level) := ⟨by rw [unclosedAll, h.1]; rfl, h.2⟩

theorem SoFarClosed.end {o : OpenBlock} (h : SoFarClosed (o :: outer) level) (l : Lexeme) :
    SoFarClosed outer (o.end level (some l)) := by
  obtain ⟨hbefore, houter⟩ := List.forall_mem_cons.mp h.2
  refine ⟨?_, houter⟩
  rw [OpenBlock.end, unclosedAll_cons_eq_nil, unclosed_block_eq_nil]
  exact ⟨⟨rfl, unclosedAll_reverse_eq_nil.mpr h.1⟩, hbefore⟩

theorem unclosedAll_endAll (h : ∀ o ∈ outer, unclosedAll o.before = []) :
    unclosedAll (endAll outer level) =
      (outer.map OpenBlock.bracket).reverse ++ unclosedAll level.reverse := by
  induction outer generalizing level with
  | nil => rfl
  | cons o outer ih =>
    obtain ⟨hbefore, houter⟩ := List.forall_mem_cons.mp h
    rw [endAll, ih houter, OpenBlock.end, List.reverse_cons, unclosedAll_append,
      unclosedAll_reverse_eq_nil.mpr hbefore]
    simp [unclosedAll, unclosed]

theorem unclosedAll_nest (h : SoFarClosed outer level) (ls : List Lexeme) :
    unclosedAll (nest outer level ls) =
      (ls.map Lexeme.token).foldl Token.openBehind (outer.map OpenBlock.bracket).reverse := by
  induction ls generalizing outer level with
  | nil =>
    rw [nest, unclosedAll_endAll h.2, unclosedAll_reverse_eq_nil.mpr h.1, List.append_nil]
    rfl
  | cons l ls ih =>
    rw [List.map_cons, List.foldl_cons, Token.openBehind]
    obtain ⟨b, hopens, hnest⟩ | ⟨o, outer, rfl, hcloser, hnest⟩ | ⟨hopens, hcloses, hnest⟩ :=
      nest_cases outer level l <;> rw [hnest]
    · simp [ih (h.open l b), hopens]
    · simp [ih (h.end l), hcloser, Token.opens?]
    · rw [ih (h.plain l), hopens]
      cases outer <;> simp_all

end SoFarClosed

/-- **The brackets never closed** are those on the stack when the lexemes end. -/
theorem unclosedAll_ofLexemes (ls : List Lexeme) :
    unclosedAll (ofLexemes ls) = (ls.map Lexeme.token).foldl Token.openBehind [] :=
  unclosedAll_nest ⟨rfl, by simp⟩ ls

/-! ### Open blocks stand last -/

mutual

/-- Whether only what stands last is never closed. -/
def Ends : Component → Prop
  | plain _ => True
  | block _ _ inside closer => EndsAll inside ∧ (closer.isSome → unclosedAll inside = [])

def EndsAll : List Component → Prop
  | [] => True
  | c :: rest => c.Ends ∧ EndsAll rest ∧ (c.unclosed ≠ [] → rest = [])

end

mutual

theorem ends_of_closed : (c : Component) → c.unclosed = [] → c.Ends
  | plain _, _ => trivial
  | block _ _ inside _, h => by
    have hinside := (unclosed_block_eq_nil.mp h).2
    exact ⟨endsAll_of_closed inside hinside, fun _ => hinside⟩

theorem endsAll_of_closed : (cs : List Component) → unclosedAll cs = [] → EndsAll cs
  | [], _ => trivial
  | c :: rest, h => by
    obtain ⟨hc, hrest⟩ := unclosedAll_cons_eq_nil.mp h
    exact ⟨ends_of_closed c hc, endsAll_of_closed rest hrest, fun hne => absurd hc hne⟩

end

theorem endsAll_append {xs : List Component} {c : Component} (hxs : unclosedAll xs = [])
    (hc : c.Ends) : EndsAll (xs ++ [c]) := by
  induction xs with
  | nil => exact ⟨hc, trivial, fun _ => rfl⟩
  | cons x xs ih =>
    obtain ⟨hx, hxs⟩ := unclosedAll_cons_eq_nil.mp hxs
    exact ⟨ends_of_closed x hx, ih hxs, fun hne => absurd hx hne⟩

theorem endsAll_endAll {outer : List OpenBlock} {level : List Component}
    (houter : ∀ o ∈ outer, unclosedAll o.before = []) (hlevel : EndsAll level.reverse) :
    EndsAll (endAll outer level) := by
  induction outer generalizing level with
  | nil => exact hlevel
  | cons o outer ih =>
    obtain ⟨hbefore, houter⟩ := List.forall_mem_cons.mp houter
    refine ih houter ?_
    rw [OpenBlock.end, List.reverse_cons]
    exact endsAll_append (unclosedAll_reverse_eq_nil.mpr hbefore) ⟨hlevel, by simp⟩

theorem endsAll_nest {outer : List OpenBlock} {level : List Component}
    (h : SoFarClosed outer level) (ls : List Lexeme) : EndsAll (nest outer level ls) := by
  induction ls generalizing outer level with
  | nil =>
    rw [nest]
    exact endsAll_endAll h.2 (endsAll_of_closed _ (unclosedAll_reverse_eq_nil.mpr h.1))
  | cons l ls ih =>
    obtain ⟨b, -, hnest⟩ | ⟨o, outer, rfl, -, hnest⟩ | ⟨-, -, hnest⟩ :=
      nest_cases outer level l <;> rw [hnest]
    · exact ih (h.open l b)
    · exact ih (h.end l)
    · exact ih (h.plain l)

/-- **A block that is never closed stands last**, wherever a text ends. -/
theorem endsAll_read (s : Text) : EndsAll (read s) := endsAll_nest ⟨rfl, by simp⟩ _

end Component
end TerseMarkup.Css
