import TerseMarkup.Css.Component

/-! Lexemes with their brackets matched, and back.

Matching brackets puts lexemes into components and changes none of them (`lexemesOf_read`). What
comes out `Fits`: a block starts with the lexeme that opens it and ends with one that closes it, and
nothing in between would close it. Components that fit are those of their lexemes
(`ofLexemes_lexemesOf`). -/
namespace TerseMarkup.Css

/-- A token that is no bracket. -/
def Token.Plain (t : Token) : Prop := t.opens? = none ∧ ∀ b, t ≠ .closing b

/-- Only parentheses are opened by other tokens than the bracket. -/
theorem Token.eq_opening {t : Token} {b : Bracket} (h : t.opens? = some b) (hb : b ≠ .paren) :
    t = .opening b := by
  cases t <;> simp_all [opens?]

namespace Component

/-! ### One lexeme -/

section Step

variable {l : Lexeme} {level : List Component} {rest : List Lexeme}

theorem nest_opener {b : Bracket} (h : l.token.opens? = some b) (outer : List OpenBlock) :
    nest outer level (l :: rest) = nest (⟨l, b, level⟩ :: outer) [] rest := by
  cases outer <;> simp [nest, h]

theorem nest_closer {o : OpenBlock} (h : l.token = .closing o.bracket) (outer : List OpenBlock) :
    nest (o :: outer) level (l :: rest) = nest outer (o.end level (some l)) rest := by
  simp [nest, h, Token.opens?]

/-- A bracket that closes another block than the innermost one is plain. -/
theorem nest_other {outer : List OpenBlock} (hopens : l.token.opens? = none)
    (hcloses : ∀ o ∈ outer.head?, l.token ≠ .closing o.bracket) :
    nest outer level (l :: rest) = nest outer (.plain l :: level) rest := by
  cases outer with
  | nil => simp [nest, hopens]
  | cons o outer => simp [nest, hopens, hcloses o rfl]

theorem nest_plain (h : l.token.Plain) (outer : List OpenBlock) :
    nest outer level (l :: rest) = nest outer (.plain l :: level) rest :=
  nest_other h.1 fun o _ => h.2 o.bracket

/-- **What a lexeme does**: it opens a block, closes the innermost one, or is plain. -/
theorem nest_cases (outer : List OpenBlock) (level : List Component) (l : Lexeme) :
    (∃ b, l.token.opens? = some b ∧
      ∀ rest, nest outer level (l :: rest) = nest (⟨l, b, level⟩ :: outer) [] rest) ∨
    (∃ o outer', outer = o :: outer' ∧ l.token = .closing o.bracket ∧
      ∀ rest, nest outer level (l :: rest) = nest outer' (o.end level (some l)) rest) ∨
    (l.token.opens? = none ∧ (∀ o ∈ outer.head?, l.token ≠ .closing o.bracket) ∧
      ∀ rest, nest outer level (l :: rest) = nest outer (.plain l :: level) rest) := by
  cases hopens : l.token.opens? with
  | some b => exact .inl ⟨b, rfl, fun _ => nest_opener hopens outer⟩
  | none =>
    by_cases hcloses : ∀ o ∈ outer.head?, l.token ≠ .closing o.bracket
    · exact .inr (.inr ⟨rfl, hcloses, fun _ => nest_other hopens hcloses⟩)
    · cases outer with
      | nil => simp at hcloses
      | cons o outer =>
        have hcloser : l.token = .closing o.bracket := by simpa using hcloses
        exact .inr (.inl ⟨o, outer, rfl, hcloser, fun _ => nest_closer hcloser outer⟩)

end Step

/-! ### The lexemes of components -/

mutual

def lexemes : Component → List Lexeme
  | plain l => [l]
  | block opener _ inside closer => opener :: (lexemesOf inside ++ closer.toList)

def lexemesOf : List Component → List Lexeme
  | [] => []
  | c :: rest => c.lexemes ++ lexemesOf rest

end

theorem lexemesOf_append (xs ys : List Component) :
    lexemesOf (xs ++ ys) = lexemesOf xs ++ lexemesOf ys := by
  induction xs with
  | nil => rfl
  | cons x xs ih => simp [lexemesOf, ih]

mutual

theorem flatMap_text_lexemes : (c : Component) → c.lexemes.flatMap Lexeme.text = c.text
  | plain l => by simp [lexemes, text]
  | block opener _ inside closer => by
    cases closer <;> simp [lexemes, text, flatMap_text_lexemesOf inside]

theorem flatMap_text_lexemesOf :
    (cs : List Component) → (lexemesOf cs).flatMap Lexeme.text = textOf cs
  | [] => by simp [lexemesOf, textOf]
  | c :: rest => by
    rw [lexemesOf, textOf, List.flatMap_append, flatMap_text_lexemes c,
      flatMap_text_lexemesOf rest]

end

theorem forall_lexemesOf_block {P : Lexeme → Prop} {opener : Lexeme} {bracket : Bracket}
    {inside : List Component} {closer : Option Lexeme} {rest : List Component} :
    (∀ l ∈ lexemesOf (.block opener bracket inside closer :: rest), P l) ↔
      P opener ∧ (∀ l ∈ lexemesOf inside, P l) ∧ (∀ l ∈ closer, P l) ∧
        ∀ l ∈ lexemesOf rest, P l := by
  simp [lexemesOf, lexemes, or_imp, forall_and]

/-- The lexemes of open blocks and of the level inside them, the outermost first. -/
def lexemesSoFar : List OpenBlock → List Component → List Lexeme
  | [], level => lexemesOf level.reverse
  | o :: outer, level => lexemesSoFar outer o.before ++ o.opener :: lexemesOf level.reverse

theorem lexemesSoFar_cons (outer : List OpenBlock) (c : Component) (level : List Component) :
    lexemesSoFar outer (c :: level) = lexemesSoFar outer level ++ c.lexemes := by
  cases outer <;> simp [lexemesSoFar, lexemesOf_append, lexemesOf]

theorem lexemesOf_endAll (outer : List OpenBlock) (level : List Component) :
    lexemesOf (endAll outer level) = lexemesSoFar outer level := by
  induction outer generalizing level with
  | nil => rfl
  | cons o outer ih =>
    simp [endAll, ih, OpenBlock.end, lexemesSoFar_cons, lexemesSoFar, lexemes]

theorem lexemesOf_nest (outer : List OpenBlock) (level : List Component) (ls : List Lexeme) :
    lexemesOf (nest outer level ls) = lexemesSoFar outer level ++ ls := by
  induction ls generalizing outer level with
  | nil => simp [nest, lexemesOf_endAll]
  | cons l ls ih =>
    unfold nest
    split
    · simp [ih, lexemesSoFar, lexemesOf]
    · split
      · split
        · simp [ih, lexemesSoFar, OpenBlock.end, lexemesSoFar_cons, lexemes]
        · simp [ih, lexemesSoFar_cons, lexemes]
      · simp [ih, lexemesSoFar_cons, lexemes]

/-- **Matching brackets keeps the lexemes** and their order. -/
theorem lexemesOf_read (s : Text) : lexemesOf (read s) = Lexeme.scan s := by
  simp [read, ofLexemes, lexemesOf_nest, lexemesSoFar, lexemesOf]

/-! ### Components that come of matching -/

mutual

/-- Whether a component can stand in a block that `bracket` opened, or in none. -/
def Fits (bracket : Option Bracket) : Component → Prop
  | plain l => l.token.opens? = none ∧ ∀ b ∈ bracket, l.token ≠ .closing b
  | block opener b inside closer =>
    opener.token.opens? = some b ∧ FitAll (some b) inside ∧ ∀ l ∈ closer, l.token = .closing b

def FitAll (bracket : Option Bracket) : List Component → Prop
  | [] => True
  | c :: rest => c.Fits bracket ∧ FitAll bracket rest

end

theorem fitAll_append {bracket : Option Bracket} {xs ys : List Component} :
    FitAll bracket (xs ++ ys) ↔ FitAll bracket xs ∧ FitAll bracket ys := by
  induction xs with
  | nil => simp [FitAll]
  | cons x xs ih => simp [FitAll, ih, and_assoc]

theorem fitAll_reverse {bracket : Option Bracket} {xs : List Component} :
    FitAll bracket xs.reverse ↔ FitAll bracket xs := by
  induction xs with
  | nil => simp [FitAll]
  | cons x xs ih => simp [FitAll, fitAll_append, ih, and_comm]

/-- What fits in a block fits outside. -/
theorem FitAll.outside {bracket : Option Bracket} {cs : List Component} (h : FitAll bracket cs) :
    FitAll none cs := by
  induction cs with
  | nil => trivial
  | cons c cs ih =>
    refine ⟨?_, ih h.2⟩
    cases c with
    | plain l => exact ⟨h.1.1, by simp⟩
    | block opener b inside closer => exact h.1

/-- The bracket that the innermost of open blocks waits for. -/
def innermost (outer : List OpenBlock) : Option Bracket := outer.head?.map OpenBlock.bracket

/-- What has been read so far fits. -/
def SoFarFits : List OpenBlock → List Component → Prop
  | [], level => FitAll none level
  | o :: outer, level =>
    FitAll (some o.bracket) level ∧ o.opener.token.opens? = some o.bracket ∧
      SoFarFits outer o.before

theorem SoFarFits.level {outer : List OpenBlock} {level : List Component}
    (h : SoFarFits outer level) : FitAll (innermost outer) level := by
  cases outer with
  | nil => exact h
  | cons o outer => exact h.1

theorem SoFarFits.cons {outer : List OpenBlock} {level : List Component} {c : Component}
    (h : SoFarFits outer level) (hc : c.Fits (innermost outer)) : SoFarFits outer (c :: level) := by
  cases outer with
  | nil => exact ⟨hc, h⟩
  | cons o outer => exact ⟨⟨hc, h.1⟩, h.2⟩

theorem SoFarFits.end {o : OpenBlock} {outer : List OpenBlock} {level : List Component}
    (h : SoFarFits (o :: outer) level) {closer : Option Lexeme}
    (hcloser : ∀ l ∈ closer, l.token = .closing o.bracket) :
    SoFarFits outer (o.end level closer) :=
  h.2.2.cons ⟨h.2.1, fitAll_reverse.mpr h.1, hcloser⟩

theorem fitAll_endAll {outer : List OpenBlock} {level : List Component}
    (h : SoFarFits outer level) : FitAll none (endAll outer level) := by
  induction outer generalizing level with
  | nil => exact fitAll_reverse.mpr h
  | cons o outer ih => exact ih (h.end (by simp))

theorem fitAll_nest {outer : List OpenBlock} {level : List Component} (ls : List Lexeme)
    (h : SoFarFits outer level) : FitAll none (nest outer level ls) := by
  induction ls generalizing outer level with
  | nil => simpa [nest] using fitAll_endAll h
  | cons l ls ih =>
    obtain ⟨b, hopens, hnest⟩ | ⟨o, outer, rfl, hcloser, hnest⟩ | ⟨hopens, hcloses, hnest⟩ :=
      nest_cases outer level l <;> rw [hnest]
    · exact ih ⟨trivial, hopens, h⟩
    · exact ih (h.end fun l' hl' => by cases hl'; exact hcloser)
    · refine ih (h.cons ⟨hopens, fun b hb => ?_⟩)
      obtain ⟨o, ho, rfl⟩ := Option.map_eq_some_iff.mp hb
      exact hcloses o ho

/-- **What comes of matching brackets fits.** -/
theorem fitAll_read (s : Text) : FitAll none (read s) := fitAll_nest _ trivial

/-! ### Blocks that are closed -/

mutual

/-- The brackets of the blocks that are never closed, the outermost first. -/
def unclosed : Component → List Bracket
  | plain _ => []
  | block _ bracket inside closer => (if closer.isNone then [bracket] else []) ++ unclosedAll inside

def unclosedAll : List Component → List Bracket
  | [] => []
  | c :: rest => c.unclosed ++ unclosedAll rest

end

theorem unclosed_block_eq_nil {opener : Lexeme} {bracket : Bracket} {inside : List Component}
    {closer : Option Lexeme} :
    (block opener bracket inside closer).unclosed = [] ↔ closer.isSome ∧ unclosedAll inside = [] := by
  cases closer <;> simp [unclosed]

theorem unclosedAll_cons_eq_nil {c : Component} {rest : List Component} :
    unclosedAll (c :: rest) = [] ↔ c.unclosed = [] ∧ unclosedAll rest = [] := by
  rw [unclosedAll, List.append_eq_nil_iff]

theorem exists_closer {opener : Lexeme} {bracket : Bracket} {inside rest : List Component}
    {closer : Option Lexeme} (h : unclosedAll (.block opener bracket inside closer :: rest) = []) :
    ∃ l, closer = some l ∧ unclosedAll inside = [] ∧ unclosedAll rest = [] := by
  obtain ⟨hblock, hrest⟩ := unclosedAll_cons_eq_nil.mp h
  obtain ⟨hcloser, hinside⟩ := unclosed_block_eq_nil.mp hblock
  obtain ⟨l, hl⟩ := Option.isSome_iff_exists.mp hcloser
  exact ⟨l, hl, hinside, hrest⟩

mutual

theorem nest_lexemes {outer : List OpenBlock} {level : List Component} (rest : List Lexeme) :
    (c : Component) → c.Fits (innermost outer) → c.unclosed = [] →
      nest outer level (c.lexemes ++ rest) = nest outer (c :: level) rest
  | plain l, hfits, _ => by
    rw [Fits] at hfits
    exact nest_other hfits.1 fun o ho => hfits.2 _ (Option.map_eq_some_iff.mpr ⟨o, ho, rfl⟩)
  | block opener bracket inside closer, hfits, hclosed => by
    obtain ⟨hcloser, hinside⟩ := unclosed_block_eq_nil.mp hclosed
    obtain ⟨l, rfl⟩ := Option.isSome_iff_exists.mp hcloser
    rw [Fits] at hfits
    have hfit : FitAll (innermost (⟨opener, bracket, level⟩ :: outer)) inside := hfits.2.1
    rw [lexemes, List.cons_append, nest_opener hfits.1, List.append_assoc,
      nest_lexemesOf _ inside hfit hinside]
    show nest _ _ (l :: rest) = _
    rw [nest_closer (hfits.2.2 l rfl)]
    simp [OpenBlock.end]

/-- Components that fit are matched again, wherever they stand. -/
theorem nest_lexemesOf {outer : List OpenBlock} {level : List Component} (rest : List Lexeme) :
    (cs : List Component) → FitAll (innermost outer) cs → unclosedAll cs = [] →
      nest outer level (lexemesOf cs ++ rest) = nest outer (cs.reverse ++ level) rest
  | [], _, _ => by simp [lexemesOf]
  | c :: cs, hfits, hclosed => by
    rw [FitAll] at hfits
    obtain ⟨hc, hcs⟩ := unclosedAll_cons_eq_nil.mp hclosed
    rw [lexemesOf, List.append_assoc, nest_lexemes _ c hfits.1 hc, nest_lexemesOf rest cs hfits.2 hcs]
    simp

end

/-- **Components that fit are those of their lexemes**, if every block is closed. -/
theorem ofLexemes_lexemesOf {cs : List Component} (hfits : FitAll none cs)
    (hclosed : unclosedAll cs = []) : ofLexemes (lexemesOf cs) = cs := by
  have h : nest [] [] (lexemesOf cs ++ []) = nest [] (cs.reverse ++ []) [] :=
    nest_lexemesOf [] cs hfits hclosed
  rw [List.append_nil, List.append_nil] at h
  rw [ofLexemes, h, nest, endAll, List.reverse_reverse]

mutual

/-- Whether every block is closed, none is in curly brackets, and none stands between square
brackets. -/
def Whole : Component → Prop
  | plain _ => True
  | block _ .curly _ _ => False
  | block _ .square inside closer => closer.isSome ∧ ∀ c ∈ inside, ∃ l, c = plain l
  | block _ .paren inside closer => closer.isSome ∧ WholeAll inside

def WholeAll : List Component → Prop
  | [] => True
  | c :: rest => c.Whole ∧ WholeAll rest

end

theorem unclosedAll_of_plain {cs : List Component} (h : ∀ c ∈ cs, ∃ l, c = plain l) :
    unclosedAll cs = [] := by
  induction cs with
  | nil => simp [unclosedAll]
  | cons c cs ih =>
    obtain ⟨l, rfl⟩ := h c (List.mem_cons_self ..)
    rw [unclosedAll, unclosed, ih fun c' hc' => h c' (List.mem_cons_of_mem _ hc'), List.nil_append]

mutual

theorem Whole.closed : (c : Component) → c.Whole → c.unclosed = []
  | plain _, _ => by rw [unclosed]
  | block _ .curly _ _, h => by simp [Whole] at h
  | block _ .square inside _, h => by
    rw [Whole] at h
    exact unclosed_block_eq_nil.mpr ⟨h.1, unclosedAll_of_plain h.2⟩
  | block _ .paren inside _, h => by
    rw [Whole] at h
    exact unclosed_block_eq_nil.mpr ⟨h.1, WholeAll.closed inside h.2⟩

theorem WholeAll.closed : (cs : List Component) → WholeAll cs → unclosedAll cs = []
  | [], _ => by rw [unclosedAll]
  | c :: rest, h => by
    rw [WholeAll] at h
    exact unclosedAll_cons_eq_nil.mpr ⟨Whole.closed c h.1, WholeAll.closed rest h.2⟩

end

end Component
end TerseMarkup.Css
