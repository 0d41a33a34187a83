import Mathlib.Data.List.Chain
import TerseMarkup.Proofs.Css.Exchange
import TerseMarkup.Proofs.Css.Grammar
import TerseMarkup.Proofs.Css.Nesting

/-! The names that are found in a selector of the grammar.

A selector is read by looking for a few tokens: a dot with an identifier directly behind it, an id,
and between square brackets the last identifier before an operator and the first identifier or
string behind one. `Yields` says of lexemes that they make whole components, wherever they stand,
and which names are found in them; it is put together along the trees of the grammar. Comments
change none of it, but for one that stands between a dot and its name
(`Selector.asks_for_names`). -/
namespace TerseMarkup.Css
open Grammar (Gap)

/-- What is asked for when a selector is renamed. -/
theorem Part.logs_rename_attributeTest {σ : Type} (f : Renaming σ) (a : AttributeTest) :
    Renaming.Logs (rename f.logged (attributeTest a)) (rename f (attributeTest a)) a.mentions := by
  rw [rename, rename, AttributeTest.mentions]
  cases a.kind? with
  | none => exact .pure _
  | some k => cases a.value with
    | none => exact .pure _
    | some v => exact (Renaming.Logs.logged f k v.value).map _

mutual

theorem Part.logs_rename {σ : Type} (f : Renaming σ) :
    (p : Part) → Renaming.Logs (p.rename f.logged) (p.rename f) p.mentions
  | .className n => by
    rw [rename, rename, mentions]
    exact (Renaming.Logs.logged f .className n.value).map _
  | .id n => by
    rw [rename, rename, mentions]
    exact (Renaming.Logs.logged f .id n.value).map _
  | .attributeTest a => logs_rename_attributeTest f a
  | .function opener inside => by
    rw [rename, rename, mentions]
    exact (logs_renameAll f inside).map _
  | .tag s | .other s => by
    rw [rename, rename, mentions]
    exact .pure _

theorem Part.logs_renameAll {σ : Type} (f : Renaming σ) :
    (ps : List Part) → Renaming.Logs (renameAll f.logged ps) (renameAll f ps) (mentionsAll ps)
  | [] => by
    rw [renameAll, renameAll, mentionsAll]
    exact .pure _
  | p :: rest => by
    rw [renameAll, renameAll, mentionsAll]
    exact (logs_rename f p).bind fun p' => (logs_renameAll f rest).map (p' :: ·)

end

/-- The tokens of lexemes without the comments. -/
def bare (ls : List Lexeme) : List Token := (ls.map Lexeme.token).filter (· ≠ .comment)

/-- No comment stands directly behind a dot. -/
def DotsBare (ls : List Lexeme) : Prop :=
  ls.IsChain fun l l' => l.token = .delim '.' → l'.token ≠ .comment

theorem DotsBare.within {ls ls' : List Lexeme} (h : DotsBare ls') (hls : ls <:+: ls') :
    DotsBare ls :=
  List.IsChain.infix h hls

theorem bare_append (ls ls' : List Lexeme) : bare (ls ++ ls') = bare ls ++ bare ls' := by
  simp [bare]

/-- Where the tokens fall apart, the lexemes do. -/
theorem bare_eq_append {ls : List Lexeme} {ts us : List Token} (h : bare ls = ts ++ us) :
    ∃ ls₁ ls₂, ls = ls₁ ++ ls₂ ∧ bare ls₁ = ts ∧ bare ls₂ = us := by
  obtain ⟨xs, ys, hmap, hts, hus⟩ := List.filter_eq_append_iff.mp h
  obtain ⟨ls₁, ls₂, hls, h₁, h₂⟩ := List.map_eq_append_iff.mp hmap
  exact ⟨ls₁, ls₂, hls, by rw [bare, h₁, hts], by rw [bare, h₂, hus]⟩

/-- A token is that of a lexeme, behind comments. -/
theorem bare_eq_cons {ls : List Lexeme} {t : Token} {ts : List Token} (h : bare ls = t :: ts) :
    ∃ cs l ls', ls = cs ++ l :: ls' ∧ bare cs = [] ∧ l.token = t ∧ bare ls' = ts := by
  obtain ⟨xs, ys, hmap, hxs, -, hys⟩ := List.filter_eq_cons_iff.mp h
  obtain ⟨cs, ls', hls, hcs, hrest⟩ := List.map_eq_append_iff.mp hmap
  obtain ⟨l, ls', rfl, hl, hls'⟩ := List.map_eq_cons_iff.mp hrest
  refine ⟨cs, l, ls', hls, ?_, hl, by rw [bare, hls', hys]⟩
  rw [bare, hcs, List.filter_eq_nil_iff]
  exact hxs

/-! ### Components and the names in them -/

/-- The names found in components where a part starts. -/
def found (cs : List Component) : List Mention := Part.mentionsAll (Part.readFrom false [] cs)

/-- A colon before and text that goes with the next part change no name. -/
theorem found_eq (pseudo : Bool) (pending : Text) (cs : List Component) :
    Part.mentionsAll (Part.readFrom pseudo pending cs) = found cs := by
  rw [found]
  match cs with
  | [] | .block _ .curly _ _ :: _ | .block _ .square _ _ :: _ | .block _ .paren _ _ :: _ =>
    simp [Part.readFrom, Part.mentionsAll, Part.mentions]
  | .plain l :: rest =>
    by_cases hname : ∃ dot source value rest', l = ⟨.delim '.', dot⟩ ∧
        rest = .plain ⟨.ident value, source⟩ :: rest'
    · obtain ⟨dot, source, value, rest', rfl, rfl⟩ := hname
      simp [Part.readFrom, Part.mentionsAll, Part.mentions]
    · have hpart : ∀ dot value source rest', rest = .plain ⟨.ident value, source⟩ :: rest' →
          l = ⟨.delim '.', dot⟩ → False :=
        fun dot value source rest' hrest hl => hname ⟨dot, source, value, rest', hl, hrest⟩
      rw [Part.readFrom.eq_6 _ _ _ _ hpart, Part.readFrom.eq_6 _ _ _ _ hpart]
      simp only [Part.mentionsAll]
      congr 1
      split
      · cases pseudo <;> rfl
      · rfl
      · rfl

/-- A token that is passed over where a part starts. -/
def Token.Passed (t : Token) : Prop := t.Plain ∧ t ≠ .delim '.' ∧ ∀ name, t ≠ .idHash name

theorem found_passed {l : Lexeme} (h : l.token.Passed) (rest : List Component) :
    found (.plain l :: rest) = found rest := by
  obtain ⟨-, hdot, hid⟩ := h
  rw [found, Part.readFrom.eq_6 _ _ _ _ (by rintro dot _ _ _ - rfl; exact hdot rfl),
    Part.mentionsAll, found_eq]
  split <;> simp_all [Part.mentions]

theorem found_id {l : Lexeme} {name : Text} (h : l.token = .idHash name) (rest : List Component) :
    found (.plain l :: rest) = (.id, name) :: found rest := by
  rw [found, Part.readFrom.eq_6 _ _ _ _ (by rintro dot _ _ _ - rfl; cases h), Part.mentionsAll,
    found_eq]
  simp [h, Part.mentions]

theorem found_className {dot l : Lexeme} {name : Text} (hdot : dot.token = .delim '.')
    (h : l.token = .ident name) (rest : List Component) :
    found (.plain dot :: .plain l :: rest) = (.className, name) :: found rest := by
  obtain ⟨_, dot⟩ := dot
  obtain ⟨_, source⟩ := l
  cases hdot
  cases h
  simp [found, Part.readFrom, Part.mentionsAll, Part.mentions]

theorem found_square (opener : Lexeme) (inside : List Component) (closer : Option Lexeme)
    (rest : List Component) :
    found (.block opener .square inside closer :: rest) =
      (AttributeTest.read inside).mentions ++ found rest := by
  simp [found, Part.readFrom, Part.mentionsAll, Part.mentions]

theorem found_paren (opener : Lexeme) (inside : List Component) (closer : Option Lexeme)
    (rest : List Component) :
    found (.block opener .paren inside closer :: rest) = found inside ++ found rest := by
  simp [found, Part.readFrom, Part.mentionsAll, Part.mentions]

/-! ### What stands between brackets of its own -/

/-- Lexemes that nest as these components on any level. -/
def Nests (ls : List Lexeme) (cs : List Component) : Prop :=
  ∀ outer level rest, Component.nest outer level (ls ++ rest) =
    Component.nest outer (cs.reverse ++ level) rest

namespace Nests

theorem nil : Nests [] [] := fun _ _ _ => rfl

theorem append {ls ls' : List Lexeme} {cs cs' : List Component} (h : Nests ls cs)
    (h' : Nests ls' cs') : Nests (ls ++ ls') (cs ++ cs') := by
  intro outer level rest
  rw [List.append_assoc, h, h', List.reverse_append, List.append_assoc]

theorem plain {l : Lexeme} (h : l.token.Plain) : Nests [l] [.plain l] :=
  fun outer _ _ => Component.nest_plain h outer

theorem block {opener closer : Lexeme} {b : Bracket} {ls : List Lexeme} {inside : List Component}
    (hopener : opener.token.opens? = some b) (hcloser : closer.token = .closing b)
    (h : Nests ls inside) :
    Nests (opener :: (ls ++ [closer])) [.block opener b inside (some closer)] := by
  intro outer level rest
  rw [List.cons_append, Component.nest_opener hopener, List.append_assoc, h,
    List.singleton_append, Component.nest_closer hcloser]
  simp [Component.OpenBlock.end]

/-- Lexemes without brackets nest as they are. -/
theorem map_plain {ls : List Lexeme} (h : ∀ l ∈ ls, l.token.Plain) :
    Nests ls (ls.map .plain) := by
  induction ls with
  | nil => exact .nil
  | cons l ls ih =>
    exact (plain (h l (List.mem_cons_self ..))).append
      (ih fun l' hl' => h l' (List.mem_cons_of_mem l hl'))

end Nests

/-- The whole text, where nothing is left open. -/
theorem Nests.ofLexemes {ls : List Lexeme} {cs : List Component} (h : Nests ls cs) :
    Component.ofLexemes ls = cs := by
  have := h [] [] []
  rw [List.append_nil, List.append_nil] at this
  rw [Component.ofLexemes, this, Component.nest, Component.endAll, List.reverse_reverse]

/-- Lexemes that nest as components of their own, and the names found in those. -/
def Yields (ls : List Lexeme) (names : List Mention) : Prop :=
  ∃ cs, Nests ls cs ∧ ∀ rest, found (cs ++ rest) = names ++ found rest

namespace Yields

theorem nil : Yields [] [] := ⟨[], .nil, fun _ => rfl⟩

theorem append {ls ls' : List Lexeme} {ms ns : List Mention} (h : Yields ls ms)
    (h' : Yields ls' ns) : Yields (ls ++ ls') (ms ++ ns) := by
  obtain ⟨cs, hnest, hfound⟩ := h
  obtain ⟨cs', hnest', hfound'⟩ := h'
  refine ⟨cs ++ cs', hnest.append hnest', fun rest => ?_⟩
  rw [List.append_assoc, hfound, hfound', List.append_assoc]

theorem passed {ls : List Lexeme} (h : ∀ l ∈ ls, l.token.Passed) : Yields ls [] := by
  refine ⟨_, .map_plain fun l hl => (h l hl).1, fun rest => ?_⟩
  induction ls with
  | nil => rfl
  | cons l ls ih =>
    rw [List.map_cons, List.cons_append, found_passed (h l (List.mem_cons_self ..))]
    exact ih fun l' hl' => h l' (List.mem_cons_of_mem l hl')

theorem id {l : Lexeme} {name : Text} (h : l.token = .idHash name) : Yields [l] [(.id, name)] :=
  ⟨_, .plain ⟨by rw [h]; rfl, by simp [h]⟩, found_id h⟩

theorem className {dot l : Lexeme} {name : Text} (hdot : dot.token = .delim '.')
    (h : l.token = .ident name) : Yields [dot, l] [(.className, name)] :=
  ⟨_, .map_plain (by simp [hdot, h, Token.Plain, Token.opens?]), found_className hdot h⟩

/-- A function, or a selector in parentheses. -/
theorem function {opener closer : Lexeme} {ls : List Lexeme} {names : List Mention}
    (hopener : opener.token.opens? = some .paren) (hcloser : closer.token = .closing .paren)
    (h : Yields ls names) : Yields (opener :: (ls ++ [closer])) names := by
  obtain ⟨cs, hnest, hfound⟩ := h
  refine ⟨_, .block hopener hcloser hnest, fun rest => ?_⟩
  have hcs := hfound []
  rw [List.append_nil] at hcs
  rw [List.singleton_append, found_paren, hcs]
  simp [found, Part.readFrom, Part.mentionsAll]

end Yields

/-! ### Attribute selectors -/

namespace AttributeTest

/-- The name that a test of the attribute `name` finds in tokens; `operator` says whether there was
an operator before them. -/
def lookFor (name : Option Text) : (operator : Bool) → List Token → List Mention
  | _, [] => []
  | true, .ident v :: _ => ((name.bind Kind.ofAttribute?).map (·, v)).toList
  | true, .string v :: _ => ((name.bind Kind.ofAttribute?).map (·, v)).toList
  | false, .ident v :: ts => lookFor (some v) false ts
  | operator, t :: ts => lookFor name (operator || isOperator t) ts

theorem lookFor_cons {t : Token} (hident : ∀ v, t ≠ .ident v) (hstring : ∀ v, t ≠ .string v)
    (name : Option Text) (operator : Bool) (ts : List Token) :
    lookFor name operator (t :: ts) = lookFor name (operator || isOperator t) ts := by
  cases operator <;> simp [lookFor, hident, hstring]

theorem lookFor_congr {ts us : List Token}
    (h : ∀ name operator, lookFor name operator ts = lookFor name operator us) (t : Token)
    (name : Option Text) (operator : Bool) :
    lookFor name operator (t :: ts) = lookFor name operator (t :: us) := by
  cases operator <;> cases t <;> simp [lookFor, h]

theorem mentions_of_value {a : AttributeTest} {v : AttributeValue} (h : a.value = some v) :
    a.mentions = ((a.name.bind Kind.ofAttribute?).map (·, v.value)).toList := by
  rw [mentions, kind?, h]
  cases a.name.bind Kind.ofAttribute? <;> rfl

theorem mentions_readFrom (a : AttributeTest) (operator : Bool) (pending : Text) (ls : List Lexeme)
    (h : a.value = none) :
    (readFrom a operator pending (ls.map .plain)).mentions =
      lookFor a.name operator (ls.map Lexeme.token) := by
  induction ls generalizing a operator pending with
  | nil => simp [readFrom, lookFor, mentions, kind?, h]
  | cons l ls ih =>
    rw [List.map_cons, List.map_cons, readFrom]
    split
    · next v hv =>
      cases operator with
      | true => rw [if_pos rfl, mentions_of_value rfl, hv]; rfl
      | false => rw [if_neg Bool.false_ne_true, hv]; exact ih _ _ _ h
    · next v hv =>
      cases operator with
      | true => rw [if_pos rfl, mentions_of_value rfl, hv]; rfl
      | false => rw [if_neg Bool.false_ne_true, hv]; exact ih _ _ _ h
    · next hident hstring =>
      rw [lookFor_cons hident hstring]
      exact ih _ _ _ h

/-- Comments are passed over. -/
theorem lookFor_bare (name : Option Text) (operator : Bool) (ls : List Lexeme) :
    lookFor name operator (bare ls) = lookFor name operator (ls.map Lexeme.token) := by
  rw [bare]
  generalize ls.map Lexeme.token = ts
  induction ts generalizing name operator with
  | nil => rfl
  | cons t ts ih =>
    by_cases ht : t = .comment
    · subst ht
      rw [List.filter_cons_of_neg (by simp), ih, lookFor_cons (by simp) (by simp)]
      exact congrArg (lookFor name · ts) (Bool.or_false operator).symm
    · rw [List.filter_cons_of_pos (by simpa using ht)]
      exact lookFor_congr ih t name operator

theorem lookFor_gap (g : Gap) (name : Option Text) (operator : Bool) (us : List Token) :
    lookFor name operator (g.tokens ++ us) = lookFor name operator us := by
  rw [Gap.tokens]
  induction g with
  | zero => rfl
  | succ g ih =>
    rw [List.replicate_succ, List.cons_append, lookFor_cons (by simp) (by simp)]
    simpa [isOperator] using ih

/-- The name of a namespace stands before the attribute's own. -/
theorem lookFor_space (space : Grammar.Space) (name : Option Text) (v : Text) (us : List Token) :
    lookFor name false (space.tokens ++ .ident v :: us) = lookFor (some v) false us := by
  cases space <;> simp [Grammar.Space.tokens, lookFor, isOperator]

theorem lookFor_operator (o : Grammar.Operator) (name : Option Text) (us : List Token) :
    lookFor name false (o.tokens ++ us) = lookFor name true us := by
  cases o <;> simp [Grammar.Operator.tokens, lookFor, isOperator]

theorem lookFor_value (v : Grammar.Value) (name : Option Text) (us : List Token) :
    lookFor name true (v.token :: us) =
      ((name.bind Kind.ofAttribute?).map (·, v.text)).toList := by
  cases v <;> rfl

theorem lookFor_tokens (a : Grammar.Attribute) : lookFor none false a.tokens = a.names := by
  rw [Grammar.Attribute.tokens, List.append_assoc, lookFor_gap, lookFor_space, lookFor_gap,
    Grammar.Attribute.names]
  cases a.comparison with
  | none => cases Kind.ofAttribute? a.name <;> rfl
  | some c =>
    show lookFor _ _ c.tokens = _
    rw [Grammar.Comparison.tokens, List.append_assoc, lookFor_operator, lookFor_gap, lookFor_value,
      Option.bind_some]
    cases Kind.ofAttribute? a.name <;> rfl

/-- **What is found between square brackets** is what the grammar says. -/
theorem mentions_read {ls : List Lexeme} {a : Grammar.Attribute} (h : bare ls = a.tokens) :
    (read (ls.map .plain)).mentions = a.names := by
  rw [read, mentions_readFrom _ _ _ _ rfl, ← lookFor_bare, h, lookFor_tokens]

end AttributeTest

/-! ### Along the grammar -/

/-- What comments have, all lexemes have if their tokens without comments do. -/
theorem forall_bare {p : Token → Prop} (hcomment : p .comment) {ls : List Lexeme}
    (h : ∀ t ∈ bare ls, p t) : ∀ l ∈ ls, p l.token := by
  intro l hl
  by_cases hl' : l.token = .comment
  · rwa [hl']
  · exact h _ (List.mem_filter.mpr ⟨List.mem_map_of_mem hl, by simpa using hl'⟩)

theorem Token.passed_comment : Passed .comment := ⟨⟨rfl, by simp⟩, by simp, by simp⟩

theorem Yields.comments {ls : List Lexeme} (h : bare ls = []) : Yields ls [] :=
  .passed (forall_bare Token.passed_comment (by simp [h]))

/-- However the tokens are written, with comments between them, these names are found. -/
def Finds (ts : List Token) (names : List Mention) : Prop :=
  ∀ ls, DotsBare ls → bare ls = ts → Yields ls names

namespace Finds

theorem append {ts us : List Token} {ms ns : List Mention} (h : Finds ts ms) (h' : Finds us ns) :
    Finds (ts ++ us) (ms ++ ns) := by
  intro ls hls hbare
  obtain ⟨ls₁, ls₂, rfl, h₁, h₂⟩ := bare_eq_append hbare
  exact (h ls₁ (hls.within (List.prefix_append _ _).isInfix) h₁).append
    (h' ls₂ (hls.within (List.suffix_append _ _).isInfix) h₂)

theorem passed {ts : List Token} (h : ∀ t ∈ ts, t.Passed) : Finds ts [] :=
  fun _ _ hbare => .passed (forall_bare Token.passed_comment (hbare ▸ h))

/-- Tokens passed over before, and tokens passed over behind. -/
theorem behind {ts us : List Token} {names : List Mention} (h : ∀ t ∈ ts, t.Passed)
    (h' : Finds us names) : Finds (ts ++ us) names :=
  (passed h).append h'

theorem before {ts us : List Token} {names : List Mention} (h : Finds ts names)
    (h' : ∀ t ∈ us, t.Passed) : Finds (ts ++ us) names := by
  have := h.append (passed h')
  rwa [List.append_nil] at this

theorem id (name : Text) : Finds [.idHash name] [(.id, name)] := by
  intro ls _ hbare
  obtain ⟨cs, l, cs', rfl, hcs, hl, hcs'⟩ := bare_eq_cons hbare
  exact (Yields.comments hcs).append ((Yields.id hl).append (.comments hcs'))

theorem className (name : Text) : Finds [.delim '.', .ident name] [(.className, name)] := by
  intro ls hls hbare
  obtain ⟨cs, dot, ls', rfl, hcs, hdot, hls'⟩ := bare_eq_cons hbare
  obtain ⟨cs', l, cs'', rfl, hcs', hl, hcs''⟩ := bare_eq_cons hls'
  cases cs' with
  | nil => exact (Yields.comments hcs).append ((Yields.className hdot hl).append (.comments hcs''))
  | cons c cs' =>
    have hc : c.token = .comment :=
      forall_bare (p := fun t => t = .comment) rfl (fun t ht => by rw [hcs'] at ht; cases ht) c
        (List.mem_cons_self ..)
    have hpair : [dot, c] <:+: cs ++ dot :: (c :: cs' ++ l :: cs'') :=
      ⟨cs, cs' ++ l :: cs'', by simp⟩
    exact absurd hc (List.isChain_pair.mp (hls.within hpair) hdot)

/-- Between brackets stand the tokens of the inside and comments. -/
theorem bare_eq_block {ls : List Lexeme} {t : Token} {b : Bracket} {ts : List Token}
    (h : bare ls = t :: (ts ++ [.closing b])) :
    ∃ cs opener inside closer cs', ls = cs ++ ((opener :: (inside ++ [closer])) ++ cs') ∧
      bare cs = [] ∧ opener.token = t ∧ bare inside = ts ∧ closer.token = .closing b ∧
      bare cs' = [] := by
  obtain ⟨cs, opener, ls', rfl, hcs, hopener, hls'⟩ := bare_eq_cons h
  obtain ⟨ls₁, ls₂, rfl, h₁, h₂⟩ := bare_eq_append hls'
  obtain ⟨cs₂, closer, cs', rfl, hcs₂, hcloser, hcs'⟩ := bare_eq_cons h₂
  exact ⟨cs, opener, ls₁ ++ cs₂, closer, cs', by simp, hcs, hopener,
    by rw [bare_append, h₁, hcs₂, List.append_nil], hcloser, hcs'⟩

theorem function {t : Token} (ht : t.opens? = some .paren) {ts : List Token}
    {names : List Mention} (h : Finds ts names) :
    Finds (t :: (ts ++ [.closing .paren])) names := by
  intro ls hls hbare
  obtain ⟨cs, opener, inside, closer, cs', rfl, hcs, hopener, hinside, hcloser, hcs'⟩ :=
    bare_eq_block hbare
  have hyields : Yields inside names :=
    h inside (hls.within ⟨cs ++ [opener], closer :: cs', by simp⟩) hinside
  have := (Yields.comments hcs).append
    ((hyields.function (by rw [hopener, ht]) hcloser).append (.comments hcs'))
  rwa [List.append_nil] at this

theorem square (a : Grammar.Attribute) (ha : ∀ t ∈ a.tokens, t.Plain) :
    Finds (.opening .square :: (a.tokens ++ [.closing .square])) a.names := by
  intro ls _ hbare
  obtain ⟨cs, opener, inside, closer, cs', rfl, hcs, hopener, hinside, hcloser, hcs'⟩ :=
    bare_eq_block hbare
  have hplain : ∀ l ∈ inside, l.token.Plain :=
    forall_bare Token.passed_comment.1 (hinside ▸ ha)
  have hyields : Yields (opener :: (inside ++ [closer])) a.names :=
    ⟨_, .block (by rw [hopener]; rfl) hcloser (.map_plain hplain), fun rest => by
      rw [List.singleton_append, found_square, AttributeTest.mentions_read hinside]⟩
  have := (Yields.comments hcs).append (hyields.append (.comments hcs'))
  rwa [List.append_nil] at this

end Finds

namespace Grammar

theorem Gap.passed (g : Gap) : ∀ t ∈ g.tokens, t.Passed := by
  intro t ht
  rw [List.eq_of_mem_replicate ht]
  exact ⟨⟨rfl, by simp⟩, by simp, by simp⟩

theorem Space.passed (s : Space) : ∀ t ∈ s.tokens, t.Passed := by
  cases s <;> simp [tokens, Token.Passed, Token.Plain, Token.opens?]

theorem TypeSelector.passed (s : TypeSelector) : ∀ t ∈ s.tokens, t.Passed := by
  have := s.space.passed
  cases hname : s.name <;>
    simp_all [tokens, Token.Passed, Token.Plain, Token.opens?, or_imp, forall_and]

theorem colons_passed (double : Bool) : ∀ t ∈ colons double, t.Passed := by
  cases double <;> simp [colons, Token.Passed, Token.Plain, Token.opens?]

theorem Combinator.passed (c : Combinator) : ∀ t ∈ c.tokens, t.Passed := by
  cases c with
  | descendant more => exact Gap.passed _
  | child g g' | next g g' | later g g' | column g g' =>
    have := Gap.passed g
    have := Gap.passed g'
    simp_all [tokens, Token.Passed, Token.Plain, Token.opens?, or_imp, forall_and]

theorem Joint.passed (j : Joint) : ∀ t ∈ j.tokens, t.Passed := by
  cases j with
  | combinator c => exact c.passed
  | comma g g' =>
    have := g.passed
    have := g'.passed
    simp_all [tokens, Token.Passed, Token.Plain, Token.opens?, or_imp, forall_and]

theorem Nth.passed (n : Nth) : ∀ t ∈ n.tokens, t.Passed := by
  have hstep : n.step.Passed := by
    obtain ⟨v, h⟩ | h | h := n.step_eq <;>
      exact h ▸ ⟨⟨rfl, by simp⟩, by simp, by simp⟩
  intro t ht
  rw [tokens, List.mem_append, List.mem_cons] at ht
  obtain hplus | rfl | ht := ht
  · split at hplus <;> simp_all [Token.Passed, Token.Plain, Token.opens?]
  · exact hstep
  · revert t
    rcases n.offset with _ | ⟨g, _ | ⟨minus, g'⟩⟩
    · simp
    · have := g.passed
      simp_all [Token.Passed, Token.Plain, Token.opens?, or_imp, forall_and]
    · have := g.passed
      have := Gap.passed g'
      cases minus <;> simp_all [Token.Passed, Token.Plain, Token.opens?, or_imp, forall_and]

theorem Operator.plain (o : Operator) : ∀ t ∈ o.tokens, t.Plain := by
  cases o <;> simp [tokens, Token.Plain, Token.opens?]

theorem Comparison.plain (c : Comparison) : ∀ t ∈ c.tokens, t.Plain := by
  have hoperator := c.operator.plain
  have hbefore := c.before.passed
  have hbehind := c.behind.passed
  have hvalue : c.value.token.Plain := by cases c.value <;> exact ⟨rfl, by simp [Value.token]⟩
  rw [tokens]
  rcases c.flag with _ | ⟨flag, g⟩
  · simp_all [Token.Passed, Token.Plain, Token.opens?, or_imp, forall_and]
  · have := Gap.passed g
    simp_all [Token.Passed, Token.Plain, Token.opens?, or_imp, forall_and]

theorem Attribute.plain (a : Attribute) : ∀ t ∈ a.tokens, t.Plain := by
  have hlead := a.lead.passed
  have hspace := a.space.passed
  have hbehind := a.behind.passed
  rw [tokens]
  cases a.comparison with
  | none => simp_all [Token.Passed, Token.Plain, Token.opens?, or_imp, forall_and]
  | some c =>
    have := c.plain
    simp_all [Token.Passed, Token.Plain, Token.opens?, or_imp, forall_and]

theorem passed_ident (name : Text) : ∀ t ∈ [Token.ident name], t.Passed := by
  simp [Token.Passed, Token.Plain, Token.opens?]

mutual

/-- **The names of a simple selector are found**, and so on up to a list of selectors. -/
theorem Simple.finds : (s : Simple) → Finds s.tokens s.names
  | .className n => by rw [Simple.tokens, Simple.names]; exact .className n
  | .id n => by rw [Simple.tokens, Simple.names]; exact .id n
  | .attribute a => by rw [Simple.tokens, Simple.names]; exact .square a a.plain
  | .pseudo double n => by
    rw [Simple.tokens, Simple.names]
    exact .behind (colons_passed double) (.passed (passed_ident n))
  | .function double n arguments => by
    rw [Simple.tokens, Simple.names]
    exact .behind (colons_passed double) (.function rfl arguments.finds)

theorem Arguments.finds : (a : Arguments) → Finds a.tokens a.names
  | .nth lead n trail => by
    rw [Arguments.tokens, Arguments.names]
    exact .before (.behind lead.passed (.passed n.passed)) trail.passed
  | .nthOf lead n gap of behind list trail => by
    rw [Arguments.tokens, Arguments.names]
    have hof : Finds (.ident of :: (behind.tokens ++ list.tokens)) list.names :=
      .behind (passed_ident of) (.behind behind.passed list.finds)
    have hnth : Finds (lead.tokens ++ n.tokens ++ gap.tokens) [] :=
      .before (.before (.passed lead.passed) n.passed) gap.passed
    exact (hnth.append hof).before trail.passed
  | .selectors lead relation list trail => by
    rw [Arguments.tokens, Arguments.names]
    have hrelation : Finds ((relation.map Combinator.tokens).getD []) [] := by
      cases relation with
      | none => exact .passed (by simp)
      | some c => exact .passed c.passed
    exact .before (((Finds.passed lead.passed).append hrelation).append list.finds) trail.passed

theorem Compound.finds : (c : Compound) → Finds c.tokens c.names
  | .type none => by rw [Compound.tokens, Compound.names]; exact .passed (by simp)
  | .type (some t) => by rw [Compound.tokens, Compound.names]; exact .passed t.passed
  | .behind c s => by rw [Compound.tokens, Compound.names]; exact c.finds.append s.finds

theorem Selectors.finds : (s : Selectors) → Finds s.tokens s.names
  | .last c => by rw [Selectors.tokens, Selectors.names]; exact c.finds
  | .join c j rest => by
    rw [Selectors.tokens, Selectors.names]
    exact (c.finds.before j.passed).append rest.finds

end

end Grammar

/-! ### Selectors as text -/

/-- The text is the selector list, with white space around it and comments between its tokens. -/
def Grammar.Selectors.Spelled (list : Grammar.Selectors) (s : Text) : Prop :=
  ∃ lead trail : Gap, bare (Lexeme.scan s) = lead.tokens ++ list.tokens ++ trail.tokens

/-- **Every name of a selector is asked for once**, from left to right, and nothing else is,
whatever the answers are, if no comment stands between a dot and the name behind it. -/
theorem Selector.asks_for_names {σ : Type} (f : Renaming σ) (st : σ) {s : Text}
    {list : Grammar.Selectors} (hs : list.Spelled s) (hdots : DotsBare (Lexeme.scan s)) :
    ((parse s).rename f.logged).run (st, []) =
      (((parse s).rename f).run st |>.1, ((parse s).rename f).run st |>.2, list.names) := by
  obtain ⟨lead, trail, hs⟩ := hs
  have hfinds : Finds (lead.tokens ++ list.tokens ++ trail.tokens) list.names :=
    .before (.behind lead.passed list.finds) trail.passed
  obtain ⟨cs, hnests, hfound⟩ := hfinds _ hdots hs
  have hnames : Part.mentionsAll (parse s) = list.names := by
    have hcs := hfound []
    rw [List.append_nil, show found [] = [] from by simp [found, Part.readFrom, Part.mentionsAll],
      List.append_nil] at hcs
    rw [parse, Component.read, hnests.ofLexemes]
    exact hcs
  rw [Selector.rename, Part.logs_renameAll f (parse s) st [], hnames]
  rfl

/-- In `g>a.\31 0:not( #x [ns|FOR ~= "y" i] ) , :nth-child(2n + 1 of /**/ .b)`, with one more
comment, the escape is undone, and the order is that of the text. -/
theorem Selector.asks_for_names_of_list :
    let test : Grammar.Attribute :=
      { lead := 0, space := .named ['n', 's'], name := ['F', 'O', 'R'], behind := 1,
        comparison := some
          { operator := .joined '~', before := 1, value := .string ['y'], behind := 1,
            flag := some (['i'], 0) } }
    let first : Grammar.Compound := .behind (.behind (.type (some ⟨.omitted, some ['a']⟩))
      (.className ['1', '0'])) (.function false ['n', 'o', 't'] (.selectors 1 none
        (.join (.behind (.type none) (.id ['x'])) (.combinator (.descendant 0))
          (.last (.behind (.type none) (.attribute test)))) 1))
    let second : Grammar.Compound := .behind (.type none)
      (.function false "nth-child".toList (.nthOf 0 ⟨false, .dimension, .inr (.inl rfl),
        some (1, some (false, 1))⟩ 1 ['o', 'f'] 2
        (.last (.behind (.type none) (.className ['b']))) 0))
    let list : Grammar.Selectors := .join (.type (some ⟨.omitted, some ['g']⟩))
      (.combinator (.child 0 0)) (.join first (.comma 1 1) (.last second))
    let s := "g>/**/a.\\31 0:not( #x [ns|FOR ~= \"y\" i] ) , :nth-child(2n + 1 of /**/ .b)".toList
    let f : Renaming Unit := fun _ _ => pure none
    list.Spelled s ∧ DotsBare (Lexeme.scan s) ∧
      (((parse s).rename f.logged).run ((), [])).2.2 =
        [(.className, ['1', '0']), (.id, ['x']), (.id, ['y']), (.className, ['b'])] := by
  intro test first second list s f
  have hs : list.Spelled s := ⟨0, 0, by decide +kernel⟩
  have hdots : DotsBare (Lexeme.scan s) := by
    unfold DotsBare
    decide +kernel
  refine ⟨hs, hdots, ?_⟩
  rw [asks_for_names f () hs hdots]
  rfl

/-- A class is not found if a comment parts it from its dot, where the grammar allows one. -/
theorem Selector.commented_class_missed :
    let list : Grammar.Selectors := .last (.behind (.type none) (.className ['x']))
    let f : Renaming Unit := fun _ _ => pure none
    list.Spelled "./**/x".toList ∧ list.names = [(.className, ['x'])] ∧
      (((parse "./**/x".toList).rename f.logged).run ((), [])).2.2 = [] := by
  intro list f
  refine ⟨⟨0, 0, by decide +kernel⟩, rfl, ?_⟩
  have hread : Component.read "./**/x".toList =
      [.plain ⟨.delim '.', ['.']⟩, .plain ⟨.comment, "/**/".toList⟩,
        .plain ⟨.ident ['x'], ['x']⟩] := by rfl
  rw [Selector.rename, Part.logs_renameAll, parse, hread]
  simp [Part.readFrom, Part.mentionsAll, Part.mentions]

end TerseMarkup.Css
