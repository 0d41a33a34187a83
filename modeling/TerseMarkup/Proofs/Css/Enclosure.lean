import TerseMarkup.Proofs.Assignment
import TerseMarkup.Proofs.Css.Codes
import TerseMarkup.Proofs.Css.EndMark
import TerseMarkup.Proofs.Css.Source
import TerseMarkup.Shortener.Css

/-! When a shortened stylesheet stays inside its style element.

A stylesheet that does not hold `</style` may hold it once its names have been exchanged: names are
read with their escapes undone, and a code may keep what an escape stood for. `writings` lists the
codes of a stylesheet with what is printed around them, and `Completes` says which of them make up
the mark. Everything else is printed as it was read, cut only at characters that no mark has, so no
mark comes from anywhere else (`shortenCss_endsStyle_iff`). -/
namespace TerseMarkup
namespace Css

/-- A code in a stylesheet, and what is printed before it and behind it. -/
structure Writing where
  code : Text
  quoted : Bool
  before : Text
  after : Text

/-- Whether the code makes up the mark. Between quotes it has to hold all of it. As an identifier it
can end with the bracket of a mark that goes on behind it, or go on with a mark that began before
it; a slash at its start would be written behind a backslash. -/
def Writing.Completes : Writing → Prop
  | ⟨code, true, _, _⟩ => EndsStyle code
  | ⟨code, false, before, after⟩ =>
    code.getLast? = some '<' ∧ endMark.drop 1 <+: after.lower ∨
      code.head? ≠ some '/' ∧ ∃ n, 0 < n ∧ n < endMark.length ∧
        endMark.take n <:+ before.lower ∧ endMark.drop n <+: (code ++ after).lower

namespace AttributeTest

def writings (a : AttributeTest) : List Writing :=
  match a.value with
  | some v => v.code.toList.map fun code => ⟨code, v.quoted, a.head, a.tail⟩
  | none => []

end AttributeTest

namespace Part

mutual

/-- The codes in a part, given what is printed behind it. -/
def writings (after : Text) : Part → List Writing
  | className n => n.code.toList.map fun code => ⟨code, false, ['.'], after⟩
  | id n => n.code.toList.map fun code => ⟨code, false, ['#'], after⟩
  | attributeTest a => a.writings
  | function _ inside => writingsAll inside
  | tag _ => []
  | other _ => []

def writingsAll : List Part → List Writing
  | [] => []
  | p :: rest => p.writings (textOf rest) ++ writingsAll rest

end

end Part

namespace Rule

mutual

def writings : Rule → List Writing
  | style selector _ => Part.writingsAll selector
  | group _ rules => writingsAll rules
  | block _ _ => []
  | raw _ => []

def writingsAll : List Rule → List Writing
  | [] => []
  | r :: rest => r.writings ++ writingsAll rest

end

end Rule

/-- The codes that a stylesheet prints. -/
def Stylesheet.writings (s : Stylesheet) : List Writing := Rule.writingsAll s

/-! ### One code -/

theorem endsStyle_ident (before code after : Text) :
    EndsStyle (before ++ (writeIdent code ++ after)) ↔
      EndsStyle before ∨ Writing.Completes ⟨code, false, before, after⟩ ∨ EndsStyle after := by
  have hseam : (∃ n, 0 < n ∧ n < endMark.length ∧ endMark.take n <:+ before.lower ∧
      endMark.drop n <+: Text.lower (writeIdent code ++ after)) ↔
      code.head? ≠ some '/' ∧ ∃ n, 0 < n ∧ n < endMark.length ∧ endMark.take n <:+ before.lower ∧
        endMark.drop n <+: (code ++ after).lower := by
    constructor
    · rintro ⟨n, hpos, hn, hbefore, hcode⟩
      obtain ⟨hhead, hcode⟩ := (drop_prefix_writeIdent hpos hn code after).mp hcode
      exact ⟨hhead, n, hpos, hn, hbefore, hcode⟩
    · rintro ⟨hhead, n, hpos, hn, hbefore, hcode⟩
      exact ⟨n, hpos, hn, hbefore, (drop_prefix_writeIdent hpos hn code after).mpr ⟨hhead, hcode⟩⟩
  rw [endsStyle_append, endsStyle_writeIdent, hseam, Writing.Completes]
  exact or_congr_right or_right_comm

/-- A sigil before a code keeps it apart from what is printed before. -/
theorem endsStyle_name {sigil : Char} (h : sigil.toLower ∉ endMark) (before code after : Text) :
    EndsStyle (before ++ sigil :: (writeIdent code ++ after)) ↔
      EndsStyle before ∨ Writing.Completes ⟨code, false, [sigil], after⟩ ∨ EndsStyle after := by
  have halone : ¬ EndsStyle [sigil] := by
    simpa [not_endsStyle_nil] using (endsStyle_apart h [] []).not
  have hcode : EndsStyle (writeIdent code ++ after) ↔
      EndsStyle ([sigil] ++ (writeIdent code ++ after)) := by
    simpa [not_endsStyle_nil] using (endsStyle_apart h [] (writeIdent code ++ after)).symm
  rw [endsStyle_apart h, hcode, endsStyle_ident, or_iff_right halone]

namespace AttributeTest

theorem head_infix_source (a : AttributeTest) : a.head <:+: a.source :=
  ⟨[], (a.value.map AttributeValue.source).getD [] ++ a.tail, by simp [source]⟩

theorem tail_infix_source (a : AttributeTest) : a.tail <:+: a.source :=
  ⟨a.head ++ (a.value.map AttributeValue.source).getD [], [], by simp [source]⟩

/-- A mark in an attribute test comes from its code. -/
theorem endsStyle_inside {a : AttributeTest} (h : ¬ EndsStyle a.source) :
    EndsStyle (a.head ++ (a.value.map AttributeValue.text).getD [] ++ a.tail) ↔
      ∃ w ∈ a.writings, w.Completes := by
  have hhead : ¬ EndsStyle a.head := fun hm => h (hm.mono a.head_infix_source)
  have htail : ¬ EndsStyle a.tail := fun hm => h (hm.mono a.tail_infix_source)
  rw [writings]
  cases hvalue : a.value with
  | none => simpa [source, hvalue] using h
  | some v =>
    obtain ⟨spelled, value, quoted, code⟩ := v
    cases code with
    | none => simpa [source, hvalue, AttributeValue.text] using h
    | some code =>
      cases quoted with
      | true => simp [AttributeValue.text, endsStyle_writeString, Writing.Completes, hhead, htail]
      | false => simp [AttributeValue.text, endsStyle_ident, hhead, htail]

end AttributeTest

/-! ### Selectors -/

theorem not_endsStyle_rest {before pending : Text} {c : Component} {rest : List Component}
    (h : ¬ EndsStyle (before ++ (pending ++ Component.textOf (c :: rest)))) :
    ¬ EndsStyle (Component.textOf rest) := fun hm => h <| hm.mono
  (((List.suffix_append c.text _).trans (List.suffix_append pending _)).trans
    (List.suffix_append before _)).isInfix

namespace Part

/-- A name is printed as it was read, so that what comes before it goes on, or with its code. -/
theorem endsStyle_named {sigil : Char} (hsigil : sigil.toLower ∉ endMark) {n : Name}
    {before source after : Text} {ws : List Writing}
    (h : ¬ EndsStyle (before ++ (n.source ++ source)))
    (hafter : ∀ before, ¬ EndsStyle (before ++ source) →
      (EndsStyle (before ++ after) ↔ ∃ w ∈ ws, w.Completes)) :
    EndsStyle (before ++ (n.text sigil ++ after)) ↔
      ∃ w ∈ n.code.toList.map (⟨·, false, [sigil], after⟩) ++ ws, w.Completes := by
  rw [Name.text]
  cases n.code with
  | none =>
    rw [← List.append_assoc] at h ⊢
    exact hafter _ h
  | some code =>
    have hbefore : ¬ EndsStyle before := fun hm => h (hm.mono (List.prefix_append _ _).isInfix)
    have hsource : ¬ EndsStyle source := fun hm => h <| hm.mono
      ((List.suffix_append _ _).trans (List.suffix_append _ _)).isInfix
    have hrest : EndsStyle after ↔ ∃ w ∈ ws, w.Completes := hafter [] hsource
    show EndsStyle (before ++ (sigil :: writeIdent code ++ after)) ↔ _
    rw [List.cons_append, endsStyle_name hsigil, or_iff_right hbefore, hrest]
    simp

/-- **A mark in a selector comes from one of its codes**, also together with what is printed before
it, if what was read has none. -/
theorem endsStyle_textOf (codes : Codes) (pseudo : Bool) (pending : Text) (cs : List Component)
    (before : Text) (h : ¬ EndsStyle (before ++ (pending ++ Component.textOf cs))) :
    EndsStyle (before ++ textOf (exchangeAll codes (readFrom pseudo pending cs))) ↔
      ∃ w ∈ writingsAll (exchangeAll codes (readFrom pseudo pending cs)), w.Completes := by
  fun_induction readFrom pseudo pending cs generalizing before with
  | case1 pseudo pending =>
    refine iff_of_false (fun hm => h (hm.mono ?_)) (by simp [exchangeAll, writingsAll])
    simpa [exchangeAll, textOf] using (List.prefix_append before _).isInfix
  | case2 pseudo pending opener inside closer rest ih =>
    simp only [exchangeAll, exchange, textOf, text, writingsAll, writings, List.nil_append]
    rw [← List.append_assoc]
    refine ih _ ?_
    simpa [Component.textOf, Component.text, Component.textInside] using h
  | case3 pseudo pending opener inside closer rest ih =>
    have hrest := not_endsStyle_rest h
    simp only [Component.textOf, Component.text] at h
    have hbefore : ¬ EndsStyle before := fun hm => h (hm.mono (List.prefix_append _ _).isInfix)
    have hinside : ¬ EndsStyle ((AttributeTest.read inside).exchange codes).source := by
      rw [AttributeTest.source_exchange, AttributeTest.source_read]
      exact fun hm => h (hm.mono ⟨before ++ pending ++ opener.text, _, by simp; rfl⟩)
    simp only [exchangeAll, exchange, textOf, text, AttributeTest.text, writingsAll, writings]
    rw [List.cons_append, endsStyle_apart (by decide), or_iff_right hbefore, List.append_assoc _ [']'],
      List.singleton_append, endsStyle_apart (by decide), AttributeTest.endsStyle_inside hinside]
    rw [← List.nil_append (textOf (exchangeAll codes _)), ih [] hrest]
    simp [or_and_right, exists_or]
  | case4 pseudo pending opener inside closer rest ih₁ ih₂ =>
    have hrest := not_endsStyle_rest h
    simp only [Component.textOf, Component.text] at h
    have hinside : ¬ EndsStyle (before ++ (pending ++ opener.text) ++
        ([] ++ Component.textOf inside)) :=
      fun hm => h (hm.mono ⟨[], _, by simp; rfl⟩)
    simp only [exchangeAll, exchange, textOf, text, writingsAll, writings]
    rw [List.append_assoc _ [')'], List.singleton_append, ← List.append_assoc before,
      endsStyle_apart (by decide), ← List.append_assoc before, ih₁ _ hinside,
      ← List.nil_append (textOf (exchangeAll codes (readFrom false [] rest))), ih₂ [] hrest]
    simp [or_and_right, exists_or]
  | case5 pseudo pending dot value source rest ih =>
    simp only [exchangeAll, exchange, textOf, text, writingsAll, writings]
    refine endsStyle_named (by decide) ?_ ih
    simpa [Component.textOf, Component.text] using h
  | case6 pseudo pending l rest hname source part ih =>
    have hsource : ¬ EndsStyle (before ++ (source ++ ([] ++ Component.textOf rest))) := by
      simpa [source, Component.textOf, Component.text] using h
    -- All but an id is printed as it was read.
    have hpart : (part.exchange codes = part ∧ part.text = source ∧
        ∀ after, part.writings after = []) ∨ ∃ value, part = id { source, value } := by
      simp only [part]
      split
      · cases pseudo <;> exact .inl ⟨by simp [exchange], by simp [text], fun _ => by simp [writings]⟩
      · exact .inr ⟨_, rfl⟩
      · exact .inl ⟨by simp [exchange], by simp [text], fun _ => by simp [writings]⟩
    rcases hpart with ⟨hexchange, htext, hwritings⟩ | ⟨value, hid⟩
    · rw [← List.append_assoc] at hsource
      rw [exchangeAll, textOf, writingsAll, hexchange, htext, hwritings, ← List.append_assoc,
        ih _ hsource]
      rfl
    · rw [hid]
      simp only [exchangeAll, exchange, textOf, text, writingsAll, writings]
      exact endsStyle_named (by decide) hsource ih

/-- The same of a whole selector. -/
theorem endsStyle_selector (codes : Codes) {before s : Text} (h : ¬ EndsStyle (before ++ s)) :
    EndsStyle (before ++ textOf (exchangeAll codes (Selector.parse s))) ↔
      ∃ w ∈ writingsAll (exchangeAll codes (Selector.parse s)), w.Completes :=
  endsStyle_textOf codes false [] (Component.read s) before (by rwa [Component.textOf_read])

end Part

/-! ### Stylesheets -/

namespace Rule

/-- The braces of a block keep its inside apart from what is around it. -/
theorem endsStyle_braces (before prelude body after : Text) :
    EndsStyle (before ++ (prelude ++ '{' :: (body ++ ['}']) ++ after)) ↔
      EndsStyle (before ++ prelude) ∨ EndsStyle body ∨ EndsStyle after := by
  rw [List.append_assoc prelude, List.cons_append, ← List.append_assoc before,
    endsStyle_apart (by decide), List.append_assoc body, List.singleton_append,
    endsStyle_apart (by decide)]

section Read

variable {codes : Codes} {before prelude : Text} {opener : Lexeme} {inside rest : List Component}
  {closer : Option Lexeme}

theorem not_endsStyle_inside
    (h : ¬ EndsStyle (before ++ (prelude ++
      Component.textOf (.block opener .curly inside closer :: rest)))) :
    ¬ EndsStyle (before ++ prelude) ∧ ¬ EndsStyle (Component.textOf inside) := by
  constructor
  · rw [← List.append_assoc] at h
    exact fun hm => h (hm.mono (List.prefix_append _ _).isInfix)
  · exact fun hm => h (hm.mono ⟨before ++ prelude ++ opener.text,
      (closer.map Lexeme.text).getD [] ++ Component.textOf rest,
      by simp [Component.textOf, Component.text]⟩)

theorem endsStyle_style
    (h : ¬ EndsStyle (before ++ (prelude ++
      Component.textOf (.block opener .curly inside closer :: rest))))
    (hrest : EndsStyle (textOf (exchangeAll codes (readFrom .none rest))) ↔
      ∃ w ∈ writingsAll (exchangeAll codes (readFrom .none rest)), w.Completes) :
    let rules := style (Selector.parse prelude) (Component.textOf inside) :: readFrom .none rest
    EndsStyle (before ++ textOf (exchangeAll codes rules)) ↔
      ∃ w ∈ writingsAll (exchangeAll codes rules), w.Completes := by
  obtain ⟨hprelude, hinside⟩ := not_endsStyle_inside h
  simp only [exchangeAll, exchange, textOf, text, writingsAll, writings]
  rw [Selector.text, endsStyle_braces, or_iff_right hinside,
    Part.endsStyle_selector codes hprelude, hrest]
  simp [or_and_right, exists_or]

end Read

/-- **A mark in a stylesheet comes from one of its codes**, if what was read has none. -/
theorem endsStyle_textOf (codes : Codes) (begun : Begun) (cs : List Component) (before : Text)
    (h : ¬ EndsStyle (before ++ (begun.text ++ Component.textOf cs))) :
    EndsStyle (before ++ textOf (exchangeAll codes (readFrom begun cs))) ↔
      ∃ w ∈ writingsAll (exchangeAll codes (readFrom begun cs)), w.Completes := by
  fun_induction readFrom begun cs generalizing before with
  | case1 =>
    refine iff_of_false (fun hm => h (hm.mono ?_)) (by simp [exchangeAll, writingsAll])
    simpa [exchangeAll, textOf] using (List.prefix_append before _).isInfix
  | case2 name prelude | case3 prelude =>
    simp only [Begun.text, Component.textOf] at h
    simpa [exchangeAll, exchange, textOf, text, writingsAll, writings] using h
  | case4 opener inside closer rest ih => exact endsStyle_style h (ih [] (not_endsStyle_rest h))
  | case5 name prelude opener inside closer rest ih₁ ih₂ =>
    have hrest := ih₂ [] (not_endsStyle_rest h)
    obtain ⟨hprelude, hinside⟩ := not_endsStyle_inside h
    split
    · have hrules := ih₁ [] hinside
      simp only [List.nil_append] at hrest hrules
      simp only [exchangeAll, exchange, textOf, text, writingsAll, writings]
      rw [endsStyle_braces, or_iff_right (a := EndsStyle (before ++ prelude)) hprelude, hrules,
        hrest]
      simp [or_and_right, exists_or]
    · simp only [exchangeAll, exchange, textOf, text, writingsAll, writings]
      rw [endsStyle_braces, or_iff_right (a := EndsStyle (before ++ prelude)) hprelude,
        or_iff_right hinside]
      exact hrest
  | case6 prelude opener inside closer rest ih =>
    exact endsStyle_style h (ih [] (not_endsStyle_rest h))
  | case7 l rest hsep ih =>
    simp only [exchangeAll, exchange, textOf, text, writingsAll, writings, List.nil_append]
    rw [← List.append_assoc]
    refine ih _ ?_
    simpa [Begun.text, Component.textOf, Component.text] using h
  | case10 name prelude l rest hsemi ih =>
    simp only [exchangeAll, exchange, textOf, text, writingsAll, writings, List.nil_append]
    rw [← List.append_assoc]
    refine ih _ ?_
    simpa [Begun.text, Component.textOf, Component.text] using h
  | case8 l rest hsep name hname ih | case9 l rest hsep hname ih
  | case11 name prelude l rest hsemi ih | case12 prelude l rest ih =>
    refine ih before ?_
    simpa [Begun.text, Component.textOf, Component.text] using h
  | case13 o b inside c rest hb ih | case14 name prelude o b inside c rest hb ih
  | case15 prelude o b inside c rest hb ih =>
    refine ih before ?_
    simpa [Begun.text, Component.textOf] using h

end Rule

/-- The same of a whole stylesheet. -/
theorem Stylesheet.endsStyle_text (codes : Codes) {css : Text} (h : ¬ EndsStyle css) :
    EndsStyle ((parse css).exchange codes).text ↔
      ∃ w ∈ ((parse css).exchange codes).writings, w.Completes :=
  Rule.endsStyle_textOf codes .none (Component.read css) [] (by rwa [Component.textOf_read])

end Css

namespace Shortener
open Css

/-- **A shortened stylesheet holds the mark exactly if one of its codes makes it up**: a code
between quotes that holds the mark, a code outside of quotes that ends in its bracket where the rest
follows, or one that goes on with a mark begun before it. -/
theorem shortenCss_endsStyle_iff (s : Shortener) (css : Text) (start : Table)
    (h : ¬ EndsStyle css) :
    let (shortened, last) := (s.shortenCss css).run start
    EndsStyle shortened ↔
      ∃ w ∈ ((Stylesheet.parse css).exchange (s.lookup last)).writings, w.Completes := by
  have hfollows (last : Table) : s.assign.Follows (·.GrowsTo last) (s.shortenCss css) _ _ :=
    (Stylesheet.follows_rename (foretells_lookup last) (Stylesheet.parse css)).map Stylesheet.text
  obtain ⟨last, hrun⟩ := run_of_follows hfollows start
  rw [hrun]
  exact Stylesheet.endsStyle_text (s.lookup last) h

/-- The class `x<` becomes `a<`, and a slash follows. -/
theorem shortenCss_endsStyle_iff_bracket :
    let s := ofSettings { salt := [] }
    let css := ".x\x7b\x7d.x\\3c/style\x7b\x7d".toList
    ¬ EndsStyle css ∧
      let (shortened, last) := (s.shortenCss css).run .empty
      EndsStyle shortened ↔
        ∃ w ∈ ((Stylesheet.parse css).exchange (s.lookup last)).writings, w.Completes :=
  have h : ¬ EndsStyle ".x\x7b\x7d.x\\3c/style\x7b\x7d".toList := by decide +kernel
  ⟨h, shortenCss_endsStyle_iff _ _ .empty h⟩

/-- The slash of the end tag is escaped in the stylesheet, and no longer in the code. -/
theorem shortenCss_endsStyle_of_escape :
    let s := ofSettings { salt := [] }
    let css := ".x[class=\"x<\\2f style>\"]\x7b\x7d".toList
    ¬ EndsStyle css ∧ EndsStyle ((s.shortenCss css).run .empty).1 := by
  intro s css
  refine ⟨by decide +kernel, ?_⟩
  -- Rules and parts are read by well-founded recursion: `decide` gets no further than components.
  let selector := ".x[class=\"x<\\2f style>\"]".toList
  let lexemes : List Lexeme :=
    [⟨.delim '.', ['.']⟩, ⟨.ident ['x'], ['x']⟩, ⟨.opening .square, ['[']⟩,
      ⟨.ident "class".toList, "class".toList⟩, ⟨.delim '=', ['=']⟩,
      ⟨.string "x</style>".toList, "\"x<\\2f style>\"".toList⟩, ⟨.closing .square, [']']⟩]
  let inside : List Component := ((lexemes.take 6).drop 3).map .plain
  have hselector : Selector.parse selector =
      [.className { source := ['.', 'x'], value := ['x'] }, .attributeTest (.read inside)] := by
    have hscan : Lexeme.scan selector = lexemes := by decide +kernel
    have hread : Component.read selector =
        [.plain ⟨.delim '.', ['.']⟩, .plain ⟨.ident ['x'], ['x']⟩,
          .block ⟨.opening .square, ['[']⟩ .square inside (some ⟨.closing .square, [']']⟩)] :=
      congrArg Component.ofLexemes hscan
    rw [Selector.parse, hread]
    simp [Part.readFrom]
  have hparse : Stylesheet.parse css = [.style (.parse selector) []] := by
    have hscan : Lexeme.scan css =
        lexemes ++ [⟨.opening .curly, ['\x7b']⟩, ⟨.closing .curly, ['\x7d']⟩] := by decide +kernel
    have hread : Component.read css =
        [.plain ⟨.delim '.', ['.']⟩, .plain ⟨.ident ['x'], ['x']⟩,
          .block ⟨.opening .square, ['[']⟩ .square inside (some ⟨.closing .square, [']']⟩),
          .block ⟨.opening .curly, ['\x7b']⟩ .curly [] (some ⟨.closing .curly, ['\x7d']⟩)] :=
      congrArg Component.ofLexemes hscan
    rw [Stylesheet.parse, hread]
    simp [Rule.readFrom, Rule.isSeparator, Component.textOf]
    rfl
  have hshortened : ((s.shortenCss css).run .empty).1 =
      ".a[class=\"a</style>\"]\x7b\x7d".toList := by
    rw [shortenCss, hparse, hselector]
    decide +kernel
  rw [hshortened]
  decide +kernel

end Shortener
end TerseMarkup
