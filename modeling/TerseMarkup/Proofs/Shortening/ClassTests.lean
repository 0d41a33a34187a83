import TerseMarkup.Proofs.Shortening.Classes

/-! When a selector keeps asking for the list of classes that an element has.

A selector may compare the attribute `class` with a whole list of classes. Its value is one name
then, spaces and all, while the element has its classes exchanged one by one. One class alone comes
to the same; for several it depends on what the table has lent to the list
(`classTest_kept_iff`). -/
namespace TerseMarkup

/-! ### The attribute selectors of a stylesheet -/

namespace Css

namespace Part

mutual

/-- The attribute selectors in a part of a selector. -/
def tests : Part → List AttributeTest
  | attributeTest a => [a]
  | function _ inside => testsOf inside
  | className _ => []
  | id _ => []
  | tag _ => []
  | other _ => []

def testsOf : List Part → List AttributeTest
  | [] => []
  | p :: rest => p.tests ++ testsOf rest

end

mutual

/-- The value of an attribute selector for classes or ids is asked for. -/
theorem mem_mentions_of_test {a : AttributeTest} {k : Kind} {value : AttributeValue}
    (hkind : a.kind? = some k) (hvalue : a.value = some value) : (p : Part) → a ∈ p.tests →
    (k, value.value) ∈ p.mentions
  | attributeTest b => by
    rw [tests, mentions, List.mem_singleton]
    rintro rfl
    rw [AttributeTest.mentions, hkind, hvalue]
    exact List.mem_cons_self ..
  | function _ inside => by
    rw [tests, mentions]
    exact mem_mentionsAll_of_test hkind hvalue inside
  | className _ | id _ | tag _ | other _ => by
    rw [tests]
    exact fun h => absurd h List.not_mem_nil

theorem mem_mentionsAll_of_test {a : AttributeTest} {k : Kind} {value : AttributeValue}
    (hkind : a.kind? = some k) (hvalue : a.value = some value) : (ps : List Part) →
    a ∈ testsOf ps → (k, value.value) ∈ mentionsAll ps
  | [] => by
    rw [testsOf]
    exact fun h => absurd h List.not_mem_nil
  | p :: rest => by
    rw [testsOf, mentionsAll, List.mem_append, List.mem_append]
    exact Or.imp (mem_mentions_of_test hkind hvalue p) (mem_mentionsAll_of_test hkind hvalue rest)

end

end Part

namespace Rule

mutual

def tests : Rule → List AttributeTest
  | style selector _ => Part.testsOf selector
  | group _ rules => testsOf rules
  | block _ _ => []
  | raw _ => []

def testsOf : List Rule → List AttributeTest
  | [] => []
  | r :: rest => r.tests ++ testsOf rest

end

mutual

theorem mem_mentions_of_test {a : AttributeTest} {k : Kind} {value : AttributeValue}
    (hkind : a.kind? = some k) (hvalue : a.value = some value) : (r : Rule) → a ∈ r.tests →
    (k, value.value) ∈ r.mentions
  | style selector _ => by
    rw [tests, mentions]
    exact Part.mem_mentionsAll_of_test hkind hvalue selector
  | group _ rules => by
    rw [tests, mentions]
    exact mem_mentionsAll_of_test hkind hvalue rules
  | block _ _ | raw _ => by
    rw [tests]
    exact fun h => absurd h List.not_mem_nil

theorem mem_mentionsAll_of_test {a : AttributeTest} {k : Kind} {value : AttributeValue}
    (hkind : a.kind? = some k) (hvalue : a.value = some value) : (rs : List Rule) →
    a ∈ testsOf rs → (k, value.value) ∈ mentionsAll rs
  | [] => by
    rw [testsOf]
    exact fun h => absurd h List.not_mem_nil
  | r :: rest => by
    rw [testsOf, mentionsAll, List.mem_append, List.mem_append]
    exact Or.imp (mem_mentions_of_test hkind hvalue r) (mem_mentionsAll_of_test hkind hvalue rest)

end

end Rule

/-- The attribute selectors in all selectors of a stylesheet. -/
def Stylesheet.tests (s : Stylesheet) : List AttributeTest := Rule.testsOf s

end Css

/-! ### The stylesheets of a tree -/

namespace Html.Node

mutual

/-- The texts of the style elements. -/
def styleTexts : Node → List Text
  | document _ cs => styleTextsAll cs
  | element _ name _ cs =>
    if name.isStyle then textOf cs :: styleTextsAll cs else styleTextsAll cs
  | doctype _ _ _ => []
  | text _ => []
  | comment _ => []
  | placeholder => []

def styleTextsAll : List Node → List Text
  | [] => []
  | n :: rest => n.styleTexts ++ styleTextsAll rest

end

mutual

/-- The stylesheets of the style elements that stay in the tree. -/
def sheets (codes : Codes) : Node → List Css.Stylesheet
  | document _ cs => sheetsAll codes cs
  | element _ name _ cs =>
    if name.isStyle then
      Css.Stylesheet.parse (textOf cs) ::
        if exchangedText codes cs = textOf cs then sheetsAll codes cs else []
    else sheetsAll codes cs
  | doctype _ _ _ => []
  | text _ => []
  | comment _ => []
  | placeholder => []

def sheetsAll (codes : Codes) : List Node → List Css.Stylesheet
  | [] => []
  | n :: rest => n.sheets codes ++ sheetsAll codes rest

end

mutual

/-- The names of those stylesheets are asked for. -/
theorem mem_styleMentions {codes : Codes} {sheet : Css.Stylesheet} {m : Mention}
    (hm : m ∈ sheet.mentions) : (n : Node) → sheet ∈ n.sheets codes → m ∈ n.styleMentions codes
  | document _ cs => by
    rw [sheets, styleMentions]
    exact mem_styleMentionsAll hm cs
  | element _ name _ cs => by
    have hinside : sheet ∈ sheetsAll codes cs → m ∈ styleMentionsAll codes cs :=
      mem_styleMentionsAll hm cs
    rw [sheets, styleMentions]
    split
    · rw [List.mem_cons, List.mem_append]
      refine Or.imp (fun heq => heq ▸ hm) ?_
      split
      · exact hinside
      · exact fun h => absurd h List.not_mem_nil
    · exact hinside
  | doctype _ _ _ | text _ | comment _ | placeholder => by
    rw [sheets]
    exact fun h => absurd h List.not_mem_nil

theorem mem_styleMentionsAll {codes : Codes} {sheet : Css.Stylesheet} {m : Mention}
    (hm : m ∈ sheet.mentions) : (ns : List Node) → sheet ∈ sheetsAll codes ns →
      m ∈ styleMentionsAll codes ns
  | [] => by
    rw [sheetsAll]
    exact fun h => absurd h List.not_mem_nil
  | n :: rest => by
    rw [sheetsAll, styleMentionsAll, List.mem_append, List.mem_append]
    exact Or.imp (mem_styleMentions hm n) (mem_styleMentionsAll hm rest)

end

/-! The text directly inside an element stays when names elsewhere are exchanged. -/

theorem textOf_cons (n : Node) (rest : List Node) : textOf (n :: rest) = textOf [n] ++ textOf rest := by
  rw [textOf, textOf, textOf, List.flatMap_cons, List.flatMap_singleton]

theorem textOf_exchangeElementsAll (codes : Codes) (ns : List Node) :
    textOf (exchangeElementsAll codes ns) = textOf ns := by
  induction ns with
  | nil => rw [exchangeElementsAll]
  | cons n rest ih =>
    have hfirst : textOf [n.exchangeElements codes] = textOf [n] := by
      cases n <;> rw [exchangeElements] <;> rfl
    rw [exchangeElementsAll, textOf_cons, hfirst, ih, ← textOf_cons]

theorem textOf_exchangeStylesAll (codes : Codes) (ns : List Node) :
    textOf (exchangeStylesAll codes ns) = textOf ns := by
  induction ns with
  | nil => rw [exchangeStylesAll]
  | cons n rest ih =>
    have hfirst : textOf [n.exchangeStyles codes] = textOf [n] := by
      cases n with
      | element id name attributes cs =>
        rw [exchangeStyles]
        split <;> rfl
      | document _ _ =>
        rw [exchangeStyles]
        rfl
      | doctype _ _ _ | text _ | comment _ | placeholder => rw [exchangeStyles]
    rw [exchangeStylesAll, textOf_cons, hfirst, ih, ← textOf_cons]

mutual

theorem styleTexts_exchangeElements (codes : Codes) : (n : Node) →
    (n.exchangeElements codes).styleTexts = n.styleTexts
  | document _ cs => by
    rw [exchangeElements, styleTexts, styleTexts, styleTextsAll_exchangeElementsAll]
  | element _ _ _ cs => by
    rw [exchangeElements, styleTexts, styleTexts, styleTextsAll_exchangeElementsAll,
      textOf_exchangeElementsAll]
  | doctype _ _ _ | text _ | comment _ | placeholder => by rw [exchangeElements]

theorem styleTextsAll_exchangeElementsAll (codes : Codes) : (ns : List Node) →
    styleTextsAll (exchangeElementsAll codes ns) = styleTextsAll ns
  | [] => by rw [exchangeElementsAll]
  | n :: rest => by
    rw [exchangeElementsAll, styleTextsAll, styleTextsAll, styleTexts_exchangeElements,
      styleTextsAll_exchangeElementsAll]

end

theorem textOf_styleContents (css : Text) : textOf (styleContents css) = css := by
  rw [styleContents]
  split
  · next hnil => rw [List.isEmpty_iff.mp hnil]; rfl
  · exact List.append_nil css

theorem styleTextsAll_styleContents (css : Text) : styleTextsAll (styleContents css) = [] := by
  rw [styleContents]
  split <;> rfl

mutual

/-- Afterwards the style elements hold their stylesheets with the names exchanged. -/
theorem styleTexts_exchangeStyles (codes : Codes) : (n : Node) →
    (n.exchangeStyles codes).styleTexts =
      (n.sheets codes).map fun sheet => (sheet.exchange codes).text
  | document _ cs => by
    rw [exchangeStyles, styleTexts, sheets, styleTextsAll_exchangeStylesAll]
  | element _ name _ cs => by
    have hinside := styleTextsAll_exchangeStylesAll codes cs
    rw [exchangeStyles, sheets]
    by_cases hstyle : name.isStyle = true
    · rw [if_pos hstyle, List.map_cons]
      by_cases htext : exchangedText codes cs = textOf cs
      · have hsame : ((Css.Stylesheet.parse (textOf cs)).exchange codes).text = textOf cs := htext
        rw [if_neg (fun h => h.2 htext), if_pos htext, styleTexts, if_pos hstyle,
          textOf_exchangeStylesAll, hinside, hsame]
      · rw [if_pos ⟨hstyle, htext⟩, if_neg htext, styleTexts, if_pos hstyle, textOf_styleContents,
          styleTextsAll_styleContents]
        rfl
    · rw [if_neg (fun h => hstyle h.1), if_neg hstyle, styleTexts, if_neg hstyle, hinside]
  | doctype _ _ _ | text _ | comment _ | placeholder => by
    rw [exchangeStyles, styleTexts, sheets]
    rfl

theorem styleTextsAll_exchangeStylesAll (codes : Codes) : (ns : List Node) →
    styleTextsAll (exchangeStylesAll codes ns) =
      (sheetsAll codes ns).map fun sheet => (sheet.exchange codes).text
  | [] => by
    rw [exchangeStylesAll, sheetsAll]
    rfl
  | n :: rest => by
    rw [exchangeStylesAll, styleTextsAll, sheetsAll, List.map_append, styleTexts_exchangeStyles,
      styleTextsAll_exchangeStylesAll]

end

end Html.Node

namespace Shortener
open Html

variable {s : Shortener}

/-- A tree between its two passes, and after them. -/
theorem exists_stages (root : Node) :
    ∃ last, (s.shortenTree root).run .empty = (root.exchange (s.lookup last), last) ∧
      ((s.shortenStyles root).run .empty).1 = root.exchangeStyles (s.lookup last) ∧
      last = s.assignAll (root.mentions (s.lookup last)) .empty := by
  obtain ⟨styled, table, hstyles⟩ : ∃ styled table,
      (s.shortenStyles root).run .empty = (styled, table) := ⟨_, _, rfl⟩
  obtain ⟨tree, last, htree⟩ : ∃ tree last,
      (s.shortenTree root).run .empty = (tree, last) := ⟨_, _, rfl⟩
  have helements : (s.shortenElements styled).run table = (tree, last) := by
    rw [← htree, shortenTree, StateT.run_bind, hstyles]
    rfl
  have hgrows : ((s.shortenStyles root).run .empty).2.GrowsTo last := by
    rw [hstyles, (eq_assignAll_of_follows (fun last =>
      Node.follows_renameElements (foretells_lookup last) styled) helements).2]
    exact growsTo_assignAll _ table
  obtain ⟨rfl, hlast⟩ := eq_assignAll_of_follows
    (fun last => Node.follows_rename (foretells_lookup last) root) htree
  exact ⟨last, htree,
    congrArg Prod.fst (Node.follows_renameStyles (foretells_lookup last) root _ hgrows).2, hlast⟩

theorem find?_of_lookup {last : Table} {k : Kind} {name code : Text}
    (h : s.lookup last k name = some code) : last.find? k name = some code := by
  rw [lookup] at h
  split at h
  · exact h
  · cases h

/-- What becomes of a list of classes is the code of the whole list exactly if the table keeps its
words, as it does those of a single class. -/
theorem exchangedClasses_eq_code_iff {last : Table} (hassigned : s.Assigned last)
    (hcodec : ∀ n, (s.codec.encode n).IsWord) {classes : List Text} (hne : classes ≠ [])
    (hclasses : ∀ c ∈ classes, c.IsWord)
    (hcodes : ∀ c ∈ classes, ∃ code, s.lookup last .className c = some code) {code : Text}
    (hcode : s.lookup last .className (Text.spaced classes) = some code) :
    let new := Attribute.exchangedClasses (s.lookup last) (Text.spaced classes)
    (new = code ↔ last.KeepsWords .className (Text.spaced classes)) ∧
      (classes.length = 1 → new = code) := by
  let codeOf (c : Text) : Text := (s.lookup last .className c).getD c
  have hfind : ∀ c ∈ classes, last.find? .className c = some (codeOf c) := by
    intro c hc
    obtain ⟨code', hcode'⟩ := hcodes c hc
    have hself : codeOf c = code' := by
      simp only [codeOf, hcode', Option.getD_some]
    rw [hself, find?_of_lookup hcode']
  have hnew : Attribute.exchangedClasses (s.lookup last) (Text.spaced classes) =
      Text.spaced (classes.map codeOf) := by
    have hwords := Text.words_spaced hclasses
    rw [exchangedClasses_eq_spaced (by rwa [hwords]), hwords]
    rw [hwords]
    exact fun c hc => hassigned.isWord hcodec (hclasses c hc).solid (hfind c hc)
  rw [hnew]
  constructor
  · rw [eq_comm]
    exact hassigned.eq_spaced_iff hcodec hclasses hfind (find?_of_lookup hcode)
  · intro hone
    obtain ⟨c, rfl⟩ := List.length_eq_one_iff.mp hone
    rw [Text.spaced_singleton] at hcode
    rw [List.map_singleton, Text.spaced_singleton]
    simp only [codeOf, hcode, Option.getD_some]

/-- **A selector that compares the attribute `class` with a list of classes keeps its elements**
exactly if the table lends to the list within one of its classes and all the others have themselves
as their codes. The list of a single class is always kept, for it and the class are one name. -/
theorem classTest_kept_iff (salt : Text) (root : Node) :
    let s := ofSettings { salt }
    let (styled, _) := (s.shortenStyles root).run .empty
    let (tree, last) := (s.shortenTree root).run .empty
    let codes := s.lookup last
    tree.styleTexts = (root.sheets codes).map (fun sheet => (sheet.exchange codes).text) ∧
      ∀ sheet ∈ root.sheets codes, ∀ a ∈ sheet.tests, ∀ value ∈ a.value,
        a.kind? = some .className → ∀ classes ≠ [], (∀ c ∈ classes, c.IsWord) →
        value.value = Text.spaced classes →
          ∃ code, (a.exchange codes).value = some { value with code := some code } ∧
            List.Forall₂
              (fun old new => old = value.value →
                (new = code ↔ last.KeepsWords .className value.value) ∧
                  (classes.length = 1 → new = code))
              styled.classValues tree.classValues := by
  intro s
  have hcodec : ∀ n, (s.codec.encode n).IsWord := Codec.isWord_encode salt
  obtain ⟨last, htree, hstyled, hlast⟩ := exists_stages (s := s) root
  obtain ⟨styled, table, hstyles⟩ : ∃ styled table,
      (s.shortenStyles root).run .empty = (styled, table) := ⟨_, _, rfl⟩
  rw [hstyles] at hstyled ⊢
  obtain rfl : styled = root.exchangeStyles (s.lookup last) := hstyled
  have hassigned : s.Assigned last := by
    rw [hlast]
    exact assigned_assignAll _
  -- Nothing is exempt, so whatever is asked for has a code at the end.
  have hknown {name : Text} (hne : name ≠ [])
      (hmem : (Kind.className, name) ∈ root.mentions (s.lookup last)) :
      ∃ code, s.lookup last .className name = some code := by
    have hname : s.renames .className name = true :=
      (s.renames_iff .className name).mpr ⟨hne, rfl⟩
    obtain ⟨code, hfind⟩ := exists_find?_assignAll hmem hname Table.empty
    exact ⟨code, by rw [lookup, if_pos hname, hlast, hfind]⟩
  dsimp only
  rw [htree]
  refine ⟨by rw [Node.exchange, Node.styleTexts_exchangeElements, Node.styleTexts_exchangeStyles],
    ?_⟩
  rintro sheet hsheet a ha ⟨source, list, quoted, _⟩ hvalue hkind classes hne hclasses rfl
  obtain ⟨code, hcode⟩ := hknown (Text.spaced_ne_nil hne hclasses)
    (List.mem_append_left _ (Node.mem_styleMentions
      (Css.Rule.mem_mentionsAll_of_test hkind hvalue sheet ha) root hsheet))
  refine ⟨code, ?_, ?_⟩
  · rw [Css.AttributeTest.exchange, hkind, hvalue]
    simp only [hcode]
  · rw [Node.exchange, Node.classValues_exchangeElements, List.forall₂_map_right_iff,
      List.forall₂_same]
    rintro old hold rfl
    refine exchangedClasses_eq_code_iff hassigned hcodec hne hclasses (fun c hc => ?_) hcode
    refine hknown (hclasses c hc).ne_nil (List.mem_append_right _
      (Node.mem_elementMentions ?_ _ hold))
    rwa [Text.words_spaced hclasses]

/-- A list of two classes is one name to a selector and gets one code; an element gets two. -/
theorem classTest_not_kept :
    let s := ofSettings { salt := [] }
    let root := Node.document 0 [
      .element 1 ⟨.html, "style"⟩ [] [.text "[class=\"x y\"]\x7b\x7d".toList],
      .element 2 ⟨.html, "p"⟩ [⟨{ name := "class" }, "x y".toList⟩] []]
    let tree := ((s.shortenTree root).run .empty).1
    root.classValues = ["x y".toList] ∧ tree.classValues = ["b c".toList] ∧
      tree.styleTexts = ["[class=\"a\"]\x7b\x7d".toList] := by
  intro s root
  let test : Css.Component := .block ⟨.opening .square, ['[']⟩ .square
    [.plain ⟨.ident "class".toList, "class".toList⟩, .plain ⟨.delim '=', ['=']⟩,
      .plain ⟨.string "x y".toList, "\"x y\"".toList⟩] (some ⟨.closing .square, [']']⟩)
  have hselector : Css.Selector.parse "[class=\"x y\"]".toList =
      [.attributeTest ⟨some "class".toList, "class=".toList,
        some ⟨"\"x y\"".toList, "x y".toList, true, none⟩, []⟩] := by
    have hread : Css.Component.read "[class=\"x y\"]".toList = [test] := rfl
    rw [Css.Selector.parse, hread, Css.Part.readFrom, Css.Part.readFrom]
    rfl
  have hparse : Css.Stylesheet.parse "[class=\"x y\"]\x7b\x7d".toList =
      [.style (.parse "[class=\"x y\"]".toList) []] := by
    have hread : Css.Component.read "[class=\"x y\"]\x7b\x7d".toList =
        [test, .block ⟨.opening .curly, ['\x7b']⟩ .curly [] (some ⟨.closing .curly, ['\x7d']⟩)] :=
      rfl
    rw [Css.Stylesheet.parse, hread]
    simp only [test, Css.Rule.readFrom]
    rfl
  have htext : Node.textOf [.text "[class=\"x y\"]\x7b\x7d".toList] =
      "[class=\"x y\"]\x7b\x7d".toList := rfl
  simp only [shortenTree, shortenStyles, root, Node.renameStyles, Node.renameStylesAll, htext,
    hparse, hselector]
  decide +kernel

end Shortener
end TerseMarkup
