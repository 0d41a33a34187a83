import TerseMarkup.Proofs.Css.Source
import TerseMarkup.Proofs.Shortening

/-! What shortening leaves alone.

The outline of a tree is the tree without what shortening is there to change: the values of `class`,
`id` and `for`, and the text of style elements. Attributes are changed within the outline
(`outline_exchangeElements`). A style element whose text changes keeps no other children, so its
outline stays only if it has none (`outlineAll_styleContents_iff`). -/
namespace TerseMarkup
namespace Html

/-! ### Outlines -/

/-- The attribute without its value, if that is a list of classes or an id. -/
def Attribute.outline (a : Attribute) : Attribute :=
  if a.name ∈ [{ name := "class" }, { name := "id" }, { name := "for" }] then { a with value := [] }
  else a

namespace Node

mutual

/-- The node without what shortening is there to change. `styled` says whether it is a child of a
style element. -/
def outline (styled : Bool) : Node → Node
  | document id cs => document id (outlineAll false cs)
  | element id name attributes cs =>
    element id name (attributes.map Attribute.outline) (outlineAll name.isStyle cs)
  | text t => text (if styled then [] else t)
  | doctype name publicId systemId => doctype name publicId systemId
  | comment c => comment c
  | placeholder => placeholder

def outlineAll (styled : Bool) : List Node → List Node
  | [] => []
  | n :: rest => n.outline styled :: outlineAll styled rest

end

mutual

/-- The children of every style element, one list for each element. -/
def styleChildren : Node → List (List Node)
  | document _ cs => styleChildrenAll cs
  | element _ name _ cs => if name.isStyle then cs :: styleChildrenAll cs else styleChildrenAll cs
  | doctype _ _ _ => []
  | text _ => []
  | comment _ => []
  | placeholder => []

def styleChildrenAll : List Node → List (List Node)
  | [] => []
  | n :: rest => n.styleChildren ++ styleChildrenAll rest

end

end Node

/-! ### Attributes -/

namespace Attribute

theorem map_outline_setValue {name : String} (h : name ∈ ["class", "id", "for"])
    (as : List Attribute) (value : Text) :
    (setValue as name value).map outline = as.map outline := by
  rw [setValue, List.map_map]
  refine List.map_congr_left fun a _ => ?_
  have hname : ({ name } : AttributeName) ∈
      [{ name := "class" }, { name := "id" }, { name := "for" }] := by
    simpa using h
  rw [Function.comp_apply]
  split
  · next heq =>
    have hmem := beq_iff_eq.mp heq ▸ hname
    rw [outline, outline, if_pos hmem, if_pos hmem]
  · rfl

theorem map_outline_exchangeClass (codes : Codes) (as : List Attribute) :
    (exchangeClass codes as).map outline = as.map outline := by
  rw [exchangeClass]
  split
  · dsimp only
    split
    · rfl
    · exact map_outline_setValue (by decide) as _
  · rfl

theorem map_outline_exchangeId {name : String} (h : name ∈ ["class", "id", "for"]) (codes : Codes)
    (as : List Attribute) : (exchangeId codes name as).map outline = as.map outline := by
  rw [exchangeId]
  split
  · split
    · rfl
    · split
      · exact map_outline_setValue h as _
      · rfl
  · rfl

/-- The same attributes in the same order, and the values of all others. -/
theorem map_outline_exchange (codes : Codes) (as : List Attribute) :
    (exchange codes as).map outline = as.map outline := by
  rw [exchange, map_outline_exchangeId (by decide), map_outline_exchangeId (by decide),
    map_outline_exchangeClass]

end Attribute

namespace Node

mutual

/-- Exchanging the names in attributes happens within the outline. -/
theorem outline_exchangeElements (codes : Codes) (styled : Bool) : (n : Node) →
    (n.exchangeElements codes).outline styled = n.outline styled
  | document id cs => by
    rw [exchangeElements, outline, outline, outlineAll_exchangeElementsAll]
  | element id name attributes cs => by
    rw [exchangeElements, outline, outline, outlineAll_exchangeElementsAll,
      Attribute.map_outline_exchange]
  | doctype _ _ _ | text _ | comment _ | placeholder => by
    rw [exchangeElements]

theorem outlineAll_exchangeElementsAll (codes : Codes) (styled : Bool) : (ns : List Node) →
    outlineAll styled (exchangeElementsAll codes ns) = outlineAll styled ns
  | [] => by rw [exchangeElementsAll]
  | n :: rest => by
    rw [exchangeElementsAll, outlineAll, outlineAll, outline_exchangeElements,
      outlineAll_exchangeElementsAll]

end

/-! ### Style elements -/

/-- A style element with other text has the same outline if a text was all that it had. -/
theorem outlineAll_styleContents_iff {css : Text} (h : css ≠ []) (cs : List Node) :
    outlineAll true (styleContents css) = outlineAll true cs ↔ ∃ t, cs = [text t] := by
  have hcontents : outlineAll true (styleContents css) = [text []] := by
    rw [styleContents, if_neg (by simpa using h)]
    rfl
  rw [hcontents]
  constructor
  · intro heq
    match cs, heq with
    | [text t], _ => exact ⟨t, rfl⟩
  · rintro ⟨t, rfl⟩
    rfl

/-- Whether exchanging the names in the text of a style element with these children changes only
text: the text stays, or there is nothing else that would give way to the new one. -/
def KeepsOutline (codes : Codes) (cs : List Node) : Prop :=
  exchangedText codes cs ≠ textOf cs → ∃ t, cs = [text t]

theorem exchangedText_ne_nil {codes : Codes} {cs : List Node}
    (h : exchangedText codes cs ≠ textOf cs) : exchangedText codes cs ≠ [] := by
  intro hnil
  have hold : textOf cs = [] := Css.Stylesheet.eq_nil_of_text_exchange codes hnil
  exact h (by rw [hnil, hold])

mutual

theorem outline_exchangeStyles_iff (codes : Codes) (styled : Bool) : (n : Node) →
    ((n.exchangeStyles codes).outline styled = n.outline styled ↔
      ∀ cs ∈ n.styleChildren, KeepsOutline codes cs)
  | document id cs => by
    rw [exchangeStyles, outline, outline, styleChildren,
      ← outlineAll_exchangeStylesAll_iff codes false cs]
    simp
  | element id name attributes cs => by
    have hinside := outlineAll_exchangeStylesAll_iff codes name.isStyle cs
    rw [exchangeStyles, styleChildren]
    by_cases hchanged : name.isStyle = true ∧ exchangedText codes cs ≠ textOf cs
    · obtain ⟨hstyle, htext⟩ := hchanged
      rw [if_pos ⟨hstyle, htext⟩, if_pos hstyle, outline, outline, hstyle]
      have hcontents := outlineAll_styleContents_iff (exchangedText_ne_nil htext) cs
      constructor
      · intro heq
        obtain ⟨t, rfl⟩ := hcontents.mp (Node.element.inj heq).2.2.2
        simp [styleChildrenAll, styleChildren, KeepsOutline]
      · intro hkeeps
        rw [hcontents.mpr (hkeeps cs List.mem_cons_self htext)]
    · rw [if_neg hchanged, outline, outline]
      have hkeeps : name.isStyle = true → KeepsOutline codes cs :=
        fun hstyle htext => absurd ⟨hstyle, htext⟩ hchanged
      split
      · next hstyle => simp [hinside, hkeeps hstyle]
      · simp [hinside]
  | doctype _ _ _ | text _ | comment _ | placeholder => by
    simp [exchangeStyles, styleChildren]

theorem outlineAll_exchangeStylesAll_iff (codes : Codes) (styled : Bool) : (ns : List Node) →
    (outlineAll styled (exchangeStylesAll codes ns) = outlineAll styled ns ↔
      ∀ cs ∈ styleChildrenAll ns, KeepsOutline codes cs)
  | [] => by simp [exchangeStylesAll, styleChildrenAll]
  | n :: rest => by
    rw [exchangeStylesAll, outlineAll, outlineAll, styleChildrenAll, List.cons.injEq,
      outline_exchangeStyles_iff codes, outlineAll_exchangeStylesAll_iff codes, List.forall_mem_append]

end

/-- The same of both traversals together. -/
theorem outline_exchange_iff (codes : Codes) (root : Node) :
    (root.exchange codes).outline false = root.outline false ↔
      ∀ cs ∈ root.styleChildren, KeepsOutline codes cs := by
  rw [exchange, outline_exchangeElements, outline_exchangeStyles_iff]

end Node
end Html

namespace Shortener
open Html

/-- **Shortening keeps the outline of a tree exactly if every style element whose text changes has a
text and nothing else in it.** -/
theorem shortenTree_outline_iff (s : Shortener) (root : Node) (start : Table) :
    let (tree, last) := (s.shortenTree root).run start
    tree.outline false = root.outline false ↔
      ∀ cs ∈ root.styleChildren, Node.KeepsOutline (s.lookup last) cs := by
  obtain ⟨last, hrun⟩ := run_of_follows
    (fun last => Node.follows_rename (foretells_lookup last) root) start
  have htree : (s.shortenTree root).run start = (root.exchange (s.lookup last), last) := hrun
  rw [htree]
  exact Node.outline_exchange_iff (s.lookup last) root

/-- In an SVG style element, a comment behind the text gets lost with the class. -/
theorem shortenTree_outline_of_comment :
    let s := ofSettings { salt := [] }
    let root := Node.element 0 ⟨.svg, "style"⟩ [] [.text ".x\x7b\x7d".toList, .comment ['c']]
    ((s.shortenTree root).run .empty).1.outline false ≠ root.outline false := by
  intro s root heq
  have hselector : Css.Selector.parse ".x".toList =
      [.className { source := ".x".toList, value := ['x'] }] := by
    have hread : Css.Component.read ".x".toList =
        [.plain ⟨.delim '.', ['.']⟩, .plain ⟨.ident ['x'], ['x']⟩] := rfl
    rw [Css.Selector.parse, hread]
    simp [Css.Part.readFrom]
  have hparse : Css.Stylesheet.parse ".x\x7b\x7d".toList = [.style (.parse ".x".toList) []] := by
    have hread : Css.Component.read ".x\x7b\x7d".toList =
        [.plain ⟨.delim '.', ['.']⟩, .plain ⟨.ident ['x'], ['x']⟩,
          .block ⟨.opening .curly, ['\x7b']⟩ .curly [] (some ⟨.closing .curly, ['\x7d']⟩)] := rfl
    rw [Css.Stylesheet.parse, hread]
    simp [Css.Rule.readFrom, Css.Rule.isSeparator, Css.Component.textOf]
  have htext : Node.textOf [.text ".x\x7b\x7d".toList, .comment ['c']] = ".x\x7b\x7d".toList := rfl
  have hchildren : (((s.shortenTree root).run .empty).1.outline false).children.length = 1 := by
    simp only [shortenTree, shortenStyles, root, Node.renameStyles, htext, hparse, hselector]
    decide +kernel
  rw [heq] at hchildren
  exact absurd hchildren (by decide)

end Shortener
end TerseMarkup
