import TerseMarkup.Proofs.Html.Page

/-! Trees that are the same again when their markup is read.

A fragment is read as the contents of a template, where construction rests from the start, and a page
as it stands. -/
namespace TerseMarkup.Html
open Builder Stable

namespace Document

theorem rests_inTemplate : Rests outerHandles outerFrames (.document 4 [] []) [] inTemplate where
  stands :=
    { root_eq := by rfl
      stack_eq := by rfl
      nonempty := List.cons_ne_nil _ _
      target := by decide
      not_mem := by decide
      lt_next := by decide
      handles := by decide
      nodup := by decide
      noted := by
        have hformatting : inTemplate.formatting = [.marker] := by rfl
        rw [hformatting]
        exact .marker (.skip (.skip .nil (by decide)) (by decide)) (by decide)
      fostering := by rfl
      failed := by rfl }
  content := by rfl
  tableText := by rfl
  inForce := .inr ⟨by rfl, by rfl, _, rfl, by rfl⟩
  form := by rfl

/-- Where the end tag of the template is next, what is in the template is what comes out. -/
theorem result_of_rests {cs : List Node} {b : Builder} {s : Text}
    (hreads : Reads inTemplate s b closing)
    (h : Rests outerHandles outerFrames (.document 4 [] []) cs b) :
    result ((constructFrom closing.length b closing).accept .eof) =
      .ok (.document 0 (Node.tidyAll cs)) := by
  have hread : Token.read b.content b.takesSections closing = ⟨[.finish "template"], [], .data⟩ := by
    rw [h.content]
    rfl
  have hstack : wrapperHandle ∈ b.stack := by
    rw [h.stands.stack_eq]
    decide
  have hkept : KeptOpen b := by
    refine (keptOpen_or_sealed (kept_of_reads hreads)).resolve_right ?_
    rintro ⟨n, contents, hsealed⟩
    exact not_mem_of_sealed hsealed hstack
  obtain ⟨contents, above, hopen⟩ : Open b := by
    refine hkept.resolve_right fun hwaits => ?_
    have hmode := h.inForce.mode_mem
    rw [hwaits.1] at hmode
    exact absurd hmode (by decide)
  obtain rfl : contents = cs := by
    have hroot := hopen.root_eq.symm.trans h.stands.root_eq
    simpa [outerFrames, Node.within, Node.Frame.around, Node.Frame.branch] using hroot
  have hplain : OpenWith contents above { b with dropNewline := false } := { hopen with }
  obtain ⟨b', hstep, hfinishing⟩ := hplain.step_finish
  have haccept : { b with content := .data }.accept (.finish "template") = b' := by
    rw [← h.content]
    exact take_of_done hstep
  rw [constructFrom_closing (by decide) (by rw [hread]) (by rw [hread]), hread, haccept]
  exact result_of_finishing hfinishing.accept_eof

/-- The elements that a fragment is read in. -/
def fragmentNames : List ElementName := [⟨.html, "template"⟩, ⟨.html, "head"⟩, ⟨.html, "html"⟩]

/-- **A fragment that nests comes back** from its markup. -/
theorem parse_of_nestsAll {cs : List Node} {s : Text}
    (hnests : Node.nestsAll fragmentNames cs = true) (hs : Node.writtenAll? {} cs = some s)
    (hreturn : '\r' ∉ s) (hfragment : Fragment.isFragment s = true) :
    ∃ cs', Node.ReadFor cs cs' ∧ parse s = .ok (.document 0 (Node.tidyAll cs')) := by
  have hnewline : inTemplate.dropNewline = true → Node.startWithNewline cs = false :=
    fun hdrop => absurd hdrop (by decide)
  obtain ⟨cs', b, hcs, hready, -, -, hreads⟩ :=
    comesBack_of_nestsAll cs (r := closing) (.inl rests_inTemplate) hnests hs (fun _ => rfl) rfl
      hnewline
  have hprepared : Reads {} (prepared (Fragment.wrap s)) b closing := by
    rw [prepared_wrap, unifyNewlines_eq hreturn]
    exact reads_opening hreads
  refine ⟨cs', hcs, ?_⟩
  rw [parse_of_isFragment hfragment, construct_of_reads hprepared,
    result_of_rests hreads (hready.rests_outside (by decide)), List.nil_append]

/-- **A tree whose nodes nest is the same again** when its markup is read, and has the same markup.

The tree of a page or of a fragment is meant, as `parse` has it: there is a start tag and an end tag
for each element in it that can have content. -/
theorem serialize_parse {root : Node} {s : Text}
    (hnests : Node.isPage .initial root.children = true ∨
      Fragment.isFragment s = true ∧ Node.nestsAll fragmentNames root.children = true)
    (hs : root.serialize = .ok s) (hreturn : '\r' ∉ s) :
    ∃ root', parse s = .ok root' ∧
      Node.unnumberedAll root'.children = Node.unnumberedAll root.children ∧
      root'.serialize = .ok s := by
  have hwritten := Node.serialize_eq_ok.mp hs
  obtain ⟨cs, hcs, hparse⟩ : ∃ cs, Node.ReadFor root.children cs ∧
      parse s = .ok (.document 0 (Node.tidyAll cs)) := by
    rcases hnests with hpage | ⟨hfragment, hnests⟩
    · exact parse_of_isPage hpage hwritten hreturn
    · exact parse_of_nestsAll hnests hwritten hreturn hfragment
  refine ⟨.document 0 (Node.tidyAll cs), hparse, hcs, Node.serialize_eq_ok.mpr ?_⟩
  have hsame : Node.unnumberedAll (Node.tidyAll cs) = Node.unnumberedAll root.children := hcs
  rw [← hwritten, ← Node.writtenAll?_unnumberedAll, ← Node.writtenAll?_unnumberedAll _ root.children,
    ← hsame]
  rfl

/-- A page with a title and a style, a list, text that is written with references, a line feed that
stays, and an image with capitals in its names, an attribute of another namespace, an element whose tag
closes itself, and a paragraph inside. -/
theorem serialize_parse_page :
    let root := Node.document 0 [
      .comment "c".toList,
      .doctype "html".toList [] [],
      .element 1 ⟨.html, "html"⟩ [] [
        .element 2 ⟨.html, "head"⟩ [] [
          .element 3 ⟨.html, "title"⟩ [] [.text "a < b".toList],
          .element 4 ⟨.html, "style"⟩ [] [.text "/* < */".toList]],
        .text "\n".toList,
        .element 5 ⟨.html, "body"⟩ [] [
          .element 6 ⟨.html, "ul"⟩ [⟨⟨none, "class"⟩, "a \"b\"".toList⟩] [
            .element 7 ⟨.html, "li"⟩ [] [.text "1 < 2 & \n".toList, .element 8 ⟨.html, "br"⟩ [] []]],
          .element 9 ⟨.html, "pre"⟩ [] [.text "x\n".toList],
          .element 10 ⟨.svg, "svg"⟩ [⟨⟨none, "viewBox"⟩, "0 0 1 1".toList⟩] [
            .element 11 ⟨.svg, "use"⟩ [⟨⟨some .xlink, "href"⟩, "#a".toList⟩] [],
            .element 12 ⟨.svg, "foreignObject"⟩ [] [.element 13 ⟨.html, "p"⟩ [] []]]]]]
    let s := "<!--c--><!DOCTYPE html><html><head><title>a &lt; b</title>".toList ++
      "<style>/* < */</style></head>\n<body><ul class='a \"b\"'>".toList ++
      "<li>1 &lt; 2 &amp; \n<br></li></ul><pre>x\n</pre><svg viewBox=\"0 0 1 1\">".toList ++
      "<use xlink:href=\"#a\"/><foreignObject><p></p></foreignObject></svg></body></html>".toList
    ((Node.isPage .initial root.children = true ∨
        Fragment.isFragment s = true ∧ Node.nestsAll fragmentNames root.children = true) ∧
        root.serialize = .ok s ∧ '\r' ∉ s) ∧
      ∃ root', parse s = .ok root' ∧
        Node.unnumberedAll root'.children = Node.unnumberedAll root.children ∧
        root'.serialize = .ok s := by
  intro root s
  have hpage : Node.isPage .initial root.children = true := by decide +kernel
  have hs : root.serialize = .ok s := Node.serialize_eq_ok.mpr (by decide +kernel)
  have hreturn : '\r' ∉ s := by decide +kernel
  exact ⟨⟨.inl hpage, hs, hreturn⟩, serialize_parse (.inl hpage) hs hreturn⟩

/-- Each time that a `pre` is read a line feed at its start is dropped, and none is written for it. -/
theorem newline_dropped :
    (parse "<pre>\n\nx</pre>".toList).toOption.bind Node.markup? = some "<pre>\nx</pre>".toList ∧
      (parse "<pre>\nx</pre>".toList).toOption.bind Node.markup? = some "<pre>x</pre>".toList := by
  decide +kernel

end Document
end TerseMarkup.Html
