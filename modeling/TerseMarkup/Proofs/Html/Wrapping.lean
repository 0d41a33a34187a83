import TerseMarkup.Proofs.Html.Construction.Finish
import TerseMarkup.Proofs.Html.Reading
import TerseMarkup.Html.Markup

/-! Fragments in their template.

A fragment is read as the contents of a template, from behind `<template>` to `</template>`. -/
namespace TerseMarkup.Html
open Builder Stable

namespace Document

/-! ### The start of the template -/

def opening : Text := "<template>".toList

theorem opening_eq : opening = '<' :: "template>".toList := rfl

/-- The text that is read for another: its line breaks are line feeds. -/
def prepared (s : Text) : Text := Token.dropByteOrderMark (unifyNewlines s)

theorem unifyNewlines_closing (s : Text) :
    unifyNewlines (s ++ closing) = unifyNewlines s ++ closing := by
  fun_induction unifyNewlines s with
  | case1 => decide
  | case2 r ih => simp [unifyNewlines, ih]
  | case3 c r h ih =>
    rw [List.cons_append, unifyNewlines.eq_3, ih]
    · rfl
    · rintro r' rfl heq
      obtain ⟨r'', rfl⟩ := exists_of_append_closing ['\n'] (by decide) heq
      exact h r'' rfl rfl

theorem unifyNewlines_append {start : Text} (h : '\r' ∉ start) (s : Text) :
    unifyNewlines (start ++ s) = start ++ unifyNewlines s := by
  induction start with
  | nil => rfl
  | cons c start ih =>
    rw [List.mem_cons, not_or] at h
    rw [List.cons_append, unifyNewlines.eq_3, ih h.2, if_neg (Ne.symm h.1)]
    · rfl
    · exact fun r hc _ => h.1 hc.symm

theorem unifyNewlines_eq {s : Text} (h : '\r' ∉ s) : unifyNewlines s = s := by
  have happend := unifyNewlines_append h []
  rwa [List.append_nil, show unifyNewlines [] = [] from rfl, List.append_nil] at happend

theorem prepared_opening (s : Text) : prepared (opening ++ s) = opening ++ unifyNewlines s := by
  have hmark : '<' ≠ Token.byteOrderMark := by decide
  rw [prepared, unifyNewlines_append (by decide), opening_eq, List.cons_append,
    Token.dropByteOrderMark, if_neg hmark]

theorem prepared_wrap (s : Text) :
    prepared (Fragment.wrap s) = opening ++ (unifyNewlines s ++ closing) := by
  have hwrap : Fragment.wrap s = opening ++ (s ++ closing) := List.append_assoc _ _ _
  rw [hwrap, prepared_opening, unifyNewlines_closing]

/-- Construction behind `<template>`. -/
def inTemplate : Builder := ({} : Builder).accept (.start { name := "template" })

theorem readOn_opening (s : Text) : readOn {} (opening ++ s) = (inTemplate, s) := by
  have hread : Token.read .data false (opening ++ s) =
      ⟨[.start { name := "template" }], s, .data⟩ := by rfl
  have hreading : Token.read ({} : Builder).content ({} : Builder).takesSections (opening ++ s) = _ :=
    hread
  rw [readOn, hreading]
  rfl

theorem heldBy_nothing :
    HeldBy (fun _ => 1) (fun i => i = 4) (.document 4 []) 4 5 [] where
  id?_eq := rfl
  nodup := by simp [Node.ids, Node.idsAll]
  lt_next := by simp [Node.ids, Node.idsAll]
  ranked := by simp [Node.Ranked, Node.RankedAll]
  id_mem := nofun
  not_docs := nofun
  inside_mem := nofun
  inside_eq := nofun
  above_top := nofun
  id_le := nofun
  ordered := .nil

theorem open_inTemplate : OpenWith [] [] inTemplate where
  root_eq := by rfl
  stack_eq := by rfl
  held := ⟨_, _, heldBy_nothing⟩
  le_ids := by simp [Node.ids, Node.idsAll]
  names := by simp
  mode := by decide
  returnMode := by decide
  templateModes := by decide
  head := by decide
  remembered := by
    have hformatting : inTemplate.formatting = [.marker] := by rfl
    simp [hformatting]
  content := by trivial
  failed := by decide

/-! ### The text in the template -/

/-- Nothing has been read, or the start tag of the template has. -/
theorem reads_inTemplate {s r : Text} {b : Builder} (h : Reads {} (opening ++ s) b r) :
    b = {} ∧ r = opening ++ s ∨ Reads inTemplate s b r := by
  cases h with
  | refl => exact .inl ⟨rfl, rfl⟩
  | step _ h =>
    rw [readOn_opening] at h
    exact .inr h

theorem reads_opening {s r : Text} {b : Builder} (h : Reads inTemplate s b r) :
    Reads {} (opening ++ s) b r := by
  refine .step (List.append_ne_nil_of_left_ne_nil (by decide) _) ?_
  rw [readOn_opening]
  exact h

theorem construct_of_reads {s r : Text} {b : Builder} (h : Reads {} (prepared s) b r) :
    construct s = (constructFrom r.length b r).accept .eof :=
  congrArg (Builder.accept · .eof) h.constructFrom

theorem kept_of_reads {s r : Text} {b : Builder} (h : Reads inTemplate s b r) :
    Kept InFragment b :=
  h.kept stable_inFragment inFragment_keptOutside (.inl (.inl ⟨[], [], open_inTemplate⟩))

/-! ### The children of the template -/

/-- What becomes of a fragment when construction has ended. -/
def result (b : Builder) : Except DocumentError Node :=
  (if b.failed then throw .parse else return b.root.tidy) >>= unwrap

theorem parse_of_isFragment {s : Text} (h : Fragment.isFragment s = true) :
    parse s = result (construct (Fragment.wrap s)) := by
  rw [parse, if_pos h]
  rfl

theorem exists_document {m : Node} {i : NodeId} (h : m.label? = some (i, none)) :
    m = .document i m.children := by
  cases m with
  | document id cs =>
    obtain ⟨rfl, -⟩ := Prod.mk.inj (Option.some.inj h)
    rfl
  | element id name _ cs => exact nomatch (Prod.mk.inj (Option.some.inj h)).2
  | doctype | text | comment | placeholder => exact nomatch h

theorem exists_element {m : Node} {i : NodeId} {name : ElementName}
    (h : m.label? = some (i, some name)) : ∃ attributes, m = .element i name attributes m.children := by
  cases m with
  | element id name attributes cs =>
    obtain ⟨rfl, hname⟩ := Prod.mk.inj (Option.some.inj h)
    obtain rfl := Option.some.inj hname
    exact ⟨attributes, rfl⟩
  | document id cs => exact nomatch (Prod.mk.inj (Option.some.inj h)).2
  | doctype | text | comment | placeholder => exact nomatch h

/-- The first template of a tidy document is the one that it starts with. -/
theorem result_of_trail {b : Builder} {n : NodeId} {contents : List Node} (hfailed : b.failed = false)
    (htrail : Node.Trail n (wrapper contents) wrapperTrail b.root) :
    result b = .ok (.document 0 (Node.tidyAll contents)) := by
  obtain ⟨hroot, html, besides, hchildren, -, hhtml, head, behind, hhead, -, hlabel, template, more,
    htemplate, -, rfl⟩ := htrail
  obtain ⟨attributes, hhtml⟩ := exists_element hhtml
  obtain ⟨attributes', hlabel⟩ := exists_element hlabel
  have hvoid : htmlHandle.name.isVoid = false ∧ headHandle.name.isVoid = false := by decide
  have hname : htmlHandle.name.name ≠ "template" ∧ headHandle.name.name ≠ "template" := by decide
  have htidy : b.root.tidy = .document 0 (.element 1 htmlHandle.name attributes
      (.element 2 headHandle.name attributes' ((wrapper contents).tidy :: Node.tidyAll more) ::
        Node.tidyAll behind) :: Node.tidyAll besides) := by
    rw [exists_document hroot, hchildren, hhtml, hhead, hlabel, htemplate]
    simp [Node.tidy, Node.tidyAll, hvoid, hname]
  have hwrapper : (wrapper contents).tidy =
      .element 3 ⟨.html, "template"⟩ [] (Node.tidyAll contents) := by
    have hvoid : ElementName.isVoid ⟨.html, "template"⟩ = false := by decide
    simp [wrapper, Node.tidy, Node.tidyTemplate, hvoid]
  have hfirst : b.root.tidy.firstTemplate? = some (Node.tidyAll contents) := by
    rw [htidy, hwrapper]
    rfl
  rw [result, hfailed, if_neg Bool.false_ne_true]
  show unwrap b.root.tidy = _
  rw [unwrap, hfirst]
  rfl

theorem result_of_finishing {b : Builder} {contents : List Node} (h : Finishing contents b) :
    result b = .ok (.document 0 (Node.tidyAll contents)) := by
  obtain ⟨behind, -, hroot⟩ := h.root_eq
  refine result_of_trail (n := 0) h.failed_eq ?_
  rw [hroot]
  exact ⟨rfl, _, [], rfl, by simp, rfl, _, _, rfl, by simp, rfl, _, [], rfl, by simp, rfl⟩

theorem result_of_sealed {b : Builder} {n : NodeId} {contents : List Node}
    (h : Kept (Sealed n contents) b) : result b = .ok (.document 0 (Node.tidyAll contents)) := by
  rcases h with h | ⟨-, -, h⟩
  · exact result_of_trail h.failed h.trail
  · exact result_of_trail (b := b) h.failed h.trail

/-! ### The end of the template -/

/-- The reader gets to the end tag of the template between two tokens. -/
def ReachesClosing (s : Text) : Prop :=
  ∃ b, Reads {} (prepared (Fragment.wrap s)) b closing ∧ b.content = .data

/-- The template is open until the text ends, or until its end tag is all that is left. -/
def StaysOpen (s : Text) : Prop :=
  ∃ b r, Reads {} (prepared (Fragment.wrap s)) b r ∧ wrapperHandle ∈ b.stack ∧
    (r = [] ∨ (Token.read b.content b.takesSections r).tokens = [.finish "template"] ∧
      (Token.read b.content b.takesSections r).rest = [])

/-- A template is either open, or closed for good. -/
theorem keptOpen_or_sealed {b : Builder} (h : Kept InFragment b) :
    KeptOpen b ∨ ∃ n contents, Kept (Sealed n contents) b := by
  rcases h with (h | ⟨n, contents, h⟩) | ⟨hmode, hcurrent, h | ⟨n, contents, h⟩⟩
  · exact .inl (.inl h)
  · exact .inr ⟨n, contents, .inl h⟩
  · exact .inl (.inr ⟨hmode, hcurrent, h⟩)
  · exact .inr ⟨n, contents, .inr ⟨hmode, hcurrent, h⟩⟩

theorem not_mem_of_sealed {b : Builder} {n : NodeId} {contents : List Node}
    (h : Kept (Sealed n contents) b) : wrapperHandle ∉ b.stack := by
  have hsealed {b : Builder} (h : Sealed n contents b) : wrapperHandle ∉ b.stack := by
    intro hmem
    have hle := h.five_le
    rcases h.free _ hmem with heq | heq | ⟨hid, -⟩
    · exact absurd heq (by decide)
    · exact absurd heq (by decide)
    · exact absurd (Nat.le_trans hle hid) (by decide)
  rcases h with h | ⟨-, -, h⟩
  · exact hsealed h
  · exact hsealed (b := { b with mode := b.returnMode }) h

/-- A reading that takes all that is left, and finds the end tag of the template there. -/
theorem constructFrom_closing {b : Builder} {r : Text} (hr : r ≠ [])
    (htokens : (Token.read b.content b.takesSections r).tokens = [.finish "template"])
    (hrest : (Token.read b.content b.takesSections r).rest = []) :
    constructFrom r.length b r =
      { b with content := (Token.read b.content b.takesSections r).content }.accept
        (.finish "template") := by
  obtain ⟨n, hn⟩ : ∃ n, r.length = n + 1 :=
    Nat.exists_eq_succ_of_ne_zero fun h => hr (List.eq_nil_of_length_eq_zero h)
  rw [hn, constructFrom_succ _ _ hr, readOn, htokens, hrest]
  exact constructFrom_nil _ _

theorem keptOpen_content {b : Builder} (h : KeptOpen b) {content : Content}
    (hcontent : content.IsKnown) : KeptOpen { b with content } := by
  rcases h with ⟨contents, above, h⟩ | ⟨hmode, hcurrent, contents, above, h⟩
  · exact .inl ⟨contents, above, { h with content := hcontent }⟩
  · exact .inr ⟨hmode, hcurrent, contents, above, { h with content := hcontent }⟩

/-- **The end tag of the template leaves nothing behind**: where the reader gets to it between two
tokens, a fragment is what is in the template if the text just ends there. -/
theorem parse_eq_unclosed {s : Text} (hfragment : Fragment.isFragment s = true)
    (hreaches : ReachesClosing s) : parse s = tree (opening ++ s) >>= unwrap := by
  obtain ⟨b, hreads, hcontent⟩ := hreaches
  have hinside : Reads inTemplate (unifyNewlines s ++ closing) b closing := by
    rw [prepared_wrap] at hreads
    refine (reads_inTemplate hreads).resolve_left fun ⟨_, heq⟩ => ?_
    have hlength := congrArg List.length heq
    simp only [List.length_append, opening_eq, List.length_cons] at hlength
    omega
  have hstart : Kept InFragment inTemplate := .inl (.inl ⟨[], [], open_inTemplate⟩)
  have hpart : Reads {} (prepared (opening ++ s)) b [] := by
    rw [prepared_opening]
    exact reads_opening (hinside.withoutClosing stable_inFragment inFragment_keptOutside hstart)
  have hclosed : constructFrom closing.length b closing = b.accept (.finish "template") := by
    have hread : Token.read b.content b.takesSections closing = ⟨[.finish "template"], [], .data⟩ := by
      rw [hcontent]
      rfl
    rw [constructFrom_closing (by decide) (by rw [hread]) (by rw [hread]), hread, ← hcontent]
  have htree : tree (opening ++ s) >>= unwrap = result (b.accept .eof) := by
    show result (construct (opening ++ s)) = _
    rw [construct_of_reads hpart]
    rfl
  rw [parse_of_isFragment hfragment, construct_of_reads hreads, hclosed, htree]
  rcases keptOpen_or_sealed (kept_of_reads hinside) with hopen | ⟨n, contents, hsealed⟩
  · obtain ⟨contents, hlast, hwhole⟩ := hopen.accept
    rw [result_of_finishing hlast, result_of_finishing hwhole]
  · have hkept {b : Builder} (h : Kept (Sealed n contents) b) (t : Token) :
        Kept (Sealed n contents) (b.accept t) :=
      (stable_sealed n contents).accept (Sealed.keptOutside n contents) h t
    rw [result_of_sealed (hkept hsealed _), result_of_sealed (hkept (hkept hsealed _) _)]

/-- **A fragment loses nothing** while its template stays open: the document has the template in its
head and nothing else, and what is in the template is what comes out. -/
theorem parse_eq_contents {s : Text} (hfragment : Fragment.isFragment s = true)
    (hopen : StaysOpen s) : ∃ contents behind, NoContent behind ∧
      (construct (Fragment.wrap s)).root = wrapped contents behind ∧
      parse s = .ok (.document 0 (Node.tidyAll contents)) := by
  obtain ⟨b, r, hreads, hwrapper, hend⟩ := hopen
  have hkept : Kept InFragment b := by
    rw [prepared_wrap] at hreads
    refine kept_of_reads ((reads_inTemplate hreads).resolve_left fun ⟨hb, _⟩ => ?_)
    rw [hb] at hwrapper
    exact absurd hwrapper List.not_mem_nil
  have hopen : KeptOpen b := (keptOpen_or_sealed hkept).resolve_right fun ⟨n, contents, hsealed⟩ =>
    not_mem_of_sealed hsealed hwrapper
  have hfinishing : ∃ contents, Finishing contents (construct (Fragment.wrap s)) := by
    rw [construct_of_reads hreads]
    by_cases hr : r = []
    · obtain ⟨contents, hlast, -⟩ := hopen.accept
      exact ⟨contents, by rwa [hr]⟩
    · obtain ⟨htokens, hrest⟩ := hend.resolve_left hr
      rw [constructFrom_closing hr htokens hrest]
      have hcontent : (Token.read b.content b.takesSections r).content.IsKnown := by
        rcases Token.content_read b.content b.takesSections r with heq | heq
        · rw [heq]
          trivial
        · rw [heq]
          exact stable_inFragment.isKnown_of_kept hkept
      obtain ⟨contents, -, hlast⟩ := (keptOpen_content hopen hcontent).accept
      exact ⟨contents, hlast⟩
  obtain ⟨contents, hfinishing⟩ := hfinishing
  obtain ⟨behind, hbehind, hroot⟩ := hfinishing.root_eq
  exact ⟨contents, behind, hbehind, hroot,
    by rw [parse_of_isFragment hfragment, result_of_finishing hfinishing]⟩

/-- Where the template stays open to its end tag. -/
theorem parse_eq_contents_of_paragraph :
    let s := "<p>a</p>b".toList
    Fragment.isFragment s = true ∧ StaysOpen s ∧
      ∃ contents behind, NoContent behind ∧
        (construct (Fragment.wrap s)).root = wrapped contents behind ∧
        parse s = .ok (.document 0 (Node.tidyAll contents)) := by
  intro s
  have hfragment : Fragment.isFragment s = true := by decide +kernel
  have hopen : StaysOpen s :=
    ⟨_, _, reads_readings 5 _ _, by decide +kernel, .inr ⟨by decide +kernel, by decide +kernel⟩⟩
  exact ⟨hfragment, hopen, parse_eq_contents hfragment hopen⟩

/-- An end tag in the fragment closes the template, and what follows it is lost. -/
theorem contents_lost :
    let s := "</template>foo".toList
    Fragment.isFragment s = true ∧
      (construct (Fragment.wrap s)).root.markup? =
        some "<html><head><template></template></head><body>foo</body></html>".toList ∧
      (parse s).toOption.bind Node.markup? = some [] := by
  decide +kernel

/-- Where the fragment ends between two tokens. -/
theorem parse_eq_unclosed_of_paragraph :
    let s := "<p>a</p>b".toList
    Fragment.isFragment s = true ∧ ReachesClosing s ∧
      parse s = tree (opening ++ s) >>= unwrap := by
  intro s
  have hfragment : Fragment.isFragment s = true := by decide +kernel
  have hend : (readings 5 {} (prepared (Fragment.wrap s))).2 = closing := by decide +kernel
  have hreaches : ReachesClosing s := ⟨_, hend ▸ reads_readings 5 _ _, by decide +kernel⟩
  exact ⟨hfragment, hreaches, parse_eq_unclosed hfragment hreaches⟩

/-- In a comment that is not ended the end tag of the template is part of the comment. -/
theorem closing_leaked :
    let s := "<!--foo".toList
    Fragment.isFragment s = true ∧
      (parse s).toOption.bind Node.markup? = some "<!--foo</template>-->".toList ∧
      (tree (opening ++ s) >>= unwrap).toOption.bind Node.markup? =
        some "<!--foo-->".toList := by
  decide +kernel

end Document
end TerseMarkup.Html
