import TerseMarkup.Proofs.Html.Construction.Nested.Token
import TerseMarkup.Proofs.Text.Characters

/-! Tags of SVG and MathML.

A start tag that does nothing else (`Setting.startsForeign`) opens its element under the name that it
has in its namespace (`Rests.opens_foreign`), or puts it in if it closes itself
(`Rests.puts_foreign`). The rules of the setting stay in force meanwhile, as SVG and MathML say nothing
of it. The end tag is found by its small letters (`Rests.finish_foreign`). -/
namespace TerseMarkup.Html
open Builder

/-! ### Names -/

theorem smallLetters_idem (name : String) :
    smallLetters (smallLetters name) = smallLetters name := by
  unfold smallLetters Text.lower
  rw [String.toList_ofList, List.map_map]
  congr 1
  exact List.map_congr_left fun c _ => toLower_toLower c

/-- Capitals are all that a name may get. -/
theorem smallLetters_withCapitals (names : List String) (name : String) :
    smallLetters (withCapitals names name) = smallLetters name := by
  unfold withCapitals
  cases hfound : names.find? (smallLetters · == name) with
  | none => rfl
  | some n =>
    have hname : smallLetters n = name := by simpa using List.find?_some hfound
    show smallLetters n = smallLetters name
    rw [← hname, smallLetters_idem]

theorem Tag.smallLetters_inNamespace (space : Namespace) (t : Tag) :
    smallLetters (t.inNamespace space).name = smallLetters t.name := by
  show smallLetters (if space = .svg then withCapitals svgElements t.name else t.name) = _
  split
  · exact smallLetters_withCapitals _ _
  · rfl

theorem Opening.ofName_foreign {name : String} {space : Namespace}
    (h : ofName name = .foreign space) :
    name = "math" ∧ space = .mathml ∨ name = "svg" ∧ space = .svg := by
  unfold ofName at h
  -- the classes are tried one after the other
  repeat
    obtain ⟨hname, hclass⟩ | ⟨-, h⟩ := ite_eq_iff.mp h
    · cases hclass <;> first | exact .inl ⟨hname, rfl⟩ | exact .inr ⟨hname, rfl⟩
  cases h

namespace Setting

variable {inside : List ElementName} {space : Namespace} {t : Tag}

/-- A start tag does so by the rules for SVG and MathML, or by the rule for a start tag in content. -/
theorem startsForeign_cases (h : startsForeign inside space t = true) :
    (isForeign inside (.start t) = true ∧ (∃ n ∈ inside.head?, n.space = space) ∧
        isHtmlOnly t = false) ∨
      (isForeign inside (.start t) = false ∧ of inside = .flow ∧
        Opening.ofName t.name = .foreign space) := by
  unfold startsForeign at h
  split at h
  next hforeign =>
    rw [Bool.and_eq_true, Bool.not_eq_true', Option.any_eq_true] at h
    obtain ⟨⟨n, hn, hspace⟩, hother⟩ := h
    exact .inl ⟨hforeign, ⟨n, hn, beq_iff_eq.mp hspace⟩, hother⟩
  next hhtml =>
    rw [Bool.and_eq_true, beq_iff_eq, beq_iff_eq] at h
    exact .inr ⟨Bool.eq_false_iff.mpr hhtml, h⟩

/-- Where the rules for SVG and MathML look at a token, the innermost element is of one of these. -/
theorem ne_html_of_isForeign {token : Token} (h : isForeign inside token = true)
    {n : ElementName} (hn : n ∈ inside.head?) : n.space ≠ .html := by
  intro hspace
  rw [isForeign, Option.mem_def.mp hn, Option.any_some, ElementName.keeps_html hspace] at h
  cases h

theorem ne_html_of_startsForeign (h : startsForeign inside space t = true) : space ≠ .html := by
  rcases startsForeign_cases h with ⟨hforeign, ⟨n, hn, rfl⟩, -⟩ | ⟨-, -, hclass⟩
  · exact ne_html_of_isForeign hforeign hn
  · rcases Opening.ofName_foreign hclass with ⟨-, rfl⟩ | ⟨-, rfl⟩ <;> decide

theorem not_htmlOnly_of_startsForeign (h : startsForeign inside space t = true) :
    isHtmlOnly t = false := by
  rcases startsForeign_cases h with ⟨-, -, hother⟩ | ⟨-, -, hclass⟩
  · exact hother
  · rcases Opening.ofName_foreign hclass with ⟨hname, -⟩ | ⟨hname, -⟩ <;>
      rw [isHtmlOnly, hname] <;> rfl

/-- Neither a paragraph nor a line break is an element of SVG or MathML. -/
theorem name_ne_of_startsForeign (h : startsForeign inside space t = true) :
    ¬(t.name = "br" ∨ t.name = "p") := by
  have hother := (Bool.or_eq_false_iff.mp (not_htmlOnly_of_startsForeign h)).1
  rintro (hname | hname) <;> rw [hname] at hother <;> exact absurd hother (by decide)

end Setting

/-! ### Where construction rests -/

section

variable {stack : List Handle} {path : List Node.Frame} {f : Node.Frame} {done : List Node}
  {b : Builder} {space : Namespace} {t : Tag}

/-- In content the start tags of `svg` and `math` lead to SVG and MathML. Neither name gets capitals. -/
theorem Builder.bodyStart_foreign (hclass : Opening.ofName t.name = .foreign space) (b : Builder) :
    b.bodyStart t = b.foreignStart space (t.inNamespace space) := by
  have hname : (t.inNamespace space).name = t.name := by
    rcases Opening.ofName_foreign hclass with ⟨-, rfl⟩ | ⟨hname, rfl⟩
    · rfl
    · show withCapitals svgElements t.name = t.name
      rw [hname]
      rfl
  have htag : t.inNamespace space = t.withAttributesIn space := by
    show { t.withAttributesIn space with name := (t.inNamespace space).name } = _
    rw [hname]
    rfl
  rw [bodyStart, hclass, htag]

theorem Rests.start_foreign (h : Rests stack path f done b)
    (hstarts : Setting.startsForeign (namesOf stack) space t = true) :
    ∃ r, Rests stack path f done r ∧ Follows stack b r ∧ r.dropNewline = b.dropNewline ∧
      r.mode ≠ .inTemplate ∧
      SettlesIn 2 b (.start t) (r.foreignStart space (t.inNamespace space)) := by
  rcases Setting.startsForeign_cases hstarts with
    ⟨hforeign, ⟨n, hn, hspace⟩, hother⟩ | ⟨hhtml, hflow, hclass⟩
  · -- the rules for SVG and MathML
    obtain ⟨e, rest, rfl, hstack, -⟩ := h.stands.exists_stack
    obtain rfl : e.name = n := Option.some.inj hn
    have htemplate : e.name ≠ ⟨.html, "template"⟩ := fun heq =>
      Setting.ne_html_of_isForeign hforeign hn (congrArg ElementName.space heq)
    refine ⟨b, h, .refl b, rfl, (h.inForce.ne_inTemplate htemplate).1,
      (settlesIn_of_done ?_).mono (by decide)⟩
    rw [step, h.stands.isForeign_eq, if_pos hforeign, inForeign, hother, if_neg Bool.false_ne_true,
      hstack, ← hspace]
  · -- the rule for a start tag in content
    obtain ⟨r, hrests, hfollows, hdrop, hmode, hsettles⟩ :=
      h.start_eq hflow hhtml (by rw [hclass]; simp)
    rw [bodyStart_foreign hclass] at hsettles
    refine ⟨r, hrests, hfollows, hdrop, hmode.resolve_right ?_, hsettles⟩
    rw [hclass]
    simp

/-- The handle of a new element of SVG or MathML. -/
abbrev newForeign (b : Builder) (space : Namespace) (t : Tag) : Handle :=
  ⟨b.nextId, ⟨space, t.name⟩, b.nextId⟩

theorem ElementName.not_isHtml {space : Namespace} (hspace : space ≠ .html) (name : String)
    (names : List String) : isHtml ⟨space, name⟩ names = false := by
  rw [isHtml, beq_false_of_ne hspace, Bool.false_and]

/-- **An element of SVG or MathML is opened**, and nothing else changes. -/
theorem Rests.opens_foreign (h : Rests stack path f done b) (hspace : space ≠ .html)
    (hmode : b.mode ≠ .inTemplate) (hcloses : t.selfClosing = false) :
    Rests (newForeign b space t :: stack) (path ++ [f.holding done])
        (.element b.nextId ⟨space, t.name⟩ t.attributes [] []) [] (b.foreignStart space t) ∧
      (b.foreignStart space t).head = b.head ∧
      (b.foreignStart space t).templateModes = b.templateModes ∧
      (b.foreignStart space t).dropNewline = b.dropNewline := by
  have hnot := ElementName.not_isHtml hspace t.name
  have hstands := h.stands.pushElement (hnot _)
    (h.stands.noted.skip (e := newForeign b space t) (hnot _))
  obtain ⟨root, nextId, stack', failed, heq⟩ := snd_pushElement_eq b space t
  rw [foreignStart, hcloses, if_neg Bool.false_ne_true]
  rw [heq] at hstands ⊢
  exact ⟨h.opened hstands ⟨rfl, rfl, rfl, rfl, rfl, rfl⟩ (hnot _) hmode, rfl, rfl, rfl⟩

/-- **An element of SVG or MathML whose tag closes itself is put in.** -/
theorem Rests.puts_foreign (h : Rests stack path f done b) (hspace : space ≠ .html)
    (hcloses : t.selfClosing = true) :
    Completes stack path f (done ++ [.element b.nextId ⟨space, t.name⟩ t.attributes []]) b b
      (b.foreignStart space t) := by
  have hstands := (h.stands.putElement space t).1
  have hchildren : newChildren b.nextId ⟨space, t.name⟩ = [] := by
    rw [newChildren, ElementName.not_isHtml hspace, if_neg Bool.false_ne_true]
  obtain ⟨root, nextId, failed, heq⟩ := snd_putElement_eq b space t
  rw [foreignStart, hcloses, if_pos rfl]
  rw [hchildren, heq] at hstands
  rw [heq]
  exact ⟨h.sameRules hstands ⟨rfl, rfl, rfl, rfl, rfl, rfl⟩, rfl, rfl, rfl⟩

/-- **The end tag of an element of SVG or MathML closes it.** -/
theorem Rests.finish_foreign {r b' : Builder} {f' : Node.Frame} {done' : List Node} {e : Handle}
    (hparent : Rests stack path f done r)
    (h : Rests (e :: stack) (path ++ [f.holding done]) f' done' b') (hhead : b'.head = r.head)
    (hmodes : b'.templateModes = r.templateModes) (hspace : e.name.space ≠ .html) {name : String}
    (hname : smallLetters e.name.name = smallLetters name) (hother : ¬(name = "br" ∨ name = "p")) :
    ∃ b'', SettlesIn 2 b' (.finish name) b'' ∧
      Completes stack path f (done ++ [f'.branch done']) r b' b'' := by
  have hnot (names : List String) : e.name.isHtml names = false :=
    ElementName.not_isHtml hspace e.name.name names
  have hnoted : Noted stack b'.formatting := by
    rcases h.stands.noted.tail (hnot _) with hnoted | ⟨t, -, -, hhtml, -⟩
    · exact hnoted
    · exact absurd (congrArg ElementName.space hhtml) hspace
  have hstack : b'.stack = e :: stack := h.stands.stack_eq
  have hform : b'.form = openForm stack := h.form.trans (openForm_cons (hnot _) stack)
  have hforeign : Setting.isForeign (namesOf (e :: stack)) (.finish name) = true := by
    simpa [Setting.isForeign, namesOf, ElementName.keeps] using hspace
  have hreach : reachOf name true (e :: stack) = .element stack := by
    obtain ⟨below, rest, rfl⟩ := List.exists_cons_of_ne_nil hparent.stands.nonempty
    rw [reachOf, hname, beq_self_eq_true]
    · rfl
    · exact List.cons_ne_nil _ _
  refine hparent.closes_done h hhead hmodes (hnot _) hnoted hform ?_
  rw [step, h.stands.isForeign_eq, if_pos hforeign, inForeign, if_neg hother, hstack, hreach]

/-! ### Where construction is ready -/

theorem Ready.accept_foreign (h : Ready stack path f done b)
    (hstarts : Setting.startsForeign (namesOf stack) space t = true) :
    ∃ r, Rests stack path f done r ∧ Follows stack b r ∧ r.dropNewline = false ∧
      r.mode ≠ .inTemplate ∧
      b.accept (.start t) = r.foreignStart space (t.inNamespace space) := by
  obtain ⟨r, hrests, hfollows, hdrop, haccept⟩ := h.accept_mark
  obtain ⟨r', hrests', hfollows', hdrop', hmode, hsettles⟩ := hrests.start_foreign hstarts
  exact ⟨r', hrests', hfollows.trans hfollows', hdrop'.trans hdrop, hmode, haccept rfl hsettles⟩

theorem Ready.accept_finishForeign {r : Builder} {f' : Node.Frame} {done' : List Node}
    (hparent : Rests stack path f done r) (hspace : space ≠ .html) (hmode : r.mode ≠ .inTemplate)
    (hcloses : t.selfClosing = false)
    (h : Ready (newForeign r space t :: stack) (path ++ [f.holding done]) f' done' b)
    (hfollows : Follows (newForeign r space t :: stack) (r.foreignStart space t) b) {name : String}
    (hname : smallLetters t.name = smallLetters name) (hother : ¬(name = "br" ∨ name = "p")) :
    Behind stack path f done (f'.branch done') r (b.accept (.finish name)) := by
  obtain ⟨r', hrests, hfollows', hdrop, haccept⟩ := h.accept_mark
  have hfollows := hfollows.trans hfollows'
  obtain ⟨hopened, hhead, hmodes, -⟩ := hparent.opens_foreign hspace hmode hcloses
  have htemplate : (newForeign r space t).name ≠ ⟨.html, "template"⟩ := fun heq =>
    hspace (congrArg ElementName.space heq)
  obtain ⟨b', hsettles, hcompletes⟩ := hparent.finish_foreign hrests (hfollows.head.trans hhead)
    ((hopened.templateModes_eq htemplate hfollows).trans hmodes) hspace hname hother
  exact haccept rfl hsettles ▸ hcompletes.behind (.refl r) hdrop

end
end TerseMarkup.Html
