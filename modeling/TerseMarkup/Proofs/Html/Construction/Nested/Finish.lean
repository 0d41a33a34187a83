import TerseMarkup.Proofs.Html.Construction.Nested.Start

/-! End tags that nest in content.

The end tag of the element opened last does nothing but close it (`Rests.finish_content`). -/
namespace TerseMarkup.Html
open Builder

/-! ### End tags of content -/

section BodyEnd

variable (b : Builder) {name : String}

theorem bodyEnd_block (h : name ∈ Opening.blocks ++ ["button", "listing", "pre"]) :
    b.bodyEnd name = .done (b.endBlock name) := by
  have hall : ∀ n ∈ Opening.blocks ++ ["button", "listing", "pre"],
      n ≠ "template" ∧ n ≠ "body" ∧ n ≠ "html" := by decide
  obtain ⟨htemplate, hbody, hhtml⟩ := hall name h
  have hmem : Opening.blocks.contains name ∨ ["button", "listing", "pre"].contains name := by
    simpa only [List.contains_iff_mem] using List.mem_append.mp h
  rw [bodyEnd, if_neg htemplate, if_neg hbody, if_neg hhtml, if_pos hmem]

theorem bodyEnd_paragraph (h : b.inScope ElementName.endsButtonScope ["p"] = true) :
    b.bodyEnd "p" = .done b.closeParagraph := by
  have hunfold : b.bodyEnd "p" = .done (if b.inScope ElementName.endsButtonScope ["p"] then b
      else b.pushNamed "p").closeParagraph := rfl
  rw [hunfold, if_pos h]

theorem bodyEnd_item (h : name ∈ ["li", "dd", "dt"]) :
    b.bodyEnd name = .done (b.endItem name) := by
  fin_cases h <;> rfl

theorem bodyEnd_heading (h : name ∈ headings) :
    b.bodyEnd name = .done (if b.inScope ElementName.endsScope headings then
      (b.popImplied impliedEnds).popThrough headings else b) := by
  fin_cases h <;> rfl

theorem bodyEnd_formatting (h : name ∈ formattingTags) :
    b.bodyEnd name = .done (b.endFormatting name) := by
  fin_cases h <;> rfl

theorem bodyEnd_embedded (h : name ∈ Opening.embeddedNames) :
    b.bodyEnd name = .done (if b.inScope ElementName.endsScope [name] then
      (b.endBlock name).clearToMarker else b) := by
  fin_cases h <;> rfl

theorem bodyEnd_other
    (h : Opening.ofName name ∈ [Opening.other, .option, .rubyBase, .rubyText]) :
    b.bodyEnd name = .done (b.endOther name) := by
  have hall : ∀ n ∈ ["template", "body", "html", "form", "br"] ++
      [Opening.block, .heading, .verbatim, .listItem, .button, .link, .formatting, .unbroken,
        .embedded].flatMap Opening.names,
      Opening.ofName n ∉ [Opening.other, .option, .rubyBase, .rubyText] := by decide +kernel
  have hnot : name ∉ _ := fun hmem => hall name hmem h
  simp only [List.mem_append, List.mem_cons, List.not_mem_nil, or_false, not_or,
    List.flatMap_cons, Opening.names, List.flatMap_nil] at hnot
  simp only [bodyEnd, List.contains_iff_mem, List.mem_cons, List.not_mem_nil, or_false]
  simp only [hnot, or_false, if_false]

end BodyEnd

section

variable {stack : List Handle} {path : List Node.Frame} {f : Node.Frame} {done : List Node}
  {b : Builder} {e : Handle} {name : String}

/-- With an element that shuts off formatting elements its marker goes. -/
theorem Stands.clearToMarker_eq (h : Stands (e :: stack) path f done b)
    (hmarker : e.name.isHtml markers = true) :
    ∃ formatting, Noted stack formatting ∧
      Builder.clearToMarker { b with stack } = { b with stack, formatting } := by
  obtain ⟨older, hformatting, hnoted⟩ := h.noted.tail_marker hmarker
  refine ⟨older, hnoted, ?_⟩
  rw [clearToMarker]
  dsimp only
  rw [hformatting]
  rfl

/-- **The end tag of the element opened last closes that** and does nothing else. -/
theorem Stands.bodyEnd_eq (h : Stands (e :: stack) path f done b) (hname : e.name = ⟨.html, name⟩)
    (hclass : Opening.ofName name ∈
      Opening.plain ++ [.link, .formatting, .unbroken, .embedded]) :
    ∃ formatting, Noted stack formatting ∧
      b.bodyEnd name = .done { b with stack, formatting } := by
  have hstack : b.stack = e :: stack := h.stack_eq
  have htop {names : List String} (hmem : name ∈ names) : e.name.isHtml names = true := by
    simp [hname, ElementName.isHtml, hmem]
  have hoff {names : List String} (hmem : name ∉ names) : e.name.isHtml names = false := by
    simp [hname, ElementName.isHtml, hmem]
  have hself := htop (List.mem_singleton_self name)
  have hplain (hmarker : name ∉ markers) (hmem : name ∉ formattingTags) :
      Noted stack b.formatting := h.noted.tail_plain (hoff hmarker) (by rwa [hname])
  have hother (hclass : Opening.ofName name ∈ [Opening.other, .option, .rubyBase, .rubyText])
      (hmarker : name ∉ markers) (hmem : name ∉ formattingTags) :
      ∃ formatting, Noted stack formatting ∧
        b.bodyEnd name = .done { b with stack, formatting } :=
    ⟨b.formatting, hplain hmarker hmem, by rw [bodyEnd_other b hclass, endOther_top hstack hself]⟩
  have hformatting (hmem : name ∈ formattingTags) : ∃ formatting, Noted stack formatting ∧
      b.bodyEnd name = .done { b with stack, formatting } := by
    rw [bodyEnd_formatting b hmem]
    obtain ⟨formatting, hnoted, heq⟩ := h.endFormatting_eq hname hmem
    exact ⟨formatting, hnoted, congrArg Outcome.done heq⟩
  have hblock (hmem : name ∈ Opening.blocks ++ ["button", "listing", "pre"]) :
      ∃ formatting, Noted stack formatting ∧
        b.bodyEnd name = .done { b with stack, formatting } := by
    have hall : ∀ n ∈ Opening.blocks ++ ["button", "listing", "pre"],
        n ∉ markers ∧ n ∉ formattingTags ∧ n ∉ impliedEnds := by decide
    obtain ⟨hmarker, hformatting, hends⟩ := hall name hmem
    refine ⟨b.formatting, hplain hmarker hformatting, ?_⟩
    rw [bodyEnd_block b hmem, endBlock_top hstack hself (hoff hends)]
  have hmem {class' : Opening} (h : Opening.ofName name = class') (hnames : class'.names ≠ []) :
      name ∈ class'.names := Opening.mem_of_ofName h hnames
  cases hclass' : Opening.ofName name <;> rw [hclass'] at hclass hother
  case other =>
    have hnot := Opening.ofName_other hclass'
    have hall : ∀ n ∈ markers ++ formattingTags, n ∈ Opening.classed := by decide
    refine hother (by decide) (fun hmem => hnot (hall _ (List.mem_append_left _ hmem)))
      fun hmem => hnot (hall _ (List.mem_append_right _ hmem))
  case option | rubyBase | rubyText =>
    all_goals
      have hmem := hmem hclass' (by decide)
      exact hother (by decide) (fun hmarker => by fin_cases hmem <;> revert hmarker <;> decide)
        fun htag => by fin_cases hmem <;> revert htag <;> decide
  case formatting | link | unbroken =>
    all_goals exact hformatting (Opening.formattingTags_of_ofName (by simp [hclass']))
  case embedded =>
    have hmem : name ∈ Opening.embeddedNames := hmem hclass' (by decide)
    have hall : ∀ n ∈ Opening.embeddedNames, n ∈ markers ∧ n ∉ impliedEnds := by decide
    obtain ⟨formatting, hnoted, hclear⟩ := h.clearToMarker_eq (htop (hall name hmem).1)
    refine ⟨formatting, hnoted, ?_⟩
    rw [bodyEnd_embedded b hmem, if_pos (inScope_top hstack hself),
      endBlock_top hstack hself (hoff (hall name hmem).2), hclear]
  case block =>
    rcases List.mem_cons.mp (hmem hclass' (List.cons_ne_nil _ _)) with rfl | hmem
    · refine ⟨b.formatting, hplain (by decide) (by decide), ?_⟩
      rw [bodyEnd_paragraph b (inScope_top hstack hself), closeParagraph, popImpliedBut,
        popImplied_top hstack (hoff (by decide)), popThrough_top hstack hself]
    · exact hblock (List.mem_append_left _ hmem)
  case verbatim =>
    have hmem : name ∈ ["pre", "listing"] := hmem hclass' (by decide)
    exact hblock (List.mem_append_right _ (by simp_all [or_comm]))
  case button =>
    obtain rfl : name = "button" := List.mem_singleton.mp (hmem hclass' (by decide))
    exact hblock (by decide)
  case heading =>
    have hmem : name ∈ headings := hmem hclass' (by decide)
    have hall : ∀ n ∈ headings, n ∉ markers ∧ n ∉ formattingTags ∧ n ∉ impliedEnds := by decide
    obtain ⟨hmarker, hformatting, hends⟩ := hall name hmem
    refine ⟨b.formatting, hplain hmarker hformatting, ?_⟩
    rw [bodyEnd_heading b hmem, if_pos (inScope_top hstack (htop hmem)),
      popImplied_top hstack (hoff hends), popThrough_top hstack (htop hmem)]
  case listItem =>
    have hmem : name ∈ ["li", "dd", "dt"] := hmem hclass' (by decide)
    have hall : ∀ n ∈ ["li", "dd", "dt"], n ∉ markers ∧ n ∉ formattingTags := by decide
    refine ⟨b.formatting, hplain (hall name hmem).1 (hall name hmem).2, ?_⟩
    rw [bodyEnd_item b hmem, endItem, if_pos (inScope_top hstack hself), popImpliedBut,
      popImplied_top hstack (hoff (by simp)), popThrough_top hstack hself]
  all_goals simp [Opening.plain] at hclass

/-- In content the rule for an end tag in the body is in force. -/
theorem Stands.finish_eq (h : Stands (e :: stack) path f done b) (hhtml : e.name.space = .html)
    (hmode : b.mode ∈ Setting.flow.modes)
    (hname : name ∉ ["body", "html", "table", "tr"] ++ outerParts ++ sections ++ cells) :
    b.step (.finish name) = b.bodyEnd name := by
  simp only [List.mem_append, List.mem_cons, List.not_mem_nil, or_false, not_or, outerParts, sections,
    cells] at hname
  rw [h.step_html hhtml, inMode]
  simp only [Setting.modes, List.mem_cons, List.not_mem_nil, or_false] at hmode
  rcases hmode with hmode | hmode | hmode <;> rw [hmode]
  · rfl
  · simp [inCaption, hname, outerParts, sections, cells, inBody]
  · simp [inCell, hname, outerParts, sections, cells, inBody]

/-- From where it rested in `r`, construction has come behind a node that is complete: it rests in
the same place again. `b` is where it came from directly. -/
structure Completes (stack : List Handle) (path : List Node.Frame) (f : Node.Frame) (done : List Node)
    (r b b' : Builder) : Prop where
  rests : Rests stack path f done b'
  head : b'.head = r.head
  templateModes : b'.templateModes = r.templateModes
  dropNewline : b'.dropNewline = b.dropNewline

section Closing

variable {r b' : Builder} {f' : Node.Frame} {done' : List Node} (hparent : Rests stack path f done r)
  (h : Rests (e :: stack) (path ++ [f.holding done]) f' done' b')
  (hhead : b'.head = r.head) (hmodes : b'.templateModes = r.templateModes)
include h hhead hmodes

/-- The rules stay in force behind an element that says nothing of the setting. -/
theorem Rests.inForce_closed (hsetting : e.name.isHtml settingNames = false) :
    b'.mode ∈ (Setting.of (namesOf stack)).modes ∧ InForce stack b'.mode (r.modeFor stack) := by
  have hof : Setting.of (namesOf (e :: stack)) = Setting.of (namesOf stack) :=
    Setting.of_cons_other hsetting _
  have hinside := h.inForce
  rw [modeFor_cons_other _ hsetting, modeFor_congr hmodes hhead] at hinside
  have hmem : b'.mode ∈ (Setting.of (namesOf stack)).modes := by
    rcases hinside with hinside | ⟨-, -, e', he', htemplate⟩
    · exact hof ▸ hinside.1
    · obtain rfl := Option.some.inj he'
      exact absurd (htemplate ▸ hsetting) (by decide)
  refine ⟨hmem, (InForce.cons_other hsetting fun heq => ?_).mp hinside⟩
  exact Setting.inTemplate_not_mem _ (heq ▸ hmem)

include hparent

/-- The element is closed where it says nothing of the setting, and the mode stays. -/
theorem Rests.closes_done (hsetting : e.name.isHtml settingNames = false)
    {formatting : List Formatting} (hnoted : Noted stack formatting) {form : Option Handle}
    (hform : form = openForm stack) {t : Token}
    (hstep : b'.step t = .done { b' with stack, formatting, form }) :
    ∃ b'', SettlesIn 2 b' t b'' ∧ Completes stack path f (done ++ [f'.branch done']) r b' b'' := by
  obtain ⟨-, hforce⟩ := h.inForce_closed hhead hmodes hsetting
  exact ⟨_, (settlesIn_of_done hstep).mono (by decide),
    hparent.closed h hhead hmodes hnoted hforce hform, hhead, hmodes, rfl⟩

variable (hname : e.name = ⟨.html, name⟩)
include hname

/-- The mode is reset behind the element. -/
theorem Rests.closes_reset (hmarker : name ∉ markers) (htag : name ∉ formattingTags)
    (hform : name ≠ "form") (hsettles : SettlesIn 2 b' (.finish name)
      (Builder.resetMode { b' with stack })) :
    ∃ b'', SettlesIn 2 b' (.finish name) b'' ∧
      Completes stack path f (done ++ [f'.branch done']) r b' b'' := by
  have hoff {names : List String} (hmem : name ∉ names) : e.name.isHtml names = false := by
    simp [hname, ElementName.isHtml, hmem]
  have hreset : Builder.resetMode { b' with stack } = { b' with stack, mode := r.modeFor stack } := by
    have hmode : Builder.modeFor { b' with stack } stack = r.modeFor stack := by
      refine modeFor_congr ?_ ?_ stack
      · exact hmodes
      · exact hhead
    rw [resetMode]
    dsimp only
    rw [hmode]
  have hnoted : Noted stack b'.formatting :=
    h.stands.noted.tail_plain (hoff hmarker) (by rwa [hname])
  have htemplate : name ≠ "template" := fun heq => absurd (heq ▸ hmarker) (by decide)
  have hformOpen : b'.form = openForm stack :=
    h.form.trans (openForm_cons (hoff (by simpa using hform)) stack)
  exact ⟨_, hreset ▸ hsettles, hparent.closed h hhead hmodes hnoted
    hparent.inForce.afterReset hformOpen, hhead, hmodes, rfl⟩

/-- Most elements are closed, and that is all. -/
theorem Rests.finish_plain (hflow : Setting.of (namesOf stack) = .flow)
    (hclass : Opening.ofName name ∈ Opening.plain ++ [.link, .formatting, .unbroken, .embedded]) :
    ∃ b'', SettlesIn 2 b' (.finish name) b'' ∧
      Completes stack path f (done ++ [f'.branch done']) r b' b'' := by
  have hall : ∀ n ∈ "form" :: "template" :: settingNames ++
      (["body", "html", "table", "tr"] ++ outerParts ++ sections ++ cells),
      Opening.ofName n ∉ Opening.plain ++ [.link, .formatting, .unbroken, .embedded] := by
    decide +kernel
  have hnot : name ∉ _ := fun hmem => hall name hmem hclass
  rw [List.mem_append, not_or, List.mem_cons, List.mem_cons, not_or, not_or] at hnot
  obtain ⟨⟨hform, htemplate, hsetting⟩, hpart⟩ := hnot
  have hoff {names : List String} (hmem : name ∉ names) : e.name.isHtml names = false := by
    simp [hname, ElementName.isHtml, hmem]
  obtain ⟨hmode, -⟩ := h.inForce_closed hhead hmodes (hoff hsetting)
  obtain ⟨formatting, hnoted, hend⟩ := h.stands.bodyEnd_eq hname hclass
  have hformOpen : b'.form = openForm stack :=
    h.form.trans (openForm_cons (hoff (by simpa using hform)) stack)
  refine hparent.closes_done h hhead hmodes (hoff hsetting) hnoted hformOpen ?_
  rw [h.stands.finish_eq (congrArg ElementName.space hname) (hflow ▸ hmode) hpart, hend]

omit hparent hhead hmodes in
/-- The form that is closed is the one that is open, unless it stands in a template. -/
theorem Rests.formEnd_eq (hform : name = "form") (hnone : openForm stack = none) :
    ∃ form, form = openForm stack ∧ b'.formEnd = { b' with stack, form } := by
  have hstack : b'.stack = e :: stack := h.stands.stack_eq
  have hself : e.name.isHtml ["form"] = true := by rw [hname, hform]; decide
  have hends : e.name.isHtml impliedEnds = false := by rw [hname, hform]; decide
  have hopen : b'.isOpen "template" = stack.any (·.name.isHtml ["template"]) := by
    have htemplate : e.name.isHtml ["template"] = false := by rw [hname, hform]; decide
    rw [isOpen, hstack, List.any_cons, htemplate, Bool.false_or]
  rw [formEnd, hopen]
  cases hany : stack.any (·.name.isHtml ["template"]) with
  | true =>
    refine ⟨b'.form, ?_, ?_⟩
    · rw [h.form, openForm, hany, Bool.not_true, Bool.and_false, if_neg Bool.false_ne_true]
    · rw [if_pos rfl, if_pos (inScope_top hstack hself), popImplied_top hstack hends,
        popThrough_top hstack hself]
  | false =>
    have hopenForm : b'.form = some e := by
      rw [h.form, openForm, hself, hany, Bool.not_false, Bool.and_self, if_pos rfl]
    have himplied : Builder.popImplied { b' with form := none } impliedEnds =
        { b' with form := none } := popImplied_top (b := { b' with form := none }) hstack hends
    have hreach : reaches ElementName.endsScope (·.id == e.id) b'.stack = true := by
      rw [hstack, reaches, beq_self_eq_true, Bool.true_or]
    have hrest : stack.filter (·.id != e.id) = stack := by
      rw [List.filter_eq_self]
      intro e' he'
      rw [bne_iff_ne]
      exact fun heq => (List.nodup_cons.mp h.stands.nodup).1 (heq ▸ List.mem_map_of_mem he')
    have hfilter : b'.stack.filter (·.id != e.id) = stack := by
      rw [hstack, List.filter_cons_of_neg (by simp), hrest]
    refine ⟨none, hnone.symm, ?_⟩
    rw [if_neg Bool.false_ne_true, hopenForm]
    dsimp only
    rw [hreach, if_pos rfl, himplied, close]
    dsimp only
    rw [hfilter]

theorem Rests.finish_form (hflow : Setting.of (namesOf stack) = .flow) (hform : name = "form")
    (houtside : (namesOf stack).any (·.isHtml ["form"]) = false) :
    ∃ b'', SettlesIn 2 b' (.finish name) b'' ∧
      Completes stack path f (done ++ [f'.branch done']) r b' b'' := by
  obtain ⟨form, hformOpen, hend⟩ := h.formEnd_eq hname hform (openForm_eq_none houtside)
  subst hform
  obtain ⟨hmode, -⟩ := h.inForce_closed hhead hmodes (by rw [hname]; decide)
  have hnoted : Noted stack b'.formatting :=
    h.stands.noted.tail_plain (by rw [hname]; decide) (by rw [hname]; decide)
  refine hparent.closes_done h hhead hmodes (by rw [hname]; decide) hnoted hformOpen ?_
  rw [h.stands.finish_eq (congrArg ElementName.space hname) (hflow ▸ hmode) (by decide)]
  exact congrArg Outcome.done hend

theorem Rests.finish_table (htable : name = "table") :
    ∃ b'', SettlesIn 2 b' (.finish name) b'' ∧
      Completes stack path f (done ++ [f'.branch done']) r b' b'' := by
  subst htable
  have hstack : b'.stack = e :: stack := h.stands.stack_eq
  have hself : e.name.isHtml ["table"] = true := by rw [hname]; decide
  have hof : Setting.of (namesOf (e :: stack)) = .table := by
    rw [namesOf, List.map_cons, hname]
    rfl
  have hmode : b'.mode = .inTable := by
    have hmem := h.mode_mem (by rw [hof]; decide)
    rw [hof] at hmem
    exact List.mem_singleton.mp hmem
  have hstep : b'.step (.finish "table") = b'.inTable (.finish "table") := by
    rw [h.stands.step_html (congrArg ElementName.space hname), inMode, hmode]
  refine hparent.closes_reset h hhead hmodes hname (by decide) (by decide) (by decide)
    ((settlesIn_of_done ?_).mono (by decide))
  rw [hstep]
  show Outcome.done (if b'.inTableScope ["table"] then (b'.popThrough ["table"]).resetMode
    else b') = _
  rw [inTableScope, if_pos (inScope_top hstack hself), popThrough_top hstack hself]

theorem Rests.finish_select (hselect : name = "select") :
    ∃ b'', SettlesIn 2 b' (.finish name) b'' ∧
      Completes stack path f (done ++ [f'.branch done']) r b' b'' := by
  subst hselect
  have hstack : b'.stack = e :: stack := h.stands.stack_eq
  have hself : e.name.isHtml ["select"] = true := by rw [hname]; decide
  have hof : Setting.of (namesOf (e :: stack)) = .options := by
    rw [namesOf, List.map_cons, hname]
    rfl
  have hmode := h.mode_mem (by rw [hof]; decide)
  have hstep : b'.step (.finish "select") = b'.inSelect (.finish "select") := by
    rw [hof] at hmode
    simp only [Setting.modes, List.mem_cons, List.not_mem_nil, or_false] at hmode
    rw [h.stands.step_html (congrArg ElementName.space hname), inMode]
    rcases hmode with hmode | hmode <;> rw [hmode]
    rfl
  refine hparent.closes_reset h hhead hmodes hname (by decide) (by decide) (by decide)
    ((settlesIn_of_done ?_).mono (by decide))
  rw [hstep]
  show Outcome.done (if b'.selectionInReach then b'.leaveSelection else b') = _
  rw [selectionInReach, if_pos (inScope_top hstack hself), leaveSelection,
    popThrough_top hstack hself]

/-- **The end tag of an element opened in content** closes that and does nothing else. -/
theorem Rests.finish_content (hflow : Setting.of (namesOf stack) = .flow)
    (hrole : Opening.role? (namesOf stack) name = some .opens) :
    ∃ b'', SettlesIn 2 b' (.finish name) b'' ∧
      Completes stack path f (done ++ [f'.branch done']) r b' b'' := by
  have hfree := Opening.role?_eq_opens.mp hrole
  have hplain := hparent.finish_plain h hhead hmodes hname hflow
  have hone {class' : Opening} {only : String} (hclass : Opening.ofName name = class')
      (hnames : class'.names = [only]) : name = only :=
    List.mem_singleton.mp (hnames ▸ Opening.mem_of_ofName hclass (hnames ▸ List.cons_ne_nil _ _))
  cases hclass : Opening.ofName name <;> rw [hclass] at hfree hplain
  case form =>
    have houtside := (Bool.not_eq_true' _).mp (Bool.and_eq_true_iff.mp hfree).2
    exact hparent.finish_form h hhead hmodes hname hflow (hone hclass rfl) houtside
  case table => exact hparent.finish_table h hhead hmodes hname (hone hclass rfl)
  case select => exact hparent.finish_select h hhead hmodes hname (hone hclass rfl)
  all_goals first
    | exact hplain (by decide)
    | exact absurd hfree Bool.false_ne_true

end Closing

end

end TerseMarkup.Html
