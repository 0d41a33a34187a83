import TerseMarkup.Proofs.Html.Construction.Nested.Part

/-! Elements of their own kind.

An element without content is put in (`Rests.completes_empty`). A template has rules of its own
inside, and a document to put things in (`Rests.opens_template`, `Rests.finish_template`). An element
that holds nothing but text keeps to that until its end tag comes (`Holds`). -/
namespace TerseMarkup.Html
open Builder

/-! ### Roles by their names -/

/-- How the content of an element is read that holds nothing but text. -/
def heldContent? (name : String) : Option Content :=
  if ["textarea", "title"].contains name then some (.escapable name)
  else if name = "script" then some .script
  else if ["iframe", "noembed", "noframes", "noscript", "style", "xmp"].contains name then
    some (.raw name)
  else none

/-- The elements that hold nothing but text. -/
def heldNames : List String :=
  ["textarea", "title", "script", "iframe", "noembed", "noframes", "noscript", "style", "xmp"]

theorem mem_of_heldContent? {name : String} {content : Content}
    (h : heldContent? name = some content) : name ∈ heldNames := by
  by_contra hmem
  simp only [heldNames, List.mem_cons, List.not_mem_nil, or_false, not_or] at hmem
  simp [heldContent?, hmem] at h

/-- The names of the elements that come into the tree in each way. -/
def Role.Fits (name : String) : Role → Prop
  | empty => ElementName.isVoid ⟨.html, name⟩ = true
  | holds content => heldContent? name = some content
  | template => name = "template"
  | opens => name ≠ "template" ∧ ElementName.isVoid ⟨.html, name⟩ = false ∧
      ElementName.hasRawText ⟨.html, name⟩ = false

instance (name : String) : (role : Role) → Decidable (role.Fits name)
  | .empty | .holds _ | .template => inferInstanceAs (Decidable (_ = _))
  | .opens => inferInstanceAs (Decidable (_ ∧ _ ∧ _))

theorem headRole?_fits {name : String} {role : Role} (h : headRole? name = some role) :
    role.Fits name := by
  have hmem := headRole?_names h
  fin_cases hmem
  all_goals
    obtain rfl := Option.some.inj h
    rfl

theorem Opening.opens_fits {inside : List ElementName} {name : String}
    (h : (ofName name).opens inside name = true) : Role.opens.Fits name := by
  have hnone {names : List String}
      (hnames : ∀ n ∈ names, (ofName n).opens inside n = false) : names.contains name = false := by
    rw [Bool.eq_false_iff]
    intro hmem
    rw [hnames name (List.contains_iff_mem.mp hmem)] at h
    cases h
  refine ⟨?_, hnone ?_, hnone ?_⟩
  · rintro rfl
    cases h
  all_goals
    intro n hn
    fin_cases hn <;> rfl

theorem Opening.role?_fits {inside : List ElementName} {name : String} {role : Role}
    (h : role? inside name = some role) : role.Fits name := by
  by_cases hopens : role = .opens
  · subst hopens
    exact opens_fits (role?_eq_opens.mp h)
  rw [role?] at h
  have hmem {class' : Opening} (h : ofName name = class') (hnames : class'.names ≠ []) :
      name ∈ class'.names := mem_of_ofName h hnames
  have hall : ∀ n ∈ Opening.void.names ++ Opening.parameter.names ++ Opening.rule.names,
      Role.empty.Fits n := by decide
  cases hclass : ofName name <;> rw [hclass] at h
  case head => exact headRole?_fits h
  case void =>
    obtain rfl := Option.some.inj h
    exact hall _ (List.mem_append_left _ (List.mem_append_left _ (hmem hclass (by decide))))
  case parameter =>
    obtain rfl := Option.some.inj h
    exact hall _ (List.mem_append_left _ (List.mem_append_right _ (hmem hclass (by decide))))
  case rule =>
    obtain ⟨-, h⟩ := Option.ite_none_right_eq_some.mp h
    obtain rfl := Option.some.inj h
    exact hall _ (List.mem_append_right _ (hmem hclass (by decide)))
  case textarea =>
    obtain rfl := Option.some.inj h
    exact List.mem_singleton.mp (hmem hclass (by decide)) ▸ rfl
  case sample =>
    obtain ⟨-, h⟩ := Option.ite_none_right_eq_some.mp h
    obtain rfl := Option.some.inj h
    exact List.mem_singleton.mp (hmem hclass (by decide)) ▸ rfl
  case inlineFrame =>
    obtain rfl := Option.some.inj h
    exact List.mem_singleton.mp (hmem hclass (by decide)) ▸ rfl
  case unshown =>
    obtain rfl := Option.some.inj h
    have hname := hmem hclass (by decide)
    fin_cases hname <;> rfl
  all_goals
    obtain ⟨-, h⟩ := Option.ite_none_right_eq_some.mp h
    exact absurd (Option.some.inj h).symm hopens

/-- A start tag that nests puts in or opens what its name says. -/
theorem Setting.role?_fits {inside : List ElementName} {name : String} {role : Role}
    (h : role? inside name = some role) : role.Fits name := by
  have hpart {p : Prop} [Decidable p] (hopens : p → Role.opens.Fits name)
      (h : (if p then some Role.opens else tableRole? name) = some role) : role.Fits name := by
    split_ifs at h with hp
    · obtain rfl := Option.some.inj h
      exact hopens hp
    · exact headRole?_fits (Option.ite_none_right_eq_some.mp h).2
  have hall {names : List String} (hall : ∀ n ∈ names, Role.opens.Fits n)
      (hmem : names.contains name = true) : Role.opens.Fits name :=
    hall name (List.contains_iff_mem.mp hmem)
  obtain ⟨-, h⟩ := role?_eq_some.mp h
  rw [settingRole?] at h
  cases hsetting : of inside <;> rw [hsetting] at h
  case flow => exact Opening.role?_fits h
  case metadata => exact headRole?_fits h
  case table => exact hpart (hall (by decide)) (directlyIn_eq_some.mp h).2
  case rows => exact hpart (fun hname => by rw [hname]; decide) (directlyIn_eq_some.mp h).2
  case cells => exact hpart (hall (by decide)) (directlyIn_eq_some.mp h).2
  case columns =>
    change columnRole? name = some role at h
    rw [columnRole?] at h
    split_ifs at h with hcol htemplate
    · obtain rfl := Option.some.inj h
      rw [hcol]
      decide
    · obtain rfl := Option.some.inj h
      exact htemplate
  case options =>
    change optionRole? inside name = some role at h
    rw [optionRole?] at h
    split_ifs at h with hoption _ hgroup _ hrule
    · obtain rfl := Option.some.inj h
      rw [hoption]
      decide
    · obtain rfl := Option.some.inj h
      rw [hgroup]
      decide
    · obtain rfl := Option.some.inj h
      rw [hrule]
      decide
    · exact headRole?_fits h

section

variable {stack : List Handle} {path : List Node.Frame} {f : Node.Frame} {done : List Node}
  {r b : Builder} {t : Tag}

/-! ### Elements without content -/

theorem Rests.completes_empty (h : Rests stack path f done r) (htemplate : t.name ≠ "template")
    (framesetOk : Bool) :
    Completes stack path f (done ++ [.element r.nextId ⟨.html, t.name⟩ t.attributes []]) r r
      (Role.empty.start framesetOk r t) := by
  have hstands : Stands stack path f _ (r.putEmpty t) := (h.stands.putElement .html t).1
  rw [newChildren_eq htemplate] at hstands
  obtain ⟨root, nextId, failed, heq⟩ := putEmpty_eq r t
  rw [Role.start, heq]
  rw [heq] at hstands
  exact ⟨h.sameRules { hstands with } ⟨rfl, rfl, rfl, rfl, rfl, rfl⟩, rfl, rfl, rfl⟩

/-! ### Templates -/

/-- The handle of a new template. -/
abbrev newTemplate (b : Builder) (t : Tag) : Handle := ⟨b.nextId, ⟨.html, t.name⟩, b.nextId + 1⟩

/-- **The start tag of a template opens it**, and what comes next shows what it holds. -/
theorem Rests.opens_template (h : Rests stack path f done r) (hname : t.name = "template") :
    Rests (newTemplate r t :: stack)
        (path ++ [f.holding done, .element r.nextId ⟨.html, t.name⟩ t.attributes [] []])
        (.document (r.nextId + 1) [] []) [] (r.templateStart t) ∧
      (r.templateStart t).head = r.head ∧
      (r.templateStart t).templateModes = .inTemplate :: r.templateModes ∧
      (r.templateStart t).dropNewline = r.dropNewline := by
  have hmarker : ElementName.isHtml ⟨.html, t.name⟩ markers = true := by
    simp [ElementName.isHtml, hname, markers]
  have hstands := h.stands.pushTemplate hname (h.stands.noted.marker hmarker)
  rw [templateStart, addMarker]
  obtain ⟨root, nextId, stack', failed, heq⟩ := push_eq r t
  rw [heq] at hstands ⊢
  refine ⟨⟨{ hstands with }, h.content, h.tableText, .inr ⟨rfl, ?_, ?_⟩, ?_⟩,
    rfl, rfl, rfl⟩
  · rw [modeFor]
    simp [hname]
  · exact ⟨_, rfl, congrArg _ hname⟩
  · exact h.form.trans (openForm_cons (by simp [ElementName.isHtml, hname]) stack).symm

/-- **The end tag of a template closes it**, and the rules from before it are in force again. -/
theorem Rests.finish_template {b' : Builder} {f' : Node.Frame} {done' : List Node} {e : Handle}
    {inner : List Node.Frame} (hparent : Rests stack path f done r)
    (h : Rests (e :: stack) (path ++ f.holding done :: inner) f' done' b')
    (hname : e.name = ⟨.html, "template"⟩) (hhead : b'.head = r.head)
    (hmodes : b'.templateModes.drop 1 = r.templateModes) :
    ∃ b'', SettlesIn 2 b' (.finish "template") b'' ∧
      Completes stack path f (done ++ [Node.within inner (f'.branch done')]) r b' b'' := by
  have hstack : b'.stack = e :: stack := h.stands.stack_eq
  have hself : e.name.isHtml ["template"] = true := by rw [hname]; decide
  have hends : e.name.isHtml allImpliedEnds = false := by rw [hname]; decide
  obtain ⟨formatting, hnoted, hclear⟩ := h.stands.clearToMarker_eq (by rw [hname]; decide)
  have hreset : Builder.modeFor { b' with
      stack, formatting, templateModes := b'.templateModes.drop 1 } stack = r.modeFor stack := by
    refine modeFor_congr ?_ ?_ stack
    · exact hmodes
    · exact hhead
  have hend : b'.endTemplate = { b' with
      stack, formatting, mode := r.modeFor stack, templateModes := b'.templateModes.drop 1 } := by
    have hopen : b'.isOpen "template" = true := by
      rw [isOpen, hstack, List.any_cons, hself, Bool.true_or]
    rw [endTemplate, if_pos hopen, popImplied_top hstack hends, popThrough_top hstack hself, hclear]
    dsimp only
    rw [resetMode]
    dsimp only
    rw [hreset]
  have hstep : b'.inMode (.finish "template") = .done b'.endTemplate := by
    have hof : Setting.of (namesOf (e :: stack)) = .flow := by
      rw [namesOf, List.map_cons, hname]
      rfl
    have hmode := h.inForce.mode_mem
    rw [hof] at hmode
    simp only [Setting.modes, List.mem_cons, List.not_mem_nil, or_false] at hmode
    rw [inMode]
    rcases hmode with (hmode | hmode | hmode) | ⟨hmode, -⟩ <;> rw [hmode] <;> rfl
  have hform : b'.form = openForm stack := h.form.trans (openForm_cons (by rw [hname]; decide) stack)
  have hlook : b'.step (.finish "template") = b'.inMode (.finish "template") :=
    h.stands.step_html (congrArg ElementName.space hname) _
  refine ⟨_, (settlesIn_of_done (hlook.trans (hstep.trans (congrArg _ hend)))).mono (by decide), ?_,
    hhead, hmodes, rfl⟩
  exact hparent.closed_within h hhead hmodes hnoted hparent.inForce.afterReset hform

/-! ### Elements that hold text -/

/-- Construction stands in an element that holds nothing but text; behind it the rules are those that
were in force in `r`. -/
structure Holds (stack : List Handle) (path : List Node.Frame) (f : Node.Frame) (done : List Node)
    (content : Content) (r b : Builder) : Prop where
  stands : Stands stack path f done b
  content_eq : b.content = content
  mode : b.mode = .inText
  returnMode : b.returnMode = r.mode
  tableText : b.tableText = []
  head : b.head = r.head
  templateModes : b.templateModes = r.templateModes
  form : b.form = r.form

/-- **The start tag of an element that holds text opens it.** -/
theorem Rests.opens_held (h : Rests stack path f done r) (hname : t.name ∈ heldNames)
    (content : Content) (framesetOk : Bool) :
    Holds (newElement r t :: stack) (path ++ [f.holding done])
        (.element r.nextId ⟨.html, t.name⟩ t.attributes [] []) [] content r
        ((Role.holds content).start framesetOk r t) ∧
      ((Role.holds content).start framesetOk r t).dropNewline = (t.name == "textarea") := by
  have hall : ∀ n ∈ heldNames, n ≠ "template" ∧ n ∉ markers := by decide
  obtain ⟨htemplate, hmarker⟩ := hall _ hname
  rw [Role.start, pushRaw]
  generalize (t.name == "textarea") = dropNewline
  have hstands : Stands stack path f done { r with framesetOk, dropNewline } :=
    { h.stands with }
  have hpush := hstands.push htemplate (h.stands.noted.skip (e := newElement r t)
    (by simp [ElementName.isHtml, hmarker]))
  obtain ⟨root, nextId, stack', failed, heq⟩ := push_eq { r with framesetOk, dropNewline } t
  rw [heq] at hpush ⊢
  exact ⟨⟨{ hpush with }, rfl, rfl, rfl, h.tableText, rfl, rfl, rfl⟩, rfl⟩

/-- **The end tag of an element that holds text closes it.** -/
theorem Holds.finish {f' : Node.Frame} {done' : List Node} {e : Handle} {name : String}
    {content : Content} (hparent : Rests stack path f done r)
    (h : Holds (e :: stack) (path ++ [f.holding done]) f' done' content r b)
    (hname : e.name = ⟨.html, name⟩) (hheld : name ∈ heldNames) :
    ∃ b', SettlesIn 2 { b with content := .data } (.finish name) b' ∧
      Completes stack path f (done ++ [f'.branch done']) r b b' := by
  have hall : ∀ n ∈ heldNames, n ∉ markers ∧ n ∉ formattingTags := by decide
  obtain ⟨hmarker, htag⟩ := hall _ hheld
  have hnoted : Noted stack b.formatting :=
    h.stands.noted.tail_plain (by simp [hname, ElementName.isHtml, hmarker]) (by rwa [hname])
  have hstands : Stands (e :: stack) (path ++ [f.holding done]) f' done'
      { b with content := .data } := { h.stands with }
  have hstep : Builder.step { b with content := .data } (.finish name) =
      .done { b with stack, formatting := b.formatting, mode := r.mode, content := .data } := by
    have hmode : b.mode = .inText := h.mode
    have hpop : Builder.pop { b with content := .data } = { b with stack, content := .data } :=
      pop_top hstands.stack_eq
    rw [hstands.step_html (congrArg ElementName.space hname), inMode]
    dsimp only
    rw [hmode]
    show Outcome.done { Builder.pop { b with content := .data } with mode := b.returnMode } = _
    rw [hpop, h.returnMode]
  refine ⟨_, (settlesIn_of_done hstep).mono (by decide), ⟨?_, rfl, h.tableText, ?_, ?_⟩, h.head,
    h.templateModes, rfl⟩
  · have hclosed := hparent.stands.close h.stands hnoted
    exact { hclosed with }
  · have hreset : Builder.modeFor { b with
        stack, formatting := b.formatting, mode := r.mode, content := .data } stack =
          r.modeFor stack := by
      refine modeFor_congr ?_ ?_ stack
      · exact h.templateModes
      · exact h.head
    rw [hreset]
    exact hparent.inForce
  · exact h.form.trans hparent.form

end
end TerseMarkup.Html
