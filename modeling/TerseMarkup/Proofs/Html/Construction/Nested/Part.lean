import TerseMarkup.Proofs.Html.Construction.Nested.Finish

/-! Tags that nest in tables and selections.

A table, a part of one and a selection take but a few elements each. With those of content
(`Rests.start_content_opens`, `Rests.finish_content`) this is every element that nests: its start tag
opens it (`Rests.start_opens`) or puts it in (`Rests.start_role`), and its end tag closes it
(`Rests.finish_opened`). -/
namespace TerseMarkup.Html
open Builder

section

variable {stack : List Handle} {path : List Node.Frame} {f : Node.Frame} {done : List Node}
  {b : Builder}

/-- A marker may be noted before the element is opened that it is for. -/
theorem Stands.addMarker_push (h : Stands stack path f done b) (mode : Mode) (t : Tag) :
    ({ b with mode }.addMarker).push t =
      { b.push t with mode, formatting := .marker :: b.formatting } := by
  have hput (b' : Builder) (hroot : b'.root = b.root) (hstack : b'.stack = b.stack)
      (hfostering : b'.fostering = b.fostering) (p : Piece) :=
    h.put_eq_of_same hroot hstack hfostering p
  rw [Builder.push, Builder.push, pushElement_eq, pushElement_eq, putElement_eq, putElement_eq]
  rw [hput _ (by rfl) (by rfl) (by rfl), hput _ (by rfl) (by rfl) (by rfl)]
  rfl

/-- The name of a tag. -/
def Token.tagName? : Token → Option String
  | .start t => some t.name
  | .finish name => some name
  | _ => none

/-- In a selection that stands in a table, only tags for parts of tables have rules of their own. -/
theorem Builder.inMode_options {b : Builder} (hmode : b.mode ∈ Setting.options.modes) {t : Token}
    (ht : ∀ name ∈ t.tagName?, selectionEnders.contains name = false) :
    b.inMode t = b.inSelect t := by
  have htable : b.inSelectInTable t = b.inSelect t := by
    cases t with
    | start t => exact if_neg (Bool.eq_false_iff.mp (ht _ rfl))
    | finish name => exact if_neg (Bool.eq_false_iff.mp (ht _ rfl))
    | _ => rfl
  simp only [Setting.modes, List.mem_cons, List.not_mem_nil, or_false] at hmode
  rw [inMode]
  rcases hmode with hmode | hmode <;> rw [hmode]
  exact htable

/-- The rule of the head is in force for what may stand in a head, directly in tables as well. -/
theorem Builder.inMode_headContent {b : Builder} {t : Tag}
    (hmode : b.mode ∈ [.inHead, .inTable, .inTableBody, .inRow])
    (hname : t.name ∈ ["script", "style", "template"] ∨ b.mode = .inHead) {role : Role}
    (hrole : headRole? t.name = some role) : b.inMode (.start t) = .done (b.headStart t) := by
  have hhead := headRole?_names hrole
  obtain ⟨name, attributes, selfClosing⟩ := t
  simp only [List.mem_cons, List.not_mem_nil, or_false] at hmode
  rw [inMode]
  rcases hmode with hmode | hmode | hmode | hmode <;> rw [hmode]
  · fin_cases hhead <;> rfl
  all_goals
    rw [hmode] at hname
    replace hname := hname.resolve_right (by decide)
    fin_cases hname <;> rfl

/-! ### Start tags -/

theorem Setting.directlyIn_eq_some {names : List String} {inside : List ElementName}
    {role : Option Role} {r : Role} : directlyIn names inside role = some r ↔
      Opening.outsideOf names inside = false ∧ role = some r := by
  rw [directlyIn]
  cases Opening.outsideOf names inside <;> simp

/-- Directly in a table, or in a part of one, only other parts are opened. -/
theorem Setting.mem_of_opens {names : List String} {name : String}
    (hrole : (if names.contains name then some Role.opens else tableRole? name) = some .opens) :
    name ∈ names := by
  by_contra hmem
  rw [if_neg (by simpa using hmem), tableRole?] at hrole
  split at hrole
  · exact headRole?_ne_opens _ hrole
  · cases hrole

theorem Stands.popTo_eq (h : Stands stack path f done b) {context : List String}
    (hinside : Opening.outsideOf context (namesOf stack) = false) : b.popTo context = b := by
  obtain ⟨e, rest, rfl, hstack, -⟩ := h.exists_stack
  refine popTo_top hstack ?_
  simpa [Opening.outsideOf, namesOf] using hinside

theorem Stands.popIf_eq (h : Stands stack path f done b) {names : List String}
    (houtside : Opening.outsideOf names (namesOf stack) = true) : b.popIf names = b := by
  rw [popIf, h.currentIs_eq houtside, if_neg Bool.false_ne_true]

theorem Opening.outsideOf_of_subset {names names' : List String} (hsub : names ⊆ names')
    {inside : List ElementName} (h : outsideOf names' inside = true) :
    outsideOf names inside = true := by
  cases inside with
  | nil => rfl
  | cons n rest =>
    rw [outsideOf, Bool.not_eq_true'] at h ⊢
    refine Bool.eq_false_iff.mpr fun hmem => Bool.eq_false_iff.mp h ?_
    simp only [List.head?_cons, Option.any_some, ElementName.isHtml, Bool.and_eq_true,
      List.contains_iff_mem] at hmem ⊢
    exact hmem.imp_right fun hmem => hsub hmem

/-- Neither an option nor a group of options is closed. -/
theorem Stands.popIf_popIf_eq (h : Stands stack path f done b)
    (houtside : Opening.outsideOf ["optgroup", "option"] (namesOf stack) = true) :
    (b.popIf ["option"]).popIf ["optgroup"] = b := by
  rw [h.popIf_eq (Opening.outsideOf_of_subset (by simp) houtside),
    h.popIf_eq (Opening.outsideOf_of_subset (by simp) houtside)]

/-- A part of a table is opened that shuts off no formatting elements. -/
theorem Rests.opens_pushPart (h : Rests stack path f done b) {context : List String}
    (hinside : Opening.outsideOf context (namesOf stack) = false) {t : Tag} {mode : Mode}
    (hmode : partMode? t.name = some mode)
    (hmarker : ElementName.isHtml ⟨.html, t.name⟩ markers = false) :
    Opens stack path f done b t (b.pushPart context t mode) := by
  have hnoted : Noted (newElement b t :: stack) b.formatting := h.stands.noted.skip hmarker
  have hopens := h.opens_part hmode b.framesetOk hnoted
  rw [pushPart, h.stands.popTo_eq hinside]
  obtain ⟨root, nextId, stack', failed, heq⟩ := push_eq b t
  rw [heq] at hopens ⊢
  exact hopens

/-- A cell or a caption is opened, with a marker for it. -/
theorem Rests.opens_marked (h : Rests stack path f done b) {t : Tag} (mode : Mode)
    (hmode : partMode? t.name = some mode)
    (hmarker : ElementName.isHtml ⟨.html, t.name⟩ markers = true) :
    Opens stack path f done b t
      { b.push t with mode, formatting := .marker :: b.formatting } := by
  have hnoted : Noted (newElement b t :: stack) (.marker :: b.formatting) :=
    h.stands.noted.marker hmarker
  have hopens := h.opens_part hmode b.framesetOk hnoted
  obtain ⟨root, nextId, stack', failed, heq⟩ := push_eq b t
  rw [heq] at hopens ⊢
  exact hopens

section Starting

variable (h : Rests stack path f done b) {t : Tag}
include h

theorem Rests.start_inTable (hmode : b.mode = .inTable)
    (hinside : Opening.outsideOf tableContext (namesOf stack) = false)
    (hname : t.name ∈ "caption" :: "colgroup" :: sections) :
    ∃ b', b.inMode (.start t) = .done b' ∧ Opens stack path f done b t b' := by
  have hstep : b.inMode (.start t) = b.tableStart t := by rw [inMode, hmode]; rfl
  obtain ⟨name, attributes, selfClosing⟩ := t
  fin_cases hname
  · refine ⟨_, hstep.trans ?_, h.opens_marked .inCaption rfl rfl⟩
    show Outcome.done (({ b.popTo tableContext with mode := .inCaption }.addMarker).push _) = _
    rw [h.stands.popTo_eq hinside, h.stands.addMarker_push]
  all_goals exact ⟨_, hstep, h.opens_pushPart hinside rfl rfl⟩

theorem Rests.start_inTableBody (hmode : b.mode = .inTableBody)
    (hinside : Opening.outsideOf sectionContext (namesOf stack) = false) (hname : t.name = "tr") :
    ∃ b', b.inMode (.start t) = .done b' ∧ Opens stack path f done b t b' := by
  have hstep : b.inMode (.start t) = b.inTableBody (.start t) := by rw [inMode, hmode]
  obtain ⟨name, attributes, selfClosing⟩ := t
  obtain rfl : name = "tr" := hname
  exact ⟨_, hstep, h.opens_pushPart hinside rfl rfl⟩

theorem Rests.start_inRow (hmode : b.mode = .inRow)
    (hinside : Opening.outsideOf rowContext (namesOf stack) = false) (hname : t.name ∈ cells) :
    ∃ b', b.inMode (.start t) = .done b' ∧ Opens stack path f done b t b' := by
  have hstep : b.inMode (.start t) = .done { b.push t with
      mode := .inCell, formatting := .marker :: b.formatting } := by
    rw [inMode, hmode]
    show b.inRow (.start t) = _
    rw [inRow, if_pos (List.contains_iff_mem.mpr hname), pushPart, h.stands.popTo_eq hinside,
      addMarker]
    obtain ⟨root, nextId, stack', failed, heq⟩ := push_eq b t
    rw [heq]
  have hall : ∀ n ∈ cells, partMode? n = some .inCell ∧
      ElementName.isHtml ⟨.html, n⟩ markers = true := by decide
  obtain ⟨hpart, hmarker⟩ := hall _ hname
  exact ⟨_, hstep, h.opens_marked .inCell hpart hmarker⟩

theorem Rests.start_inOptions (hmode : b.mode ∈ Setting.options.modes)
    (hrole : Setting.optionRole? (namesOf stack) t.name = some .opens) :
    ∃ b', b.inMode (.start t) = .done b' ∧ Opens stack path f done b t b' := by
  have hcontent : b.mode ≠ .inTemplate := fun heq =>
    Setting.inTemplate_not_mem .options (heq ▸ hmode)
  have hopens (hclass : Opening.ofName t.name = .option) : Opens stack path f done b t (b.push t) :=
    h.opens_push hcontent (by rw [hclass]; decide) (by rw [hclass]; decide)
  have hstep (hname : selectionEnders.contains t.name = false) :
      b.inMode (.start t) = b.inSelect (.start t) :=
    inMode_options hmode fun _ heq => (Option.some.inj heq) ▸ hname
  rcases Setting.optionRole?_opens hrole with ⟨hoption, houtside⟩ | ⟨hgroup, houtside⟩
  · refine ⟨_, (hstep (by rw [hoption]; rfl)).trans ?_, hopens (by rw [hoption]; rfl)⟩
    rw [inSelect, if_neg (by rw [hoption]; decide), if_pos hoption, h.stands.popIf_eq houtside]
  · refine ⟨_, (hstep (by rw [hgroup]; rfl)).trans ?_, hopens (by rw [hgroup]; rfl)⟩
    rw [inSelect, if_neg (by rw [hgroup]; decide), if_neg (by rw [hgroup]; decide), if_pos hgroup,
      h.stands.popIf_popIf_eq houtside]

/-- **A start tag that nests opens its element** and does nothing else. -/
theorem Rests.start_opens (hrole : Setting.role? (namesOf stack) t.name = some .opens) :
    ∃ r b', Rests stack path f done r ∧ Follows stack b r ∧ r.dropNewline = b.dropNewline ∧
      SettlesIn 2 b (.start t) b' ∧ Opens stack path f done r t b' := by
  obtain ⟨hforeign, hrole⟩ : Setting.isForeign (namesOf stack) (.start t) = false ∧ _ :=
    Setting.role?_eq_some.mp hrole
  by_cases hflow : Setting.of (namesOf stack) = .flow
  · rw [Setting.settingRole?, hflow] at hrole
    exact h.start_content_opens hflow hforeign hrole
  -- In any other setting the rule is in force right away.
  have hmode := h.mode_mem hflow
  suffices hstart : ∃ b', b.inMode (.start t) = .done b' ∧ Opens stack path f done b t b' by
    obtain ⟨b', hstep, hopens⟩ := hstart
    exact ⟨b, b', h, .refl b, rfl,
      (settlesIn_of_done ((h.stands.step_eq hforeign).trans hstep)).mono (by decide), hopens⟩
  rw [Setting.settingRole?] at hrole
  cases hsetting : Setting.of (namesOf stack) <;> rw [hsetting] at hrole hmode
  case flow => exact absurd hsetting hflow
  case metadata => exact absurd hrole (headRole?_ne_opens _)
  case table =>
    obtain ⟨hinside, hrole⟩ := Setting.directlyIn_eq_some.mp hrole
    exact h.start_inTable (List.mem_singleton.mp hmode) hinside (Setting.mem_of_opens hrole)
  case rows =>
    obtain ⟨hinside, hrole⟩ := Setting.directlyIn_eq_some.mp hrole
    have hname : t.name ∈ ["tr"] := Setting.mem_of_opens (by simpa using hrole)
    exact h.start_inTableBody (List.mem_singleton.mp hmode) hinside (List.mem_singleton.mp hname)
  case cells =>
    obtain ⟨hinside, hrole⟩ := Setting.directlyIn_eq_some.mp hrole
    exact h.start_inRow (List.mem_singleton.mp hmode) hinside (Setting.mem_of_opens hrole)
  case columns => exact absurd hrole (Setting.columnRole?_ne_opens _)
  case options => exact h.start_inOptions hmode hrole

/-- **A start tag that nests puts in or opens an element of its own kind** and does nothing else. -/
theorem Rests.start_role (hdrop : b.dropNewline = false) {role : Role}
    (hrole : Setting.role? (namesOf stack) t.name = some role) (hopens : role ≠ .opens) :
    ∃ r framesetOk, Rests stack path f done r ∧ Follows stack b r ∧ r.dropNewline = false ∧
      SettlesIn 2 b (.start t) (role.start framesetOk r t) := by
  obtain ⟨hforeign, hrole⟩ : Setting.isForeign (namesOf stack) (.start t) = false ∧ _ :=
    Setting.role?_eq_some.mp hrole
  by_cases hflow : Setting.of (namesOf stack) = .flow
  · rw [Setting.settingRole?, hflow] at hrole
    exact h.start_content hflow hdrop hforeign hrole hopens
  -- In any other setting the rule is in force right away.
  have hmode := h.mode_mem hflow
  suffices hstart : ∃ framesetOk, b.inMode (.start t) = .done (role.start framesetOk b t) by
    obtain ⟨framesetOk, hstep⟩ := hstart
    exact ⟨b, framesetOk, h, .refl b, hdrop,
      (settlesIn_of_done ((h.stands.step_eq hforeign).trans hstep)).mono (by decide)⟩
  have hhead (hstep : b.inMode (.start t) = .done (b.headStart t))
      (hrole : headRole? t.name = some role) :
      ∃ framesetOk, b.inMode (.start t) = .done (role.start framesetOk b t) := by
    obtain ⟨framesetOk, heq⟩ := headStart_eq hdrop hrole
    exact ⟨framesetOk, hstep.trans (congrArg Outcome.done heq)⟩
  have hpart {p : Prop} [Decidable p] (hmode : b.mode ∈ [.inHead, .inTable, .inTableBody, .inRow])
      (hrole : (if p then some Role.opens else Setting.tableRole? t.name) = some role) :
      ∃ framesetOk, b.inMode (.start t) = .done (role.start framesetOk b t) := by
    split_ifs at hrole
    · exact absurd (Option.some.inj hrole).symm hopens
    · obtain ⟨hname, hrole⟩ := Option.ite_none_right_eq_some.mp hrole
      exact hhead (inMode_headContent hmode (.inl (List.contains_iff_mem.mp hname)) hrole) hrole
  rw [Setting.settingRole?] at hrole
  cases hsetting : Setting.of (namesOf stack) <;> rw [hsetting] at hrole hmode
  case flow => exact absurd hsetting hflow
  case metadata =>
    have hmode : b.mode = .inHead := List.mem_singleton.mp hmode
    exact hhead (inMode_headContent (by rw [hmode]; decide) (.inr hmode) hrole) hrole
  case table =>
    exact hpart (by rw [List.mem_singleton.mp hmode]; decide) (Setting.directlyIn_eq_some.mp hrole).2
  case rows =>
    exact hpart (by rw [List.mem_singleton.mp hmode]; decide) (Setting.directlyIn_eq_some.mp hrole).2
  case cells =>
    exact hpart (by rw [List.mem_singleton.mp hmode]; decide) (Setting.directlyIn_eq_some.mp hrole).2
  case columns =>
    have hstep : b.inMode (.start t) = b.inColumnGroup (.start t) := by
      rw [inMode, List.mem_singleton.mp hmode]
    change Setting.columnRole? t.name = some role at hrole
    rw [Setting.columnRole?] at hrole
    split_ifs at hrole with hcol htemplate
    · obtain rfl := Option.some.inj hrole
      refine ⟨(b.putEmpty t).framesetOk, hstep.trans ?_⟩
      rw [inColumnGroup, if_neg (by rw [hcol]; decide), if_pos hcol]
      rfl
    · refine hhead (hstep.trans ?_) (by rw [htemplate]; exact hrole)
      rw [inColumnGroup, if_neg (by rw [htemplate]; decide), if_neg hcol, if_pos htemplate]
  case options =>
    have hstep (hname : selectionEnders.contains t.name = false) :
        b.inMode (.start t) = b.inSelect (.start t) :=
      inMode_options hmode fun _ heq => (Option.some.inj heq) ▸ hname
    change Setting.optionRole? (namesOf stack) t.name = some role at hrole
    rw [Setting.optionRole?] at hrole
    split_ifs at hrole with hoption houtside hgroup _ hrule houtside hname
    · exact absurd (Option.some.inj hrole).symm hopens
    · exact absurd (Option.some.inj hrole).symm hopens
    · obtain rfl := Option.some.inj hrole
      refine ⟨(b.putEmpty t).framesetOk, (hstep (by rw [hrule]; rfl)).trans ?_⟩
      rw [inSelect, if_neg (by rw [hrule]; decide), if_neg hoption, if_neg hgroup, if_pos hrule,
        h.stands.popIf_popIf_eq houtside]
      rfl
    · have hname := List.contains_iff_mem.mp hname
      obtain ⟨name, attributes, selfClosing⟩ := t
      fin_cases hname
      · exact hhead (hstep rfl) hrole
      · exact hhead (hstep rfl) hrole

end Starting

/-! ### End tags -/

section Closing

variable {r b' : Builder} {f' : Node.Frame} {done' : List Node} {e : Handle} {name : String}
  (hparent : Rests stack path f done r)
  (h : Rests (e :: stack) (path ++ [f.holding done]) f' done' b')
  (hhead : b'.head = r.head) (hmodes : b'.templateModes = r.templateModes)
  (hname : e.name = ⟨.html, name⟩)
include hparent h hhead hmodes hname

/-- The element is closed, and the mode changes to one of the setting around it. -/
theorem Rests.closes_to (mode : Mode) (hother : Setting.of (namesOf stack) ≠ .flow)
    (hmode : mode ∈ (Setting.of (namesOf stack)).modes) {formatting : List Formatting}
    (hnoted : Noted stack formatting) (hform : name ≠ "form")
    (hstep : b'.inMode (.finish name) = .done { b' with stack, formatting, mode }) :
    ∃ b'', SettlesIn 2 b' (.finish name) b'' ∧
      Completes stack path f (done ++ [f'.branch done']) r b' b'' := by
  have hoff {names : List String} (hmem : name ∉ names) : e.name.isHtml names = false := by
    simp [hname, ElementName.isHtml, hmem]
  have hformOpen : b'.form = openForm stack :=
    h.form.trans (openForm_cons (hoff (by simpa using hform)) stack)
  exact ⟨_, (settlesIn_of_done ((h.stands.step_html (congrArg ElementName.space hname) _).trans
    hstep)).mono (by decide),
    hparent.closed h hhead hmodes hnoted (hparent.inForce.change hmode hother) hformOpen,
    hhead, hmodes, rfl⟩

/-- A part of a table that shuts off no formatting elements is closed. -/
theorem Rests.closes_part (mode : Mode) (context : List String)
    (hother : Setting.of (namesOf stack) ≠ .flow)
    (hmode : mode ∈ (Setting.of (namesOf stack)).modes)
    (hplain : name ∉ markers ∧ name ∉ formattingTags ∧ name ≠ "form") (hcontext : name ∈ context)
    (hstep : b'.inMode (.finish name) =
      .done (if b'.inTableScope [name] then b'.leavePart context mode else b')) :
    ∃ b'', SettlesIn 2 b' (.finish name) b'' ∧
      Completes stack path f (done ++ [f'.branch done']) r b' b'' := by
  have hstack : b'.stack = e :: stack := h.stands.stack_eq
  have htop {names : List String} (hmem : name ∈ names) : e.name.isHtml names = true := by
    simp [hname, ElementName.isHtml, hmem]
  obtain ⟨hmarker, htag, hform⟩ := hplain
  have hnoted : Noted stack b'.formatting :=
    h.stands.noted.tail_plain (by simp [hname, ElementName.isHtml, hmarker]) (by rwa [hname])
  refine hparent.closes_to h hhead hmodes hname mode hother hmode hnoted hform (hstep.trans ?_)
  rw [inTableScope, if_pos (inScope_top hstack (htop (List.mem_singleton_self name))), leavePart,
    popTo_top hstack (htop hcontext), pop_top hstack]

theorem Rests.finish_inTable (htable : Setting.of (namesOf stack) = .table)
    (hmem : name ∈ "caption" :: "colgroup" :: sections) :
    ∃ b'', SettlesIn 2 b' (.finish name) b'' ∧
      Completes stack path f (done ++ [f'.branch done']) r b' b'' := by
  have hstack : b'.stack = e :: stack := h.stands.stack_eq
  have hother : Setting.of (namesOf stack) ≠ .flow := by rw [htable]; decide
  have hback : Mode.inTable ∈ (Setting.of (namesOf stack)).modes := by rw [htable]; decide
  have hinside := h.mode_mem
  have hreset := h.inForce.eq_reset
  obtain ⟨id, ename, inside⟩ := e
  obtain rfl : ename = ⟨.html, name⟩ := hname
  fin_cases hmem
  · -- the caption
    have hmode : b'.mode = .inCaption := hreset rfl
    obtain ⟨older, hnoted, hclear⟩ := h.stands.clearToMarker_eq (by rfl)
    refine hparent.closes_to h hhead hmodes rfl .inTable hother hback hnoted (by decide) ?_
    have hstep : b'.inMode (.finish "caption") = b'.inCaption (.finish "caption") := by
      rw [inMode, hmode]
    rw [hstep]
    show Outcome.done (if b'.inTableScope ["caption"] then b'.endCaption else b') = _
    rw [inTableScope, if_pos (inScope_top hstack (by rfl)), endCaption,
      popImplied_top hstack (by rfl), popThrough_top hstack (by rfl), hclear]
  · -- a group of columns
    have hmode : b'.mode = .inColumnGroup :=
      List.mem_singleton.mp (hinside (show Setting.columns ≠ .flow by decide))
    have hnoted : Noted stack b'.formatting :=
      h.stands.noted.tail_plain (by rfl) (show "colgroup" ∉ formattingTags by decide)
    refine hparent.closes_to h hhead hmodes rfl .inTable hother hback hnoted (by decide) ?_
    have hstep : b'.inMode (.finish "colgroup") = b'.inColumnGroup (.finish "colgroup") := by
      rw [inMode, hmode]
    rw [hstep]
    show Outcome.done (if b'.currentIs ["colgroup"] then { b'.pop with mode := .inTable }
      else b') = _
    rw [currentIs_top hstack, if_pos (by rfl), pop_top hstack]
  all_goals
    have hmode : b'.mode = .inTableBody :=
      List.mem_singleton.mp (hinside (show Setting.rows ≠ .flow by decide))
    refine hparent.closes_part h hhead hmodes rfl .inTable sectionContext hother hback (by decide)
      (by decide) ?_
    rw [inMode, hmode]
    rfl

theorem Rests.finish_row (hrows : Setting.of (namesOf stack) = .rows) (hrow : name = "tr") :
    ∃ b'', SettlesIn 2 b' (.finish name) b'' ∧
      Completes stack path f (done ++ [f'.branch done']) r b' b'' := by
  subst hrow
  have hof : Setting.of (namesOf (e :: stack)) = .cells := by
    rw [namesOf, List.map_cons, hname]
    rfl
  have hmode : b'.mode = .inRow := by
    have hmem := h.mode_mem (by rw [hof]; decide)
    rw [hof] at hmem
    exact List.mem_singleton.mp hmem
  refine hparent.closes_part h hhead hmodes hname .inTableBody rowContext
    (by rw [hrows]; decide) (by rw [hrows]; decide) (by decide) (by decide) ?_
  rw [inMode, hmode]
  rfl

theorem Rests.finish_cell (hcells : Setting.of (namesOf stack) = .cells) (hmem : name ∈ cells) :
    ∃ b'', SettlesIn 2 b' (.finish name) b'' ∧
      Completes stack path f (done ++ [f'.branch done']) r b' b'' := by
  have hstack : b'.stack = e :: stack := h.stands.stack_eq
  have hall : ∀ n ∈ Builder.cells, n ∈ markers ∧ n ∉ impliedEnds ∧ n ≠ "form" := by decide
  obtain ⟨hmarker, hends, hform⟩ := hall _ hmem
  have hself : e.name.isHtml [name] = true := by simp [hname, ElementName.isHtml]
  have hreset := h.inForce.eq_reset
  have hmode : b'.mode = .inCell := by
    obtain ⟨below, rest, rfl⟩ := List.exists_cons_of_ne_nil hparent.stands.nonempty
    obtain ⟨id, ename, inside⟩ := e
    obtain rfl : ename = ⟨.html, name⟩ := hname
    fin_cases hmem
    · exact hreset rfl
    · exact hreset rfl
  obtain ⟨older, hnoted, hclear⟩ :=
    h.stands.clearToMarker_eq (by simp [hname, ElementName.isHtml, hmarker])
  refine hparent.closes_to h hhead hmodes hname .inRow (by rw [hcells]; decide)
    (by rw [hcells]; decide) hnoted hform ?_
  have hstep : b'.inMode (.finish name) = b'.inCell (.finish name) := by rw [inMode, hmode]
  rw [hstep, inCell, if_pos (List.contains_iff_mem.mpr hmem), inTableScope,
    if_pos (inScope_top hstack hself), endCell,
    popImplied_top hstack (by simp [hname, ElementName.isHtml, hends]), popThrough_top hstack hself,
    hclear]

theorem Rests.finish_inOptions (hoptions : Setting.of (namesOf stack) = .options)
    (hmem : name ∈ ["option", "optgroup"]) :
    ∃ b'', SettlesIn 2 b' (.finish name) b'' ∧
      Completes stack path f (done ++ [f'.branch done']) r b' b'' := by
  have hstack : b'.stack = e :: stack := h.stands.stack_eq
  have hall : ∀ n ∈ ["option", "optgroup"], n ∉ settingNames ∧ n ∉ markers ∧
      n ∉ formattingTags ∧ n ≠ "form" ∧ selectionEnders.contains n = false := by
    decide
  obtain ⟨hsetting, hmarker, htag, hform, henders⟩ := hall _ hmem
  have hnoted : Noted stack b'.formatting :=
    h.stands.noted.tail_plain (by simp [hname, ElementName.isHtml, hmarker]) (by rwa [hname])
  have hof : Setting.of (namesOf (e :: stack)) = .options :=
    (Setting.of_cons_other (by simp [hname, ElementName.isHtml, hsetting]) _).trans hoptions
  have hmode : b'.mode ∈ Setting.options.modes := hof ▸ h.mode_mem (by rw [hof]; decide)
  have hpop {names : List String} (hmem : name ∈ names) : b'.popIf names = { b' with stack } := by
    have htop : e.name.isHtml names = true := by simp [hname, ElementName.isHtml, hmem]
    rw [popIf, currentIs_top hstack, if_pos htop, pop_top hstack]
  refine hparent.closes_to h hhead hmodes hname _ (by rw [hoptions]; decide) (by rwa [hoptions])
    hnoted hform ?_
  rw [inMode_options hmode (t := .finish name) fun _ heq => (Option.some.inj heq) ▸ henders]
  obtain ⟨id, ename, inside⟩ := e
  obtain rfl : ename = ⟨.html, name⟩ := hname
  fin_cases hmem
  · exact congrArg Outcome.done (hpop (by decide))
  · refine congrArg Outcome.done ?_
    rw [endGroup, hstack]
    cases stack with
    | nil => exact hpop (by decide)
    | cons below rest => exact hpop (by decide)

/-- **The end tag of the element opened last closes that** and does nothing else. -/
theorem Rests.finish_opened (hrole : Setting.role? (namesOf stack) name = some .opens) :
    ∃ b'', SettlesIn 2 b' (.finish name) b'' ∧
      Completes stack path f (done ++ [f'.branch done']) r b' b'' := by
  obtain ⟨-, hrole⟩ := Setting.role?_eq_some.mp hrole
  rw [Setting.settingRole?] at hrole
  cases hsetting : Setting.of (namesOf stack) <;> rw [hsetting] at hrole
  case flow => exact hparent.finish_content h hhead hmodes hname hsetting hrole
  case metadata => exact absurd hrole (headRole?_ne_opens _)
  case table =>
    have hmem := Setting.mem_of_opens (Setting.directlyIn_eq_some.mp hrole).2
    exact hparent.finish_inTable h hhead hmodes hname hsetting hmem
  case rows =>
    have hmem : name ∈ ["tr"] :=
      Setting.mem_of_opens (by simpa using (Setting.directlyIn_eq_some.mp hrole).2)
    exact hparent.finish_row h hhead hmodes hname hsetting (List.mem_singleton.mp hmem)
  case cells =>
    have hmem := Setting.mem_of_opens (Setting.directlyIn_eq_some.mp hrole).2
    exact hparent.finish_cell h hhead hmodes hname hsetting hmem
  case columns => exact absurd hrole (Setting.columnRole?_ne_opens _)
  case options =>
    have hcases := Setting.optionRole?_opens hrole
    exact hparent.finish_inOptions h hhead hmodes hname hsetting
      (by simpa using hcases.imp And.left And.left)

end Closing

end

end TerseMarkup.Html
