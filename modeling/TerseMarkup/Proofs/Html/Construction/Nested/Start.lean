import Mathlib.Tactic.FinCases
import Mathlib.Tactic.Tauto
import TerseMarkup.Proofs.Html.Construction.Nested.Rest
import TerseMarkup.Proofs.Html.Construction.Rules

/-! Start tags that nest in content.

In content, a start tag goes by the class of its name. Most do nothing but open their element
(`Rests.start_content_opens`), others put in an element without content or open one of a kind of its
own (`Rests.start_content`). -/
namespace TerseMarkup.Html
open Builder

/-! ### Classes of names -/

namespace Opening

/-- The names of a class that has but a few. -/
def names : Opening → List String
  | block => "p" :: blocks
  | heading => headings
  | verbatim => ["pre", "listing"]
  | listItem => ["li", "dd", "dt"]
  | button => ["button"]
  | link => ["a"]
  | formatting => formattingNames
  | unbroken => ["nobr"]
  | embedded => embeddedNames
  | form => ["form"]
  | table => ["table"]
  | select => ["select"]
  | option => ["optgroup", "option"]
  | rubyBase => ["rb", "rtc"]
  | rubyText => ["rp", "rt"]
  | head => headContent
  | textarea => ["textarea"]
  | sample => ["xmp"]
  | inlineFrame => ["iframe"]
  | unshown => ["noembed", "noscript"]
  | void => ["area", "br", "embed", "img", "keygen", "wbr", "input"]
  | parameter => ["param", "source", "track"]
  | rule => ["hr"]
  | _ => []

/-- The classes are tried one after the other. -/
theorem mem_names_of_ite {name : String} {p : Prop} [Decidable p] {first last : Opening}
    (hfirst : p → first.names = [] ∨ name ∈ first.names)
    (hlast : last.names = [] ∨ name ∈ last.names) :
    (if p then first else last).names = [] ∨ name ∈ (if p then first else last).names := by
  split
  · exact hfirst ‹_›
  · exact hlast

theorem mem_names {name : String} (h : (ofName name).names ≠ []) : name ∈ (ofName name).names := by
  refine Or.resolve_left ?_ h
  rw [ofName]
  repeat
    refine mem_names_of_ite (fun hname => ?_) ?_
    · first
        | exact .inl rfl
        | exact .inr (List.contains_iff_mem.mp hname)
        | exact .inr (hname ▸ List.mem_singleton_self _)
        | exact .inr (by simpa [names, or_comm, or_left_comm] using hname)
  exact .inl rfl

theorem mem_of_ofName {name : String} {class' : Opening} (h : ofName name = class')
    (hnames : class'.names ≠ []) : name ∈ class'.names := by
  subst h
  exact mem_names hnames

/-- Classes of elements that neither say anything of the setting nor shut anything off. -/
def plain : List Opening :=
  [other, block, verbatim, heading, listItem, button, option, rubyBase, rubyText]

theorem not_mem_of_plain {name : String} (h : ofName name ∈ plain) :
    name ∉ "form" :: settingNames ++ markers := by
  have hall : ∀ n ∈ "form" :: settingNames ++ markers, ofName n ∉ plain := by decide +kernel
  exact fun hmem => hall name hmem h

/-- The names that have a class of their own. -/
def classed : List String :=
  ["html", "body", "frameset", "plaintext", "image", "math", "svg", "caption", "col", "colgroup",
    "frame", "head", "tbody", "td", "tfoot", "th", "thead", "tr"] ++
  [block, heading, verbatim, listItem, button, link, formatting, unbroken, embedded, form, table,
    select, option, rubyBase, rubyText, head, textarea, sample, inlineFrame, unshown, void, parameter,
    rule].flatMap names

theorem ofName_other {name : String} (h : ofName name = other) : name ∉ classed := by
  have hall : ∀ n ∈ classed, ofName n ≠ other := by decide +kernel
  exact fun hmem => hall name hmem h

end Opening

/-! ### Start tags that open no content -/

/-- Construction behind a start tag that puts in or opens an element of its own kind. -/
def Role.start (framesetOk : Bool) (b : Builder) (t : Tag) : Role → Builder
  | .empty => { b.putEmpty t with framesetOk }
  | .holds content => { b with framesetOk, dropNewline := t.name == "textarea" }.pushRaw t content
  | .template => b.templateStart t
  | .opens => b

theorem headRole?_names {name : String} {role : Role} (h : headRole? name = some role) :
    name ∈ "noscript" :: headContent := by
  by_contra hmem
  simp only [headContent, List.mem_cons, List.not_mem_nil, or_false, not_or] at hmem
  simp [headRole?, hmem] at h

theorem headStart_eq {b : Builder} (hdrop : b.dropNewline = false) {t : Tag} {role : Role}
    (h : headRole? t.name = some role) : ∃ framesetOk, b.headStart t = role.start framesetOk b t := by
  obtain ⟨name, attributes, selfClosing⟩ := t
  have hsame : b = { b with dropNewline := false } := by rw [← hdrop]
  have hmem := headRole?_names h
  rw [hsame]
  fin_cases hmem
  all_goals
    obtain rfl := Option.some.inj h
    first
      | exact ⟨_, rfl⟩
      | exact ⟨true, rfl⟩

/-- A template may hold anything but a part of a table as a document's body does. -/
theorem templateMode_eq {name : String} (h : Opening.ofName name ≠ .misplaced) :
    templateMode name = .inBody := by
  have hall : ∀ n ∈ (["caption", "colgroup"] ++ sections) ++ ["col", "tr"] ++ cells,
      Opening.ofName n = .misplaced := by decide
  have hnot : name ∉ (["caption", "colgroup"] ++ sections) ++ ["col", "tr"] ++ cells :=
    fun hmem => h (hall name hmem)
  simp only [List.mem_append, List.mem_cons, List.not_mem_nil, or_false, not_or] at hnot
  simp [templateMode, hnot]

section

variable {stack : List Handle} {path : List Node.Frame} {f : Node.Frame} {done : List Node}
  {b : Builder}

/-- What a template holds shows. -/
theorem Rests.turned (h : Rests stack path f done b) (hmode : b.mode = .inTemplate) :
    Rests stack path f done
        { b with mode := .inBody, templateModes := .inBody :: b.templateModes.drop 1 } ∧
      Follows stack b
        { b with mode := .inBody, templateModes := .inBody :: b.templateModes.drop 1 } := by
  rcases h.inForce with ⟨hmem, -⟩ | ⟨-, hreset, e, he, hname⟩
  · rw [hmode] at hmem
    exact absurd hmem (Setting.inTemplate_not_mem _)
  · obtain ⟨rest, rfl⟩ := List.head?_eq_some_iff.mp he
    have hof : Setting.of (namesOf (e :: rest)) = .flow := by
      rw [namesOf, List.map_cons, hname]
      rfl
    refine ⟨{ h with stands := { h.stands with }, inForce := .inl ?_ }, rfl, .inr ⟨hreset, rfl⟩⟩
    have hreset : Builder.modeFor
        { b with mode := .inBody, templateModes := .inBody :: b.templateModes.drop 1 } (e :: rest) =
          .inBody := by
      rw [modeFor, hname]
      rfl
    rw [hreset, hof]
    have hmem : Mode.inBody ∈ Setting.flow.modes := by decide
    exact ⟨hmem, hmem, fun _ => rfl⟩

/-- The rule for a start tag in the body is in force in all content. -/
theorem Rests.start_eq (h : Rests stack path f done b)
    (hflow : Setting.of (namesOf stack) = .flow) {t : Tag}
    (hforeign : Setting.isForeign (namesOf stack) (.start t) = false)
    (hclass : Opening.ofName t.name ≠ .misplaced) :
    ∃ r, Rests stack path f done r ∧ Follows stack b r ∧ r.dropNewline = b.dropNewline ∧
      (r.mode ≠ .inTemplate ∨ Opening.ofName t.name = .head) ∧
      SettlesIn 2 b (.start t) (r.bodyStart t) := by
  have hpart : ¬(outerParts ++ sections ++ cells ++ ["tr"]).contains t.name = true := by
    have hall : ∀ n ∈ outerParts ++ sections ++ cells ++ ["tr"], Opening.ofName n = .misplaced := by
      decide
    exact fun hmem => hclass (hall _ (List.contains_iff_mem.mp hmem))
  rcases h.inForce.mode_mem with hmode | ⟨hmode, -⟩
  · have hstep : b.step (.start t) = .done (b.bodyStart t) := by
      rw [h.stands.step_eq hforeign, inMode]
      rw [hflow] at hmode
      simp only [Setting.modes, List.mem_cons, List.not_mem_nil, or_false] at hmode
      rcases hmode with hmode | hmode | hmode <;> rw [hmode]
      · rfl
      · exact if_neg hpart
      · exact if_neg hpart
    have hmode' : b.mode ≠ .inTemplate := by
      rw [hflow] at hmode
      rintro heq
      rw [heq] at hmode
      exact absurd hmode (by decide)
    exact ⟨b, h, .refl b, rfl, .inl hmode', (settlesIn_of_done hstep).mono (by decide)⟩
  · have hstep : b.step (.start t) = b.inTemplate (.start t) := by
      rw [h.stands.step_eq hforeign, inMode, hmode]
    rw [inTemplate] at hstep
    split at hstep
    next hhead =>
      have hofName : Opening.ofName t.name = .head := by
        have hhtml : t.name ≠ "html" := by
          rintro heq
          rw [heq] at hhead
          exact absurd hhead (by decide)
        rw [Opening.ofName, if_neg hhtml, if_pos hhead]
      refine ⟨b, h, .refl b, rfl, .inr hofName, (settlesIn_of_done ?_).mono (by decide)⟩
      rw [hstep, bodyStart, hofName]
    next =>
      obtain ⟨hturned, hfollows⟩ := h.turned hmode
      rw [templateMode_eq hclass] at hstep
      refine ⟨_, hturned, hfollows, rfl, .inl (by simp), ?_⟩
      refine settlesIn_of_again hstep (settlesIn_of_done ?_)
      rw [hturned.stands.step_eq hforeign]
      rfl

/-- The names of open elements by which tags are looked for. -/
theorem Stands.inScope_eq (h : Stands stack path f done b) (ends : ElementName → Bool)
    (names : List String) : b.inScope ends names = reachesName ends names (namesOf stack) := by
  rw [inScope, h.stack_eq, reaches_eq]

theorem Stands.endParagraph_eq (h : Stands stack path f done b)
    (houtside : Opening.outsideParagraph (namesOf stack) = true) : b.endParagraph = b := by
  rw [Opening.outsideParagraph, Bool.not_eq_true'] at houtside
  rw [endParagraph, h.inScope_eq, houtside, if_neg Bool.false_ne_true]

theorem Stands.currentIs_eq (h : Stands stack path f done b) {names : List String}
    (houtside : Opening.outsideOf names (namesOf stack) = true) : b.currentIs names = false := by
  obtain ⟨e, rest, rfl, hstack, -⟩ := h.exists_stack
  rw [currentIs_top hstack]
  simpa [Opening.outsideOf, namesOf] using houtside

theorem Stands.endOpenLink_eq (h : Stands stack path f done b)
    (houtside : reachesName (·.isHtml markers) ["a"] (namesOf stack) = false) :
    b.endOpenLink = b := by
  rw [endOpenLink, List.find?_eq_none.mpr]
  intro m hm
  cases m with
  | marker => exact Bool.false_ne_true
  | element e t =>
    show ¬e.name.isHtml ["a"] = true
    rw [h.noted.not_link houtside hm]
    exact Bool.false_ne_true

/-- **A start tag in content that puts in or opens an element of its own kind** does that. -/
theorem Rests.start_content (h : Rests stack path f done b)
    (hflow : Setting.of (namesOf stack) = .flow) (hdrop : b.dropNewline = false) {t : Tag}
    (hforeign : Setting.isForeign (namesOf stack) (.start t) = false) {role : Role}
    (hrole : Opening.role? (namesOf stack) t.name = some role) (hopens : role ≠ .opens) :
    ∃ r framesetOk, Rests stack path f done r ∧ Follows stack b r ∧ r.dropNewline = false ∧
      SettlesIn 2 b (.start t) (role.start framesetOk r t) := by
  have hclass : Opening.ofName t.name ≠ .misplaced := by
    rintro heq
    rw [Opening.role?, heq] at hrole
    cases hrole
  obtain ⟨r, hrests, hfollows, hsame, -, hsettles⟩ := h.start_eq hflow hforeign hclass
  have hdrop := hsame.trans hdrop
  suffices hstart : ∃ framesetOk, r.bodyStart t = role.start framesetOk r t by
    obtain ⟨framesetOk, heq⟩ := hstart
    exact ⟨r, framesetOk, hrests, hfollows, hdrop, heq ▸ hsettles⟩
  have hreopen := hrests.stands.reopenFormatting_eq
  have hheld (framesetOk : Bool) (content : Content) (hname : t.name ≠ "textarea") :
      { r with framesetOk }.pushRaw t content = Role.start framesetOk r t (.holds content) := by
    show _ = { r with framesetOk, dropNewline := t.name == "textarea" }.pushRaw t content
    rw [beq_false_of_ne hname, ← hdrop]
  rw [Opening.role?] at hrole
  rw [Builder.bodyStart]
  cases hclass : Opening.ofName t.name <;> rw [hclass] at hrole
  case head => exact headStart_eq hdrop hrole
  case void =>
    obtain rfl := Option.some.inj hrole
    dsimp only
    rw [putInline, hreopen]
    split
    · exact ⟨_, rfl⟩
    · exact ⟨_, rfl⟩
  case parameter =>
    obtain rfl := Option.some.inj hrole
    exact ⟨_, rfl⟩
  case rule =>
    obtain ⟨houtside, hrole⟩ := Option.ite_none_right_eq_some.mp hrole
    obtain rfl := Option.some.inj hrole
    dsimp only
    rw [hrests.stands.endParagraph_eq houtside]
    exact ⟨_, rfl⟩
  case sample =>
    obtain ⟨houtside, hrole⟩ := Option.ite_none_right_eq_some.mp hrole
    obtain rfl := Option.some.inj hrole
    have hname : t.name ∈ ["xmp"] := Opening.mem_of_ofName hclass (by simp [Opening.names])
    dsimp only
    rw [hrests.stands.endParagraph_eq houtside, hreopen]
    exact ⟨_, hheld false _ (List.mem_singleton.mp hname ▸ by decide)⟩
  case textarea =>
    obtain rfl := Option.some.inj hrole
    have hname : t.name ∈ ["textarea"] := Opening.mem_of_ofName hclass (by simp [Opening.names])
    refine ⟨false, ?_⟩
    show _ = { r with framesetOk := false, dropNewline := t.name == "textarea" }.pushRaw t _
    rw [List.mem_singleton.mp hname]
    rfl
  case inlineFrame =>
    obtain rfl := Option.some.inj hrole
    have hname : t.name ∈ ["iframe"] := Opening.mem_of_ofName hclass (by simp [Opening.names])
    exact ⟨_, hheld false _ (List.mem_singleton.mp hname ▸ by decide)⟩
  case unshown =>
    obtain rfl := Option.some.inj hrole
    have hname : t.name ∈ ["noembed", "noscript"] :=
      Opening.mem_of_ofName hclass (by simp [Opening.names])
    have hne : t.name ≠ "textarea" := fun heq => absurd (heq ▸ hname) (by decide)
    exact ⟨_, hheld r.framesetOk _ hne⟩
  all_goals
    obtain ⟨-, hrole⟩ := Option.ite_none_right_eq_some.mp hrole
    exact absurd (Option.some.inj hrole).symm hopens

/-! ### Start tags that open content -/

/-- An element of a class that says nothing of the setting is opened. -/
theorem Rests.push (h : Rests stack path f done b) (hmode : b.mode ≠ .inTemplate) {t : Tag}
    (hclass : Opening.ofName t.name ∈ Opening.plain) :
    Rests (newElement b t :: stack) (path ++ [f.holding done])
      (.element b.nextId ⟨.html, t.name⟩ t.attributes [] []) [] (b.push t) := by
  have hname := Opening.not_mem_of_plain hclass
  rw [List.mem_append, not_or] at hname
  have htemplate : t.name ≠ "template" := fun heq => hname.1 (heq ▸ by decide)
  have hoff {names : List String} (hnot : t.name ∉ names) :
      (newElement b t).name.isHtml names = false := by simp [ElementName.isHtml, hnot]
  have hmarker : (newElement b t).name.isHtml markers = false := hoff hname.2
  have hstands := h.stands.push htemplate (h.stands.noted.skip hmarker)
  obtain ⟨root, nextId, stack', failed, heq⟩ := push_eq b t
  rw [heq] at hstands ⊢
  exact h.opened hstands ⟨rfl, rfl, rfl, rfl, rfl, rfl⟩ (hoff hname.1) hmode

/-- What a start tag in content does that opens its element. -/
structure Opens (stack : List Handle) (path : List Node.Frame) (f : Node.Frame) (done : List Node)
    (r : Builder) (t : Tag) (b : Builder) : Prop where
  rests : Rests (newElement r t :: stack) (path ++ [f.holding done])
    (.element r.nextId ⟨.html, t.name⟩ t.attributes [] []) [] b
  head : b.head = r.head
  templateModes : b.templateModes = r.templateModes
  dropNewline : b.dropNewline = (r.dropNewline || Opening.ofName t.name == .verbatim)

/-- Whether a frameset may still come is of no account. -/
theorem Opens.tune {r : Builder} {t : Tag} (h : Opens stack path f done r t b) (framesetOk : Bool) :
    Opens stack path f done r t { b with framesetOk } :=
  ⟨h.rests.sameRules { h.rests.stands with } ⟨rfl, rfl, rfl, rfl, rfl, rfl⟩, h.head,
    h.templateModes, h.dropNewline⟩

theorem Rests.opens_push (h : Rests stack path f done b) (hmode : b.mode ≠ .inTemplate) {t : Tag}
    (hclass : Opening.ofName t.name ∈ Opening.plain) (hverbatim : Opening.ofName t.name ≠ .verbatim) :
    Opens stack path f done b t (b.push t) := by
  have hpush := h.push hmode hclass
  obtain ⟨root, nextId, stack', failed, heq⟩ := push_eq b t
  rw [heq] at hpush ⊢
  exact ⟨hpush, rfl, rfl, by rw [beq_false_of_ne hverbatim, Bool.or_false]⟩

theorem Rests.opens_pushFormatting (h : Rests stack path f done b) (hmode : b.mode ≠ .inTemplate)
    {t : Tag} (hclass : Opening.ofName t.name ∈ [.link, .formatting, .unbroken]) :
    Opens stack path f done b t (b.pushFormatting t) := by
  have htag := Opening.formattingTags_of_ofName hclass
  have hall : ∀ n ∈ formattingTags,
      ElementName.isHtml ⟨.html, n⟩ ("form" :: settingNames) = false := by decide
  have htemplate : t.name ≠ "template" := fun heq => absurd (heq ▸ htag) (by decide)
  obtain ⟨formatting, heq, hnoted⟩ := h.stands.pushFormatting htag
  have hstands := h.stands.push htemplate hnoted
  have hverbatim : (Opening.ofName t.name == .verbatim) = false := by
    rw [beq_eq_false_iff_ne]
    intro hverbatim
    rw [hverbatim] at hclass
    exact absurd hclass (by decide)
  obtain ⟨root, nextId, stack', failed, hpush⟩ := push_eq b t
  rw [heq]
  rw [hpush] at hstands ⊢
  exact ⟨h.opened hstands ⟨rfl, rfl, rfl, rfl, rfl, rfl⟩ (hall _ htag) hmode, rfl, rfl,
    by rw [hverbatim, Bool.or_false]⟩

/-- An element is opened that shuts off the formatting elements before it. -/
theorem Rests.opens_pushEmbedded (h : Rests stack path f done b) (hmode : b.mode ≠ .inTemplate)
    {t : Tag} (hclass : Opening.ofName t.name = .embedded) (framesetOk : Bool) :
    Opens stack path f done b t { (b.push t).addMarker with framesetOk } := by
  have hname : t.name ∈ Opening.embeddedNames :=
    Opening.mem_of_ofName hclass (by decide)
  have hall : ∀ n ∈ Opening.embeddedNames, n ≠ "template" ∧
      ElementName.isHtml ⟨.html, n⟩ ("form" :: settingNames) = false ∧ n ∈ markers := by decide
  obtain ⟨htemplate, hsetting, hmarker⟩ := hall _ hname
  have hnoted : Noted (newElement b t :: stack) (.marker :: b.formatting) :=
    h.stands.noted.marker (by simp [ElementName.isHtml, hmarker])
  have hstands := h.stands.push htemplate hnoted
  obtain ⟨root, nextId, stack', failed, heq⟩ := push_eq b t
  rw [heq] at hstands ⊢
  exact ⟨h.opened { hstands with } ⟨rfl, rfl, rfl, rfl, rfl, rfl⟩ hsetting hmode, rfl, rfl,
    by rw [hclass]; exact (Bool.or_false _).symm⟩

/-- A table, or a part of one, is opened. -/
theorem Rests.opens_part (h : Rests stack path f done b) {t : Tag} {mode : Mode}
    (hmode : partMode? t.name = some mode) (framesetOk : Bool) {formatting : List Formatting}
    (hnoted : Noted (newElement b t :: stack) formatting) :
    Opens stack path f done b t { b.push t with mode, framesetOk, formatting } := by
  have hname : t.name ∈ partNames := mem_of_partMode? hmode
  have hall : ∀ n ∈ partNames, n ≠ "template" ∧ n ≠ "form" ∧ Opening.ofName n ≠ .verbatim := by decide
  obtain ⟨htemplate, hform, hverbatim⟩ := hall _ hname
  have hstands := h.stands.push htemplate hnoted
  obtain ⟨root, nextId, stack', failed, heq⟩ := push_eq b t
  rw [heq] at hstands ⊢
  refine ⟨⟨{ hstands with }, h.content, h.tableText, ?_, ?_⟩, rfl, rfl,
    by rw [beq_false_of_ne hverbatim]; exact (Bool.or_false _).symm⟩
  · exact inForce_part rfl hmode h.stands.nonempty _
  · exact h.form.trans (openForm_cons (by simp [ElementName.isHtml, hform]) stack).symm

theorem Rests.opens_select (h : Rests stack path f done b) {t : Tag} (hname : t.name = "select")
    {mode : Mode} (hmode : mode ∈ Setting.options.modes) (framesetOk : Bool) :
    Opens stack path f done b t { b.push t with mode, framesetOk } := by
  have hhtml {names : List String} (hnot : "select" ∉ names) :
      ElementName.isHtml ⟨.html, t.name⟩ names = false := by simp [ElementName.isHtml, hname, hnot]
  have hstands := h.stands.push (by rw [hname]; decide) (h.stands.noted.skip (hhtml (by decide)))
  obtain ⟨root, nextId, stack', failed, heq⟩ := push_eq b t
  rw [heq] at hstands ⊢
  refine ⟨⟨{ hstands with }, h.content, h.tableText, ?_, ?_⟩, rfl, rfl, ?_⟩
  · have hof : Setting.of (namesOf (newElement b t :: stack)) = .options := by
      show Setting.of (⟨.html, t.name⟩ :: namesOf stack) = _
      rw [hname]
      rfl
    have hreset (b' : Builder) : b'.modeFor (newElement b t :: stack) = selectMode stack := by
      show b'.modeFor (⟨b.nextId, ⟨.html, t.name⟩, b.nextId⟩ :: stack) = _
      rw [hname]
      rfl
    rw [InForce, hof, hreset]
    exact .inl ⟨hmode, selectMode_mem_options stack, (absurd · (by decide))⟩
  · exact h.form.trans (openForm_cons (hhtml (by decide)) stack).symm
  · rw [hname]
    exact (Bool.or_false _).symm

/-- A form is opened where no other form is open. -/
theorem Rests.opens_form (h : Rests stack path f done b) (hmode : b.mode ≠ .inTemplate) {t : Tag}
    (hname : t.name = "form") (hparagraph : b.endParagraph = b)
    (hform : (namesOf stack).any (·.isHtml ["form"]) = false) :
    Opens stack path f done b t (b.formStart t) := by
  have hhtml {names : List String} (hnot : "form" ∉ names) :
      ElementName.isHtml ⟨.html, t.name⟩ names = false := by simp [ElementName.isHtml, hname, hnot]
  have htemplate : t.name ≠ "template" := by rw [hname]; decide
  have hstands := h.stands.push htemplate (h.stands.noted.skip (hhtml (by decide)))
  have hopens (form : Option Handle) (hform : form = openForm (newElement b t :: stack)) :
      Opens stack path f done b t { b.push t with form } := by
    obtain ⟨root, nextId, stack', failed, heq⟩ := push_eq b t
    rw [heq] at hstands ⊢
    refine ⟨⟨{ hstands with }, h.content, h.tableText, ?_, hform⟩, rfl, rfl, ?_⟩
    · have hsetting : ElementName.isHtml ⟨.html, t.name⟩ settingNames = false := hhtml (by decide)
      have hreset : Builder.modeFor { b with root, nextId, stack := stack', failed, form }
          (newElement b t :: stack) = b.modeFor stack := by
        rw [modeFor_cons_other _ hsetting]
        refine modeFor_congr ?_ ?_ stack <;> rfl
      rw [hreset]
      exact (InForce.cons_other hsetting hmode).mpr h.inForce
    · rw [hname]
      exact (Bool.or_false _).symm
  have hself : (newElement b t).name.isHtml ["form"] = true := by simp [ElementName.isHtml, hname]
  have hopen : b.isOpen "template" = stack.any (·.name.isHtml ["template"]) := by
    rw [isOpen, h.stands.stack_eq]
  have hpush : (b.pushElement .html t).2 = b.push t := rfl
  have hhandle : (b.pushElement .html t).1 = newElement b t := by
    rw [pushElement_eq, newHandle_eq htemplate]
  rw [formStart, hparagraph, hopen]
  dsimp only
  rw [hhandle, hpush]
  cases hany : stack.any (·.name.isHtml ["template"]) with
  | true =>
    rw [Bool.not_true, Bool.and_false, if_neg Bool.false_ne_true, if_pos rfl]
    have hkept : (b.push t).form = b.form := by
      obtain ⟨root, nextId, stack', failed, heq⟩ := push_eq b t
      rw [heq]
    refine hopens (b.push t).form ?_
    rw [hkept, h.form, openForm, hany, Bool.not_true, Bool.and_false, if_neg Bool.false_ne_true]
  | false =>
    have hself : openForm (newElement b t :: stack) = some (newElement b t) := by
      rw [openForm, hself, hany, Bool.not_false, Bool.and_self, if_pos rfl]
    rw [h.form, openForm_eq_none hform, Option.isSome_none, Bool.false_and,
      if_neg Bool.false_ne_true, if_neg Bool.false_ne_true]
    exact hopens _ hself.symm

/-! ### Start tags by their class -/

/-- Behind the start tag of an element that drops a line feed, the next one is dropped. -/
theorem Rests.opens_verbatim (h : Rests stack path f done b) (hmode : b.mode ≠ .inTemplate) {t : Tag}
    (hclass : Opening.ofName t.name = .verbatim) :
    Opens stack path f done b t { b.push t with dropNewline := true, framesetOk := false } := by
  have hpush := h.push hmode (t := t) (by rw [hclass]; decide)
  obtain ⟨root, nextId, stack', failed, heq⟩ := push_eq b t
  rw [heq] at hpush ⊢
  exact ⟨hpush.sameRules { hpush.stands with } ⟨rfl, rfl, rfl, rfl, rfl, rfl⟩, rfl, rfl,
    by rw [hclass]; exact (Bool.or_true _).symm⟩

/-- A list item is opened where no other item is in reach. -/
theorem Rests.opens_listItem (h : Rests stack path f done b) (hmode : b.mode ≠ .inTemplate) {t : Tag}
    (hclass : Opening.ofName t.name = .listItem)
    (hparagraph : Opening.outsideParagraph (namesOf stack) = true)
    (hitem : reachesName hidesItem (Opening.itemNames t.name) (namesOf stack) = false) :
    Opens stack path f done b t (b.listItemStart t) := by
  have hnone : openItem? (Opening.itemNames t.name) b.stack = none :=
    h.stands.stack_eq ▸ openItem?_eq_none hitem
  have hlate : Rests stack path f done { b with framesetOk := false } :=
    h.sameRules { h.stands with } ⟨rfl, rfl, rfl, rfl, rfl, rfl⟩
  have hopens := hlate.opens_push (t := t) hmode (by rw [hclass]; decide) (by rw [hclass]; decide)
  rw [Opening.itemNames] at hnone
  rw [listItemStart]
  dsimp only
  rw [hnone]
  dsimp only
  rw [hlate.stands.endParagraph_eq hparagraph]
  exact ⟨hopens.rests, hopens.head, hopens.templateModes, hopens.dropNewline⟩

/-- A part of a ruby annotation is opened where nothing ends by itself. -/
theorem Rests.opens_ruby (h : Rests stack path f done b) (hmode : b.mode ≠ .inTemplate) {t : Tag}
    (hclass : Opening.ofName t.name ∈ [.rubyBase, .rubyText]) {implied : List String}
    (hsub : implied ⊆ impliedEnds)
    (houtside : Opening.outsideOf impliedEnds (namesOf stack) = true) :
    Opens stack path f done b t (b.rubyStart t implied) := by
  have hall : ∀ class' ∈ [Opening.rubyBase, .rubyText],
      class' ∈ Opening.plain ∧ class' ≠ .verbatim := by decide
  obtain ⟨hplain, hverbatim⟩ := hall _ hclass
  have hkeep : b.popImplied implied = b := by
    obtain ⟨e, rest, -, hstack, -⟩ := h.stands.exists_stack
    refine popImplied_top hstack ?_
    have hnot := h.stands.currentIs_eq houtside
    rw [currentIs_top hstack] at hnot
    refine Bool.eq_false_iff.mpr fun himplied => Bool.eq_false_iff.mp hnot ?_
    rw [ElementName.isHtml, Bool.and_eq_true] at himplied ⊢
    exact himplied.imp_right fun hmem =>
      List.contains_iff_mem.mpr (hsub (List.contains_iff_mem.mp hmem))
  rw [rubyStart, hkeep, ite_self]
  exact h.opens_push hmode hplain hverbatim

/-- A table is opened where no paragraph is in reach. -/
theorem Rests.opens_table (h : Rests stack path f done b) {t : Tag} (hname : t.name = "table")
    (hparagraph : Opening.outsideParagraph (namesOf stack) = true) :
    Opens stack path f done b t { (if b.oldLayout then b else b.endParagraph).push t with
      framesetOk := false, mode := .inTable } := by
  have hmarker : ElementName.isHtml ⟨.html, t.name⟩ markers = false := by rw [hname]; decide
  have hpart : partMode? t.name = some .inTable := by rw [hname]; rfl
  have hsame : (if b.oldLayout then b else b.endParagraph) = b := by
    rw [h.stands.endParagraph_eq hparagraph, ite_self]
  have hopens := h.opens_part hpart false (h.stands.noted.skip (e := newElement b t) hmarker)
  rw [hsame]
  obtain ⟨root, nextId, stack', failed, heq⟩ := push_eq b t
  rw [heq] at hopens ⊢
  exact hopens

/-- **A start tag in content that nests opens its element** and does nothing else. -/
theorem Rests.start_content_opens (h : Rests stack path f done b)
    (hflow : Setting.of (namesOf stack) = .flow) {t : Tag}
    (hforeign : Setting.isForeign (namesOf stack) (.start t) = false)
    (hrole : Opening.role? (namesOf stack) t.name = some .opens) :
    ∃ r b', Rests stack path f done r ∧ Follows stack b r ∧ r.dropNewline = b.dropNewline ∧
      SettlesIn 2 b (.start t) b' ∧ Opens stack path f done r t b' := by
  have hfree := Opening.role?_eq_opens.mp hrole
  have hclass : Opening.ofName t.name ≠ .misplaced ∧ Opening.ofName t.name ≠ .head := by
    constructor <;> rintro heq <;> rw [heq] at hfree <;> cases hfree
  obtain ⟨r, hrests, hfollows, hsame, hmode, hsettles⟩ := h.start_eq hflow hforeign hclass.1
  replace hmode := hmode.resolve_right hclass.2
  refine ⟨r, _, hrests, hfollows, hsame, hsettles, ?_⟩
  have hstands := hrests.stands
  have hreopen := hstands.reopenFormatting_eq
  have hpush (hclass : Opening.ofName t.name ∈ Opening.plain)
      (hverbatim : Opening.ofName t.name ≠ .verbatim) := hrests.opens_push hmode hclass hverbatim
  rw [Builder.bodyStart]
  cases hclass : Opening.ofName t.name <;> rw [hclass] at hfree hpush
  case other =>
    rw [pushInline, hreopen]
    exact hpush (by decide) (by decide)
  case formatting =>
    rw [hreopen]
    exact hrests.opens_pushFormatting hmode (by rw [hclass]; decide)
  case link =>
    rw [hstands.endOpenLink_eq ((Bool.not_eq_true' _).mp hfree), hreopen]
    exact hrests.opens_pushFormatting hmode (by rw [hclass]; decide)
  case unbroken =>
    dsimp only
    rw [unbrokenStart, hreopen, hstands.inScope_eq, (Bool.not_eq_true' _).mp hfree]
    exact hrests.opens_pushFormatting hmode (by rw [hclass]; decide)
  case embedded =>
    rw [pushInline, hreopen]
    exact hrests.opens_pushEmbedded hmode hclass false
  case block =>
    rw [hstands.endParagraph_eq hfree]
    exact hpush (by decide) (by decide)
  case verbatim =>
    rw [hstands.endParagraph_eq hfree]
    exact hrests.opens_verbatim hmode hclass
  case heading =>
    obtain ⟨hparagraph, hheading⟩ := Bool.and_eq_true_iff.mp hfree
    dsimp only
    rw [hstands.endParagraph_eq hparagraph, hstands.currentIs_eq hheading]
    exact hpush (by decide) (by decide)
  case listItem =>
    obtain ⟨hparagraph, hitem⟩ := Bool.and_eq_true_iff.mp hfree
    exact hrests.opens_listItem hmode hclass hparagraph ((Bool.not_eq_true' _).mp hitem)
  case button =>
    dsimp only
    rw [buttonStart, hstands.inScope_eq, (Bool.not_eq_true' _).mp hfree, if_neg Bool.false_ne_true,
      pushInline, hreopen]
    exact (hpush (by decide) (by decide)).tune false
  case option =>
    dsimp only
    rw [hstands.currentIs_eq hfree, if_neg Bool.false_ne_true, pushInline, hreopen]
    exact hpush (by decide) (by decide)
  case rubyBase =>
    exact hrests.opens_ruby hmode (by rw [hclass]; decide) (List.Subset.refl _) hfree
  case rubyText =>
    exact hrests.opens_ruby hmode (by rw [hclass]; decide) (List.filter_subset_self _) hfree
  case form =>
    obtain ⟨hparagraph, hform⟩ := Bool.and_eq_true_iff.mp hfree
    have hname : t.name ∈ ["form"] := Opening.mem_of_ofName hclass (by decide)
    exact hrests.opens_form hmode (List.mem_singleton.mp hname) (hstands.endParagraph_eq hparagraph)
      ((Bool.not_eq_true' _).mp hform)
  case table =>
    have hname : t.name ∈ ["table"] := Opening.mem_of_ofName hclass (by decide)
    exact hrests.opens_table (List.mem_singleton.mp hname) hfree
  case select =>
    have hname : t.name ∈ ["select"] := Opening.mem_of_ofName hclass (by decide)
    dsimp only
    rw [selectStart, pushInline, hreopen]
    refine hrests.opens_select (List.mem_singleton.mp hname) ?_ false
    split <;> decide
  all_goals exact absurd hfree Bool.false_ne_true

end

end TerseMarkup.Html
