import Mathlib.Tactic.FinCases
import TerseMarkup.Proofs.Html.Construction.Nested

/-! What may stand where.

The names of the open elements say in which setting construction is (`Setting.of`), which rules are
in force there (`InForce`), and what a start tag does that does nothing to the elements which are
open already (`Setting.role?`). -/
namespace TerseMarkup.Html
open Builder

/-! ### Names in reach -/

/-- The names of open elements. -/
def namesOf (stack : List Handle) : List ElementName := stack.map Handle.name

/-- Whether one of these names comes before the first element that ends the scope. -/
def reachesName (ends : ElementName → Bool) (names : List String) : List ElementName → Bool
  | [] => false
  | n :: rest => n.isHtml names || (!ends n && reachesName ends names rest)

theorem reaches_eq (ends : ElementName → Bool) (names : List String) (stack : List Handle) :
    reaches ends (·.name.isHtml names) stack = reachesName ends names (namesOf stack) := by
  induction stack with
  | nil => rfl
  | cons e stack ih => rw [reaches, ih]; rfl

/-- Elements that hide the list items around them. -/
def hidesItem (n : ElementName) : Bool := n.isSpecial && !n.isHtml ["address", "div", "p"]

theorem openItem?_eq_none {names : List String} {stack : List Handle}
    (h : reachesName hidesItem names (namesOf stack) = false) : openItem? names stack = none := by
  induction stack with
  | nil => rfl
  | cons e stack ih =>
    have h : (e.name.isHtml names || (!hidesItem e.name && reachesName hidesItem names
        (namesOf stack))) = false := h
    rw [Bool.or_eq_false_iff] at h
    rw [openItem?, h.1, if_neg Bool.false_ne_true]
    split
    · rfl
    next hshown =>
      have hhides : hidesItem e.name = false := by rw [hidesItem]; simpa using hshown
      rw [hhides] at h
      exact ih (by simpa using h.2)

/-- A link that is noted is in reach. -/
theorem Noted.not_link {stack : List Handle} {formatting : List Formatting}
    (h : Noted stack formatting)
    (hlink : reachesName (·.isHtml markers) ["a"] (namesOf stack) = false) {e : Handle} {t : Tag}
    (he : .element e t ∈ formatting.takeWhile Formatting.isElement) :
    e.name.isHtml ["a"] = false := by
  induction h with
  | nil => exact absurd he List.not_mem_nil
  | skip _ hname ih =>
    refine ih ?_ he
    simp only [namesOf, List.map_cons, reachesName, hname, Bool.or_eq_false_iff] at hlink
    simpa [namesOf] using hlink.2
  | element _ hname htag ih =>
    simp only [namesOf, List.map_cons, reachesName, Bool.or_eq_false_iff] at hlink
    obtain ⟨hself, hrest⟩ := hlink
    rw [hname, isHtml_markers_of_formattingTags htag] at hrest
    rw [List.takeWhile_cons_of_pos (by rfl), List.mem_cons] at he
    rcases he with heq | he
    · obtain ⟨rfl, -⟩ := Formatting.element.inj heq
      exact hself
    · exact ih (by simpa [namesOf] using hrest) he
  | marker => exact absurd he List.not_mem_nil

/-! ### Settings -/

/-- What nodes stand in: content, the head, or something that takes but a few elements. -/
inductive Setting
  | flow
  | metadata
  | table
  | rows
  | cells
  | columns
  | options
deriving DecidableEq

/-- Names that say in which setting content is, and which rules are in force there. -/
def settingNames : List String :=
  ["select", "td", "th", "tr", "tbody", "thead", "tfoot", "caption", "colgroup", "table", "template",
    "head", "body", "frameset", "html"]

namespace Setting

/-- The setting inside elements of these names, the innermost first. SVG and MathML say nothing of
it. -/
def of : List ElementName → Setting
  | [] => flow
  | n :: rest =>
    if n.space != .html then of rest
    else
      match n.name with
      | "head" => metadata
      | "table" => table
      | "tbody" | "tfoot" | "thead" => rows
      | "tr" => cells
      | "colgroup" => columns
      | "select" => options
      | "td" | "th" | "caption" | "template" | "body" => flow
      | _ => of rest

/-- The modes in which the rules of the setting are in force. -/
def modes : Setting → List Mode
  | flow => [.inBody, .inCaption, .inCell]
  | metadata => [.inHead]
  | table => [.inTable]
  | rows => [.inTableBody]
  | cells => [.inRow]
  | columns => [.inColumnGroup]
  | options => [.inSelect, .inSelectInTable]

theorem inTemplate_not_mem (s : Setting) : Mode.inTemplate ∉ s.modes := by cases s <;> decide

theorem of_cons_other {n : ElementName} (h : n.isHtml settingNames = false)
    (rest : List ElementName) : of (n :: rest) = of rest := by
  rw [of]
  split
  · rfl
  next hhtml =>
    have hhtml : (n.space == .html) = true := by simpa using hhtml
    rw [ElementName.isHtml, hhtml, Bool.true_and] at h
    split <;> first | rfl | exact absurd h (by simp [settingNames, *])

end Setting

theorem modeFor_congr {b b' : Builder} (hmodes : b'.templateModes = b.templateModes)
    (hhead : b'.head = b.head) (stack : List Handle) : b'.modeFor stack = b.modeFor stack := by
  induction stack with
  | nil => rfl
  | cons e stack ih => rw [modeFor, modeFor, hmodes, hhead, ih]

theorem modeFor_cons_other (b : Builder) {e : Handle} (h : e.name.isHtml settingNames = false)
    (stack : List Handle) : b.modeFor (e :: stack) = b.modeFor stack := by
  rw [modeFor]
  split
  · rfl
  next hhtml =>
    have hhtml : (e.name.space == .html) = true := by simpa using hhtml
    rw [ElementName.isHtml, hhtml, Bool.true_and] at h
    split <;> first | rfl | exact absurd h (by simp [settingNames, *])

theorem selectMode_mem_options (stack : List Handle) :
    selectMode stack ∈ Setting.options.modes := by
  induction stack with
  | nil => decide
  | cons e stack ih =>
    rw [selectMode]
    split
    · decide
    · split
      · decide
      · exact ih

/-- The rules of the setting are in force in the mode, and in the one that the mode would be reset
to; in content that is the same one. A template may not have shown yet what it holds. -/
def InForce (stack : List Handle) (mode reset : Mode) : Prop :=
  (mode ∈ (Setting.of (namesOf stack)).modes ∧ reset ∈ (Setting.of (namesOf stack)).modes ∧
      (Setting.of (namesOf stack) = .flow → mode = reset)) ∨
    mode = .inTemplate ∧ reset = .inTemplate ∧ ∃ e ∈ stack.head?, e.name = ⟨.html, "template"⟩

namespace InForce

variable {stack : List Handle} {mode reset : Mode}

/-- The mode may be reset. -/
theorem afterReset (h : InForce stack mode reset) : InForce stack reset reset :=
  h.imp (fun h => ⟨h.2.1, h.2.1, fun _ => rfl⟩) fun h => ⟨h.2.1, h.2.1, h.2.2⟩

theorem flow_of_template (htemplate : ∃ e ∈ stack.head?, e.name = ⟨.html, "template"⟩) :
    Setting.of (namesOf stack) = .flow := by
  obtain ⟨e, he, hname⟩ := htemplate
  obtain ⟨rest, rfl⟩ := List.head?_eq_some_iff.mp he
  rw [namesOf, List.map_cons, hname]
  rfl

/-- In content there is no choice. -/
theorem eq_reset (h : InForce stack mode reset) (hflow : Setting.of (namesOf stack) = .flow) :
    mode = reset := by
  rcases h with ⟨-, -, heq⟩ | ⟨hmode, hreset, -⟩
  · exact heq hflow
  · rw [hmode, hreset]

/-- In any other setting the mode may change. -/
theorem change (h : InForce stack mode reset) {mode' : Mode}
    (hmode : mode' ∈ (Setting.of (namesOf stack)).modes)
    (hother : Setting.of (namesOf stack) ≠ .flow) : InForce stack mode' reset := by
  rcases h with h | ⟨-, -, htemplate⟩
  · exact .inl ⟨hmode, h.2.1, fun hflow => absurd hflow hother⟩
  · exact absurd (flow_of_template htemplate) hother

theorem mode_mem (h : InForce stack mode reset) :
    mode ∈ (Setting.of (namesOf stack)).modes ∨
      mode = .inTemplate ∧ Setting.of (namesOf stack) = .flow :=
  h.imp And.left fun h => ⟨h.1, flow_of_template h.2.2⟩

/-- Only directly in a template it may not have shown yet what that holds. -/
theorem ne_inTemplate {e : Handle} (h : InForce (e :: stack) mode reset)
    (hname : e.name ≠ ⟨.html, "template"⟩) : mode ≠ .inTemplate ∧ reset ≠ .inTemplate := by
  rcases h with ⟨hmode, hreset, -⟩ | ⟨-, -, e', he', htemplate⟩
  · exact ⟨fun heq => Setting.inTemplate_not_mem _ (heq ▸ hmode),
      fun heq => Setting.inTemplate_not_mem _ (heq ▸ hreset)⟩
  · exact absurd (Option.some.inj he' ▸ htemplate) hname

/-- An element that says nothing of the setting changes nothing. -/
theorem cons_other {e : Handle} (h : e.name.isHtml settingNames = false)
    (hmode : mode ≠ .inTemplate) : InForce (e :: stack) mode reset ↔ InForce stack mode reset := by
  have hof : Setting.of (namesOf (e :: stack)) = Setting.of (namesOf stack) :=
    Setting.of_cons_other h _
  rw [InForce, InForce, hof]
  simp [hmode]

end InForce

/-- The mode inside a table or a part of one. -/
def partMode? : String → Option Mode
  | "table" => some .inTable
  | "tbody" | "tfoot" | "thead" => some .inTableBody
  | "tr" => some .inRow
  | "colgroup" => some .inColumnGroup
  | "caption" => some .inCaption
  | "td" | "th" => some .inCell
  | _ => none

def partNames : List String :=
  ["table", "tbody", "tfoot", "thead", "tr", "colgroup", "caption", "td", "th"]

theorem mem_of_partMode? {name : String} {mode : Mode} (h : partMode? name = some mode) :
    name ∈ partNames := by
  unfold partMode? at h
  split at h <;> first | decide | cases h

/-- Inside a table or a part of one its own rules are in force. -/
theorem inForce_part {e : Handle} (hhtml : e.name.space = .html) {mode : Mode}
    (hmode : partMode? e.name.name = some mode) {stack : List Handle} (hne : stack ≠ [])
    (b : Builder) : InForce (e :: stack) mode (b.modeFor (e :: stack)) := by
  obtain ⟨id, ⟨space, name⟩, inside⟩ := e
  obtain rfl : space = .html := hhtml
  obtain ⟨below, rest, rfl⟩ := List.exists_cons_of_ne_nil hne
  have hmem := mem_of_partMode? hmode
  fin_cases hmem
  all_goals
    obtain rfl := Option.some.inj hmode
    exact .inl ⟨List.mem_of_elem_eq_true rfl, List.mem_of_elem_eq_true rfl, fun _ => rfl⟩

/-- Whether the innermost element has none of these names. -/
def Opening.outsideOf (names : List String) (inside : List ElementName) : Bool :=
  !inside.head?.any (·.isHtml names)

/-! ### Tokens inside SVG and MathML -/

/-- Whether the rules for SVG and MathML look at a token in an element. Elements that hold text or HTML
leave most to the rules of HTML. -/
def ElementName.keeps (n : ElementName) : Token → Bool
  | .eof => false
  | .text _ | .null => n.space != .html && !n.isMathText && !n.isSvgHost
  | .start t =>
    n.space != .html && !n.isSvgHost &&
      !(n.isMathText && t.name != "mglyph" && t.name != "malignmark") &&
      !(n == ⟨.mathml, "annotation-xml"⟩ && t.name == "svg")
  | _ => n.space != .html

theorem ElementName.keeps_html {n : ElementName} (h : n.space = .html) (t : Token) :
    n.keeps t = false := by
  cases t <;> simp [keeps, h]

/-- Whether the rules for SVG and MathML look at a token inside elements of these names. -/
def Setting.isForeign (inside : List ElementName) (t : Token) : Bool := inside.head?.any (·.keeps t)

theorem Builder.isForeign_eq (b : Builder) (t : Token) :
    b.isForeign t = Setting.isForeign (namesOf b.stack) t := by
  rw [isForeign]
  cases b.stack with
  | nil => rfl
  | cons e rest => cases t <;> rfl

/-- Directly inside an HTML element of a given name all rules are those of HTML. -/
theorem Setting.isForeign_of_outsideOf {names : List String} {inside : List ElementName}
    (h : Opening.outsideOf names inside = false) (t : Token) : isForeign inside t = false := by
  cases inside with
  | nil => rfl
  | cons n rest =>
    have hname : n.isHtml names = true := by simpa [Opening.outsideOf] using h
    have hhtml : n.space = .html := by simpa using (Bool.and_eq_true_iff.mp hname).1
    exact ElementName.keeps_html hhtml t

/-! ### What a start tag does -/

/-- What a start tag does that closes nothing. -/
inductive Role
  /-- It puts in an element without content. -/
  | empty
  /-- It opens an element that holds nothing but text. -/
  | holds (content : Content)
  | template
  /-- It opens any other element. -/
  | opens
deriving DecidableEq

/-- What a start tag does that may stand in the head. -/
def headRole? (name : String) : Option Role :=
  if ["base", "basefont", "bgsound", "link", "meta"].contains name then some .empty
  else if name = "title" then some (.holds (.escapable name))
  else if ["noframes", "noscript", "style"].contains name then some (.holds (.raw name))
  else if name = "script" then some (.holds .script)
  else if name = "template" then some .template
  else none

theorem headRole?_ne_opens (name : String) : headRole? name ≠ some .opens := by
  rw [headRole?]
  split_ifs <;> simp

namespace Opening

/-- Whether no paragraph is in reach. -/
def outsideParagraph (inside : List ElementName) : Bool :=
  !reachesName ElementName.endsButtonScope ["p"] inside

/-- The names of the list items that a list item ends. -/
def itemNames (name : String) : List String := if name = "li" then ["li"] else ["dd", "dt"]

/-- Whether a start tag of a class does nothing but open its element inside elements of these names.
A paragraph ends before most others, a heading before a heading, and a list item before another one;
a link, a button or an element without line breaks ends the one that it stands in. -/
def opens (inside : List ElementName) (name : String) : Opening → Bool
  | other | formatting | embedded | select => true
  | link => !reachesName (·.isHtml markers) ["a"] inside
  | block | verbatim | table => outsideParagraph inside
  | form => outsideParagraph inside && !inside.any (·.isHtml ["form"])
  | heading => outsideParagraph inside && outsideOf headings inside
  | listItem => outsideParagraph inside && !reachesName hidesItem (itemNames name) inside
  | button => !reachesName ElementName.endsScope ["button"] inside
  | unbroken => !reachesName ElementName.endsScope ["nobr"] inside
  | option => outsideOf ["option"] inside
  | rubyBase | rubyText => outsideOf impliedEnds inside
  | _ => false

/-- What a start tag does in content. -/
def role? (inside : List ElementName) (name : String) : Option Role :=
  match ofName name with
  | head => headRole? name
  | void | parameter => some .empty
  | rule => if outsideParagraph inside then some .empty else none
  | textarea => some (.holds (.escapable name))
  | inlineFrame | unshown => some (.holds (.raw name))
  | sample => if outsideParagraph inside then some (.holds (.raw name)) else none
  | other' => if other'.opens inside name then some .opens else none

theorem role?_eq_opens {inside : List ElementName} {name : String} :
    role? inside name = some .opens ↔ (ofName name).opens inside name = true := by
  rw [role?]
  cases ofName name <;> dsimp only [opens] <;> first
    | exact Option.ite_none_right_eq_some.trans (and_iff_left rfl)
    | simp [headRole?_ne_opens]

end Opening

namespace Setting

/-- What a start tag does directly inside a table or a part of one, where it is no part itself. -/
def tableRole? (name : String) : Option Role :=
  if ["script", "style", "template"].contains name then headRole? name else none

/-- What a start tag does in a group of columns. -/
def columnRole? (name : String) : Option Role :=
  if name = "col" then some .empty else if name = "template" then some .template else none

theorem columnRole?_ne_opens (name : String) : columnRole? name ≠ some .opens := by
  rw [columnRole?]
  split_ifs <;> simp

/-- What a start tag does in a selection. An option ends before another one, a group of options
before another one. -/
def optionRole? (inside : List ElementName) (name : String) : Option Role :=
  if name = "option" then if Opening.outsideOf ["option"] inside then some .opens else none
  else if name = "optgroup" then
    if Opening.outsideOf ["optgroup", "option"] inside then some .opens else none
  else if name = "hr" then
    if Opening.outsideOf ["optgroup", "option"] inside then some .empty else none
  else if ["script", "template"].contains name then headRole? name
  else none

theorem optionRole?_opens {inside : List ElementName} {name : String}
    (h : optionRole? inside name = some .opens) :
    name = "option" ∧ Opening.outsideOf ["option"] inside = true ∨
      name = "optgroup" ∧ Opening.outsideOf ["optgroup", "option"] inside = true := by
  rw [optionRole?] at h
  split_ifs at h with hoption houtside hgroup houtside
  · exact .inl ⟨hoption, houtside⟩
  · exact .inr ⟨hgroup, houtside⟩
  · cases h
  · exact absurd h (headRole?_ne_opens name)

/-- What a start tag does that may come only where the innermost element has one of these names. -/
def directlyIn (names : List String) (inside : List ElementName) (role : Option Role) : Option Role :=
  if Opening.outsideOf names inside then none else role

/-- What a start tag does by the rules of the setting inside elements of these names, the innermost
first. -/
def settingRole? (inside : List ElementName) (name : String) : Option Role :=
  match of inside with
  | flow => Opening.role? inside name
  | metadata => headRole? name
  | table =>
    directlyIn tableContext inside
      (if ("caption" :: "colgroup" :: sections).contains name then some .opens else tableRole? name)
  | rows =>
    directlyIn sectionContext inside (if name = "tr" then some .opens else tableRole? name)
  | cells =>
    directlyIn rowContext inside
      (if Builder.cells.contains name then some .opens else tableRole? name)
  | columns => columnRole? name
  | options => optionRole? inside name

/-- What a start tag does inside elements of these names. Those of SVG and MathML take none of HTML,
but for the ones that hold HTML. -/
def role? (inside : List ElementName) (name : String) : Option Role :=
  if isForeign inside (.start { name }) then none else settingRole? inside name

/-- Where the start tag of an HTML element does something, it is by the rules of the setting. -/
theorem role?_eq_some {inside : List ElementName} {name : String} {role : Role} :
    role? inside name = some role ↔
      isForeign inside (.start { name }) = false ∧ settingRole? inside name = some role := by
  rw [role?]
  cases isForeign inside (.start { name }) <;> simp

/-- Whether a start tag does nothing but open an element of SVG or MathML, or put it in, inside
elements of these names. In HTML that is the outermost one; further in, most names of HTML elements
would lead back to HTML. -/
def startsForeign (inside : List ElementName) (space : Namespace) (t : Tag) : Bool :=
  if isForeign inside (.start t) then
    inside.head?.any (·.space == space) && !Builder.isHtmlOnly t
  else of inside == .flow && Opening.ofName t.name == .foreign space

end Setting

end TerseMarkup.Html
