import Mathlib.Data.List.Forall2
import Mathlib.Logic.Relation
import TerseMarkup.Html.Document
import TerseMarkup.Html.Markup

/-! What tidying does to a tree.

A constructed tree has a document in each HTML template, the template's only child, and no other
documents below its root (`Built`). Tidying puts the children of that document in its place and
empties void elements; every other element keeps its children, each of them tidied (`Tidied`). That
is so but for SVG and MathML elements that are called `template`: they hold no document, and are
emptied as if one were missing (`tidied_tidy_iff`). -/
namespace TerseMarkup.Html

/-- An SVG or MathML element that has no more than the name of a template. -/
def ElementName.isForeignTemplate (n : ElementName) : Bool :=
  n.space != .html && n.name == "template"

/-- Elements that lose their children: those without content, and those of that name. -/
def ElementName.isEmptied (n : ElementName) : Bool := n.isVoid || n.isForeignTemplate

theorem ElementName.eq_of_isHtml {n : ElementName} {name : String} (h : n.isHtml [name] = true) :
    n = ⟨.html, name⟩ := by
  obtain ⟨space, name'⟩ := n
  rw [isHtml, Bool.and_eq_true, beq_iff_eq, List.contains_iff_mem, List.mem_singleton] at h
  obtain ⟨rfl, rfl⟩ := h
  rfl

theorem ElementName.isVoid_of_isForeignTemplate {n : ElementName}
    (h : n.isForeignTemplate = true) : n.isVoid = false := by
  rw [isForeignTemplate, Bool.and_eq_true, bne_iff_ne] at h
  rw [isVoid, isHtml, beq_eq_false_iff_ne.mpr h.1, Bool.false_and]

/-- What is called `template` is a template or has the name only. -/
theorem ElementName.isForeignTemplate_iff {n : ElementName}
    (h : n.isHtml ["template"] = false) : n.isForeignTemplate = true ↔ n.name = "template" := by
  rw [isHtml, Bool.and_eq_false_iff] at h
  rw [isForeignTemplate, Bool.and_eq_true, bne_iff_ne, beq_iff_eq, and_iff_right_iff_imp]
  rintro hname hspace
  rcases h with h | h
  · exact absurd hspace (beq_eq_false_iff_ne.mp h)
  · rw [hname] at h
    exact absurd h (by decide)

namespace Node

/-- A node of a constructed tree: the contents of a template stand in a document of their own, and
there is no other document. -/
inductive Built : Node → Prop
  | leaf {n : Node} (h : n.id? = none) : Built n
  | element {id : NodeId} {name : ElementName} {attributes : List Attribute} {cs : List Node}
      (hname : name.isHtml ["template"] = false) (h : ∀ c ∈ cs, Built c) :
      Built (.element id name attributes cs)
  | template {id d : NodeId} {name : ElementName} {attributes : List Attribute}
      {contents : List Node} (hname : name.isHtml ["template"] = true)
      (h : ∀ c ∈ contents, Built c) :
      Built (.element id name attributes [.document d contents])

/-- What a node becomes: elements whose names are `dropped` lose all children, a template gets the
children of the document inside, and every other element keeps its own. -/
inductive Tidied (dropped : ElementName → Bool) : Node → Node → Prop
  | leaf {n : Node} (h : n.id? = none) : Tidied dropped n n
  | emptied {id : NodeId} {name : ElementName} {attributes : List Attribute} {cs : List Node}
      (hname : dropped name = true) :
      Tidied dropped (.element id name attributes cs) (.element id name attributes [])
  | template {id d : NodeId} {name : ElementName} {attributes : List Attribute}
      {contents contents' : List Node} (hname : dropped name = false)
      (htemplate : name.isHtml ["template"] = true)
      (h : List.Forall₂ (Tidied dropped) contents contents') :
      Tidied dropped (.element id name attributes [.document d contents])
        (.element id name attributes contents')
  | element {id : NodeId} {name : ElementName} {attributes : List Attribute} {cs cs' : List Node}
      (hname : dropped name = false) (htemplate : name.isHtml ["template"] = false)
      (h : List.Forall₂ (Tidied dropped) cs cs') :
      Tidied dropped (.element id name attributes cs) (.element id name attributes cs')

/-- `m` is a child of `n`, or a child's child, and so on. -/
def Below (n m : Node) : Prop := Relation.TransGen (fun n c => c ∈ n.children) n m

/-- The children that are kept. -/
def kept (dropped : ElementName → Bool) : Node → List Node
  | element _ name _ cs => if dropped name then [] else cs
  | n => n.children

/-- `m` is `n`, or is left below it when elements whose names are `dropped` lose all children. -/
def Keeps (dropped : ElementName → Bool) (n m : Node) : Prop :=
  Relation.ReflTransGen (fun n c => c ∈ n.kept dropped) n m

/-- No SVG or MathML template has children that are to be kept. -/
def Spares (dropped : ElementName → Bool) (n : Node) : Prop :=
  ∀ id name attributes cs, n.Keeps dropped (.element id name attributes cs) →
    name.isForeignTemplate = true → dropped name = false → cs = []

/-! ### Tidying, rule by rule -/

theorem Built.isDocument {n : Node} (h : n.Built) : n.isDocument = false := by
  cases h with
  | leaf h => cases n with
    | document => nomatch h
    | element | doctype | text | comment | placeholder => rfl
  | element | template => rfl

theorem tidyAll_eq (cs : List Node) : tidyAll cs = cs.map tidy := by
  induction cs with
  | nil => rfl
  | cons c rest ih => rw [tidyAll, ih, List.map_cons]

theorem tidy_leaf {n : Node} (h : n.id? = none) : n.tidy = n := by
  cases n with
  | document | element => nomatch h
  | doctype | text | comment | placeholder => simp only [tidy]

/-- Where no document comes last, there are no contents. -/
theorem tidyTemplate_eq_nil {cs : List Node} (h : ∀ c ∈ cs, c.isDocument = false) :
    tidyTemplate cs = [] := by
  induction cs with
  | nil => rfl
  | cons c rest ih =>
    obtain ⟨hc, hrest⟩ := List.forall_mem_cons.mp h
    cases c with
    | document => nomatch hc
    | element | doctype | text | comment | placeholder => simpa only [tidyTemplate] using ih hrest

section Element

variable {id : NodeId} {name : ElementName} {attributes : List Attribute}

theorem tidy_void (h : name.isVoid = true) (cs : List Node) :
    (element id name attributes cs).tidy = element id name attributes [] := by
  rw [tidy, if_pos h]

theorem tidy_template (h : name.isHtml ["template"] = true) (d : NodeId) (contents : List Node) :
    (element id name attributes [document d contents]).tidy =
      element id name attributes (tidyAll contents) := by
  obtain rfl := ElementName.eq_of_isHtml h
  rw [tidy, if_neg (by decide), if_pos rfl, tidyTemplate]

theorem tidy_foreignTemplate (h : name.isForeignTemplate = true) {cs : List Node}
    (hcs : ∀ c ∈ cs, c.Built) :
    (element id name attributes cs).tidy = element id name attributes [] := by
  have hvoid : name.isVoid = false := ElementName.isVoid_of_isForeignTemplate h
  rw [ElementName.isForeignTemplate, Bool.and_eq_true, beq_iff_eq] at h
  rw [tidy, if_neg (by simp [hvoid]), if_pos h.2,
    tidyTemplate_eq_nil fun c hc => (hcs c hc).isDocument]

theorem tidy_element (hvoid : name.isVoid = false) (h : name.name ≠ "template") (cs : List Node) :
    (element id name attributes cs).tidy = element id name attributes (tidyAll cs) := by
  rw [tidy, if_neg (by simp [hvoid]), if_neg h]

end Element

theorem forall₂_tidyAll {r : Node → Node → Prop} {cs : List Node} :
    List.Forall₂ r cs (tidyAll cs) ↔ ∀ c ∈ cs, r c c.tidy := by
  rw [tidyAll_eq, List.forall₂_map_right_iff, List.forall₂_same]

/-! ### Templates that are spared -/

section Spares

variable {dropped : ElementName → Bool}

theorem keeps_iff {n m : Node} :
    n.Keeps dropped m ↔ n = m ∨ ∃ c ∈ n.kept dropped, c.Keeps dropped m :=
  Relation.ReflTransGen.cases_head_iff

/-- Where a node itself is no such template, its children decide. -/
theorem spares_iff {n : Node} (h : ∀ id name attributes cs, n = .element id name attributes cs →
      name.isForeignTemplate = true → dropped name = false → cs = []) :
    n.Spares dropped ↔ ∀ c ∈ n.kept dropped, c.Spares dropped := by
  constructor
  · exact fun hn c hc id name attributes cs hkeeps =>
      hn id name attributes cs (keeps_iff.mpr (.inr ⟨c, hc, hkeeps⟩))
  · intro hcs id name attributes cs hkeeps
    rcases keeps_iff.mp hkeeps with heq | ⟨c, hc, hkeeps⟩
    · exact h id name attributes cs heq
    · exact hcs c hc id name attributes cs hkeeps

theorem spares_leaf {n : Node} (h : n.id? = none) : n.Spares dropped := by
  cases n with
  | document | element => nomatch h
  | doctype | text | comment | placeholder =>
    refine (spares_iff ?_).mpr fun c hc => absurd hc List.not_mem_nil
    rintro _ _ _ _ ⟨⟩

variable {id : NodeId} {name : ElementName} {attributes : List Attribute} {cs : List Node}

theorem spares_dropped (h : dropped name = true) :
    (element id name attributes cs).Spares dropped := by
  refine (spares_iff ?_).mpr fun c hc => ?_
  · rintro _ _ _ _ ⟨⟩ - hkept
    exact absurd (h.symm.trans hkept) (by decide)
  · rw [kept, if_pos h] at hc
    exact absurd hc List.not_mem_nil

theorem spares_element (h : dropped name = false) (hname : name.isForeignTemplate = false) :
    (element id name attributes cs).Spares dropped ↔ ∀ c ∈ cs, c.Spares dropped := by
  rw [spares_iff, kept, if_neg (by simp [h])]
  rintro _ _ _ _ ⟨⟩ hforeign
  exact absurd (hname.symm.trans hforeign) (by decide)

theorem spares_document : (document id cs).Spares dropped ↔ ∀ c ∈ cs, c.Spares dropped :=
  spares_iff fun _ _ _ _ heq => nomatch heq

theorem spares_foreignTemplate (h : dropped name = false) (hname : name.isForeignTemplate = true) :
    (element id name attributes cs).Spares dropped ↔ cs = [] := by
  constructor
  · exact fun hspares => hspares id name attributes cs .refl hname h
  · rintro rfl
    refine (spares_iff fun _ _ _ _ heq _ _ => by cases heq; rfl).mpr fun c hc => ?_
    rw [kept, if_neg (by simp [h])] at hc
    exact absurd hc List.not_mem_nil

end Spares

/-! ### The whole tree -/

section Tidied

variable {dropped : ElementName → Bool} {id d : NodeId} {name : ElementName}
  {attributes : List Attribute} {cs cs' : List Node}

theorem tidied_element (hname : dropped name = false)
    (htemplate : name.isHtml ["template"] = false) :
    Tidied dropped (element id name attributes cs) (element id name attributes cs') ↔
      List.Forall₂ (Tidied dropped) cs cs' := by
  constructor
  · intro h
    cases h with
    | leaf h => nomatch h
    | emptied h => exact absurd (hname.symm.trans h) (by decide)
    | template _ h => exact absurd (htemplate.symm.trans h) (by decide)
    | element _ _ h => exact h
  · exact .element hname htemplate

theorem tidied_template (hname : dropped name = false)
    (htemplate : name.isHtml ["template"] = true) :
    Tidied dropped (element id name attributes [document d cs]) (element id name attributes cs') ↔
      List.Forall₂ (Tidied dropped) cs cs' := by
  constructor
  · intro h
    cases h with
    | leaf h => nomatch h
    | emptied h => exact absurd (hname.symm.trans h) (by decide)
    | template _ _ h => exact h
    | element _ h => exact absurd (htemplate.symm.trans h) (by decide)
  · exact .template hname htemplate

end Tidied

/-- **Tidying does what it is for exactly if it finds no children in an SVG or MathML template**
that are to be kept. -/
theorem tidied_tidy_iff {dropped : ElementName → Bool}
    (hvoid : ∀ name : ElementName, name.isVoid = true → dropped name = true)
    (hdropped : ∀ name : ElementName, dropped name = true →
      name.isVoid = true ∨ name.isForeignTemplate = true) {n : Node} (h : n.Built) :
    Tidied dropped n n.tidy ↔ n.Spares dropped := by
  induction h with
  | leaf h =>
    rw [tidy_leaf h]
    exact iff_of_true (.leaf h) (spares_leaf h)
  | @element id name attributes cs htemplate h ih =>
    -- How the element is called and whether it is dropped decide what becomes of it.
    cases hname : dropped name with
    | true =>
      have htidy : (element id name attributes cs).tidy = element id name attributes [] := by
        rcases hdropped name hname with hvoid | hforeign
        · exact tidy_void hvoid cs
        · exact tidy_foreignTemplate hforeign h
      rw [htidy]
      exact iff_of_true (.emptied hname) (spares_dropped hname)
    | false =>
      cases hforeign : name.isForeignTemplate with
      | true =>
        rw [tidy_foreignTemplate hforeign h, tidied_element hname htemplate,
          spares_foreignTemplate hname hforeign, List.forall₂_nil_right_iff]
      | false =>
        have hcalled : name.name ≠ "template" := fun heq =>
          absurd ((ElementName.isForeignTemplate_iff htemplate).mpr heq) (by simp [hforeign])
        have hcontent : name.isVoid = false :=
          Bool.eq_false_iff.mpr fun h => absurd (hvoid name h) (by simp [hname])
        rw [tidy_element hcontent hcalled, tidied_element hname htemplate, forall₂_tidyAll,
          spares_element hname hforeign]
        exact forall₂_congr ih
  | @template id d name attributes contents htemplate h ih =>
    obtain rfl := ElementName.eq_of_isHtml htemplate
    have hname : dropped ⟨.html, "template"⟩ = false :=
      Bool.eq_false_iff.mpr fun h => absurd (hdropped _ h) (by decide)
    rw [tidy_template htemplate, tidied_template hname htemplate, forall₂_tidyAll,
      spares_element hname (by decide), List.forall_mem_singleton, spares_document]
    exact forall₂_congr ih

/-! ### No documents -/

theorem Built.isDocument_tidy {n : Node} (h : n.Built) : n.tidy.isDocument = false := by
  cases h with
  | leaf hleaf =>
    rw [tidy_leaf hleaf]
    exact (Built.leaf hleaf).isDocument
  | element | template =>
    rw [tidy]
    split
    · rfl
    · split <;> rfl

/-- Children behind tidying are what nodes of the constructed tree have become. -/
theorem Built.exists_of_mem_children {n c : Node} (h : n.Built) (hc : c ∈ n.tidy.children) :
    ∃ c₀ : Node, c₀.Built ∧ c₀.tidy = c := by
  have hamong {cs : List Node} (hcs : ∀ c ∈ cs, c.Built) (hc : c ∈ tidyAll cs) :
      ∃ c₀ : Node, c₀.Built ∧ c₀.tidy = c := by
    rw [tidyAll_eq] at hc
    obtain ⟨c₀, hmem, rfl⟩ := List.mem_map.mp hc
    exact ⟨c₀, hcs c₀ hmem, rfl⟩
  cases h with
  | leaf hleaf =>
    rw [tidy_leaf hleaf] at hc
    cases n with
    | document | element => nomatch hleaf
    | doctype | text | comment | placeholder => exact absurd hc List.not_mem_nil
  | @element id name attributes cs htemplate hcs =>
    cases hvoid : name.isVoid with
    | true =>
      rw [tidy_void hvoid] at hc
      exact absurd hc List.not_mem_nil
    | false =>
      by_cases hcalled : name.name = "template"
      · have hforeign := (ElementName.isForeignTemplate_iff htemplate).mpr hcalled
        rw [tidy_foreignTemplate hforeign hcs] at hc
        exact absurd hc List.not_mem_nil
      · rw [tidy_element hvoid hcalled] at hc
        exact hamong hcs hc
  | template htemplate hcontents =>
    rw [tidy_template htemplate] at hc
    exact hamong hcontents hc

/-- **No document is left below the root.** -/
theorem isDocument_of_below {id : NodeId} {cs : List Node} (h : ∀ c ∈ cs, c.Built) {m : Node}
    (hm : (document id cs).tidy.Below m) : m.isDocument = false := by
  have htidied : ∃ m₀ : Node, m₀.Built ∧ m₀.tidy = m := by
    induction hm with
    | single hc =>
      rw [tidy, children, tidyAll_eq] at hc
      obtain ⟨c, hmem, rfl⟩ := List.mem_map.mp hc
      exact ⟨c, h c hmem, rfl⟩
    | tail _ hc ih =>
      obtain ⟨n, hbuilt, rfl⟩ := ih
      exact hbuilt.exists_of_mem_children hc
  obtain ⟨m₀, hbuilt, rfl⟩ := htidied
  exact hbuilt.isDocument_tidy

/-- **What tidying makes of a constructed tree**: no document is left below the root, void elements
and SVG and MathML templates are emptied, every template gets the contents that its document holds,
and every other element keeps its children, in order and at any depth. SVG and MathML templates are
treated like other elements exactly if none has children to be kept. -/
theorem tidy_document_iff (id : NodeId) {cs : List Node} (h : ∀ c ∈ cs, c.Built) :
    ∃ cs', (document id cs).tidy = .document id cs' ∧
      (∀ m, Below (.document id cs') m → m.isDocument = false) ∧
      List.Forall₂ (Tidied ElementName.isEmptied) cs cs' ∧
      (List.Forall₂ (Tidied ElementName.isVoid) cs cs' ↔
        Spares ElementName.isVoid (.document id cs)) := by
  refine ⟨tidyAll cs, rfl, fun m hm => isDocument_of_below h hm, ?_, ?_⟩
  · refine forall₂_tidyAll.mpr fun c hc => ?_
    refine (tidied_tidy_iff (fun name hvoid => ?_) (fun name => ?_) (h c hc)).mpr ?_
    · rw [ElementName.isEmptied, hvoid, Bool.true_or]
    · rw [ElementName.isEmptied, Bool.or_eq_true]
      exact fun hemptied => hemptied
    · intro _ name _ _ _ hforeign hkept
      rw [ElementName.isEmptied, hforeign, Bool.or_true] at hkept
      exact absurd hkept (by decide)
  · rw [forall₂_tidyAll, spares_document]
    exact forall₂_congr fun c hc => tidied_tidy_iff (fun _ h => h) (fun _ h => .inl h) (h c hc)

/-- A template in a template, and one in an SVG element. -/
theorem tidy_document_iff_nested :
    let inner : Node := .element 3 ⟨.html, "template"⟩ [] [.document 4 [.text ['x']]]
    let cs : List Node := [.element 1 ⟨.html, "template"⟩ [] [.document 2 [inner]],
      .element 5 ⟨.svg, "svg"⟩ [] [.element 6 ⟨.svg, "template"⟩ [] []]]
    (∀ c ∈ cs, c.Built) ∧ Spares ElementName.isVoid (.document 0 cs) ∧ ∃ cs',
      (document 0 cs).tidy = .document 0 cs' ∧
        (∀ m, Below (.document 0 cs') m → m.isDocument = false) ∧
        List.Forall₂ (Tidied ElementName.isVoid) cs cs' := by
  intro inner cs
  have hinner : inner.Built := .template rfl (List.forall_mem_singleton.mpr (.leaf rfl))
  have hcs : ∀ c ∈ cs, c.Built := by
    refine List.forall_mem_cons.mpr ⟨.template rfl (List.forall_mem_singleton.mpr hinner), ?_⟩
    refine List.forall_mem_singleton.mpr (.element rfl (List.forall_mem_singleton.mpr ?_))
    exact .element rfl fun c hc => absurd hc List.not_mem_nil
  obtain ⟨cs', htidy, hdocuments, -, hiff⟩ := tidy_document_iff 0 hcs
  have hspares : Spares ElementName.isVoid (.document 0 cs) := by
    have hinner : inner.Spares ElementName.isVoid :=
      (spares_element rfl rfl).mpr (List.forall_mem_singleton.mpr
        (spares_document.mpr (List.forall_mem_singleton.mpr (spares_leaf rfl))))
    refine spares_document.mpr (List.forall_mem_cons.mpr ⟨?_, List.forall_mem_singleton.mpr ?_⟩)
    · exact (spares_element rfl rfl).mpr (List.forall_mem_singleton.mpr
        (spares_document.mpr (List.forall_mem_singleton.mpr hinner)))
    · exact (spares_element rfl rfl).mpr
        (List.forall_mem_singleton.mpr ((spares_foreignTemplate rfl rfl).mpr rfl))
  exact ⟨hcs, hspares, cs', htidy, hdocuments, hiff.mpr hspares⟩

/-- The text in an SVG template is lost. -/
theorem svg_template_emptied :
    let text := "<svg><template>x</template></svg>".toList
    let cs : List Node :=
      [.element 1 ⟨.svg, "svg"⟩ [] [.element 2 ⟨.svg, "template"⟩ [] [.text ['x']]]]
    (∀ c ∈ cs, c.Built) ∧ (document 0 cs).markup? = some text ∧
      (∀ cs', (document 0 cs).tidy = .document 0 cs' →
        ¬ List.Forall₂ (Tidied ElementName.isVoid) cs cs') ∧
      (Document.parse text).toOption.bind markup? = some "<svg><template/></svg>".toList := by
  intro text cs
  have hcs : ∀ c ∈ cs, c.Built := by
    refine List.forall_mem_singleton.mpr (.element rfl (List.forall_mem_singleton.mpr ?_))
    exact .element rfl (List.forall_mem_singleton.mpr (.leaf rfl))
  refine ⟨hcs, by decide +kernel, ?_, by decide +kernel⟩
  rintro _ ⟨⟩ htidied
  rw [forall₂_tidyAll, List.forall_mem_singleton, tidied_tidy_iff (fun _ h => h) (fun _ h => .inl h)
    (hcs _ List.mem_cons_self)] at htidied
  have hinside := (spares_element rfl rfl).mp htidied _ List.mem_cons_self
  exact nomatch (spares_foreignTemplate rfl rfl).mp hinside

end Node
end TerseMarkup.Html
