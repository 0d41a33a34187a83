import TerseMarkup.Proofs.Html.Construction.Sealed

/-! A template that is open takes everything.

While the template that a fragment is read in is open, all that is put into the tree is put below it:
the elements opened since stand in its contents, and every rule that goes by an element outside of
them asks first whether a template is open. When the template is closed, what it holds is sealed. -/
namespace TerseMarkup.Html
open Builder

def wrapperHandle : Handle := ⟨3, ⟨.html, "template"⟩, 4⟩

/-- What is open around a fragment. -/
def outerHandles : List Handle := [wrapperHandle, headHandle, htmlHandle]

/-- The document, the outermost element, the head and the template, around the contents of a
fragment. -/
def outerFrames : List Node.Frame :=
  [.document 0 [] [], .element 1 htmlHandle.name [] [] [], .element 2 headHandle.name [] [] [],
    .element 3 wrapperHandle.name [] [] []]

/-- The template is open, with these contents and these elements open in it. -/
structure OpenWith (contents : List Node) (above : List Handle) (b : Builder) : Prop where
  root_eq : b.root = Node.within outerFrames (.document 4 contents)
  stack_eq : b.stack = above ++ outerHandles
  held : Held (.document 4 contents) 4 b.nextId above
  le_ids : ∀ j ∈ (Node.document 4 contents).ids, 4 ≤ j
  names : ∀ h ∈ above, h.name.isHtml outerNames = false
  mode : b.mode ∈ .inText :: contentModes
  returnMode : b.mode = .inText → b.returnMode ∈ .inText :: contentModes
  templateModes : ∀ m ∈ b.templateModes, m ∈ contentModes
  head : b.head = some headHandle
  remembered : ∀ h t, .element h t ∈ b.formatting → Remembered h t
  content : b.content.IsKnown
  failed : b.failed = false

def Open (b : Builder) : Prop := ∃ contents above, OpenWith contents above b

/-- The template that a fragment is read in is open, or has been closed. -/
def InFragment (b : Builder) : Prop := Open b ∨ ∃ n contents, Sealed n contents b

theorem not_mem_outer {j : NodeId} (h : 4 ≤ j) : j ∉ Node.pathIds outerFrames := by
  intro hmem
  have hlt : ∀ j ∈ Node.pathIds outerFrames, j < 4 := by decide
  exact Nat.not_lt.mpr h (hlt j hmem)

/-! ### Where pieces go -/

/-- A piece that does not belong in a table goes into an element in the template, or before one. -/
theorem fosterPlace_outer (above : List Handle) :
    (∃ t, (t = 4 ∨ ∃ h ∈ above, t = h.inside) ∧ fosterPlace (above ++ outerHandles) = .inside t) ∨
      ∃ h ∈ above, ∃ previous, fosterPlace (above ++ outerHandles) = .beforeTable h.id previous := by
  induction above with
  | nil => exact .inl ⟨4, .inl rfl, rfl⟩
  | cons h rest ih =>
    obtain ⟨g, rest', hrest⟩ := List.exists_cons_of_ne_nil
      (List.append_ne_nil_of_right_ne_nil rest (show outerHandles ≠ [] by decide))
    rw [List.cons_append, hrest, fosterPlace, ← hrest]
    split
    · exact .inl ⟨h.inside, .inr ⟨h, List.mem_cons_self, rfl⟩, rfl⟩
    · split
      · exact .inr ⟨h, List.mem_cons_self, g.id, rfl⟩
      · rcases ih with ⟨t, ht, heq⟩ | ⟨e, he, previous, heq⟩
        · refine .inl ⟨t, ht.imp_right ?_, heq⟩
          rintro ⟨e, he, rfl⟩
          exact ⟨e, List.mem_cons_of_mem _ he, rfl⟩
        · exact .inr ⟨e, List.mem_cons_of_mem _ he, previous, heq⟩

theorem not_isHtml_of_endsScope {n : ElementName} (h : n.endsScope = false) :
    n.isHtml ["template"] = false ∧ n.isHtml ["table"] = false := by
  rw [ElementName.endsScope, Bool.or_eq_false_iff, Bool.or_eq_false_iff] at h
  exact ⟨isHtml_of_subset h.1.1 (by simp), isHtml_of_subset h.1.1 (by simp)⟩

theorem isHtml_of_formattingTags {n : ElementName} (hname : n.name ∈ formattingTags) :
    n.isHtml ("template" :: "table" :: outerNames) = false := by
  have hall : ∀ name ∈ formattingTags,
      ("template" :: "table" :: outerNames).contains name = false := by decide
  rw [ElementName.isHtml, hall _ hname, Bool.and_false]

/-- Elements that are no templates and no tables do not decide where a piece goes. -/
theorem fosterPlace_append {later earlier : List Handle} (hearlier : earlier ≠ [])
    (hlater : ∀ e ∈ later, e.name.isHtml ["template"] = false ∧ e.name.isHtml ["table"] = false) :
    fosterPlace (later ++ earlier) = fosterPlace earlier := by
  induction later with
  | nil => rfl
  | cons e later ih =>
    obtain ⟨⟨htemplate, htable⟩, hlater⟩ := List.forall_mem_cons.mp hlater
    obtain ⟨g, rest, hrest⟩ := List.exists_cons_of_ne_nil
      (List.append_ne_nil_of_right_ne_nil later hearlier)
    rw [List.cons_append, hrest, fosterPlace, htemplate, htable, ← hrest]
    exact ih hlater

/-- Pieces that are put among what is open in the template change one list of children there. -/
theorem putAt_outer {b : Builder} {contents : List Node} {handles : List Handle} {next : NodeId}
    (hroot : b.root = Node.within outerFrames (.document 4 contents))
    (held : Held (.document 4 contents) 4 next handles)
    (hids : ∀ j ∈ (Node.document 4 contents).ids, 4 ≤ j) {place : Place}
    (hplace : (∃ t, (t = 4 ∨ ∃ h ∈ handles, t = h.inside) ∧ place = .inside t) ∨
      ∃ h ∈ handles, ∃ previous, place = .beforeTable h.id previous) (p : Piece) :
    ∃ (t : NodeId) (i : List Node → Nat) (contents' : List Node),
      IsTarget (.document 4 contents) 4 handles t ∧
      (Node.document 4 contents).mapChildren t (fun cs => p.insertAt (i cs) cs) =
        .document 4 contents' ∧
      b.putAt p place = { b with root := Node.within outerFrames (.document 4 contents') } := by
  obtain ⟨rank, docs, held⟩ := held
  rcases hplace with ⟨t, ht, rfl⟩ | ⟨h, hh, previous, rfl⟩
  · have htarget : IsTarget (.document 4 contents) 4 handles t :=
      ht.imp_right fun ⟨h, hh, heq⟩ => ⟨h, hh, .inl heq⟩
    refine ⟨t, List.length, _, htarget, rfl, ?_⟩
    rw [putAt, Node.append, hroot,
      Node.mapChildren_within (not_mem_outer (hids t (held.target_mem htarget)))]
    rfl
  · have hid := held.id_mem h hh
    have htop : (Node.document 4 contents).id? ≠ some h.id :=
      fun heq => held.ne_top hh (Option.some.inj heq).symm
    obtain ⟨parent, i, hlocate, hparent⟩ := Node.exists_locate? held.nodup hid htop
    refine ⟨parent, fun _ => i, _, .inr ⟨h, hh, .inr ⟨i, hlocate⟩⟩, rfl, ?_⟩
    have hlocate' : b.root.locate? h.id = some (parent, i) := by
      rw [hroot, Node.locate?_within (not_mem_outer (hids _ hid)) htop, hlocate]
    rw [putAt, hlocate', putBefore, Node.insertBefore?, hlocate']
    simp only [Option.isSome_some, if_true, Option.map_some]
    rw [hroot, Node.mapChildren_within (not_mem_outer (hids parent hparent))]
    rfl

theorem placeFor_outer {b : Builder} {handles : List Handle} {target : Handle}
    (hfoster : fosterPlace b.stack = fosterPlace (handles ++ outerHandles))
    (htarget : target = wrapperHandle ∨ target ∈ handles) :
    (∃ t, (t = 4 ∨ ∃ h ∈ handles, t = h.inside) ∧ b.placeFor target = .inside t) ∨
      ∃ h ∈ handles, ∃ previous, b.placeFor target = .beforeTable h.id previous := by
  rw [placeFor]
  split
  · rw [hfoster]
    exact fosterPlace_outer handles
  · refine .inl ⟨target.inside, ?_, rfl⟩
    rcases htarget with rfl | htarget
    · exact .inl rfl
    · exact .inr ⟨target, htarget, rfl⟩

theorem exists_current (handles : List Handle) :
    ∃ target rest, handles ++ outerHandles = target :: rest ∧
      (target = wrapperHandle ∨ target ∈ handles) := by
  cases handles with
  | nil => exact ⟨_, _, rfl, .inl rfl⟩
  | cons g handles => exact ⟨_, _, rfl, .inr List.mem_cons_self⟩

theorem put_outer {b : Builder} {contents : List Node} {handles : List Handle} {next : NodeId}
    (hroot : b.root = Node.within outerFrames (.document 4 contents))
    (hstack : b.stack = handles ++ outerHandles)
    (held : Held (.document 4 contents) 4 next handles)
    (hids : ∀ j ∈ (Node.document 4 contents).ids, 4 ≤ j) (p : Piece) :
    ∃ (t : NodeId) (i : List Node → Nat) (contents' : List Node),
      IsTarget (.document 4 contents) 4 handles t ∧
      (Node.document 4 contents).mapChildren t (fun cs => p.insertAt (i cs) cs) =
        .document 4 contents' ∧
      b.put p = { b with root := Node.within outerFrames (.document 4 contents') } := by
  obtain ⟨target, rest, hcurrent, htarget⟩ := exists_current handles
  rw [← hstack] at hcurrent
  have hplace := placeFor_outer (congrArg fosterPlace hstack) htarget
  obtain ⟨t, i, contents', ht, hcontents, heq⟩ := putAt_outer hroot held hids hplace p
  refine ⟨t, i, contents', ht, hcontents, ?_⟩
  rw [← heq, put, hcurrent]

namespace OpenWith

variable {contents : List Node} {above : List Handle} {b b' : Builder}

/-! ### Closing elements -/

theorem five_le_next (h : OpenWith contents above b) : 5 ≤ b.nextId := by
  obtain ⟨rank, docs, held⟩ := h.held
  exact held.lt_next 4 held.top_mem

/-- **A template that has just been closed is sealed.** -/
theorem toSealed (h : OpenWith contents above b) {stack : List Handle}
    (hsub : stack.Sublist [headHandle, htmlHandle]) :
    Sealed b.nextId contents { b with stack } := by
  obtain ⟨rank, docs, held⟩ := h.held
  have hcontents : ∀ j ∈ Node.idsAll contents, 5 ≤ j ∧ j < b.nextId := by
    intro j hj
    have hne : j ≠ 4 := fun heq => (List.nodup_cons.mp held.nodup).1 (heq ▸ hj)
    have hmem := List.mem_cons_of_mem 4 hj
    exact ⟨Nat.lt_of_le_of_ne (h.le_ids j hmem) hne.symm, held.lt_next j hmem⟩
  have hfree : ∀ g ∈ stack, g.IsFree b.nextId := by
    intro g hg
    rcases List.mem_pair.mp (hsub.subset hg) with rfl | rfl
    · exact .inl rfl
    · exact .inr (.inl rfl)
  refine ⟨{
    trail := ?_
    five_le := h.five_le_next
    lt_n := hcontents
    le_next := Nat.le_refl _
    free := hfree
    head := fun g hg => .inl (Option.some.inj (h.head.symm.trans hg)).symm
    remembered := h.remembered
    content := h.content
    failed := h.failed }, [], stack, rfl, by simp, hsub⟩
  show Node.Trail _ _ _ b.root
  rw [h.root_eq]
  have hnone : ∀ j ∈ Node.idsAll [], b.nextId ≤ j := fun j hj => absurd hj List.not_mem_nil
  exact ⟨rfl, _, [], rfl, hnone, rfl, _, [], rfl, hnone, rfl, _, [], rfl, hnone, rfl⟩

/-- Elements in the template may be closed. -/
theorem sublist (h : OpenWith contents above b) {above' : List Handle}
    (hsub : above'.Sublist above) :
    OpenWith contents above' { b with stack := above' ++ outerHandles } := by
  obtain ⟨rank, docs, held⟩ := h.held
  exact { h with
    stack_eq := rfl
    held := ⟨rank, docs, held.sublist hsub⟩
    names := fun g hg => h.names g (hsub.subset hg) }

theorem drop (h : OpenWith contents above b) {stack : List Handle} (hsuffix : stack <:+ b.stack) :
    InFragment { b with stack } := by
  obtain ⟨closed, hclosed⟩ := hsuffix
  rw [h.stack_eq] at hclosed
  rcases List.append_eq_append_iff.mp hclosed with ⟨kept, rfl, rfl⟩ | ⟨outer, rfl, houter⟩
  · exact .inl ⟨contents, kept, h.sublist (List.sublist_append_right _ _)⟩
  · cases outer with
    | nil =>
      obtain rfl : outerHandles = stack := houter
      exact .inl ⟨contents, [], h.sublist (List.nil_sublist _)⟩
    | cons g outer =>
      obtain ⟨-, hrest⟩ := List.cons.inj houter
      refine .inr ⟨b.nextId, contents, h.toSealed ?_⟩
      exact hrest ▸ List.sublist_append_right outer stack

theorem isOpen (h : OpenWith contents above b) : b.isOpen "template" = true := by
  rw [Builder.isOpen, h.stack_eq, List.any_eq_true]
  exact ⟨wrapperHandle, by simp [outerHandles], by decide⟩

theorem close (h : OpenWith contents above b) {g : Handle} (hg : 5 ≤ g.id) :
    Open (b.close g) := by
  have houter : outerHandles.filter (·.id != g.id) = outerHandles := by
    rw [List.filter_eq_self]
    intro e he
    have hlt : ∀ e ∈ outerHandles, e.id < 5 := by decide
    exact bne_iff_ne.mpr (Nat.ne_of_lt (Nat.lt_of_lt_of_le (hlt e he) hg))
  refine ⟨contents, above.filter (·.id != g.id), ?_⟩
  have hclosed := h.sublist (List.filter_sublist (l := above) (p := (·.id != g.id)))
  rw [Builder.close, h.stack_eq, List.filter_append, houter]
  exact hclosed

/-! ### Putting something in -/

theorem put (h : OpenWith contents above b) {p : Piece} (hp : p.Fits) (hids : p.ids = []) :
    Open (b.put p) := by
  obtain ⟨t, i, contents', ht, hcontents, heq⟩ :=
    put_outer h.root_eq h.stack_eq h.held h.le_ids p
  have hheld := h.held.put ht hp hids i
  have hle := Node.le_ids_mapChildren (t := t)
    (Node.keepsNew_insertAt (n := 4) (p := p) (by simp [hids]) i) _ h.le_ids
  rw [hcontents] at hheld hle
  rw [heq]
  exact ⟨contents', above, { h with root_eq := rfl, held := hheld, le_ids := hle }⟩

/-- A new element is in the template, whether it is left open or not. -/
theorem pushElement (h : OpenWith contents above b) {space : Namespace} {t : Tag}
    (ht : space = .html → t.name ∉ outerNames) :
    ∃ contents', OpenWith contents' (newHandle b.nextId ⟨space, t.name⟩ :: above)
        (b.pushElement space t).2 ∧ OpenWith contents' above (b.putElement space t).2 := by
  let next := nextAfter b.nextId ⟨space, t.name⟩
  let node := Node.element b.nextId ⟨space, t.name⟩ t.attributes
    (newChildren b.nextId ⟨space, t.name⟩)
  obtain ⟨target, i, contents', htarget, hcontents, heq⟩ :=
    put_outer (b := { b with nextId := next }) h.root_eq h.stack_eq h.held h.le_ids (.node node)
  have hheld := h.held.create htarget ⟨space, t.name⟩ t.attributes i
  have hnode : ∀ j ∈ (Piece.node node).ids, 4 ≤ j := fun j hj =>
    Nat.le_trans (Nat.le_of_succ_le h.five_le_next) (le_ids_new t.attributes hj)
  have hle := Node.le_ids_mapChildren (t := target) (Node.keepsNew_insertAt hnode i) _ h.le_ids
  rw [hcontents] at hheld hle
  have hname : (newHandle b.nextId ⟨space, t.name⟩).name.isHtml outerNames = false := by
    rw [newHandle_name, ElementName.isHtml, Bool.and_eq_false_imp]
    intro hspace
    exact Bool.eq_false_iff.mpr fun hmem => ht (beq_iff_eq.mp hspace) (List.contains_iff_mem.mp hmem)
  obtain ⟨rank, docs, held⟩ := hheld
  have hput : OpenWith contents' above (b.putElement space t).2 := by
    rw [putElement_eq, heq]
    exact { h with
      root_eq := rfl
      held := ⟨rank, docs, held.sublist (List.sublist_cons_self _ _)⟩
      le_ids := hle }
  refine ⟨contents', ?_, hput⟩
  rw [pushElement_eq]
  rw [putElement_eq, heq] at hput ⊢
  exact { hput with
    stack_eq := congrArg (_ :: ·) h.stack_eq
    held := ⟨rank, docs, held⟩
    names := List.forall_mem_cons.mpr ⟨hname, h.names⟩ }

/-- **A block that is taken out of a formatting element** stays in the template. -/
theorem rescue {handles : List Handle} (h : OpenWith contents handles b) {g g' block block' : Handle}
    {tag : Tag} {above between below : List Handle} (htag : Remembered g tag)
    (hstack : b.stack = (above ++ block' :: between) ++ g' :: below) (hid : g'.id = g.id)
    (hblock : block ∈ above ++ block' :: between) (hblock' : block'.id = block.id)
    (hscope : ∀ e ∈ above ++ block' :: between, e.name.endsScope = false) :
    Open (b.rescue g tag above block between below) := by
  have hbottom : g' ∉ outerHandles := by
    intro hmem
    have hlow : ∀ e ∈ outerHandles, e.id < 5 := by decide
    exact Nat.not_lt.mpr htag.1 (hid ▸ hlow g' hmem)
  obtain ⟨rest, rfl, rfl⟩ := exists_bottom (hstack.symm.trans h.stack_eq) hbottom
  obtain rfl : block' = block := h.held.eq_of_id_eq (by simp)
    (List.mem_append_left _ hblock) hblock'
  have hheld : Held (.document 4 contents) 4 b.nextId
      (above ++ block' :: (between ++ g' :: rest)) := by
    simpa using h.held
  obtain ⟨next, formatting, kept, moved, bookmark, hmade, hle, hkept, hknown, heq⟩ :=
    rescue_eq b above block' between (rest ++ outerHandles) h.five_le_next htag h.remembered
  -- The block is taken out of the template's contents.
  obtain ⟨rank, docs, hby⟩ := id hheld
  have hmem := hby.id_mem block' (by simp)
  have htop : (Node.document 4 contents).id? ≠ some block'.id :=
    fun heq => hby.ne_top (g := block') (by simp) (Option.some.inj heq).symm
  have hout : ∀ j ∈ (Node.document 4 contents).ids, j ∉ Node.pathIds outerFrames :=
    fun j hj => not_mem_outer (h.le_ids j hj)
  rw [h.root_eq, Node.find?_within (hout _ hmem)] at hmade
  obtain ⟨contents₁, hremove⟩ : ∃ contents₁,
      (Node.document 4 contents).remove block'.id = .document 4 contents₁ := by
    rw [Node.remove]
    split <;> exact ⟨_, rfl⟩
  have hroot : b.root.remove block'.id = Node.within outerFrames (.document 4 contents₁) := by
    rw [h.root_eq, Node.remove_within_of_mem hout hmem htop, hremove]
  have hle₁ : ∀ j ∈ (Node.document 4 contents₁).ids, 4 ≤ j :=
    hremove ▸ Node.le_ids_remove h.le_ids _
  obtain ⟨moved₀, hfind, -, -, -, -, hearlier⟩ := hby.detach
  have hrest : Held (.document 4 contents₁) 4 b.nextId rest := by
    rw [hremove] at hearlier
    exact ⟨rank, docs, hearlier.sublist
      ((List.sublist_cons_self _ _).trans (List.sublist_append_right _ _))⟩
  -- It is put back where the element opened before the formatting element wants it.
  set c := b.detached g above block' (rest ++ outerHandles) next formatting kept with hc
  have hfoster : fosterPlace c.stack = fosterPlace (rest ++ outerHandles) := by
    have hstack : c.stack = (above ++ block' :: (kept ++ [g])) ++ (rest ++ outerHandles) := by
      simp [hc, detached]
    rw [hstack]
    refine fosterPlace_append (List.append_ne_nil_of_right_ne_nil _ (by decide)) fun e he => ?_
    have hformatting (hname : e.name.name ∈ formattingTags) :
        e.name.isHtml ["template"] = false ∧ e.name.isHtml ["table"] = false :=
      have hplain := isHtml_of_formattingTags hname
      ⟨isHtml_of_subset hplain (by simp), isHtml_of_subset hplain (by simp)⟩
    simp only [List.mem_append, List.mem_cons, List.not_mem_nil, or_false] at he
    rcases he with he | rfl | he | rfl
    · exact not_isHtml_of_endsScope (hscope e (by simp [he]))
    · exact not_isHtml_of_endsScope (hscope e (by simp))
    · exact hformatting (hkept e he).2.2.2
    · exact hformatting (by rw [htag.2.2.1]; exact htag.2.2.2)
  obtain ⟨ancestor, tail, hbelow, hancestor⟩ := exists_current rest
  obtain ⟨t, i, contents₂, ht, hcontents₂, hput⟩ :=
    putAt_outer (b := c) hroot hrest hle₁ (placeFor_outer hfoster hancestor) (.node moved)
  have hreattached : c.reattached moved (rest ++ outerHandles) =
      { c with root := Node.within outerFrames (.document 4 contents₂) } := by
    rw [hbelow]
    exact hput
  have hback := hheld.putBack hmade (t := t) (hremove ▸ ht) i
  rw [hremove, hcontents₂] at hback
  -- A new formatting element goes around all that is in it.
  let new : Handle := ⟨next, ⟨.html, tag.name⟩, next⟩
  have hwrapped := hback.wrapChildren (not_isHtml_of_endsScope (hscope block' (by simp))).1
    new.name tag.attributes
  obtain ⟨contents₃, hcontents₃⟩ : ∃ contents₃, (Node.document 4 contents₂).mapChildren block'.id
      (fun cs => [.element next new.name tag.attributes cs]) = .document 4 contents₃ := ⟨_, rfl⟩
  have hnext : 4 ≤ next := Nat.le_trans (Nat.le_of_succ_le h.five_le_next) hle
  have hle₂ : ∀ j ∈ (Node.document 4 contents₂).ids, 4 ≤ j := by
    rw [← hcontents₂]
    refine Node.le_ids_mapChildren (Node.keepsNew_insertAt ?_ i) _ hle₁
    refine hmade.le_ids (Nat.le_of_succ_le h.five_le_next) ?_
    rw [hfind]
    exact fun j hj => h.le_ids j (Node.ids_subset_of_find? _ hfind hj)
  have hle₃ : ∀ j ∈ (Node.document 4 contents₃).ids, 4 ≤ j := by
    rw [← hcontents₃]
    refine Node.le_ids_mapChildren (fun cs hcs => ?_) _ hle₂
    simp only [Node.idsAll, Node.ids, List.append_nil, List.forall_mem_cons]
    exact ⟨hnext, hcs⟩
  rw [hcontents₃] at hwrapped
  have hnew : Remembered new tag := ⟨Nat.le_trans h.five_le_next hle, rfl, rfl, htag.2.2.2⟩
  have hnames : ∀ e ∈ above ++ new :: block' :: (kept ++ rest), e.name.isHtml outerNames = false := by
    intro e he
    simp only [List.mem_append, List.mem_cons] at he
    rcases he with he | rfl | rfl | he | he
    · exact h.names e (by simp [he])
    · exact isHtml_of_subset (isHtml_of_formattingTags htag.2.2.2) (by simp)
    · exact h.names e (by simp)
    · exact isHtml_of_subset (isHtml_of_formattingTags (hkept e he).2.2.2) (by simp)
    · exact h.names e (by simp [he])
  refine ⟨contents₃, above ++ new :: block' :: (kept ++ rest), ?_⟩
  rw [heq, hreattached]
  exact { h with
    root_eq := by
      show (Node.within outerFrames (.document 4 contents₂)).mapChildren block'.id _ = _
      rw [Node.mapChildren_within (hout _ hmem), ← hcontents₃]
      rfl
    stack_eq := by simp [refilled, hc, detached, new]
    held := hwrapped
    le_ids := hle₃
    names := hnames
    remembered := remembered_placeFormatting hnew hknown }

/-! ### Modes -/

theorem ne_inText {mode : Mode} (h : mode ∈ contentModes) : mode ≠ .inText := by
  rintro rfl
  exact absurd h (by decide)

theorem selectMode_mem (handles : List Handle) : selectMode handles ∈ contentModes := by
  induction handles with
  | nil => decide
  | cons h rest ih =>
    rw [selectMode]
    split
    · decide
    · split
      · decide
      · exact ih

/-- The mode that an open template asks for is one for content. -/
theorem modeFor_mem {b : Builder} (hmodes : ∀ m ∈ b.templateModes, m ∈ contentModes)
    (hnames : ∀ h ∈ above, h.name.isHtml outerNames = false) :
    b.modeFor (above ++ outerHandles) ∈ contentModes := by
  have htemplate : b.templateModes.head?.getD .inBody ∈ contentModes := by
    cases hhead : b.templateModes.head? with
    | none => decide
    | some m => exact hmodes m (List.mem_of_head? hhead)
  induction above with
  | nil => exact htemplate
  | cons h rest ih =>
    obtain ⟨hname, hrest⟩ := List.forall_mem_cons.mp hnames
    have hbelow : (rest ++ outerHandles).isEmpty = false := by
      cases rest <;> rfl
    rw [List.cons_append, modeFor, hbelow]
    split
    · exact ih hrest
    next hspace =>
      have hplain (name : String) (hmem : name ∈ outerNames) : h.name.name ≠ name := by
        intro heq
        rw [ElementName.isHtml, Bool.and_eq_false_imp] at hname
        have hspace : (h.name.space == .html) = true := by simpa using hspace
        exact Bool.eq_false_iff.mp (hname hspace) (List.contains_iff_mem.mpr (heq ▸ hmem))
      simp only [Bool.false_eq_true, if_false]
      split
      case h_1 => exact selectMode_mem _
      case h_11 => exact htemplate
      all_goals first
        | decide
        | exact ih hrest
        | exact absurd ‹_› (hplain _ (by decide))

theorem reset (h : OpenWith contents above b) : OpenWith contents above b.resetMode := by
  have hmode : b.modeFor b.stack ∈ contentModes := h.stack_eq ▸ modeFor_mem h.templateModes h.names
  exact { h with
    mode := List.mem_cons_of_mem _ hmode
    returnMode := fun heq => absurd heq (ne_inText hmode) }

/-- No body is in reach inside a template. -/
theorem not_inScope_body (h : OpenWith contents above b) :
    b.inScope ElementName.endsScope ["body"] = false := by
  have hreaches : ∀ above : List Handle, (∀ g ∈ above, g.name.isHtml outerNames = false) →
      reaches ElementName.endsScope (·.name.isHtml ["body"]) (above ++ outerHandles) = false := by
    intro above hnames
    induction above with
    | nil => decide
    | cons g rest ih =>
      obtain ⟨hname, hrest⟩ := List.forall_mem_cons.mp hnames
      rw [List.cons_append, reaches, isHtml_of_subset hname (by decide), ih hrest, Bool.and_false]
      rfl
  rw [inScope, h.stack_eq]
  exact hreaches above h.names

theorem framesetStart (h : OpenWith contents above b) (t : Tag) : b.framesetStart t = b := by
  have hbody : b.body? = none := by
    rw [body?, h.stack_eq, List.reverse_append]
    rfl
  rw [Builder.framesetStart, hbody]

end OpenWith

/-- **An open template grows**: what is opened or put into the tree is put into the template. -/
theorem growing_open : Growing Open Remembered where
  known := fun ⟨_, _, h⟩ he => h.remembered _ _ he
  name_mem h := h.2.2.2
  tune _ _ _ _ _ _ := fun ⟨contents, above, h⟩ => ⟨contents, above, { h with }⟩
  isKnown := fun ⟨_, _, h⟩ => h.content
  readAs := fun ⟨contents, above, h⟩ hcontent => ⟨contents, above, { h with content := hcontent }⟩
  note := fun ⟨contents, above, h⟩ hknown => ⟨contents, above, { h with remembered := hknown }⟩
  put := fun ⟨_, _, h⟩ hp hids => h.put hp hids
  putElement := fun ⟨_, above, h⟩ ht => by
    obtain ⟨contents', -, hput⟩ := h.pushElement ht
    exact ⟨contents', above, hput⟩
  pushElement := fun ⟨_, _, h⟩ ht => by
    obtain ⟨contents', hpush, -⟩ := h.pushElement ht
    exact ⟨contents', _, hpush⟩
  fresh := fun ⟨_, _, h⟩ ht => by
    rw [pushElement_eq]
    exact remembered_newHandle h.five_le_next ht

theorem growing_inFragment : Growing InFragment Remembered where
  known h he := by
    rcases h with h | ⟨n, contents, h⟩
    · exact growing_open.known h he
    · exact h.remembered _ _ he
  name_mem h := h.2.2.2
  tune tableText form framesetOk dropNewline fostering oldLayout h :=
    h.imp (growing_open.tune tableText form framesetOk dropNewline fostering oldLayout)
      fun ⟨n, contents, h⟩ => ⟨n, contents, { h with }⟩
  isKnown h := by
    rcases h with h | ⟨n, contents, h⟩
    · exact growing_open.isKnown h
    · exact h.content
  readAs h hcontent := h.imp (growing_open.readAs · hcontent)
    fun ⟨n, contents, h⟩ => ⟨n, contents, { h with content := hcontent }⟩
  note h hknown := h.imp (growing_open.note · hknown)
    fun ⟨n, contents, h⟩ => ⟨n, contents, { h with remembered := hknown }⟩
  put h hp hids := h.imp (growing_open.put · hp hids)
    fun ⟨n, contents, h⟩ => ⟨n, contents, (stable_sealed n contents).put h hp hids⟩
  putElement h ht := h.imp (growing_open.putElement · ht)
    fun ⟨n, contents, h⟩ => ⟨n, contents, h.putElement _ _⟩
  pushElement h ht := h.imp (growing_open.pushElement · ht)
    fun ⟨n, contents, h⟩ => ⟨n, contents, h.pushElement _ _⟩
  fresh h ht := by
    rcases h with h | ⟨n, contents, h⟩
    · exact growing_open.fresh h ht
    · exact (stable_sealed n contents).fresh h ht

/-- **That a fragment is being read is stable.** -/
theorem stable_inFragment : Stable InFragment Remembered where
  toGrowing := growing_inFragment
  drop h hsuffix := by
    rcases h with ⟨contents, above, h⟩ | ⟨n, contents, h⟩
    · exact h.drop hsuffix
    · exact .inr ⟨n, contents, (stable_sealed n contents).drop h hsuffix⟩
  close h hclose := by
    rcases h with ⟨contents, above, h⟩ | ⟨n, contents, h⟩
    · rcases hclose with ⟨t, ht⟩ | hopen
      · exact .inl (h.close ht.1)
      · exact absurd (h.isOpen.symm.trans hopen) (by decide)
    · exact .inr ⟨n, contents, (stable_sealed n contents).close h hclose⟩
  goTo h hmode := by
    rcases h with ⟨contents, above, h⟩ | ⟨n, contents, h⟩
    · exact .inl ⟨contents, above, { h with
        mode := List.mem_cons_of_mem _ hmode
        returnMode := fun heq => absurd heq (OpenWith.ne_inText hmode) }⟩
    · exact .inr ⟨n, contents, { h with }⟩
  goBack {b} h hmode := by
    rcases h with ⟨contents, above, h⟩ | ⟨n, contents, h⟩
    · have hreturn : b.returnMode ∈ .inText :: contentModes := by
        rcases hmode with hmode | hmode
        · exact h.returnMode hmode
        · exact absurd (hmode ▸ h.mode) (by decide)
      exact .inl ⟨contents, above, { h with mode := hreturn, returnMode := fun _ => hreturn }⟩
    · exact .inr ⟨n, contents, { h with }⟩
  keepMode h := by
    rcases h with ⟨contents, above, h⟩ | ⟨n, contents, h⟩
    · exact .inl ⟨contents, above, { h with returnMode := fun _ => h.mode }⟩
    · exact .inr ⟨n, contents, { h with }⟩
  goToText h := by
    rcases h with ⟨contents, above, h⟩ | ⟨n, contents, h⟩
    · exact .inl ⟨contents, above, { h with
        mode := List.mem_cons_self
        returnMode := fun _ => h.mode }⟩
    · exact .inr ⟨n, contents, { h with }⟩
  setTemplateModes h hmodes := by
    rcases h with ⟨contents, above, h⟩ | ⟨n, contents, h⟩
    · exact .inl ⟨contents, above, { h with
        templateModes := fun m hm => (hmodes m hm).elim (h.templateModes m) id }⟩
    · exact .inr ⟨n, contents, { h with }⟩
  reset h := by
    rcases h with ⟨contents, above, h⟩ | ⟨n, contents, h⟩
    · exact .inl ⟨contents, above, h.reset⟩
    · exact .inr ⟨n, contents, { h with }⟩
  leaveBody h hscope := by
    rcases h with ⟨contents, above, h⟩ | ⟨n, contents, h⟩
    · exact absurd (h.not_inScope_body.symm.trans hscope) (by decide)
    · exact .inr ⟨n, contents, { h with }⟩
  rescue h htag hstack hid hblock hblock' hscope := by
    rcases h with ⟨contents, above, h⟩ | ⟨n, contents, h⟩
    · exact .inl (h.rescue htag hstack hid hblock hblock' hscope)
    · exact .inr ⟨n, contents, h.rescue htag hstack hid hblock⟩
  addAttributes h hg hopen := by
    rcases h with ⟨contents, above, h⟩ | ⟨n, contents, h⟩
    · exact absurd (h.isOpen.symm.trans hopen) (by decide)
    · exact .inr ⟨n, contents, (stable_sealed n contents).addAttributes h hg hopen⟩
  framesetStart h := by
    rcases h with ⟨contents, above, h⟩ | ⟨n, contents, h⟩
    · rw [h.framesetStart]
      exact .inl ⟨contents, above, h⟩
    · exact .inr ⟨n, contents, h.framesetStart _⟩
  acceptDoctype h := by
    rcases h with ⟨contents, above, h⟩ | ⟨n, contents, h⟩
    · rw [acceptDoctype, if_neg fun heq => absurd (heq ▸ h.mode) (by decide)]
      exact .inl ⟨contents, above, h⟩
    · exact .inr ⟨n, contents, h.acceptDoctype _⟩

/-- While a template is open, only rules for content are in force. -/
theorem inFragment_keptOutside : Stable.KeptOutside InFragment := by
  intro b t h houtside
  rcases h with ⟨contents, above, h⟩ | ⟨n, contents, h⟩
  · refine absurd ?_ houtside
    rcases List.mem_cons.mp h.mode with hmode | hmode
    · exact hmode ▸ List.mem_cons_self
    · exact List.mem_cons_of_mem _ (List.mem_cons_of_mem _ hmode)
  · exact .inr ⟨n, contents, Sealed.keptOutside n contents b t h houtside⟩

end TerseMarkup.Html
