import TerseMarkup.Proofs.Html.Construction.Rescue
import TerseMarkup.Proofs.Html.Construction.Rules
import TerseMarkup.Proofs.Html.Trail

/-! A template that has been closed stays as it is.

Of the template that a fragment is read in, construction has no open element left once the template
has been closed, and no formatting element that is still in use stands in it. All later edits are of
newer nodes, of the head or of what is around it, so what is in the template at its end is what will
be in it when the text ends. -/
namespace TerseMarkup.Html
open Builder

/-- The template that a fragment is read in, with its contents. -/
def wrapper (contents : List Node) : Node :=
  .element 3 ⟨.html, "template"⟩ [] [.document 4 contents]

def htmlHandle : Handle := ⟨1, ⟨.html, "html"⟩, 1⟩

def headHandle : Handle := ⟨2, ⟨.html, "head"⟩, 2⟩

/-- The nodes that the template stands in, from the document inwards. -/
def wrapperTrail : List (NodeId × Option ElementName) :=
  [(0, none), (1, some htmlHandle.name), (2, some headHandle.name)]

/-- An open element that is newer than all that the template holds, or the head, or the outermost
element. -/
def Handle.IsFree (n : NodeId) (h : Handle) : Prop :=
  h = headHandle ∨ h = htmlHandle ∨ n ≤ h.id ∧ n ≤ h.inside

/-- The template has been closed with these contents, whose identities are below `n`; all later
nodes have others. -/
structure Shut (n : NodeId) (contents : List Node) (b : Builder) : Prop where
  trail : Node.Trail n (wrapper contents) wrapperTrail b.root
  five_le : 5 ≤ n
  lt_n : ∀ j ∈ Node.idsAll contents, 5 ≤ j ∧ j < n
  le_next : n ≤ b.nextId
  free : ∀ h ∈ b.stack, h.IsFree n
  head : ∀ h, b.head = some h → h.IsFree n
  remembered : ∀ h t, .element h t ∈ b.formatting → Remembered h t
  content : b.content.IsKnown
  failed : b.failed = false

/-- Moreover the head and the outermost element are not open inside any other. -/
structure Sealed (n : NodeId) (contents : List Node) (b : Builder) : Prop extends
    Shut n contents b where
  ordered : ∃ above base, b.stack = above ++ base ∧ (∀ h ∈ above, n ≤ h.id ∧ n ≤ h.inside) ∧
    base.Sublist [headHandle, htmlHandle]

namespace Shut

variable {n : NodeId} {contents : List Node} {b : Builder}

theorem wrapper_lt (h : Shut n contents b) : ∀ j ∈ (wrapper contents).ids, j < n := by
  have hle := h.five_le
  simp only [wrapper, Node.ids, Node.idsAll, List.append_nil, List.forall_mem_cons]
  exact ⟨Nat.lt_of_lt_of_le (by decide) hle, Nat.lt_of_lt_of_le (by decide) hle,
    fun j hj => (h.lt_n j hj).2⟩

theorem trail_lt (h : Shut n contents b) : ∀ j ∈ wrapperTrail.map Prod.fst, j < n := by
  intro j hj
  have hlt : ∀ j ∈ wrapperTrail.map Prod.fst, j < 5 := by decide
  exact Nat.lt_of_lt_of_le (hlt j hj) h.five_le

theorem trail_apart (h : Shut n contents b) :
    ∀ j ∈ wrapperTrail.map Prod.fst, j ∉ (wrapper contents).ids := by
  intro j hj hmem
  have hlt : ∀ j ∈ wrapperTrail.map Prod.fst, j < 3 := by decide
  simp only [wrapper, Node.ids, Node.idsAll, List.append_nil, List.mem_cons] at hmem
  rcases hmem with rfl | rfl | hmem
  · exact absurd (hlt _ hj) (by decide)
  · exact absurd (hlt _ hj) (by decide)
  · exact absurd (hlt _ hj) (Nat.not_lt.mpr (Nat.le_trans (by decide) (h.lt_n j hmem).1))

/-- A node that may be edited: a new one, or one of those that the template stands in. -/
def IsEditable (n t : NodeId) : Prop := n ≤ t ∨ t ∈ wrapperTrail.map Prod.fst

theorem not_mem_of_isEditable (h : Shut n contents b) {t : NodeId} (ht : IsEditable n t) :
    t ∉ (wrapper contents).ids := by
  rcases ht with hle | hmem
  · exact fun hmem => Nat.not_lt.mpr hle (h.wrapper_lt t hmem)
  · exact h.trail_apart t hmem

theorem isEditable_of_isFree {g : Handle} (hg : g.IsFree n) :
    IsEditable n g.id ∧ IsEditable n g.inside := by
  rcases hg with rfl | rfl | ⟨hid, hinside⟩
  · exact ⟨.inr (by decide), .inr (by decide)⟩
  · exact ⟨.inr (by decide), .inr (by decide)⟩
  · exact ⟨.inl hid, .inl hinside⟩

/-- An edit of the children of a node that is not in the template. -/
theorem edit (h : Shut n contents b) {t : NodeId} (ht : IsEditable n t) {f : List Node → List Node}
    (hnew : Node.KeepsNew n f)
    (hfirst : t ∈ wrapperTrail.map Prod.fst → ∀ first, first.id?.isSome → Node.KeepsFirst n first f) :
    Shut n contents { b with root := b.root.mapChildren t f } :=
  { h with trail := h.trail.mapChildren (h.not_mem_of_isEditable ht) hnew hfirst rfl }

theorem putAt_inside (h : Shut n contents b) {p : Piece} (hids : ∀ j ∈ p.ids, n ≤ j)
    {t : NodeId} (ht : IsEditable n t) : Shut n contents (b.putAt p (.inside t)) :=
  h.edit ht (Node.keepsNew_insertAt hids _) fun _ _ hfirst =>
    Node.keepsFirst_insertAt hids hfirst fun _ => Nat.succ_le_succ (Nat.zero_le _)

theorem putAt_beforeTable (h : Shut n contents b) {p : Piece} (hids : ∀ j ∈ p.ids, n ≤ j) {table previous : NodeId} (htable : n ≤ table)
    (hprevious : IsEditable n previous) :
    Shut n contents (b.putAt p (.beforeTable table previous)) := by
  rw [putAt]
  split
  next hsome =>
    obtain ⟨⟨parent, i⟩, hlocate⟩ := Option.isSome_iff_exists.mp hsome
    rw [putBefore, Node.insertBefore?, hlocate]
    have hparent := h.trail.locate? h.wrapper_lt h.trail_lt htable hlocate
    refine h.edit (hparent.imp_right And.left) (Node.keepsNew_insertAt hids fun _ => i) ?_
    intro hmem first hfirst
    refine Node.keepsFirst_insertAt hids hfirst fun _ => ?_
    rcases hparent with hle | ⟨-, hi⟩
    · exact absurd (h.trail_lt parent hmem) (Nat.not_lt.mpr hle)
    · exact hi
  · exact h.putAt_inside hids hprevious

/-- The place that a piece for an open element goes to. -/
theorem putAt_placeFor (h : Shut n contents b) {p : Piece} (hids : ∀ j ∈ p.ids, n ≤ j)
    {target : Handle} (htarget : target.IsFree n) :
    Shut n contents (b.putAt p (b.placeFor target)) := by
  rw [placeFor]
  split
  · rcases fosterPlace_cases b.stack with ⟨t, ht, heq⟩ | ⟨table, hmem, g, hg, hname, heq⟩
    · rw [heq]
      refine h.putAt_inside hids ?_
      rcases ht with rfl | ⟨g, hg, rfl⟩
      · exact .inr (by decide)
      · exact (isEditable_of_isFree (h.free g hg)).2
    · rw [heq]
      refine h.putAt_beforeTable hids ?_ (isEditable_of_isFree (h.free g hg)).1
      rcases h.free table hmem with rfl | rfl | ⟨hid, -⟩
      · exact absurd hname (by decide)
      · exact absurd hname (by decide)
      · exact hid
  · exact h.putAt_inside hids (isEditable_of_isFree htarget).2

theorem put (h : Shut n contents b) {p : Piece} (hids : ∀ j ∈ p.ids, n ≤ j) :
    Shut n contents (b.put p) := by
  rw [Builder.put]
  split
  next g _ hstack => exact h.putAt_placeFor hids (h.free g (by simp [hstack]))
  · exact h.putAt_inside hids (.inr (by decide))

theorem putElement (h : Shut n contents b) (space : Namespace) (t : Tag) :
    Shut n contents (b.putElement space t).2 := by
  rw [putElement_eq]
  refine put (b := { b with nextId := nextAfter b.nextId ⟨space, t.name⟩ })
    { h with le_next := Nat.le_trans h.le_next (le_nextAfter _ _) } fun j hj => ?_
  exact Nat.le_trans h.le_next (le_ids_new t.attributes hj)

theorem isFree_newHandle (h : Shut n contents b) (name : ElementName) :
    (newHandle b.nextId name).IsFree n :=
  .inr (.inr ⟨newHandle_id _ _ ▸ h.le_next, Nat.le_trans h.le_next (le_newHandle_inside _ _)⟩)

theorem pushElement (h : Shut n contents b) (space : Namespace) (t : Tag) :
    Shut n contents (b.pushElement space t).2 := by
  have hput := h.putElement space t
  rw [pushElement_eq]
  exact { hput with
    free := List.forall_mem_cons.mpr ⟨h.isFree_newHandle _, h.free⟩ }

theorem addAttributes (h : Shut n contents b) {g : Handle} (hg : g ∈ b.stack)
    (new : List Attribute) : Shut n contents (b.addAttributes g new) := by
  have hid := h.not_mem_of_isEditable (isEditable_of_isFree (h.free g hg)).1
  exact { h with trail := h.trail.mapAttributes hid _ }

/-- The start tags for which an element is opened for the content of the head, or is put there. -/
theorem headStart (h : Shut n contents b) (t : Tag) : Shut n contents (b.headStart t) ∧
    ((b.headStart t).stack = b.stack ∨
      (b.headStart t).stack = newHandle b.nextId ⟨.html, t.name⟩ :: b.stack) := by
  have hpush := h.pushElement .html t
  have hstack : (b.push t).stack = newHandle b.nextId ⟨.html, t.name⟩ :: b.stack := by
    rw [push, pushElement_eq]
  rw [Builder.headStart]
  split
  case h_2 => exact ⟨{ hpush with content := trivial }, .inr hstack⟩
  case h_6 =>
    refine ⟨{ hpush with remembered := fun g u he => ?_ }, .inr hstack⟩
    rcases List.mem_cons.mp he with he | he
    · cases he
    · exact hpush.remembered g u he
  case h_7 =>
    refine ⟨h.putElement .html t, .inl ?_⟩
    rw [putEmpty, putElement_eq]
    exact stack_put _ _
  all_goals
    next heq =>
      have hraw : t.name ∈ rawNames := heq ▸ by decide
      exact ⟨{ hpush with content := hraw }, .inr hstack⟩

theorem sublist (h : Shut n contents b) {stack : List Handle} (hsub : stack.Sublist b.stack) :
    Shut n contents { b with stack } := { h with free := fun e he => h.free e (hsub.subset he) }

theorem remove (h : Shut n contents b) {t : NodeId} (ht : n ≤ t) :
    Shut n contents { b with root := b.root.remove t } :=
  { h with trail := h.trail.remove h.wrapper_lt rfl h.trail_lt h.trail_apart ht }

/-- A new formatting element around all that is in a new element. -/
theorem refilled (h : Shut n contents b) {tag : Tag} (htag : tag.name ∈ formattingTags)
    {block : Handle} (hblock : n ≤ block.id) {stack : Handle → List Handle}
    {formatting : Handle → List Formatting}
    (hstack : ∀ new, new.IsFree n → ∀ e ∈ stack new, e.IsFree n)
    (hformatting : ∀ new, Remembered new tag → ∀ e t, .element e t ∈ formatting new →
      Remembered e t) : Shut n contents (b.refilled tag block stack formatting) := by
  have hnew : Remembered ⟨b.nextId, ⟨.html, tag.name⟩, b.nextId⟩ tag :=
    ⟨Nat.le_trans h.five_le h.le_next, rfl, rfl, htag⟩
  have hedit : Shut n contents { b with
      root := b.root.mapChildren block.id
        fun cs => [.element b.nextId ⟨.html, tag.name⟩ tag.attributes cs] } := by
    refine h.edit (.inl hblock) (fun cs hcs => ?_) fun hmem =>
      absurd (h.trail_lt _ hmem) (Nat.not_lt.mpr hblock)
    simp only [Node.idsAll, Node.ids, List.append_nil, List.forall_mem_cons]
    exact ⟨h.le_next, hcs⟩
  exact { hedit with
    le_next := Nat.le_succ_of_le h.le_next
    free := hstack _ (.inr (.inr ⟨h.le_next, h.le_next⟩))
    remembered := hformatting _ hnew }

/-- Taking a block out of a formatting element. -/
theorem rescue (h : Shut n contents b) {g block : Handle} {tag : Tag} (htag : Remembered g tag)
    {above : List Handle} (between : List Handle) {below : List Handle} (hg : n ≤ g.id)
    (habove : ∀ e ∈ above, e.IsFree n) (hblock : n ≤ block.id ∧ n ≤ block.inside)
    (hbelow : ∀ e ∈ below, e.IsFree n) :
    Shut n contents (b.rescue g tag above block between below) ∧
      ∃ next kept, n ≤ next ∧ (∀ k ∈ kept, n ≤ k.id ∧ n ≤ k.inside) ∧
        (b.rescue g tag above block between below).stack =
          above ++ ⟨next, ⟨.html, tag.name⟩, next⟩ :: block :: (kept ++ below) := by
  obtain ⟨next, formatting, kept, moved, bookmark, hmade, hle, hkept, hknown, heq⟩ :=
    rescue_eq b above block between below (Nat.le_trans h.five_le h.le_next) htag h.remembered
  have hkeptNew : ∀ k ∈ kept, n ≤ k.id ∧ n ≤ k.inside := by
    intro k hk
    obtain ⟨hle, hinside, -⟩ := hkept k hk
    exact ⟨Nat.le_trans h.le_next hle, hinside ▸ Nat.le_trans h.le_next hle⟩
  have hmoved : ∀ j ∈ (Piece.node moved).ids, n ≤ j := by
    refine hmade.le_ids h.le_next ?_
    cases hfind : b.root.find? block.id with
    | none => exact fun j hj => absurd hj List.not_mem_nil
    | some m => exact h.trail.find? h.wrapper_lt h.trail_lt hblock.1 hfind
  have hdetached : Shut n contents (b.detached g above block below next formatting kept) := {
    h.remove hblock.1 with
    le_next := Nat.le_trans h.le_next hle
    remembered := hknown
    free := by
      simp only [detached, List.forall_mem_append, List.forall_mem_cons]
      exact ⟨habove, .inr (.inr hblock), fun k hk => .inr (.inr (hkeptNew k hk)),
        .inr (.inr ⟨hg, htag.2.1 ▸ hg⟩), hbelow⟩ }
  have hreattached : Shut n contents
      ((b.detached g above block below next formatting kept).reattached moved below) := by
    cases below with
    | nil => exact hdetached
    | cons ancestor below =>
      exact hdetached.putAt_placeFor hmoved (hbelow ancestor List.mem_cons_self)
  have hnext : n ≤ next := Nat.le_trans h.le_next hle
  refine ⟨?_, next, kept, hnext, hkeptNew, ?_⟩
  · rw [heq]
    refine hreattached.refilled htag.2.2.2 hblock.1 (fun new hnew => ?_) fun new hnew =>
      remembered_placeFormatting hnew hknown
    simp only [List.forall_mem_append, List.forall_mem_cons]
    exact ⟨habove, hnew, .inr (.inr hblock), fun k hk => .inr (.inr (hkeptNew k hk)), hbelow⟩
  · obtain ⟨root, failed, hput⟩ :=
      (b.detached g above block below next formatting kept).reattached_eq moved below
    rw [heq, hput]
    rfl

end Shut
namespace Sealed

variable {n : NodeId} {contents : List Node} {b b' : Builder}

theorem sameStack (h : Sealed n contents b) (h' : Shut n contents b') (heq : b'.stack = b.stack) :
    Sealed n contents b' := ⟨h', heq ▸ h.ordered⟩

theorem sublist (h : Sealed n contents b) {stack : List Handle} (hsub : stack.Sublist b.stack) :
    Sealed n contents { b with stack } := by
  obtain ⟨above, base, hstack, habove, hbase⟩ := h.ordered
  rw [hstack] at hsub
  have hshut := h.toShut.sublist (hstack ▸ hsub)
  obtain ⟨above', base', rfl, habove', hbase'⟩ := List.sublist_append_iff.mp hsub
  exact ⟨hshut, above', base', rfl, fun e he => habove e (habove'.subset he), hbase'.trans hbase⟩

/-- One more element is open. -/
theorem cons (h : Sealed n contents b) (h' : Shut n contents b') {next : NodeId}
    {name : ElementName} (hnext : n ≤ next) (heq : b'.stack = newHandle next name :: b.stack) :
    Sealed n contents b' := by
  obtain ⟨above, base, hstack, habove, hbase⟩ := h.ordered
  refine ⟨h', newHandle next name :: above, base, by rw [heq, hstack]; rfl, ?_, hbase⟩
  have hid : n ≤ (newHandle next name).id := by rwa [newHandle_id]
  exact List.forall_mem_cons.mpr
    ⟨⟨hid, Nat.le_trans hnext (le_newHandle_inside _ _)⟩, habove⟩

theorem put (h : Sealed n contents b) {p : Piece} (hids : ∀ j ∈ p.ids, n ≤ j) :
    Sealed n contents (b.put p) := h.sameStack (h.toShut.put hids) (stack_put b p)

theorem putElement (h : Sealed n contents b) (space : Namespace) (t : Tag) :
    Sealed n contents (b.putElement space t).2 := by
  refine h.sameStack (h.toShut.putElement space t) ?_
  rw [putElement_eq]
  exact stack_put _ _

theorem pushElement (h : Sealed n contents b) (space : Namespace) (t : Tag) :
    Sealed n contents (b.pushElement space t).2 :=
  h.cons (h.toShut.pushElement space t) h.le_next (by rw [pushElement_eq])

/-- What stands above an element on the list of formatting elements is new. -/
theorem rescue (h : Sealed n contents b) {g g' block block' : Handle} {tag : Tag}
    {above between below : List Handle} (htag : Remembered g tag)
    (hstack : b.stack = (above ++ block' :: between) ++ g' :: below) (hid : g'.id = g.id)
    (hblock : block ∈ above ++ block' :: between) :
    Sealed n contents (b.rescue g tag above block between below) := by
  obtain ⟨above₀, base, hordered, habove₀, hbase⟩ := h.ordered
  have hbottom : g' ∉ base := by
    intro hmem
    have hlow : ∀ e ∈ [headHandle, htmlHandle], e.id < 5 := by decide
    exact Nat.not_lt.mpr htag.1 (hid ▸ hlow g' (hbase.subset hmem))
  obtain ⟨rest, rfl, rfl⟩ := exists_bottom (hstack.symm.trans hordered) hbottom
  obtain ⟨hlater, hearlier⟩ := List.forall_mem_append.mp habove₀
  obtain ⟨hg, hrest⟩ := List.forall_mem_cons.mp hearlier
  have habove : ∀ e ∈ above, n ≤ e.id ∧ n ≤ e.inside :=
    fun e he => hlater e (List.mem_append_left _ he)
  have hblock : n ≤ block.id ∧ n ≤ block.inside := hlater block hblock
  have hfree : ∀ e ∈ rest ++ base, e.IsFree n :=
    fun e he => h.free e (hstack ▸ List.mem_append_right _ (List.mem_cons_of_mem _ he))
  obtain ⟨hshut, next, kept, hnext, hkept, heq⟩ := h.toShut.rescue htag between
    (hid ▸ hg.1) (fun e he => .inr (.inr (habove e he))) hblock hfree
  refine ⟨hshut, above ++ ⟨next, ⟨.html, tag.name⟩, next⟩ :: block :: (kept ++ rest), base, ?_, ?_,
    hbase⟩
  · rw [heq]
    simp
  · simp only [List.forall_mem_append, List.forall_mem_cons]
    exact ⟨habove, ⟨hnext, hnext⟩, hblock, hkept, hrest⟩

theorem framesetStart (h : Sealed n contents b) (t : Tag) :
    Sealed n contents (b.framesetStart t) := by
  rw [Builder.framesetStart]
  split
  next body hbody =>
    split
    · have hid : n ≤ body.id := by
        have hname : body.name.isHtml ["body"] = true := by
          rw [body?] at hbody
          split at hbody
          · split at hbody
            next hname => exact Option.some.inj hbody ▸ hname
            · cases hbody
          · cases hbody
        rcases h.free body (Stable.mem_stack_of_body? hbody) with rfl | rfl | ⟨hid, -⟩
        · exact absurd hname (by decide)
        · exact absurd hname (by decide)
        · exact hid
      have hremove : Sealed n contents { b with root := b.root.remove body.id } :=
        h.sameStack (h.toShut.remove hid) rfl
      exact { (hremove.sublist (List.drop_sublist _ _)).pushElement .html t with }
    · exact h
  · exact h

theorem acceptDoctype (h : Sealed n contents b) (d : Doctype) :
    Sealed n contents (b.acceptDoctype d) := by
  have hids (cs : List Node) (node : Node) (hnode : node.ids = []) (hcs : ∀ j ∈ Node.idsAll cs, n ≤ j) :
      ∀ j ∈ Node.idsAll (cs ++ [node]), n ≤ j := by
    rw [Node.idsAll_append]
    simpa [Node.idsAll, hnode] using hcs
  rw [Builder.acceptDoctype]
  split
  · have hedit := h.toShut.edit (t := 0) (.inr (by decide))
      (fun cs hcs => hids cs (.doctype (d.name.getD []) (d.publicId.getD []) (d.systemId.getD [])) rfl hcs)
      fun _ _ _ rest hrest => ⟨_, rfl, hids rest _ rfl hrest⟩
    exact h.sameStack { hedit with } rfl
  · exact h

theorem putBehind (h : Sealed n contents b) {p : Piece} (hids : ∀ j ∈ p.ids, n ≤ j) :
    Sealed n contents (b.putAt p (.inside 0)) :=
  h.sameStack (h.toShut.putAt_inside hids (.inr (by decide))) rfl

theorem putCommentBehind (h : Sealed n contents b) (c : Text) :
    Sealed n contents (b.putCommentBehind c) :=
  h.putBehind fun _ hj => absurd hj List.not_mem_nil

theorem pushRoot (h : Sealed n contents b) (attributes : List Attribute) :
    Sealed n contents (b.pushRoot attributes) := by
  have hle : n ≤ nextAfter b.nextId ⟨.html, "html"⟩ := Nat.le_trans h.le_next (le_nextAfter _ _)
  have hcreated : Shut n contents { b with nextId := nextAfter b.nextId ⟨.html, "html"⟩ } :=
    { h.toShut with le_next := hle }
  have hput := hcreated.putAt_inside (t := 0)
    (p := .node (.element b.nextId ⟨.html, "html"⟩ attributes (newChildren b.nextId ⟨.html, "html"⟩)))
    (fun j hj => Nat.le_trans h.le_next (le_ids_new attributes hj)) (.inr (by decide))
  refine h.cons { hput with free := ?_ } h.le_next (by rw [Builder.pushRoot, create_eq])
  rw [Builder.pushRoot, create_eq]
  exact List.forall_mem_cons.mpr ⟨h.toShut.isFree_newHandle _, h.free⟩

theorem pushHead (h : Sealed n contents b) (t : Tag) : Sealed n contents (b.pushHead t) := by
  have hpush := h.pushElement .html t
  refine { hpush with head := fun g hg => ?_ }
  rw [Builder.pushHead, pushElement_eq] at hg
  exact Option.some.inj hg ▸ h.toShut.isFree_newHandle _

/-- The element goes into the head, which is open for no longer than that takes. -/
theorem lateHeadStart (h : Sealed n contents b) (t : Tag) :
    Sealed n contents (b.lateHeadStart t) := by
  rw [Builder.lateHeadStart]
  split
  next g hhead =>
    have hopen : Shut n contents { b with stack := g :: b.stack } :=
      { h.toShut with free := List.forall_mem_cons.mpr ⟨h.head g hhead, h.free⟩ }
    obtain ⟨hput, hstack⟩ := hopen.headStart t
    set c := { b with stack := g :: b.stack }.headStart t with hc
    have hclosed (xs : List Handle) (hxs : c.stack = xs ++ g :: b.stack) :
        c.close g = { c with stack := (xs ++ b.stack).filter (·.id != g.id) } := by
      rw [close, hxs]
      simp [List.filter_append]
    rcases hstack with hstack | hstack
    · have hbefore : Sealed n contents { c with stack := b.stack } :=
        h.sameStack (hput.sublist (hstack ▸ List.sublist_cons_self _ _)) rfl
      rw [hclosed [] hstack]
      exact hbefore.sublist List.filter_sublist
    · let new := newHandle b.nextId ⟨.html, t.name⟩
      have hbefore : Sealed n contents { c with stack := new :: b.stack } :=
        h.cons (hput.sublist (hstack ▸ (List.sublist_cons_self _ _).cons_cons _)) h.le_next rfl
      rw [hclosed [new] hstack]
      exact hbefore.sublist List.filter_sublist
  · obtain ⟨hput, hstack⟩ := h.toShut.headStart t
    rcases hstack with hstack | hstack
    · exact h.sameStack hput hstack
    · exact h.cons hput h.le_next hstack

end Sealed

/-- **What a closed template holds is stable.** -/
theorem stable_sealed (n : NodeId) (contents : List Node) : Stable (Sealed n contents) Remembered where
  known h he := h.remembered _ _ he
  name_mem h := h.2.2.2
  tune _ _ _ _ _ _ h := { h with }
  isKnown h := h.content
  readAs h hcontent := { h with content := hcontent }
  note h hknown := { h with remembered := hknown }
  drop h hsuffix := h.sublist hsuffix.sublist
  close h _ := h.sublist List.filter_sublist
  goTo h _ := { h with }
  goBack h _ := { h with }
  keepMode h := { h with }
  goToText h := { h with }
  setTemplateModes h _ := { h with }
  reset h := { h with }
  leaveBody h _ := { h with }
  put h _ hids := h.put fun j hj => absurd (hids ▸ hj) List.not_mem_nil
  putElement h _ := h.putElement _ _
  pushElement h _ := h.pushElement _ _
  fresh h ht := by
    rw [pushElement_eq]
    exact remembered_newHandle (Nat.le_trans h.five_le h.le_next) ht
  rescue h htag hstack hid hblock _ _ := h.rescue htag hstack hid hblock
  addAttributes h hg _ := h.sameStack (h.toShut.addAttributes hg _) rfl
  framesetStart h := h.framesetStart _
  acceptDoctype h := h.acceptDoctype _

/-! ### Outside of content -/

namespace Sealed
open Outcome (of_ite)

variable {n : NodeId} {contents : List Node} {b : Builder}

theorem initial (h : Sealed n contents b) (t : Token) : Sealed n contents (b.initial t).builder := by
  have hgo : Sealed n contents { b with oldLayout := true, mode := .beforeHtml } := { h with }
  cases t with
  | comment c => exact h.putCommentBehind c
  | text u => exact of_ite (fun _ => h) fun _ => hgo
  | doctype | start | finish | null | mistake | eof => exact hgo

theorem beforeHtml (h : Sealed n contents b) (t : Token) :
    Sealed n contents (b.beforeHtml t).builder := by
  have hgo (as : List Attribute) : Sealed n contents { b.pushRoot as with mode := .beforeHead } :=
    { h.pushRoot as with }
  cases t with
  | comment c => exact h.putCommentBehind c
  | text u => exact of_ite (fun _ => h) fun _ => hgo []
  | start t => exact of_ite (fun _ => hgo t.attributes) fun _ => hgo []
  | finish name => exact of_ite (fun _ => hgo []) fun _ => h
  | doctype | null | mistake | eof => exact hgo []

theorem beforeHead (h : Sealed n contents b) (t : Token) :
    Sealed n contents (b.beforeHead t).builder := by
  have s := stable_sealed n contents
  have hgo := h.pushHead { name := "head" }
  cases t with
  | comment c => exact s.putComment h c
  | text u => exact of_ite (fun _ => h) fun _ => hgo
  | start t =>
    exact of_ite (fun _ => s.htmlStart h t) fun _ => of_ite (fun _ => h.pushHead t) fun _ => hgo
  | finish name => exact of_ite (fun _ => hgo) fun _ => h
  | doctype | null | mistake | eof => exact hgo

theorem inHead (h : Sealed n contents b) (t : Token) : Sealed n contents (b.inHead t).builder := by
  have s := stable_sealed n contents
  have hbehind : Sealed n contents { b.pop with mode := .afterHead } := { s.pop h with }
  cases t with
  | comment c => exact s.putComment h c
  | text u => exact of_ite (fun _ => s.putText h u) fun _ => hbehind
  | start t =>
    refine of_ite (fun _ => s.htmlStart h t) fun _ => ?_
    refine of_ite (fun hname => s.headStart h ?_) fun _ => of_ite (fun _ => h) fun _ => hbehind
    rcases hname with hname | hname
    · exact Stable.not_outer hname (by decide)
    · exact hname ▸ by decide
  | finish name =>
    refine of_ite (fun _ => hbehind) fun _ => of_ite (fun _ => hbehind) fun _ => ?_
    exact of_ite (fun _ => s.endTemplate h) fun _ => h
  | doctype | null | mistake | eof => exact hbehind

theorem afterHead (h : Sealed n contents b) (t : Token) :
    Sealed n contents (b.afterHead t).builder := by
  have s := stable_sealed n contents
  have hpush (t : Tag) (mode : Mode) : Sealed n contents { b.push t with mode } :=
    { h.pushElement .html t with }
  have hgo : Sealed n contents (b.pushBody { name := "body" }) := hpush _ _
  cases t with
  | comment c => exact s.putComment h c
  | text u => exact of_ite (fun _ => s.putText h u) fun _ => hgo
  | start t =>
    refine of_ite (fun _ => s.htmlStart h t) fun _ => ?_
    refine of_ite (fun _ => s.framesetOk (hpush t _) false) fun _ => ?_
    refine of_ite (fun _ => hpush t _) fun _ => of_ite (fun _ => h.lateHeadStart t) fun _ => ?_
    exact of_ite (fun _ => h) fun _ => hgo
  | finish name =>
    refine of_ite (fun _ => s.endTemplate h) fun _ => of_ite (fun _ => hgo) fun _ => h
  | doctype | null | mistake | eof => exact hgo

theorem putCommentInRoot (h : Sealed n contents b) (c : Text) :
    Sealed n contents (b.putCommentInRoot c) := by
  rw [Builder.putCommentInRoot]
  split
  next g hlast =>
    have hg := h.free g (List.mem_of_getLast? hlast)
    refine h.sameStack (h.toShut.putAt_inside ?_ (Shut.isEditable_of_isFree hg).1) rfl
    exact fun _ hj => absurd hj List.not_mem_nil
  · exact h

theorem afterBody (h : Sealed n contents b) (t : Token) :
    Sealed n contents (b.afterBody t).builder := by
  have s := stable_sealed n contents
  have hback : Sealed n contents { b with mode := .inBody } := { h with }
  cases t with
  | comment c => exact h.putCommentInRoot c
  | text u => exact of_ite (fun _ => s.bodyText h u) fun _ => hback
  | start t => exact of_ite (fun _ => s.htmlStart h t) fun _ => hback
  | finish name => exact of_ite (fun _ => { h with }) fun _ => hback
  | eof => exact h
  | doctype | null | mistake => exact hback

theorem afterAfterBody (h : Sealed n contents b) (t : Token) :
    Sealed n contents (b.afterAfterBody t).builder := by
  have s := stable_sealed n contents
  have hback : Sealed n contents { b with mode := .inBody } := { h with }
  cases t with
  | comment c => exact h.putCommentBehind c
  | text u => exact of_ite (fun _ => s.bodyText h u) fun _ => hback
  | start t => exact of_ite (fun _ => s.htmlStart h t) fun _ => hback
  | eof => exact h
  | doctype | finish | null | mistake => exact hback

theorem inFrameset (h : Sealed n contents b) (t : Token) :
    Sealed n contents (b.inFrameset t).builder := by
  have s := stable_sealed n contents
  cases t with
  | comment c => exact s.putComment h c
  | text u => exact iteInduction (motive := Sealed n contents) (fun _ => s.putText h u) fun _ => h
  | start t =>
    refine of_ite (fun _ => s.htmlStart h t) fun _ => of_ite (fun _ => h.pushElement _ t) fun _ => ?_
    refine of_ite (fun _ => h.putElement _ t) fun _ => ?_
    exact of_ite (fun hname => s.headStart h (hname ▸ by decide)) fun _ => h
  | finish name =>
    refine of_ite (fun _ => ?_) fun _ => h
    exact iteInduction (motive := Sealed n contents) (fun _ => s.pop h) fun _ => { s.pop h with }
  | doctype | null | mistake | eof => exact h

theorem afterFrameset (h : Sealed n contents b) (t : Token) :
    Sealed n contents (b.afterFrameset t).builder := by
  have s := stable_sealed n contents
  cases t with
  | comment c => exact s.putComment h c
  | text u => exact iteInduction (motive := Sealed n contents) (fun _ => s.putText h u) fun _ => h
  | start t =>
    refine of_ite (fun _ => s.htmlStart h t) fun _ => ?_
    exact of_ite (fun hname => s.headStart h (hname ▸ by decide)) fun _ => h
  | finish name =>
    exact iteInduction (motive := Sealed n contents) (fun _ => { h with }) fun _ => h
  | doctype | null | mistake | eof => exact h

theorem afterAfterFrameset (h : Sealed n contents b) (t : Token) :
    Sealed n contents (b.afterAfterFrameset t).builder := by
  have s := stable_sealed n contents
  cases t with
  | comment c => exact h.putCommentBehind c
  | text u => exact iteInduction (motive := Sealed n contents) (fun _ => s.bodyText h u) fun _ => h
  | start t =>
    refine of_ite (fun _ => s.htmlStart h t) fun _ => ?_
    exact of_ite (fun hname => s.headStart h (hname ▸ by decide)) fun _ => h
  | doctype | finish | null | mistake | eof => exact h

/-- **No rule gets at what a closed template holds**, whatever the mode. -/
theorem keptOutside (n : NodeId) (contents : List Node) :
    Stable.KeptOutside (Sealed n contents) := by
  intro b t h houtside
  rw [Builder.inMode]
  cases hmode : b.mode <;> rw [hmode] at houtside
  case initial => exact h.initial t
  case beforeHtml => exact h.beforeHtml t
  case beforeHead => exact h.beforeHead t
  case inHead => exact h.inHead t
  case afterHead => exact h.afterHead t
  case afterBody => exact h.afterBody t
  case inFrameset => exact h.inFrameset t
  case afterFrameset => exact h.afterFrameset t
  case afterAfterBody => exact h.afterAfterBody t
  case afterAfterFrameset => exact h.afterAfterFrameset t
  all_goals exact absurd (by decide) houtside

end Sealed

end TerseMarkup.Html
