import TerseMarkup.Html.Construction
import TerseMarkup.Proofs.Html.Construction.Rescue
import TerseMarkup.Proofs.Html.Edit

/-! Construction from markup that is nested as it is written.

`Stands` says where construction is: which elements are open, what is around the one opened last and
what it holds. What is put in goes to the end of it, an element may be opened in it (`Stands.push`)
and closed again (`Stands.close`). The list of formatting elements follows the open elements
(`Noted`), so no formatting element is ever opened again. -/
namespace TerseMarkup.Html
open Builder

namespace Node.Frame

/-- The frame around what comes behind these children. -/
def holding : Frame → List Node → Frame
  | document id _ _, cs => document id cs []
  | element id name attributes _ _, cs => element id name attributes cs []

theorem around_holding (f : Frame) (cs : List Node) (n : Node) :
    (f.holding cs).around n = f.branch (cs ++ [n]) := by cases f <;> rfl

theorem ids_holding (f : Frame) (cs : List Node) : (f.holding cs).ids = f.id :: idsAll cs := by
  cases f <;> simp [holding, ids, id, before, after, idsAll]

end Node.Frame

theorem insertAt_node {n : Node} (h : n.isElement = true ∨ n.isComment = true) (cs : List Node) :
    (Piece.node n).insertAt cs.length cs = cs ++ [n] := by
  have h : (n.isElement || n.isComment) = true := by simpa using h
  rw [Piece.insertAt, List.splitAt_eq, List.take_length, List.drop_length]
  exact if_pos h

/-- The children with a text at the end. -/
def joined (cs : List Node) (t : Text) : List Node := (Piece.text t).insertAt cs.length cs

theorem joined_eq (cs : List Node) (t : Text) :
    joined cs t = match cs.getLast? with
      | some (.text s) => cs.dropLast ++ [.text (s ++ t)]
      | _ => cs ++ [.text t] := by
  split <;> simp [joined, Piece.insertAt, *]

theorem joined_joined (cs : List Node) (t u : Text) : joined (joined cs t) u = joined cs (t ++ u) := by
  rw [joined_eq cs t, joined_eq cs (t ++ u)]
  split <;> simp [joined_eq]

theorem idsAll_joined (cs : List Node) (t : Text) : Node.idsAll (joined cs t) = Node.idsAll cs := by
  rw [joined_eq]
  split
  · next s hlast =>
    obtain ⟨cs', rfl⟩ := List.getLast?_eq_some_iff.mp hlast
    simp [Node.idsAll_append, Node.idsAll, Node.ids]
  · simp [Node.idsAll_append, Node.idsAll, Node.ids]

/-! ### The list of formatting elements -/

/-- Elements that shut off the formatting elements before them. -/
def markers : List String := ["applet", "caption", "marquee", "object", "td", "template", "th"]

/-- The list of formatting elements for the open ones, the last one opened first: there is a marker
for each element that shuts off, and nothing is noted that is not open. -/
inductive Noted : List Handle → List Formatting → Prop
  | nil : Noted [] []
  /-- Not every formatting element is noted: of three that are alike the oldest goes. -/
  | skip {e : Handle} {stack : List Handle} {formatting : List Formatting}
      (h : Noted stack formatting) (hname : e.name.isHtml markers = false) :
      Noted (e :: stack) formatting
  | element {e : Handle} {stack : List Handle} {formatting : List Formatting} {t : Tag}
      (h : Noted stack formatting) (hname : e.name = ⟨.html, t.name⟩)
      (htag : t.name ∈ formattingTags) : Noted (e :: stack) (.element e t :: formatting)
  | marker {e : Handle} {stack : List Handle} {formatting : List Formatting}
      (h : Noted stack formatting) (hname : e.name.isHtml markers = true) :
      Noted (e :: stack) (.marker :: formatting)

theorem isHtml_markers_of_formattingTags {name : String} (h : name ∈ formattingTags) :
    ElementName.isHtml ⟨.html, name⟩ markers = false := by
  have hall : ∀ n ∈ formattingTags, ElementName.isHtml ⟨.html, n⟩ markers = false := by decide
  exact hall name h

namespace Noted

variable {e : Handle} {stack : List Handle} {formatting : List Formatting}

theorem mem (h : Noted stack formatting) {t : Tag} (he : .element e t ∈ formatting) : e ∈ stack := by
  induction h with
  | nil => exact absurd he List.not_mem_nil
  | skip _ _ ih => exact List.mem_cons_of_mem _ (ih he)
  | element _ _ _ ih =>
    rcases List.mem_cons.mp he with heq | he
    · obtain ⟨rfl, -⟩ := Formatting.element.inj heq
      exact List.mem_cons_self
    · exact List.mem_cons_of_mem _ (ih he)
  | marker _ _ ih =>
    rcases List.mem_cons.mp he with heq | he
    · cases heq
    · exact List.mem_cons_of_mem _ (ih he)

/-- Any entry may be dropped. -/
theorem drop {before behind : List Formatting} {t : Tag}
    (h : Noted stack (before ++ .element e t :: behind)) : Noted stack (before ++ behind) := by
  generalize hwhole : before ++ .element e t :: behind = formatting at h
  induction h generalizing before with
  | nil => exact absurd (hwhole ▸ List.mem_append_right _ List.mem_cons_self) List.not_mem_nil
  | skip _ hname ih => exact (ih hwhole).skip hname
  | element h hname htag ih =>
    cases before with
    | nil =>
      obtain ⟨-, rfl⟩ := List.cons.inj hwhole
      exact h.skip (hname ▸ isHtml_markers_of_formattingTags htag)
    | cons m before =>
      obtain ⟨hm, hbehind⟩ := List.cons.inj hwhole
      exact hm ▸ (ih hbehind).element hname htag
  | marker _ hname ih =>
    cases before with
    | nil => exact absurd (List.cons.inj hwhole).1 (by simp)
    | cons m before =>
      obtain ⟨hm, hbehind⟩ := List.cons.inj hwhole
      exact hm ▸ (ih hbehind).marker hname

/-- Behind an element that shuts off there is its marker. -/
theorem tail_marker (h : Noted (e :: stack) formatting) (hname : e.name.isHtml markers = true) :
    ∃ older, formatting = .marker :: older ∧ Noted stack older := by
  cases h with
  | skip h hother => rw [hname] at hother; cases hother
  | element h hsame htag =>
    rw [hsame, isHtml_markers_of_formattingTags htag] at hname
    cases hname
  | marker h _ => exact ⟨_, rfl, h⟩

/-- Any other element has an entry of its own, or none. -/
theorem tail (h : Noted (e :: stack) formatting) (hname : e.name.isHtml markers = false) :
    Noted stack formatting ∨
      ∃ t older, formatting = .element e t :: older ∧ e.name = ⟨.html, t.name⟩ ∧
        t.name ∈ formattingTags ∧ Noted stack older := by
  cases h with
  | skip h _ => exact .inl h
  | element h hsame htag => exact .inr ⟨_, _, rfl, hsame, htag, h⟩
  | marker h hother => rw [hname] at hother; cases hother

/-- An element that is neither noted nor shuts off may be closed. -/
theorem tail_plain (h : Noted (e :: stack) formatting) (hname : e.name.isHtml markers = false)
    (htag : e.name.name ∉ formattingTags) : Noted stack formatting := by
  rcases h.tail hname with h | ⟨t, older, -, hsame, hmem, -⟩
  · exact h
  · exact absurd (hsame ▸ hmem) htag

end Noted

/-! ### Where construction is -/

/-- The handle of a new element other than a template. -/
abbrev newElement (b : Builder) (t : Tag) : Handle := ⟨b.nextId, ⟨.html, t.name⟩, b.nextId⟩

theorem newHandle_eq {t : Tag} (hname : t.name ≠ "template") (b : Builder) :
    newHandle b.nextId ⟨.html, t.name⟩ = newElement b t :=
  newHandle_plain _ (by simp [ElementName.isHtml, hname])

theorem newChildren_eq {t : Tag} (hname : t.name ≠ "template") (b : Builder) :
    newChildren b.nextId ⟨.html, t.name⟩ = [] := by
  rw [newChildren, if_neg (by simp [ElementName.isHtml, hname])]

/-- Construction stands in the node `f`, which holds `done` so far; `path` is around it, and the
elements of `stack` are open, the last one opened first. -/
structure Stands (stack : List Handle) (path : List Node.Frame) (f : Node.Frame)
    (done : List Node) (b : Builder) : Prop where
  root_eq : b.root = Node.within path (f.branch done)
  stack_eq : b.stack = stack
  nonempty : stack ≠ []
  target : ∀ h ∈ stack.head?, h.inside = f.id
  not_mem : f.id ∉ Node.pathIds path
  lt_next : ∀ i ∈ Node.pathIds path ++ f.id :: Node.idsAll done, i < b.nextId
  handles : ∀ h ∈ stack, h.id < b.nextId
  nodup : (stack.map Handle.id).Nodup
  noted : Noted stack b.formatting
  fostering : b.fostering = false
  failed : b.failed = false

namespace Stands

variable {stack : List Handle} {path : List Node.Frame} {f : Node.Frame} {done : List Node}
  {b : Builder}

theorem exists_stack (h : Stands stack path f done b) :
    ∃ e rest, stack = e :: rest ∧ b.stack = e :: rest ∧ e.inside = f.id := by
  obtain ⟨e, rest, rfl⟩ := List.exists_cons_of_ne_nil h.nonempty
  exact ⟨e, rest, rfl, h.stack_eq, h.target e rfl⟩

/-- What is put in comes to the end of the node; the rules for it look at nothing else. -/
theorem put_eq_of_same (h : Stands stack path f done b) {b' : Builder} (hroot : b'.root = b.root)
    (hstack : b'.stack = b.stack) (hfostering : b'.fostering = b.fostering) (p : Piece) :
    b'.put p = { b' with root := Node.within path (f.branch (p.insertAt done.length done)) } := by
  obtain ⟨e, rest, -, hstack', hinside⟩ := h.exists_stack
  have hplace : b'.placeFor e = .inside f.id := by
    rw [placeFor, hfostering, h.fostering, Bool.false_and, if_neg Bool.false_ne_true, hinside]
  have hput : b'.put p = b'.putAt p (b'.placeFor e) := by rw [Builder.put, hstack, hstack']
  rw [hput, hplace, putAt, Node.append, hroot, h.root_eq, Node.mapChildren_within h.not_mem,
    Node.mapChildren_self (Node.Frame.id?_branch f done), Node.Frame.children_branch,
    Node.Frame.withChildren_branch]

theorem put_eq (h : Stands stack path f done b) (p : Piece) :
    b.put p = { b with root := Node.within path (f.branch (p.insertAt done.length done)) } :=
  h.put_eq_of_same rfl rfl rfl p

theorem put (h : Stands stack path f done b) {p : Piece}
    (hids : ∀ i ∈ Node.idsAll (p.insertAt done.length done), i < b.nextId) :
    Stands stack path f (p.insertAt done.length done) (b.put p) := by
  rw [h.put_eq]
  refine { h with root_eq := rfl, lt_next := fun i hi => ?_ }
  rcases List.mem_append.mp hi with hi | hi
  · exact h.lt_next i (List.mem_append_left _ hi)
  · rcases List.mem_cons.mp hi with rfl | hi
    · exact h.lt_next _ (List.mem_append_right _ List.mem_cons_self)
    · exact hids i hi

theorem lt_done (h : Stands stack path f done b) : ∀ i ∈ Node.idsAll done, i < b.nextId :=
  fun i hi => h.lt_next i (List.mem_append_right _ (List.mem_cons_of_mem _ hi))

theorem putComment (h : Stands stack path f done b) (c : Text) :
    Stands stack path f (done ++ [.comment c]) (b.putComment c) := by
  have hnode : (Node.comment c).isElement = true ∨ (Node.comment c).isComment = true := .inr rfl
  rw [← insertAt_node hnode]
  refine h.put fun i hi => ?_
  rw [insertAt_node hnode, Node.idsAll_append] at hi
  exact h.lt_done i (by simpa [Node.idsAll, Node.ids] using hi)

theorem putText (h : Stands stack path f done b) (t : Text) :
    Stands stack path f (joined done t) (b.putText t) :=
  h.put fun i hi => h.lt_done i ((idsAll_joined done t) ▸ hi)

/-! ### Elements -/

/-- A new element stands at the end of the node, and its number is taken. -/
theorem putElement (h : Stands stack path f done b) (space : Namespace) (t : Tag) :
    Stands stack path f (done ++ [.element b.nextId ⟨space, t.name⟩ t.attributes
        (newChildren b.nextId ⟨space, t.name⟩)]) (b.putElement space t).2 ∧
      (b.putElement space t).2.nextId = nextAfter b.nextId ⟨space, t.name⟩ := by
  have hnext : Stands stack path f done
      { b with nextId := nextAfter b.nextId ⟨space, t.name⟩ } :=
    { h with
      lt_next := fun i hi => Nat.lt_of_lt_of_le (h.lt_next i hi) (le_nextAfter _ _)
      handles := fun e he => Nat.lt_of_lt_of_le (h.handles e he) (le_nextAfter _ _) }
  have hnode : (Node.element b.nextId ⟨space, t.name⟩ t.attributes
        (newChildren b.nextId ⟨space, t.name⟩)).isElement = true ∨
      (Node.element b.nextId ⟨space, t.name⟩ t.attributes
        (newChildren b.nextId ⟨space, t.name⟩)).isComment = true := .inl rfl
  have hnew : ∀ i ∈ (Node.element b.nextId ⟨space, t.name⟩ t.attributes
      (newChildren b.nextId ⟨space, t.name⟩)).ids, i < nextAfter b.nextId ⟨space, t.name⟩ := by
    intro i hi
    rw [Node.ids, newChildren] at hi
    rw [nextAfter]
    split at hi <;> rename_i htemplate
    · rw [if_pos htemplate]
      have hi : i = b.nextId ∨ i = b.nextId + 1 := by simpa [Node.idsAll, Node.ids] using hi
      rcases hi with rfl | rfl
      · exact Nat.lt_add_of_pos_right (by decide)
      · exact Nat.lt_succ_self _
    · rw [if_neg htemplate]
      obtain rfl : i = b.nextId := by simpa [Node.idsAll] using hi
      exact Nat.lt_succ_self _
  have hput := hnext.put (p := .node (.element b.nextId ⟨space, t.name⟩ t.attributes
      (newChildren b.nextId ⟨space, t.name⟩))) (by
    intro i hi
    rw [insertAt_node hnode, Node.idsAll_append] at hi
    rcases List.mem_append.mp hi with hi | hi
    · exact hnext.lt_done i hi
    · exact hnew i (by simpa [Node.idsAll] using hi))
  rw [insertAt_node hnode] at hput
  rw [putElement_eq]
  exact ⟨hput, congrArg Builder.nextId (hnext.put_eq _)⟩

/-- A new element is opened. Frames around its contents are part of it. -/
theorem open_ (h : Stands stack path f done b) {space : Namespace} {t : Tag}
    {inner : List Node.Frame} {f' : Node.Frame}
    (hnode : Node.within inner (f'.branch []) = .element b.nextId ⟨space, t.name⟩
      t.attributes (newChildren b.nextId ⟨space, t.name⟩))
    (htarget : (newHandle b.nextId ⟨space, t.name⟩).inside = f'.id)
    (hfresh : f'.id ∉ Node.pathIds inner)
    (hids : ∀ i ∈ Node.pathIds inner ++ [f'.id],
      b.nextId ≤ i ∧ i < nextAfter b.nextId ⟨space, t.name⟩)
    {formatting : List Formatting}
    (hnoted : Noted (newHandle b.nextId ⟨space, t.name⟩ :: stack) formatting) :
    Stands (newHandle b.nextId ⟨space, t.name⟩ :: stack) (path ++ f.holding done :: inner) f' []
      { (b.pushElement space t).2 with formatting } := by
  obtain ⟨hput, hnext⟩ := h.putElement space t
  have hpush : (b.pushElement space t).2 = { (b.putElement space t).2 with
      stack := newHandle b.nextId ⟨space, t.name⟩ :: b.stack } := by
    rw [pushElement_eq]
  have hlt : ∀ i < b.nextId, i < nextAfter b.nextId ⟨space, t.name⟩ :=
    fun i hi => Nat.lt_of_lt_of_le hi (le_nextAfter _ _)
  have hself : b.nextId < nextAfter b.nextId ⟨space, t.name⟩ := by
    rw [nextAfter]
    split
    · exact Nat.lt_add_of_pos_right (by decide)
    · exact Nat.lt_succ_self _
  have hpath : ∀ i ∈ Node.pathIds path ++ (f.holding done).ids, i < b.nextId := by
    rw [Node.Frame.ids_holding]
    exact h.lt_next
  have hids' : Node.pathIds (path ++ f.holding done :: inner) =
      Node.pathIds path ++ (f.holding done).ids ++ Node.pathIds inner := by
    rw [Node.pathIds, List.flatMap_append, List.flatMap_cons, List.append_assoc]
    rfl
  rw [hpush]
  refine
    { root_eq := ?_, stack_eq := by rw [h.stack_eq], nonempty := List.cons_ne_nil _ _,
      target := ?_, not_mem := ?_, lt_next := ?_, handles := ?_, nodup := ?_, noted := hnoted,
      fostering := hput.fostering, failed := hput.failed }
  · show (b.putElement space t).2.root = _
    rw [hput.root_eq, Node.within_append]
    show _ = Node.within path ((f.holding done).around (Node.within inner (f'.branch [])))
    rw [hnode, Node.Frame.around_holding]
  · intro e he
    obtain rfl := Option.some.inj he
    exact htarget
  · rw [hids', List.mem_append, not_or]
    refine ⟨fun hmem => ?_, hfresh⟩
    exact Nat.lt_irrefl _ (Nat.lt_of_lt_of_le (hpath _ hmem)
      (hids _ (List.mem_append_right _ (List.mem_singleton_self _))).1)
  · intro i hi
    show i < (b.putElement space t).2.nextId
    rw [hids', Node.idsAll, List.append_assoc] at hi
    rw [hnext]
    rcases List.mem_append.mp hi with hi | hi
    · exact hlt i (hpath i hi)
    · exact (hids i hi).2
  · show ∀ e : Handle, _ → e.id < (b.putElement space t).2.nextId
    rw [hnext]
    exact List.forall_mem_cons.mpr ⟨by rwa [newHandle_id], fun e he => hlt _ (h.handles e he)⟩
  · rw [List.map_cons, List.nodup_cons, newHandle_id]
    refine ⟨fun hmem => ?_, h.nodup⟩
    obtain ⟨e, he, heq⟩ := List.mem_map.mp hmem
    exact Nat.lt_irrefl _ (heq ▸ h.handles e he)

/-- A new element other than a template is opened in the node. -/
theorem pushElement (h : Stands stack path f done b) {space : Namespace} {t : Tag}
    (hplain : ElementName.isHtml ⟨space, t.name⟩ ["template"] = false)
    {formatting : List Formatting}
    (hnoted : Noted (⟨b.nextId, ⟨space, t.name⟩, b.nextId⟩ :: stack) formatting) :
    Stands (⟨b.nextId, ⟨space, t.name⟩, b.nextId⟩ :: stack) (path ++ [f.holding done])
      (.element b.nextId ⟨space, t.name⟩ t.attributes [] []) []
      { (b.pushElement space t).2 with formatting } := by
  have hnext : nextAfter b.nextId ⟨space, t.name⟩ = b.nextId + 1 := by
    rw [nextAfter, hplain, if_neg Bool.false_ne_true]
  have hhandle : newHandle b.nextId ⟨space, t.name⟩ = ⟨b.nextId, ⟨space, t.name⟩, b.nextId⟩ :=
    newHandle_plain _ hplain
  have hchildren : newChildren b.nextId ⟨space, t.name⟩ = [] := by
    rw [newChildren, hplain, if_neg Bool.false_ne_true]
  rw [← hhandle] at hnoted ⊢
  have hnode : Node.within [] (Node.Frame.branch
      (.element b.nextId ⟨space, t.name⟩ t.attributes [] []) []) =
      .element b.nextId ⟨space, t.name⟩ t.attributes (newChildren b.nextId ⟨space, t.name⟩) := by
    rw [hchildren]
    rfl
  refine h.open_ hnode (by rw [hhandle]; rfl) List.not_mem_nil (fun i hi => ?_) hnoted
  obtain rfl : i = b.nextId := by simpa [Node.pathIds, Node.Frame.id] using hi
  exact ⟨Nat.le_refl _, hnext ▸ Nat.lt_succ_self _⟩

/-- A new HTML element other than a template is opened in the node. -/
theorem push (h : Stands stack path f done b) {t : Tag} (hname : t.name ≠ "template")
    {formatting : List Formatting} (hnoted : Noted (newElement b t :: stack) formatting) :
    Stands (newElement b t :: stack) (path ++ [f.holding done])
      (.element b.nextId ⟨.html, t.name⟩ t.attributes [] []) [] { b.push t with formatting } :=
  h.pushElement (by simp [ElementName.isHtml, hname]) hnoted

/-- A new template is opened; what is put in goes to the document inside. -/
theorem pushTemplate (h : Stands stack path f done b) {t : Tag} (hname : t.name = "template")
    {formatting : List Formatting}
    (hnoted : Noted (⟨b.nextId, ⟨.html, t.name⟩, b.nextId + 1⟩ :: stack) formatting) :
    Stands (⟨b.nextId, ⟨.html, t.name⟩, b.nextId + 1⟩ :: stack)
      (path ++ [f.holding done, .element b.nextId ⟨.html, t.name⟩ t.attributes [] []])
      (.document (b.nextId + 1) [] []) [] { b.push t with formatting } := by
  have hhtml : ElementName.isHtml ⟨.html, t.name⟩ ["template"] = true := by
    simp [ElementName.isHtml, hname]
  have hhandle : newHandle b.nextId ⟨.html, t.name⟩ =
      ⟨b.nextId, ⟨.html, t.name⟩, b.nextId + 1⟩ := by rw [newHandle, if_pos hhtml]
  have hnext : nextAfter b.nextId ⟨.html, t.name⟩ = b.nextId + 2 := by rw [nextAfter, if_pos hhtml]
  rw [← hhandle] at hnoted ⊢
  refine h.open_ (by rw [newChildren, if_pos hhtml]; rfl) (by rw [hhandle]; rfl) ?_
    (fun i hi => ?_) hnoted
  · simp [Node.pathIds, Node.Frame.ids, Node.Frame.id, Node.Frame.before, Node.Frame.after,
      Node.idsAll]
  · have hi : i = b.nextId ∨ i = b.nextId + 1 := by
      simpa [Node.pathIds, Node.Frame.ids, Node.Frame.id, Node.Frame.before, Node.Frame.after,
        Node.idsAll] using hi
    rw [hnext]
    rcases hi with rfl | rfl
    · exact ⟨Nat.le_refl _, Nat.lt_add_of_pos_right (by decide)⟩
    · exact ⟨Nat.le_succ _, Nat.lt_succ_self _⟩

/-- The element opened last is closed, and its node is the last one in the node around it. -/
theorem close {inner : List Node.Frame} {f' : Node.Frame} {done' : List Node} {b₀ b' : Builder}
    {e : Handle} (hparent : Stands stack path f done b₀)
    (h : Stands (e :: stack) (path ++ f.holding done :: inner) f' done' b')
    {formatting : List Formatting} (hnoted : Noted stack formatting) :
    Stands stack path f (done ++ [Node.within inner (f'.branch done')])
      { b' with stack, formatting } := by
  refine
    { h with
      root_eq := ?_
      stack_eq := rfl
      nonempty := hparent.nonempty
      target := hparent.target
      not_mem := hparent.not_mem
      lt_next := ?_
      handles := fun e he => h.handles e (List.mem_cons_of_mem _ he)
      nodup := (List.nodup_cons.mp h.nodup).2
      noted := hnoted }
  · rw [h.root_eq, Node.within_append]
    exact congrArg (Node.within path) (Node.Frame.around_holding f done _)
  · intro i hi
    refine h.lt_next i ?_
    have hinner : i ∈ (Node.within inner (f'.branch done')).ids →
        i ∈ Node.pathIds inner ++ f'.id :: Node.idsAll done' := by
      intro hmem
      rw [← Node.Frame.ids_branch]
      exact (Node.ids_within inner _).mem_iff.mp hmem
    rw [Node.pathIds, List.flatMap_append, List.flatMap_cons, Node.Frame.ids_holding]
    simp only [Node.idsAll_append, Node.idsAll, List.append_nil, List.mem_append,
      List.mem_cons] at hi hinner ⊢
    have hsame : ∀ frames : List Node.Frame, Node.pathIds frames = frames.flatMap Node.Frame.ids :=
      fun _ => rfl
    rw [hsame] at hi
    rw [hsame] at hinner
    tauto

end Stands

/-! ### The element opened last -/

section Top

variable {b : Builder} {e : Handle} {rest : List Handle} (hstack : b.stack = e :: rest)
include hstack

theorem popThrough_top {names : List String} (h : e.name.isHtml names = true) :
    b.popThrough names = { b with stack := rest } := by
  rw [popThrough, hstack, List.dropWhile_cons_of_neg (by simp [h]), List.drop_one, List.tail_cons]

theorem popTo_top {names : List String} (h : e.name.isHtml names = true) : b.popTo names = b := by
  have hkeep : b.stack.dropWhile (!·.name.isHtml names) = b.stack := by
    rw [hstack, List.dropWhile_cons_of_neg (by simp [h])]
  rw [popTo, hkeep]

theorem popImplied_top {names : List String} (h : e.name.isHtml names = false) :
    b.popImplied names = b := by
  have hkeep : b.stack.dropWhile (·.name.isHtml names) = b.stack := by
    rw [hstack, List.dropWhile_cons_of_neg (by simp [h])]
  rw [popImplied, hkeep]

theorem pop_top : b.pop = { b with stack := rest } := by rw [pop, hstack]; rfl

theorem currentIs_top (names : List String) : b.currentIs names = e.name.isHtml names := by
  rw [currentIs, hstack]
  rfl

theorem inScope_top {ends : ElementName → Bool} {names : List String}
    (h : e.name.isHtml names = true) : b.inScope ends names = true := by
  rw [inScope, hstack, reaches, h, Bool.true_or]

theorem endBlock_top {name : String} (h : e.name.isHtml [name] = true)
    (hends : e.name.isHtml impliedEnds = false) : b.endBlock name = { b with stack := rest } := by
  rw [endBlock, if_pos (inScope_top hstack h), popImplied_top hstack hends,
    popThrough_top hstack h]

theorem endOther_top {name : String} (h : e.name.isHtml [name] = true) :
    b.endOther name = { b with stack := rest } := by
  have hfind : b.stack.find? (fun e => e.name.isHtml [name] || e.name.isSpecial) = some e := by
    rw [hstack, List.find?_cons_of_pos (by simp [h])]
  rw [endOther, hfind]
  exact (if_pos h).trans (popThrough_top hstack h)

end Top

/-! ### Formatting elements -/

namespace Stands

variable {stack : List Handle} {path : List Node.Frame} {f : Node.Frame} {done : List Node}
  {b : Builder}

/-- All formatting elements are open. -/
theorem reopenFormatting_eq (h : Stands stack path f done b) : b.reopenFormatting = b := by
  have hclosed : b.formatting.takeWhile (!b.isSettled ·) = [] := by
    cases hformatting : b.formatting with
    | nil => rfl
    | cons m rest =>
      rw [List.takeWhile_cons_of_neg]
      cases m with
      | marker => simp [isSettled]
      | element e t =>
        have hopen : e ∈ stack := h.noted.mem (hformatting ▸ List.mem_cons_self)
        have hany : b.stack.any (·.id == e.id) = true :=
          List.any_eq_true.mpr ⟨e, h.stack_eq ▸ hopen, beq_self_eq_true _⟩
        simp [isSettled, hany]
  rw [reopenFormatting, hclosed]
  rfl

end Stands

theorem eraseLast_cases {α : Type} (p : α → Bool) (xs : List α) :
    eraseLast p xs = xs ∨
      ∃ before x behind, xs = before ++ x :: behind ∧ p x = true ∧
        eraseLast p xs = before ++ behind := by
  rcases List.exists_or_eq_self_of_eraseP p xs.reverse with
    heq | ⟨x, behind, before, -, hx, hsplit, heq⟩
  · exact .inl (by rw [eraseLast, heq, List.reverse_reverse])
  · refine .inr ⟨before.reverse, x, behind.reverse, ?_, hx, ?_⟩
    · rw [← List.reverse_reverse xs, hsplit]
      simp
    · rw [eraseLast, heq, List.reverse_append]

namespace Noted

theorem eraseLast {stack : List Handle} {recent older : List Formatting} {t : Tag}
    (h : Noted stack (recent ++ older)) :
    Noted stack (eraseLast (·.isAlike t) recent ++ older) := by
  rcases eraseLast_cases (·.isAlike t) recent with heq | ⟨before, m, behind, rfl, halike, heq⟩
  · rwa [heq]
  · cases m with
    | marker => cases halike
    | element e u =>
      rw [heq, List.append_assoc]
      rw [List.append_assoc, List.cons_append] at h
      exact h.drop

end Noted

namespace Stands

variable {stack : List Handle} {path : List Node.Frame} {f : Node.Frame} {done : List Node}
  {b : Builder}

/-- A formatting element is opened and noted. -/
theorem pushFormatting (h : Stands stack path f done b) {t : Tag} (hname : t.name ∈ formattingTags) :
    ∃ formatting, b.pushFormatting t = { b.push t with formatting } ∧
      Noted (newElement b t :: stack) formatting := by
  have htemplate : t.name ≠ "template" := fun heq => absurd (heq ▸ hname) (by decide)
  have hhandle : (b.pushElement .html t).1 = newElement b t := by
    rw [pushElement_eq, newHandle_eq htemplate]
  have hwhole : b.recentFormatting ++ b.formatting.drop b.recentFormatting.length = b.formatting :=
    List.prefix_iff_eq_append.mp (List.takeWhile_prefix _)
  have hnoted := h.noted
  rw [← hwhole] at hnoted
  refine ⟨.element (b.pushElement .html t).1 t :: ((if 3 ≤ b.recentFormatting.countP (·.isAlike t)
    then eraseLast (·.isAlike t) b.recentFormatting else b.recentFormatting) ++
      b.formatting.drop b.recentFormatting.length), rfl, ?_⟩
  rw [hhandle]
  refine .element ?_ rfl hname
  split
  · exact hnoted.eraseLast
  · exact hnoted

/-- The end tag of the element opened last closes that and drops its entry. -/
theorem endFormatting_eq {e : Handle} (h : Stands (e :: stack) path f done b) {name : String}
    (hname : e.name = ⟨.html, name⟩) (htag : name ∈ formattingTags) :
    ∃ formatting, Noted stack formatting ∧
      b.endFormatting name = { b with stack, formatting } := by
  obtain ⟨hfresh, hnodup⟩ := List.nodup_cons.mp h.nodup
  have hhtml : e.name.isHtml [name] = true := by simp [hname, ElementName.isHtml]
  have hmarker : e.name.isHtml markers = false := hname ▸ isHtml_markers_of_formattingTags htag
  have hstack : b.stack = e :: stack := h.stack_eq
  have hother {formatting : List Formatting} (hnoted : Noted stack formatting) :
      ∀ m ∈ formatting, m.isFor e = false := by
    intro m hm
    cases m with
    | marker => rfl
    | element e' t =>
      rw [Formatting.isFor, beq_eq_false_iff_ne]
      exact fun hid => hfresh (hid ▸ List.mem_map_of_mem (hnoted.mem hm))
  rw [Builder.endFormatting, hstack]
  dsimp only
  rcases h.noted.tail hmarker with hnoted | ⟨t, older, hformatting, hsame, -, hnoted⟩
  · -- the element is not noted any more
    have hnone : b.formatting.any (·.isFor e) = false := List.any_eq_false.mpr fun m hm => by
      rw [hother hnoted m hm]
      exact Bool.false_ne_true
    refine ⟨b.formatting, hnoted, ?_⟩
    rw [hhtml, hnone, if_pos (by rfl), pop_top hstack]
  · -- the element is the latest one that is noted
    have hself : (Formatting.element e t).isFor e = true := beq_self_eq_true _
    have hany : b.formatting.any (·.isFor e) = true := by
      rw [hformatting, List.any_cons, hself, Bool.true_or]
    have hfound : (t.name == name) = true := by
      rw [hname] at hsame
      rw [(ElementName.mk.inj hsame).2]
      exact beq_self_eq_true _
    have hdrop : b.formatting.filter (!·.isFor e) = older := by
      rw [hformatting, List.filter_cons_of_neg (by simp [hself]), List.filter_eq_self]
      exact fun m hm => by rw [hother hnoted m hm]; rfl
    have hrecent : b.recentFormatting = .element e t :: older.takeWhile Formatting.isElement := by
      rw [recentFormatting, hformatting, List.takeWhile_cons_of_pos (by rfl)]
    refine ⟨older, hnoted, ?_⟩
    rw [hany, Bool.not_true, Bool.and_false, if_neg Bool.false_ne_true, endFormattingFrom, hrecent,
      List.find?_cons_of_pos (by exact hfound)]
    dsimp only
    rw [hstack, List.takeWhile_cons_of_neg (by simp)]
    simp only [List.length_nil, List.drop_zero, reaches, beq_self_eq_true, Bool.true_or,
      Bool.not_true, Bool.false_eq_true, if_false, List.reverse_nil, List.find?_nil]
    rw [dropFormatting, hdrop]

end Stands

end TerseMarkup.Html
