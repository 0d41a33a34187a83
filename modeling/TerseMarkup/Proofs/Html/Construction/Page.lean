import TerseMarkup.Proofs.Html.Construction.Nested.Token

/-! Construction of a whole page.

Outside its head and its body a page takes little. Before the outermost element (`BeforeRoot`) and
behind it (`BehindRoot`) comments go to the end of the document, before the body (`InRoot`) and behind
it (`BehindBody`) to the end of the outermost element. The start tag of the head or of the body opens a
node in which construction rests as it does in any other, and the end tag leads on. -/
namespace TerseMarkup.Html
open Builder

section

variable {before done : List Node} {attributes : List Attribute} {b : Builder} {mode : Mode}

/-- Where no line feed is to be dropped, the next token is looked at as it is. -/
theorem accept_of_plain (h : b.dropNewline = false) {t : Token} (ht : t.isMark = true ∨ t = .eof) :
    b.accept t = b.take t := by
  have hplain : ({ b with dropNewline := false } : Builder) = b := by rw [← h]
  rcases ht with ht | rfl
  · cases t <;> first | exact congrArg (take · _) hplain | cases ht
  · exact congrArg (take · _) hplain

/-- A comment goes to the end of the document. -/
theorem putCommentBehind_eq (h : b.root = .document 0 done) (c : Text) :
    b.putCommentBehind c = { b with root := .document 0 (done ++ [.comment c]) } := by
  have hroot : b.root.append 0 (.node (.comment c)) = .document 0 (done ++ [.comment c]) := by
    rw [h, Node.append, Node.mapChildren_self (by rfl)]
    exact congrArg (Node.document 0) (insertAt_node (.inr rfl) done)
  rw [putCommentBehind, putAt, hroot]

/-! ### Before the outermost element -/

/-- Nothing has been opened; the document holds comments and a doctype at most. -/
structure BeforeRoot (mode : Mode) (done : List Node) (b : Builder) : Prop where
  state_eq : ∃ oldLayout, b = { root := .document 0 done, mode, oldLayout }
  idsAll_eq : Node.idsAll done = []
  mode_mem : mode ∈ [Mode.initial, .beforeHtml]

namespace BeforeRoot

theorem start : BeforeRoot .initial [] {} := ⟨⟨false, rfl⟩, rfl, by decide⟩

theorem content (h : BeforeRoot mode done b) : b.content = .data := by
  obtain ⟨oldLayout, rfl⟩ := h.state_eq
  rfl

/-- A comment goes to the end of the document. -/
theorem accept_comment (h : BeforeRoot mode done b) (c : Text) :
    BeforeRoot mode (done ++ [.comment c]) (b.accept (.comment c)) := by
  obtain ⟨⟨oldLayout, rfl⟩, hids, hmode⟩ := h
  have hstep : Builder.step { root := .document 0 done, mode, oldLayout } (.comment c) =
      .done (Builder.putCommentBehind { root := .document 0 done, mode, oldLayout } c) := by
    fin_cases hmode <;> rfl
  rw [accept_of_plain rfl (.inl rfl), take_of_done hstep, putCommentBehind_eq rfl]
  exact ⟨⟨oldLayout, rfl⟩, by rw [Node.idsAll_append, hids]; rfl, hmode⟩

/-- A doctype goes there too, if none has come before it. -/
theorem accept_doctype (h : BeforeRoot .initial done b) (d : Doctype) :
    BeforeRoot .beforeHtml
      (done ++ [.doctype (d.name.getD []) (d.publicId.getD []) (d.systemId.getD [])])
      (b.accept (.doctype d)) := by
  obtain ⟨⟨oldLayout, rfl⟩, hids, -⟩ := h
  have hroot (node : Node) : (Node.document 0 done).mapChildren 0 (· ++ [node]) =
      .document 0 (done ++ [node]) := by
    rw [Node.mapChildren_self (by rfl)]
    rfl
  refine ⟨⟨d.isOld, ?_⟩, by rw [Node.idsAll_append, hids]; rfl, by decide⟩
  rw [← hroot]
  rfl

end BeforeRoot

/-! ### In the outermost element -/

/-- The outermost element. -/
def rootHandle : Handle := ⟨1, ⟨.html, "html"⟩, 1⟩

/-- The frame of the outermost element. -/
def rootFrame (attributes : List Attribute) : Node.Frame :=
  .element 1 ⟨.html, "html"⟩ attributes [] []

/-- Construction is in the outermost element, before its body and not in its head. -/
structure InRoot (before : List Node) (attributes : List Attribute) (mode : Mode)
    (done : List Node) (b : Builder) : Prop where
  stands : Stands [rootHandle] [.document 0 before []] (rootFrame attributes) done b
  mode_eq : b.mode = mode
  content : b.content = .data
  tableText : b.tableText = []
  form : b.form = none
  dropNewline : b.dropNewline = false

/-- **The start tag of the outermost element opens it.** -/
theorem BeforeRoot.accept_html (h : BeforeRoot mode done b) (attributes : List Attribute) :
    InRoot done attributes .beforeHead [] (b.accept (.start { name := "html", attributes })) := by
  obtain ⟨⟨oldLayout, rfl⟩, hids, hmode⟩ := h
  have hroot : (Node.document 0 done).append 0 (.node (.element 1 ⟨.html, "html"⟩ attributes [])) =
      .document 0 (done ++ [.element 1 ⟨.html, "html"⟩ attributes []]) := by
    rw [Node.append, Node.mapChildren_self (by rfl)]
    exact congrArg (Node.document 0) (insertAt_node (.inl rfl) done)
  obtain ⟨oldLayout', hopened⟩ : ∃ oldLayout',
      Builder.accept { root := .document 0 done, mode, oldLayout }
          (.start { name := "html", attributes }) =
        { root := (Node.document 0 done).append 0 (.node (.element 1 ⟨.html, "html"⟩ attributes []))
          nextId := 2
          stack := [rootHandle]
          mode := .beforeHead
          oldLayout := oldLayout' } := by
    fin_cases hmode
    · exact ⟨true, rfl⟩
    · exact ⟨oldLayout, rfl⟩
  rw [hopened, hroot]
  refine ⟨?_, rfl, rfl, rfl, rfl, rfl⟩
  exact
    { root_eq := rfl
      stack_eq := rfl
      nonempty := List.cons_ne_nil _ _
      target := by simp [rootHandle, rootFrame, Node.Frame.id]
      not_mem := by simp [rootFrame, Node.Frame.id, Node.pathIds, Node.Frame.ids, Node.Frame.before,
        Node.Frame.after, Node.idsAll, hids]
      lt_next := by simp [rootFrame, Node.Frame.id, Node.pathIds, Node.Frame.ids, Node.Frame.before,
        Node.Frame.after, Node.idsAll, hids]
      handles := by simp [rootHandle]
      nodup := by simp
      noted := .skip .nil (by decide)
      fostering := rfl
      failed := rfl }

namespace InRoot

theorem step_eq (h : InRoot before attributes mode done b) (t : Token) : b.step t = b.inMode t :=
  h.stands.step_html rfl t

/-- A comment goes to the end of the outermost element. -/
theorem accept_comment (h : InRoot before attributes mode done b)
    (hmode : mode ∈ [Mode.beforeHead, .afterHead]) (c : Text) :
    InRoot before attributes mode (done ++ [.comment c]) (b.accept (.comment c)) := by
  have hstep : b.step (.comment c) = .done (b.putComment c) := by
    rw [h.step_eq, inMode, h.mode_eq]
    fin_cases hmode <;> rfl
  have hput := h.stands.put_eq (.node (.comment c))
  have hcomment := h.stands.putComment c
  rw [accept_of_plain h.dropNewline (.inl rfl), take_of_done hstep]
  rw [putComment, hput] at hcomment ⊢
  exact ⟨hcomment, h.mode_eq, h.content, h.tableText, h.form, h.dropNewline⟩

/-- Behind the head spaces stay where they are. -/
theorem accept_spaces (h : InRoot before attributes .afterHead done b) {s : Text} (hs : s ≠ [])
    (hspaces : isSpaces s = true) :
    InRoot before attributes .afterHead (joined done s) (b.accept (.text s)) := by
  have hstep : b.step (.text s) = .done (b.putText s) := by
    rw [h.step_eq, inMode, h.mode_eq]
    exact if_pos hspaces
  have haccept : b.accept (.text s) = b.putText s := by
    have hplain : ({ b with dropNewline := false } : Builder) = b := by rw [← h.dropNewline]
    have hone : s.splitBy _ = [s] := runs_of_isSpaces hs hspaces
    rw [Builder.accept_text fun hdrop => absurd (h.dropNewline.symm.trans hdrop) Bool.false_ne_true,
      hplain, Builder.acceptText, hone]
    exact take_of_done hstep
  have hput := h.stands.put_eq (.text s)
  have htext := h.stands.putText s
  rw [haccept]
  rw [putText, hput] at htext ⊢
  exact ⟨htext, h.mode_eq, h.content, h.tableText, h.form, h.dropNewline⟩

end InRoot

/-! ### The head and the body -/

section Part

variable {id : NodeId} {attributes' : List Attribute} {f' : Node.Frame} {done' : List Node}
  {b' : Builder}

/-- A part of the page. -/
abbrev partHandle (id : NodeId) (name : String) : Handle := ⟨id, ⟨.html, name⟩, id⟩

/-- What is around a part of the page. -/
abbrev partPath (before : List Node) (attributes : List Attribute) (done : List Node) :
    List Node.Frame := [.document 0 before [], (rootFrame attributes).holding done]

/-- Construction rests in a part of the page that has been opened, in the part's own mode. -/
theorem InRoot.rests_part (h : InRoot before attributes mode done b) {name : String} {mode' : Mode}
    (hpart : (name, mode') ∈ [("head", Mode.inHead), ("body", .inBody)])
    (attributes' : List Attribute) (head : Option Handle) (framesetOk : Bool) :
    Rests [partHandle b.nextId name, rootHandle] (partPath before attributes done)
        (.element b.nextId ⟨.html, name⟩ attributes' [] []) []
        { b.push { name, attributes := attributes' } with head, mode := mode', framesetOk } ∧
      (b.push { name, attributes := attributes' }).dropNewline = false := by
  have hall : ∀ part ∈ [("head", Mode.inHead), ("body", .inBody)], part.1 ≠ "template" ∧
      part.1 ∉ markers ∧ part.1 ≠ "form" := by decide
  obtain ⟨htemplate, hmarker, hform⟩ := hall _ hpart
  have hstands := h.stands.push (t := { name, attributes := attributes' }) htemplate
    (h.stands.noted.skip (by simp [ElementName.isHtml, hmarker]))
  obtain ⟨root, nextId, stack', failed, heq⟩ := push_eq b { name, attributes := attributes' }
  rw [heq] at hstands ⊢
  refine ⟨⟨{ hstands with }, h.content, h.tableText, .inl ?_, ?_⟩, h.dropNewline⟩
  · fin_cases hpart <;> simp [namesOf, Setting.of, Setting.modes, modeFor]
  · exact h.form.trans (openForm_cons (by simp [ElementName.isHtml, hform]) [rootHandle]).symm

/-- **The start tag of the head opens it.** -/
theorem InRoot.accept_head (h : InRoot before attributes .beforeHead done b)
    (attributes' : List Attribute) :
    Rests [partHandle b.nextId "head", rootHandle] (partPath before attributes done)
        (.element b.nextId ⟨.html, "head"⟩ attributes' [] []) []
        (b.accept (.start { name := "head", attributes := attributes' })) ∧
      (b.accept (.start { name := "head", attributes := attributes' })).dropNewline = false := by
  set t : Tag := { name := "head", attributes := attributes' }
  have hstep : b.step (.start t) = .done { b.push t with
      head := some (b.pushElement .html t).1, mode := .inHead } := by
    rw [h.step_eq, inMode, h.mode_eq]
    rfl
  rw [accept_of_plain h.dropNewline (.inl rfl), take_of_done hstep]
  exact h.rests_part (by decide) attributes' _ _

/-- **The end tag of the head leads on to the body.** -/
theorem InRoot.accept_finish_head (h : InRoot before attributes .beforeHead done b)
    (hrests : Rests [partHandle id "head", rootHandle] (partPath before attributes done) f' done'
      b') :
    InRoot before attributes .afterHead (done ++ [f'.branch done']) (b'.accept (.finish "head")) := by
  have hplain := hrests.plain
  have hmode : b'.mode = .inHead := List.mem_singleton.mp
    (hrests.mode_mem (show Setting.metadata ≠ .flow by decide))
  have hstep : Builder.step { b' with dropNewline := false } (.finish "head") =
      .done { Builder.pop { b' with dropNewline := false } with mode := .afterHead } := by
    rw [hplain.stands.step_html rfl, inMode]
    dsimp only
    rw [hmode]
    rfl
  have htake : b'.accept (.finish "head") = _ := take_of_done hstep
  have hnoted : Noted [rootHandle] b'.formatting :=
    hrests.stands.noted.tail_plain (by rfl) (show "head" ∉ formattingTags by decide)
  have hclosed : Stands [rootHandle] [.document 0 before []] (rootFrame attributes)
      (done ++ [f'.branch done']) { b' with dropNewline := false, stack := [rootHandle] } :=
    h.stands.close hplain.stands hnoted
  rw [htake, pop_top hplain.stands.stack_eq]
  exact ⟨{ hclosed with }, rfl, hrests.content, hrests.tableText, hrests.form, rfl⟩

/-- **The start tag of the body opens it.** -/
theorem InRoot.accept_body (h : InRoot before attributes .afterHead done b)
    (attributes' : List Attribute) :
    Rests [partHandle b.nextId "body", rootHandle] (partPath before attributes done)
        (.element b.nextId ⟨.html, "body"⟩ attributes' [] []) []
        (b.accept (.start { name := "body", attributes := attributes' })) ∧
      (b.accept (.start { name := "body", attributes := attributes' })).dropNewline = false := by
  set t : Tag := { name := "body", attributes := attributes' }
  have hstep : b.step (.start t) = .done { b.push t with mode := .inBody, framesetOk := false } := by
    rw [h.step_eq, inMode, h.mode_eq]
    rfl
  rw [accept_of_plain h.dropNewline (.inl rfl), take_of_done hstep]
  exact h.rests_part (by decide) attributes' _ _

/-! ### Behind the body -/

/-- The body has been closed. It stays among the open elements, but nothing is put into it. -/
structure BodyClosed (mode : Mode) (b : Builder) : Prop where
  stack_eq : ∃ id, b.stack = [partHandle id "body", rootHandle]
  mode_eq : b.mode = mode
  content : b.content = .data
  dropNewline : b.dropNewline = false
  failed : b.failed = false

/-- Construction is in the outermost element, behind the body. -/
structure BehindBody (before : List Node) (attributes : List Attribute) (done : List Node)
    (b : Builder) : Prop extends BodyClosed .afterBody b where
  root_eq : b.root = Node.within [.document 0 before []] ((rootFrame attributes).branch done)
  not_mem : (rootFrame attributes).id ∉ Node.pathIds [.document 0 before []]

/-- Construction is behind the outermost element. -/
structure BehindRoot (done : List Node) (b : Builder) : Prop extends
    BodyClosed .afterAfterBody b where
  root_eq : b.root = .document 0 done

theorem BodyClosed.step_eq (h : BodyClosed mode b) (t : Token) : b.step t = b.inMode t := by
  obtain ⟨id, hstack⟩ := h.stack_eq
  have hforeign : b.isForeign t = false := by
    rw [isForeign, hstack]
    cases t <;> rfl
  rw [step, hforeign, if_neg Bool.false_ne_true]

/-- **The end tag of the body leads on.** -/
theorem InRoot.accept_finish_body (h : InRoot before attributes .afterHead done b)
    (hrests : Rests [partHandle id "body", rootHandle] (partPath before attributes done) f' done'
      b') :
    BehindBody before attributes (done ++ [f'.branch done']) (b'.accept (.finish "body")) := by
  have hplain := hrests.plain
  have hmode : b'.mode = .inBody := hrests.inForce.eq_reset rfl
  have hopen :
      Builder.inScope { b' with dropNewline := false } ElementName.endsScope ["body"] = true :=
    inScope_top hplain.stands.stack_eq (by rfl)
  have hstep : Builder.step { b' with dropNewline := false } (.finish "body") =
      .done { b' with dropNewline := false, mode := .afterBody } := by
    rw [hplain.stands.step_html rfl, inMode]
    dsimp only
    rw [hmode]
    exact congrArg Outcome.done (if_pos hopen)
  have htake : b'.accept (.finish "body") = _ := take_of_done hstep
  rw [htake]
  refine ⟨⟨⟨id, hrests.stands.stack_eq⟩, rfl, hrests.content, rfl, hrests.stands.failed⟩, ?_,
    h.stands.not_mem⟩
  show b'.root = _
  rw [hrests.stands.root_eq]
  exact congrArg (Node.within [.document 0 before []])
    (Node.Frame.around_holding (rootFrame attributes) done (f'.branch done'))

namespace BehindBody

/-- A comment goes to the end of the outermost element. -/
theorem accept_comment (h : BehindBody before attributes done b) (c : Text) :
    BehindBody before attributes (done ++ [.comment c]) (b.accept (.comment c)) := by
  have hlast : b.stack.getLast? = some rootHandle := by
    obtain ⟨id, hstack⟩ := h.stack_eq
    rw [hstack]
    rfl
  have hroot : b.root.append rootHandle.id (.node (.comment c)) =
      Node.within [.document 0 before []] ((rootFrame attributes).branch (done ++ [.comment c])) := by
    have hid : rootHandle.id = (rootFrame attributes).id := rfl
    rw [Node.append, h.root_eq, hid, Node.mapChildren_within h.not_mem, Node.mapChildren_self (by rfl)]
    exact congrArg (fun cs => Node.within [.document 0 before []] ((rootFrame attributes).branch cs))
      (insertAt_node (.inr rfl) done)
  have hput : b.putCommentInRoot c =
      { b with root := b.root.append rootHandle.id (.node (.comment c)) } := by
    rw [putCommentInRoot, hlast]
    rfl
  have hstep : b.step (.comment c) = .done (b.putCommentInRoot c) := by
    rw [h.step_eq, inMode, h.mode_eq]
    rfl
  rw [accept_of_plain h.dropNewline (.inl rfl), take_of_done hstep, hput, hroot]
  exact { h with root_eq := rfl }

/-- **The end tag of the outermost element leads on.** -/
theorem accept_finish (h : BehindBody before attributes done b) :
    BehindRoot (before ++ [.element 1 ⟨.html, "html"⟩ attributes done])
      (b.accept (.finish "html")) := by
  have hstep : b.step (.finish "html") = .done { b with mode := .afterAfterBody } := by
    rw [h.step_eq, inMode, h.mode_eq]
    rfl
  rw [accept_of_plain h.dropNewline (.inl rfl), take_of_done hstep]
  exact { h with mode_eq := rfl, root_eq := h.root_eq }

end BehindBody

namespace BehindRoot

/-- A comment goes to the end of the document. -/
theorem accept_comment (h : BehindRoot done b) (c : Text) :
    BehindRoot (done ++ [.comment c]) (b.accept (.comment c)) := by
  have hstep : b.step (.comment c) = .done (b.putCommentBehind c) := by
    rw [h.step_eq, inMode, h.mode_eq]
    rfl
  rw [accept_of_plain h.dropNewline (.inl rfl), take_of_done hstep, putCommentBehind_eq h.root_eq]
  exact { h with root_eq := rfl }

/-- The end of the text changes nothing. -/
theorem accept_eof (h : BehindRoot done b) : b.accept .eof = b := by
  have hstep : b.step .eof = .done b := by
    rw [h.step_eq, inMode, h.mode_eq]
    rfl
  rw [accept_of_plain h.dropNewline (.inr rfl), take_of_done hstep]

end BehindRoot
end Part

end
end TerseMarkup.Html
