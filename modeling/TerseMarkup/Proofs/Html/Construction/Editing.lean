import TerseMarkup.Html.Construction.Builder
import TerseMarkup.Proofs.Html.Edit

/-! Edits at a node that construction goes back to.

Construction takes a node out of the tree, or puts something before it, and knows the node by its
identity alone; text, comments and doctypes have none and are never gone back to. Where no identity
occurs twice, a node below the top stands in one place, inside the frames of its ancestors
(`exists_place`). An edit there changes the list of children that the node stands in, and every frame
around that list stays as it is (`edits_local`). What stands nowhere below the top is not found:
there is nothing to take out, and nothing can be put before it. -/
namespace TerseMarkup.Html

namespace Piece
open Node

/-- What a list of children becomes with a piece behind it. -/
inductive PutBehind : Piece → List Node → List Node → Prop
  /-- Text joins the text that the list ends with. -/
  | joined (cs : List Node) (s t : Text) :
    PutBehind (.text t) (cs ++ [.text s]) (cs ++ [.text (s ++ t)])
  | text {cs : List Node} (t : Text) (h : ∀ s, cs.getLast? ≠ some (.text s)) :
    PutBehind (.text t) cs (cs ++ [.text t])
  | node (cs : List Node) {n : Node} (h : n.isElement = true ∨ n.isComment = true) :
    PutBehind (.node n) cs (cs ++ [n])
  /-- Of the nodes, only elements and comments are taken. -/
  | dropped (cs : List Node) {n : Node} (helement : n.isElement = false)
      (hcomment : n.isComment = false) : PutBehind (.node n) cs cs

/-- What is put between children goes behind those before it, and those after it stay. -/
theorem insertAt_length (p : Piece) (before after : List Node) :
    ∃ before', p.PutBehind before before' ∧
      p.insertAt before.length (before ++ after) = before' ++ after := by
  rw [insertAt, List.splitAt_eq, List.take_left, List.drop_left]
  cases p with
  | text t =>
    dsimp only
    split
    next s hlast =>
      obtain ⟨cs, rfl⟩ := List.getLast?_eq_some_iff.mp hlast
      refine ⟨_, .joined cs s t, ?_⟩
      rw [List.dropLast_concat, List.append_assoc, List.singleton_append]
    next hlast => exact ⟨_, .text t hlast, (List.append_assoc _ [_] _).symm⟩
  | node n =>
    dsimp only
    split
    next htaken =>
      rw [Bool.or_eq_true] at htaken
      exact ⟨_, .node before htaken, (List.append_assoc _ [_] _).symm⟩
    next htaken =>
      rw [Bool.not_eq_true, Bool.or_eq_false_iff] at htaken
      exact ⟨_, .dropped before htaken.1 htaken.2, rfl⟩

end Piece

namespace Node

variable {n : Node} {t : NodeId}

theorem mem_ids_of_below (h : t ∈ idsAll n.children) : t ∈ n.ids := by
  cases n with
  | document | element => exact List.mem_cons_of_mem _ h
  | doctype | text | comment | placeholder => exact absurd h List.not_mem_nil

theorem id?_ne_of_below (hnodup : n.ids.Nodup) (h : t ∈ idsAll n.children) : n.id? ≠ some t := by
  intro hid
  rw [ids_eq hid] at hnodup
  exact (List.nodup_cons.mp hnodup).1 h

theorem locate?_of_not_below (h : t ∉ idsAll n.children) : n.locate? t = none := by
  cases n with
  | document id cs | element id _ _ cs =>
    have hchildren : t ∉ idsAll cs := h
    rw [locate?, position?_of_not_mem hchildren, locateAmong?_of_not_mem cs hchildren]
    rfl
  | doctype | text | comment | placeholder => rfl

/-- **A node below the top stands in one place**, which is found, and an edit of its parent's
children is made there. -/
theorem exists_place (hnodup : n.ids.Nodup) (h : t ∈ idsAll n.children) :
    ∃ path f m, n = within path (Frame.around f m) ∧ m.id? = some t ∧
      n.locate? t = some (f.id, f.before.length) ∧
      ∀ g, n.mapChildren f.id g = within path (f.branch (g (f.before ++ m :: f.after))) := by
  obtain ⟨path, f, m, rfl, hm, hpath, hf, hid⟩ :=
    exists_frame hnodup (mem_ids_of_below h) (id?_ne_of_below hnodup h)
  refine ⟨path, f, m, rfl, hm, ?_, mapChildren_within_frame hid⟩
  rw [locate?_within hpath (Frame.id?_around_ne hf), Frame.locate?_around_self hf hm]

end Node

namespace Builder
open Node

/-- **An edit is made in one place.** The targets are elements and documents, which alone have an
identity: they are the only nodes that the rules of construction hand back. Let no identity occur
twice in a tree. A node below the top is found in its parent at its position there. Taking it out
leaves its parent's other children, and what is put before it goes directly before it; text joins the
text that stands there. The frames around are the same in each case, so no other list of children
changes. Any other node is not found: the tree stays as it is, and that there is nothing to put a
piece before is noted as a failure. -/
theorem edits_local (b : Builder) (t : NodeId) (hnodup : b.root.ids.Nodup) :
    (t ∈ idsAll b.root.children →
      ∃ path f m, b.root = within path (Frame.around f m) ∧ m.id? = some t ∧
        b.root.locate? t = some (f.id, f.before.length) ∧
        b.root.remove t = within path (f.branch (f.before ++ f.after)) ∧
        ∀ p : Piece, ∃ before, p.PutBehind f.before before ∧
          b.putBefore t p = { b with root := within path (f.branch (before ++ m :: f.after)) }) ∧
    (t ∉ idsAll b.root.children →
      b.root.locate? t = none ∧ b.root.remove t = b.root ∧
        ∀ p : Piece, b.putBefore t p = { b with failed := true }) := by
  constructor
  · intro hbelow
    obtain ⟨path, f, m, hplace, hm, hlocate, hedit⟩ := exists_place hnodup hbelow
    refine ⟨path, f, m, hplace, hm, hlocate, ?_, fun p => ?_⟩
    · rw [remove, hlocate]
      dsimp only
      rw [hedit, List.eraseIdx_append_of_length_le (Nat.le_refl _), Nat.sub_self,
        List.eraseIdx_cons_zero]
    · obtain ⟨before, hbehind, hinsert⟩ := p.insertAt_length f.before (m :: f.after)
      refine ⟨before, hbehind, ?_⟩
      rw [putBefore, insertBefore?, hlocate, Option.map_some]
      dsimp only
      rw [hedit, hinsert]
  · intro hbelow
    have hlocate := locate?_of_not_below hbelow
    refine ⟨hlocate, ?_, fun p => ?_⟩
    · rw [remove, hlocate]
    · rw [putBefore, insertBefore?, hlocate]
      rfl

/-- An element between text and a comment, and one that is not in the tree. -/
theorem edits_local_span :
    let span : Node := .element 2 ⟨.html, "span"⟩ [] []
    let b : Builder := {
      root := .document 0 [.element 1 ⟨.html, "div"⟩ [] [.text "x".toList, span, .comment []]] }
    (b.root.ids.Nodup ∧ 2 ∈ idsAll b.root.children ∧ 3 ∉ idsAll b.root.children) ∧
      (∃ path f m, b.root = within path (Frame.around f m) ∧ m.id? = some 2 ∧
        b.root.locate? 2 = some (f.id, f.before.length) ∧
        b.root.remove 2 = within path (f.branch (f.before ++ f.after)) ∧
        ∀ p : Piece, ∃ before, p.PutBehind f.before before ∧
          b.putBefore 2 p = { b with root := within path (f.branch (before ++ m :: f.after)) }) ∧
      b.root.locate? 3 = none ∧ b.root.remove 3 = b.root ∧
        ∀ p : Piece, b.putBefore 3 p = { b with failed := true } := by
  intro span b
  have hnodup : b.root.ids.Nodup := by decide
  have hbelow : 2 ∈ idsAll b.root.children := by decide
  have hnot : 3 ∉ idsAll b.root.children := by decide
  exact ⟨⟨hnodup, hbelow, hnot⟩, (edits_local b 2 hnodup).1 hbelow, (edits_local b 3 hnodup).2 hnot⟩

end Builder
end TerseMarkup.Html
