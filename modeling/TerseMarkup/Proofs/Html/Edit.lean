import Mathlib.Data.List.Nodup
import TerseMarkup.Html.Node.Edit

/-! Edits seen from the place where they happen.

Where no identity occurs twice, a tree is a node with frames around it, one for each of its
ancestors, and none of the frames has the node's identity (`exists_within`). An edit of the node
leaves the frames alone (`mapChildren_within`); taking it out leaves the innermost frame without it
(`remove_within`). -/
namespace TerseMarkup.Html
namespace Node

mutual

/-- The identities in a tree, in the order of the document. -/
def ids : Node → List NodeId
  | document id cs => id :: idsAll cs
  | element id _ _ cs => id :: idsAll cs
  | doctype _ _ _ => []
  | text _ => []
  | comment _ => []
  | placeholder => []

def idsAll : List Node → List NodeId
  | [] => []
  | n :: rest => n.ids ++ idsAll rest

end

theorem idsAll_append (xs ys : List Node) : idsAll (xs ++ ys) = idsAll xs ++ idsAll ys := by
  induction xs with
  | nil => rfl
  | cons x xs ih => simp [idsAll, ih]

theorem idsAll_eq_flatMap (cs : List Node) : idsAll cs = cs.flatMap ids := by
  induction cs with
  | nil => rfl
  | cons c cs ih => rw [idsAll, ih, List.flatMap_cons]

theorem mem_idsAll {cs : List Node} {i : NodeId} : i ∈ idsAll cs ↔ ∃ c ∈ cs, i ∈ c.ids := by
  rw [idsAll_eq_flatMap, List.mem_flatMap]

/-- The node with other children, if it can have any. -/
def withChildren : Node → List Node → Node
  | document id _, cs => document id cs
  | element id name attributes _, cs => element id name attributes cs
  | n, _ => n

theorem ids_eq {n : Node} {t : NodeId} (h : n.id? = some t) : n.ids = t :: idsAll n.children := by
  cases n <;> simp_all [id?, ids, children]

theorem ids_withChildren {n : Node} {t : NodeId} (h : n.id? = some t) (cs : List Node) :
    (n.withChildren cs).ids = t :: idsAll cs := by
  cases n <;> simp_all [id?, withChildren, ids]

theorem mem_ids_of_id? {n : Node} {t : NodeId} (h : n.id? = some t) : t ∈ n.ids := by
  rw [ids_eq h]
  exact List.mem_cons_self

theorem id?_mapChildren (t : NodeId) (f : List Node → List Node) (n : Node) :
    (n.mapChildren t f).id? = n.id? := by
  cases n <;> rfl

theorem id?_remove (n : Node) (t : NodeId) : (n.remove t).id? = n.id? := by
  rw [remove]
  split
  · exact id?_mapChildren _ _ n
  · rfl

/-! ### What is not there -/

mutual

theorem mapChildren_of_not_mem {t : NodeId} (f : List Node → List Node) : (n : Node) →
    t ∉ n.ids → n.mapChildren t f = n
  | document id cs, h | element id _ _ cs, h => by
    simp only [ids, List.mem_cons, not_or] at h
    rw [mapChildren, if_neg (Ne.symm h.1), mapChildrenAll_of_not_mem f cs h.2]
  | doctype _ _ _, _ | text _, _ | comment _, _ | placeholder, _ => rfl

theorem mapChildrenAll_of_not_mem {t : NodeId} (f : List Node → List Node) : (cs : List Node) →
    t ∉ idsAll cs → mapChildrenAll t f cs = cs
  | [], _ => rfl
  | c :: rest, h => by
    simp only [idsAll, List.mem_append, not_or] at h
    rw [mapChildrenAll, mapChildren_of_not_mem f c h.1, mapChildrenAll_of_not_mem f rest h.2]

end

mutual

theorem find?_of_not_mem {t : NodeId} : (n : Node) → t ∉ n.ids → n.find? t = none
  | document id cs, h | element id _ _ cs, h => by
    simp only [ids, List.mem_cons, not_or] at h
    rw [find?, if_neg (Ne.symm h.1), findAmong?_of_not_mem cs h.2]
  | doctype _ _ _, _ | text _, _ | comment _, _ | placeholder, _ => rfl

theorem findAmong?_of_not_mem {t : NodeId} : (cs : List Node) → t ∉ idsAll cs →
    findAmong? t cs = none
  | [], _ => rfl
  | c :: rest, h => by
    simp only [idsAll, List.mem_append, not_or] at h
    rw [findAmong?, find?_of_not_mem c h.1, findAmong?_of_not_mem rest h.2]
    rfl

end

theorem position?_of_not_mem {t : NodeId} {cs : List Node} (h : t ∉ idsAll cs) :
    position? t cs = none := by
  rw [position?, List.findIdx?_eq_none_iff]
  intro c hc
  rw [beq_eq_false_iff_ne]
  intro hid
  exact h (mem_idsAll.mpr ⟨c, hc, mem_ids_of_id? hid⟩)

mutual

theorem locate?_of_not_mem {t : NodeId} : (n : Node) → t ∉ n.ids → n.locate? t = none
  | document id cs, h | element id _ _ cs, h => by
    simp only [ids, List.mem_cons, not_or] at h
    rw [locate?, position?_of_not_mem h.2, locateAmong?_of_not_mem cs h.2]
    rfl
  | doctype _ _ _, _ | text _, _ | comment _, _ | placeholder, _ => rfl

theorem locateAmong?_of_not_mem {t : NodeId} : (cs : List Node) → t ∉ idsAll cs →
    locateAmong? t cs = none
  | [], _ => rfl
  | c :: rest, h => by
    simp only [idsAll, List.mem_append, not_or] at h
    rw [locateAmong?, locate?_of_not_mem c h.1, locateAmong?_of_not_mem rest h.2]
    rfl

end

/-! ### What is found -/

theorem find?_self {n : Node} {t : NodeId} (h : n.id? = some t) : n.find? t = some n := by
  cases n <;> simp_all [id?, find?]

theorem mapChildren_self {n : Node} {t : NodeId} (h : n.id? = some t)
    (f : List Node → List Node) : n.mapChildren t f = n.withChildren (f n.children) := by
  cases n <;> simp_all [id?, mapChildren, withChildren, children]

/-- A node with children, around one of them. -/
inductive Frame
  | document (id : NodeId) (before after : List Node)
  | element (id : NodeId) (name : ElementName) (attributes : List Attribute)
      (before after : List Node)

namespace Frame

def id : Frame → NodeId
  | document id _ _ => id
  | element id _ _ _ _ => id

def before : Frame → List Node
  | document _ before _ => before
  | element _ _ _ before _ => before

def after : Frame → List Node
  | document _ _ after => after
  | element _ _ _ _ after => after

/-- The node with other children. -/
def branch : Frame → List Node → Node
  | document id _ _, cs => .document id cs
  | element id name attributes _ _, cs => .element id name attributes cs

def around (f : Frame) (n : Node) : Node := f.branch (f.before ++ n :: f.after)

/-- The identities in a frame, without those of the child that it is around. -/
def ids (f : Frame) : List NodeId := f.id :: (idsAll f.before ++ idsAll f.after)

theorem ids_branch (f : Frame) (cs : List Node) : (f.branch cs).ids = f.id :: idsAll cs := by
  cases f <;> rfl

theorem id?_branch (f : Frame) (cs : List Node) : (f.branch cs).id? = some f.id := by
  cases f <;> rfl

theorem children_branch (f : Frame) (cs : List Node) : (f.branch cs).children = cs := by
  cases f <;> rfl

theorem withChildren_branch (f : Frame) (cs cs' : List Node) :
    (f.branch cs).withChildren cs' = f.branch cs' := by
  cases f <;> rfl

theorem ids_around (f : Frame) (n : Node) : (f.around n).ids.Perm (f.ids ++ n.ids) := by
  rw [around, ids_branch, idsAll_append, idsAll, ids, List.cons_append, List.append_assoc]
  exact (List.perm_append_comm.append_left _).cons _

variable {f : Frame} {n : Node} {t : NodeId}

theorem not_mem_ids (h : t ∉ f.ids) : t ≠ f.id ∧ t ∉ idsAll f.before ∧ t ∉ idsAll f.after := by
  simpa [ids] using h

theorem mapChildren_branch (h : t ≠ f.id) (g : List Node → List Node) (cs : List Node) :
    (f.branch cs).mapChildren t g = f.branch (mapChildrenAll t g cs) := by
  cases f with
  | document id _ _ => exact congrArg (Node.document id) (if_neg (Ne.symm h))
  | element id name attributes _ _ =>
    exact congrArg (Node.element id name attributes) (if_neg (Ne.symm h))

theorem find?_branch (h : t ≠ f.id) (cs : List Node) :
    (f.branch cs).find? t = findAmong? t cs := by
  cases f <;> exact if_neg (Ne.symm h)

theorem locate?_branch (f : Frame) (t : NodeId) (cs : List Node) :
    (f.branch cs).locate? t = ((position? t cs).map (f.id, ·)).or (locateAmong? t cs) := by
  cases f <;> rfl

end Frame

theorem mapChildrenAll_append (t : NodeId) (g : List Node → List Node) (xs ys : List Node) :
    mapChildrenAll t g (xs ++ ys) = mapChildrenAll t g xs ++ mapChildrenAll t g ys := by
  induction xs with
  | nil => rfl
  | cons x xs ih => simp [mapChildrenAll, ih]

theorem findAmong?_append (t : NodeId) (xs ys : List Node) :
    findAmong? t (xs ++ ys) = (findAmong? t xs).or (findAmong? t ys) := by
  induction xs with
  | nil => rfl
  | cons x xs ih => simp [findAmong?, ih, Option.or_assoc]

theorem locateAmong?_append (t : NodeId) (xs ys : List Node) :
    locateAmong? t (xs ++ ys) = (locateAmong? t xs).or (locateAmong? t ys) := by
  induction xs with
  | nil => rfl
  | cons x xs ih => simp [locateAmong?, ih, Option.or_assoc]

namespace Frame

variable {f : Frame} {n : Node} {t : NodeId}

theorem mapChildren_around (h : t ∉ f.ids) (g : List Node → List Node) :
    (f.around n).mapChildren t g = f.around (n.mapChildren t g) := by
  obtain ⟨hid, hbefore, hafter⟩ := not_mem_ids h
  rw [around, mapChildren_branch hid, mapChildrenAll_append, mapChildrenAll,
    mapChildrenAll_of_not_mem g _ hbefore, mapChildrenAll_of_not_mem g _ hafter]
  rfl

theorem find?_around (h : t ∉ f.ids) : (f.around n).find? t = n.find? t := by
  obtain ⟨hid, hbefore, hafter⟩ := not_mem_ids h
  rw [around, find?_branch hid, findAmong?_append, findAmong?, findAmong?_of_not_mem _ hbefore,
    findAmong?_of_not_mem _ hafter, Option.none_or, Option.or_none]

/-- The child in the frame has its place there. -/
theorem locate?_around_self (h : t ∉ f.ids) (hn : n.id? = some t) :
    (f.around n).locate? t = some (f.id, f.before.length) := by
  obtain ⟨-, hbefore, -⟩ := not_mem_ids h
  have hposition : position? t (f.before ++ n :: f.after) = some f.before.length := by
    have hnone := position?_of_not_mem hbefore
    rw [position?] at hnone ⊢
    rw [List.findIdx?_append, hnone]
    simp [List.findIdx?_cons, hn]
  rw [around, locate?_branch, hposition]
  rfl

/-- What stands deeper is not found in the frame. -/
theorem locate?_around (h : t ∉ f.ids) (hn : n.id? ≠ some t) :
    (f.around n).locate? t = n.locate? t := by
  obtain ⟨-, hbefore, hafter⟩ := not_mem_ids h
  have hposition : position? t (f.before ++ n :: f.after) = none := by
    have hnone := position?_of_not_mem hbefore
    have hnone' := position?_of_not_mem hafter
    rw [position?, List.findIdx?_eq_none_iff] at hnone hnone' ⊢
    intro c hc
    rcases List.mem_append.mp hc with hc | hc
    · exact hnone c hc
    · rcases List.mem_cons.mp hc with rfl | hc
      · exact beq_eq_false_iff_ne.mpr hn
      · exact hnone' c hc
  rw [around, locate?_branch, hposition, locateAmong?_append, locateAmong?,
    locateAmong?_of_not_mem _ hbefore, locateAmong?_of_not_mem _ hafter]
  simp

end Frame

mutual

theorem mem_ids_of_locate? {t parent : NodeId} {i : Nat} : (m : Node) →
    m.locate? t = some (parent, i) → parent ∈ m.ids
  | document id cs, h | element id _ _ cs, h => by
    rw [locate?, Option.or_eq_some_iff, Option.map_eq_some_iff] at h
    rcases h with ⟨k, -, heq⟩ | ⟨-, h⟩
    · obtain ⟨rfl, -⟩ := Prod.mk.inj heq
      exact List.mem_cons_self
    · exact List.mem_cons_of_mem _ (mem_idsAll_of_locateAmong? cs h)
  | doctype _ _ _, h | text _, h | comment _, h | placeholder, h => nomatch h

theorem mem_idsAll_of_locateAmong? {t parent : NodeId} {i : Nat} : (cs : List Node) →
    locateAmong? t cs = some (parent, i) → parent ∈ idsAll cs
  | [], h => nomatch h
  | c :: rest, h => by
    rw [locateAmong?, Option.or_eq_some_iff] at h
    rcases h with h | ⟨-, h⟩
    · exact List.mem_append_left _ (mem_ids_of_locate? c h)
    · exact List.mem_append_right _ (mem_idsAll_of_locateAmong? rest h)

end

/-! ### Frames around frames -/

/-- The node inside frames, the outermost first. -/
def within (path : List Frame) (n : Node) : Node := path.foldr Frame.around n

/-- The identities in frames. -/
def pathIds (path : List Frame) : List NodeId := path.flatMap Frame.ids

theorem within_append (path path' : List Frame) (n : Node) :
    within (path ++ path') n = within path (within path' n) := List.foldr_append

theorem ids_within (path : List Frame) (n : Node) :
    (within path n).ids.Perm (pathIds path ++ n.ids) := by
  induction path with
  | nil => exact .refl _
  | cons f path ih =>
    show (f.around (within path n)).ids.Perm _
    rw [pathIds, List.flatMap_cons, List.append_assoc]
    exact (f.ids_around _).trans (ih.append_left _)

variable {path : List Frame} {n : Node} {t : NodeId}

theorem mapChildren_within (h : t ∉ pathIds path) (g : List Node → List Node) :
    (within path n).mapChildren t g = within path (n.mapChildren t g) := by
  induction path with
  | nil => rfl
  | cons f path ih =>
    rw [pathIds, List.flatMap_cons, List.mem_append, not_or] at h
    show (f.around (within path n)).mapChildren t g = f.around _
    rw [Frame.mapChildren_around h.1, ih h.2]
    rfl

theorem find?_within (h : t ∉ pathIds path) : (within path n).find? t = n.find? t := by
  induction path with
  | nil => rfl
  | cons f path ih =>
    rw [pathIds, List.flatMap_cons, List.mem_append, not_or] at h
    show (f.around (within path n)).find? t = _
    rw [Frame.find?_around h.1, ih h.2]

theorem id?_within_ne (h : t ∉ pathIds path) (hn : n.id? ≠ some t) :
    (within path n).id? ≠ some t := by
  cases path with
  | nil => exact hn
  | cons f path =>
    rw [pathIds, List.flatMap_cons, List.mem_append, not_or] at h
    show (f.around (within path n)).id? ≠ some t
    rw [Frame.around, Frame.id?_branch]
    exact fun heq => (Frame.not_mem_ids h.1).1 (Option.some.inj heq).symm

theorem locate?_within (h : t ∉ pathIds path) (hn : n.id? ≠ some t) :
    (within path n).locate? t = n.locate? t := by
  induction path with
  | nil => rfl
  | cons f path ih =>
    have hpath := h
    rw [pathIds, List.flatMap_cons, List.mem_append, not_or] at hpath
    show (f.around (within path n)).locate? t = _
    rw [Frame.locate?_around hpath.1 (id?_within_ne hpath.2 hn), ih hpath.2]

/-- Taking out what stands in a node leaves the frames around the node. -/
theorem remove_within_of_mem (h : ∀ j ∈ n.ids, j ∉ pathIds path) (ht : t ∈ n.ids)
    (hn : n.id? ≠ some t) : (within path n).remove t = within path (n.remove t) := by
  rw [remove, locate?_within (h t ht) hn, remove]
  split
  next parent i hlocate => exact mapChildren_within (h parent (mem_ids_of_locate? n hlocate)) _
  · rfl

mutual

/-- **Whatever is in a tree is there inside frames.** -/
theorem exists_within {t : NodeId} : (n : Node) → t ∈ n.ids →
    ∃ path m, n = within path m ∧ m.id? = some t
  | document id cs, h => by
    by_cases hid : t = id
    · exact ⟨[], document id cs, rfl, congrArg some hid.symm⟩
    · obtain ⟨before, path, m, after, rfl, hm⟩ :=
        exists_withinAll cs ((List.mem_cons.mp h).resolve_left hid)
      exact ⟨.document id before after :: path, m, rfl, hm⟩
  | element id name attributes cs, h => by
    by_cases hid : t = id
    · exact ⟨[], element id name attributes cs, rfl, congrArg some hid.symm⟩
    · obtain ⟨before, path, m, after, rfl, hm⟩ :=
        exists_withinAll cs ((List.mem_cons.mp h).resolve_left hid)
      exact ⟨.element id name attributes before after :: path, m, rfl, hm⟩
  | doctype _ _ _, h | text _, h | comment _, h | placeholder, h => absurd h List.not_mem_nil

theorem exists_withinAll {t : NodeId} : (cs : List Node) → t ∈ idsAll cs →
    ∃ before path m after, cs = before ++ within path m :: after ∧ m.id? = some t
  | [], h => absurd h List.not_mem_nil
  | c :: rest, h => by
    rcases List.mem_append.mp h with h | h
    · obtain ⟨path, m, rfl, hm⟩ := exists_within c h
      exact ⟨[], path, m, rest, rfl, hm⟩
    · obtain ⟨before, path, m, after, rfl, hm⟩ := exists_withinAll rest h
      exact ⟨c :: before, path, m, after, rfl, hm⟩

end

/-- Where no identity occurs twice, the frames do not have that of the node inside. -/
theorem not_mem_pathIds (h : (within path n).ids.Nodup) (hn : n.id? = some t) :
    t ∉ pathIds path := by
  have hnodup := (ids_within path n).nodup_iff.mp h
  intro hpath
  exact (List.nodup_append.mp hnodup).2.2 t hpath t (mem_ids_of_id? hn) rfl

/-! ### Edits -/

/-- **Filling a node** adds what is put into it to the identities, and nothing else. -/
theorem ids_mapChildren_perm {extra : List NodeId} {g : List Node → List Node}
    (hnodup : n.ids.Nodup) (ht : t ∈ n.ids) (hg : ∀ cs, (idsAll (g cs)).Perm (extra ++ idsAll cs)) :
    (n.mapChildren t g).ids.Perm (extra ++ n.ids) := by
  obtain ⟨path, m, rfl, hm⟩ := exists_within n ht
  rw [mapChildren_within (not_mem_pathIds hnodup hm), mapChildren_self hm]
  have hinside : (m.withChildren (g m.children)).ids.Perm (extra ++ m.ids) := by
    rw [ids_withChildren hm, ids_eq hm]
    exact ((hg m.children).cons t).trans List.perm_middle.symm
  calc (within path (m.withChildren (g m.children))).ids
      _ |>.Perm (pathIds path ++ (m.withChildren (g m.children)).ids) := ids_within _ _
      _ |>.Perm (pathIds path ++ (extra ++ m.ids)) := hinside.append_left _
      _ |>.Perm (extra ++ (pathIds path ++ m.ids)) := by
        rw [← List.append_assoc, ← List.append_assoc]
        exact List.perm_append_comm.append_right _
      _ |>.Perm (extra ++ (within path m).ids) := (ids_within _ _).symm.append_left _

/-- The parent of a node below the top is the innermost frame around it. -/
theorem exists_frame (hnodup : n.ids.Nodup) (ht : t ∈ n.ids) (hn : n.id? ≠ some t) :
    ∃ path f m, n = within path (Frame.around f m) ∧ m.id? = some t ∧
      t ∉ pathIds path ∧ t ∉ f.ids ∧ f.id ∉ pathIds path := by
  obtain ⟨path, m, rfl, hm⟩ := exists_within n ht
  rcases List.eq_nil_or_concat path with rfl | ⟨path, f, rfl⟩
  · exact absurd hm hn
  · have hpath := not_mem_pathIds hnodup hm
    rw [List.concat_eq_append, within_append] at *
    rw [pathIds, List.flatMap_append, List.flatMap_singleton, List.mem_append, not_or] at hpath
    have hf : (within [f] m).id? = some f.id := by
      show (f.around m).id? = _
      rw [Frame.around, Frame.id?_branch]
    exact ⟨path, f, m, rfl, hm, hpath.1, hpath.2, not_mem_pathIds hnodup hf⟩

theorem Frame.id?_around_ne {f : Frame} {m : Node} (h : t ∉ f.ids) : (f.around m).id? ≠ some t := by
  rw [Frame.around, Frame.id?_branch]
  exact fun heq => (Frame.not_mem_ids h).1 (Option.some.inj heq).symm

/-- What is below the top of a tree has its place there. -/
theorem exists_locate? (hnodup : n.ids.Nodup) (ht : t ∈ n.ids) (hn : n.id? ≠ some t) :
    ∃ parent i, n.locate? t = some (parent, i) ∧ parent ∈ n.ids := by
  obtain ⟨path, f, m, rfl, hm, hpath, hf, -⟩ := exists_frame hnodup ht hn
  refine ⟨f.id, f.before.length, ?_, ?_⟩
  · rw [locate?_within hpath (Frame.id?_around_ne hf), Frame.locate?_around_self hf hm]
  · rw [(ids_within _ _).mem_iff, Frame.around, Frame.ids_branch]
    simp

/-- What is done to a frame's children is done around the node that stands in it. -/
theorem mapChildren_within_frame {f : Frame} {m : Node} (hid : f.id ∉ pathIds path)
    (g : List Node → List Node) : (within path (f.around m)).mapChildren f.id g =
      within path (f.branch (g (f.before ++ m :: f.after))) := by
  rw [mapChildren_within hid, Frame.around, mapChildren_self (Frame.id?_branch _ _),
    Frame.children_branch, Frame.withChildren_branch]

/-- **Taking a node out** takes out what is found there, and leaves the innermost frame without
it. -/
theorem remove_within {f : Frame} {m : Node} (hm : m.id? = some t) (hpath : t ∉ pathIds path)
    (hf : t ∉ f.ids) (hid : f.id ∉ pathIds path) :
    (within path (f.around m)).remove t = within path (f.branch (f.before ++ f.after)) := by
  rw [remove, locate?_within hpath (Frame.id?_around_ne hf), Frame.locate?_around_self hf hm]
  show (within path (f.around m)).mapChildren f.id (·.eraseIdx f.before.length) = _
  rw [mapChildren_within_frame hid, List.eraseIdx_append_of_length_le (Nat.le_refl _), Nat.sub_self,
    List.eraseIdx_cons_zero]

/-- What is taken out takes its identities with it. -/
theorem ids_remove_perm (hnodup : n.ids.Nodup) (ht : t ∈ n.ids) (hn : n.id? ≠ some t) :
    ∃ m, n.find? t = some m ∧ m.id? = some t ∧ n.ids.Perm (m.ids ++ (n.remove t).ids) := by
  obtain ⟨path, f, m, rfl, hm, hpath, hf, hid⟩ := exists_frame hnodup ht hn
  refine ⟨m, ?_, hm, ?_⟩
  · rw [find?_within hpath, Frame.find?_around hf, find?_self hm]
  · have hframe : (f.branch (f.before ++ f.after)).ids = f.ids := by
      rw [Frame.ids_branch, idsAll_append, Frame.ids]
    rw [remove_within hm hpath hf hid]
    calc (within path (f.around m)).ids
        _ |>.Perm (pathIds path ++ (f.around m).ids) := ids_within _ _
        _ |>.Perm (pathIds path ++ (f.ids ++ m.ids)) := (f.ids_around m).append_left _
        _ |>.Perm (m.ids ++ (pathIds path ++ f.ids)) := by
          rw [← List.append_assoc]
          exact List.perm_append_comm
        _ |>.Perm (m.ids ++ (within path (f.branch (f.before ++ f.after))).ids) := by
          rw [← hframe]
          exact (ids_within _ _).symm.append_left _

end Node

/-! ### Pieces -/

namespace Piece
open Node

/-- The identities that a piece brings along. -/
def ids : Piece → List NodeId
  | text _ => []
  | node n => n.ids

/-- Whether a piece is taken as it is, or has no identities that could be missed. -/
def Fits : Piece → Prop
  | text _ => True
  | node n => n.isElement = true ∨ n.ids = []

theorem idsAll_insertAt {p : Piece} (hp : p.Fits) (i : Nat) (cs : List Node) :
    (idsAll (p.insertAt i cs)).Perm (p.ids ++ idsAll cs) := by
  have hsplit : idsAll cs = idsAll (cs.take i) ++ idsAll (cs.drop i) := by
    rw [← idsAll_append, List.take_append_drop]
  rw [hsplit, insertAt, List.splitAt_eq]
  cases p with
  | text t =>
    dsimp only
    split
    · next s hlast =>
      have hbefore : idsAll (cs.take i) = idsAll (cs.take i).dropLast := by
        obtain ⟨before, hbefore⟩ := List.getLast?_eq_some_iff.mp hlast
        rw [hbefore, List.dropLast_concat, idsAll_append]
        simp [idsAll, Node.ids]
      rw [hbefore, idsAll_append]
      exact .refl _
    · rw [idsAll_append]
      exact .refl _
  | node n =>
    dsimp only
    split
    · rw [idsAll_append, idsAll, ← List.append_assoc, ← List.append_assoc]
      exact List.perm_append_comm.append_right _
    · next htaken =>
      rw [← hsplit]
      have hnone : n.ids = [] := by
        rcases hp with helement | hnone
        · simp [helement] at htaken
        · exact hnone
      rw [ids, hnone]
      exact .refl _

/-- Among the children there is nothing but what was there, the piece, and text. -/
theorem mem_insertAt {p : Piece} {i : Nat} {cs : List Node} {c : Node} (h : c ∈ p.insertAt i cs) :
    c ∈ cs ∨ p = node c ∨ ∃ t, c = .text t := by
  have hmem {c : Node} (hc : c ∈ cs.take i ∨ c ∈ cs.drop i) : c ∈ cs :=
    hc.elim List.mem_of_mem_take List.mem_of_mem_drop
  rw [insertAt, List.splitAt_eq] at h
  cases p with
  | text t =>
    dsimp only at h
    split at h
    all_goals
      simp only [List.mem_append, List.mem_cons] at h
      rcases h with h | rfl | h
    · exact .inl (hmem (.inl ((List.dropLast_sublist _).subset h)))
    · exact .inr (.inr ⟨_, rfl⟩)
    · exact .inl (hmem (.inr h))
    · exact .inl (hmem (.inl h))
    · exact .inr (.inr ⟨_, rfl⟩)
    · exact .inl (hmem (.inr h))
  | node n =>
    dsimp only at h
    split at h
    · simp only [List.mem_append, List.mem_cons] at h
      rcases h with h | rfl | h
      · exact .inl (hmem (.inl h))
      · exact .inr (.inl rfl)
      · exact .inl (hmem (.inr h))
    · exact .inl h

end Piece
end TerseMarkup.Html
