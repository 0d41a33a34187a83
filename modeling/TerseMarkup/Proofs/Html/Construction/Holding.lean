import TerseMarkup.Html.Construction.Formatting
import TerseMarkup.Proofs.Html.Rank

/-! Open elements and the tree that holds them.

Construction goes back to its open elements by their identities, so these have to be in the tree, and
once each. They are: elements are put into the tree as they are opened (`Held.create`), and the one
operation that takes an element out of the tree puts it back, below an element opened earlier
(`Held.rescue`). That this one does not stand in what has been taken out is what the ranks are for:
where open elements stand one in another, the one opened later stands inside. -/
namespace TerseMarkup.Html

/-- No identity occurs twice, new ones start at `next`, and ranks grow downwards from `top`. -/
structure SoundBy (rank : NodeId → Nat) (docs : NodeId → Prop) (tree : Node) (top next : NodeId) :
    Prop where
  id?_eq : tree.id? = some top
  nodup : tree.ids.Nodup
  lt_next : ∀ i ∈ tree.ids, i < next
  ranked : tree.Ranked rank docs 0

/-- The open elements `handles` are in the tree, the last one opened first. -/
structure HeldBy (rank : NodeId → Nat) (docs : NodeId → Prop) (tree : Node) (top next : NodeId)
    (handles : List Handle) : Prop extends SoundBy rank docs tree top next where
  id_mem : ∀ h ∈ handles, h.id ∈ tree.ids
  not_docs : ∀ h ∈ handles, ¬ docs h.id
  inside_mem : ∀ h ∈ handles, h.inside ∈ tree.ids
  inside_eq : ∀ h ∈ handles, h.name.isHtml ["template"] = false → h.inside = h.id
  above_top : ∀ h ∈ handles, rank top < rank h.id
  id_le : ∀ h ∈ handles, rank h.id ≤ rank h.inside
  ordered : handles.Pairwise fun later earlier => rank earlier.inside < rank later.id

/-- Every open element is in the tree. -/
def Held (tree : Node) (top next : NodeId) (handles : List Handle) : Prop :=
  ∃ rank docs, HeldBy rank docs tree top next handles

/-- A node that a piece may be put into: the top of the tree, an open element, or the parent of
one. -/
def IsTarget (tree : Node) (top : NodeId) (handles : List Handle) (t : NodeId) : Prop :=
  t = top ∨ ∃ h ∈ handles, t = h.inside ∨ ∃ i, tree.locate? h.id = some (t, i)

namespace SoundBy

variable {rank : NodeId → Nat} {docs : NodeId → Prop} {tree : Node} {top next : NodeId}

theorem top_mem (h : SoundBy rank docs tree top next) : top ∈ tree.ids := Node.mem_ids_of_id? h.id?_eq

theorem congr (h : SoundBy rank docs tree top next) {rank' : NodeId → Nat}
    {docs' : NodeId → Prop} (heq : ∀ i ∈ tree.ids, rank' i = rank i ∧ (docs' i ↔ docs i)) : SoundBy rank' docs' tree top next :=
  { h with ranked := Node.Ranked.congr tree heq h.ranked }

/-- Text and comments. -/
theorem put (h : SoundBy rank docs tree top next) {t : NodeId} (ht : t ∈ tree.ids) {p : Piece}
    (hp : p.Fits) (hids : p.ids = []) (i : List Node → Nat) :
    SoundBy rank docs (tree.mapChildren t fun cs => p.insertAt (i cs) cs) top next ∧
      (tree.mapChildren t fun cs => p.insertAt (i cs) cs).ids.Perm tree.ids := by
  have hperm : (tree.mapChildren t fun cs => p.insertAt (i cs) cs).ids.Perm tree.ids := by
    have := Node.ids_mapChildren_perm h.nodup ht fun cs => Piece.idsAll_insertAt hp (i cs) cs
    rwa [hids] at this
  have hranked : ∀ n, p = .node n → n.Ranked rank docs (rank t) := by
    rintro n rfl
    cases n with
    | document | element => nomatch hids
    | doctype | text | comment | placeholder => trivial
  refine ⟨{
    id?_eq := (Node.id?_mapChildren _ _ _).trans h.id?_eq
    nodup := hperm.nodup_iff.mpr h.nodup
    lt_next := fun j hj => h.lt_next j (hperm.mem_iff.mp hj)
    ranked := Node.Ranked.mapChildren tree (fun cs _ hcs => hcs.insertAt hranked) h.ranked }, hperm⟩

/-- An element with all that is in it. -/
theorem graft (h : SoundBy rank docs tree top next) {t : NodeId} (ht : t ∈ tree.ids) {n : Node}
    (helement : n.isElement = true) (hnodup : n.ids.Nodup) (hnew : ∀ j ∈ n.ids, j ∉ tree.ids)
    (hranked : n.Ranked rank docs (rank t)) {next' : NodeId} (hnext : next ≤ next')
    (hlt : ∀ j ∈ n.ids, j < next') (i : List Node → Nat) :
    SoundBy rank docs (tree.mapChildren t fun cs => (Piece.node n).insertAt (i cs) cs) top next' ∧
      (tree.mapChildren t fun cs => (Piece.node n).insertAt (i cs) cs).ids.Perm
        (n.ids ++ tree.ids) := by
  have hfits : (Piece.node n).Fits := Or.inl helement
  have hperm : (tree.mapChildren t fun cs => (Piece.node n).insertAt (i cs) cs).ids.Perm
      (n.ids ++ tree.ids) :=
    Node.ids_mapChildren_perm h.nodup ht fun cs => Piece.idsAll_insertAt hfits (i cs) cs
  have hranked' : ∀ m, Piece.node n = .node m → m.Ranked rank docs (rank t) := by
    rintro m ⟨⟩
    exact hranked
  refine ⟨{
    id?_eq := (Node.id?_mapChildren _ _ _).trans h.id?_eq
    nodup := hperm.nodup_iff.mpr (List.nodup_append.mpr ⟨hnodup, h.nodup,
      fun j hj k hk heq => hnew j hj (heq ▸ hk)⟩)
    lt_next := fun j hj => ?_
    ranked := Node.Ranked.mapChildren tree (fun cs _ hcs => hcs.insertAt hranked') h.ranked }, hperm⟩
  rcases List.mem_append.mp (hperm.mem_iff.mp hj) with hj | hj
  · exact hlt j hj
  · exact Nat.lt_of_lt_of_le (h.lt_next j hj) hnext

/-- A new element around all that is in a node. -/
theorem wrapChildren (h : SoundBy rank docs tree top next) {t : NodeId} (ht : t ∈ tree.ids)
    (hdoc : ¬ docs next) (hnext : rank t < rank next)
    (hroom : ∀ j ∈ tree.ids, rank t < rank j → rank next < rank j)
    (name : ElementName) (attributes : List Attribute) :
    SoundBy rank docs (tree.mapChildren t fun cs => [.element next name attributes cs]) top (next + 1) ∧
      (tree.mapChildren t fun cs => [.element next name attributes cs]).ids.Perm
        (next :: tree.ids) := by
  have hperm : (tree.mapChildren t fun cs => [.element next name attributes cs]).ids.Perm
      (next :: tree.ids) := by
    have hfill (cs : List Node) :
        (Node.idsAll [.element next name attributes cs]).Perm ([next] ++ Node.idsAll cs) := by
      simp [Node.idsAll, Node.ids]
    exact Node.ids_mapChildren_perm h.nodup ht hfill
  refine ⟨{
    id?_eq := (Node.id?_mapChildren _ _ _).trans h.id?_eq
    nodup := hperm.nodup_iff.mpr (List.nodup_cons.mpr
      ⟨fun hmem => Nat.lt_irrefl _ (h.lt_next next hmem), h.nodup⟩)
    lt_next := fun j hj => ?_
    ranked := Node.Ranked.mapChildren tree (fun cs hsub hcs => ?_) h.ranked }, hperm⟩
  · rcases List.mem_cons.mp (hperm.mem_iff.mp hj) with rfl | hj
    · exact Nat.lt_succ_self _
    · exact Nat.lt_succ_of_lt (h.lt_next j hj)
  · have hinside : Node.RankedAll rank docs (rank next) cs := by
      rw [Node.rankedAll_iff] at hcs ⊢
      intro c hc
      have hids : ∀ j ∈ c.ids, j ∈ tree.ids := fun j hj => hsub (Node.mem_idsAll.mpr ⟨c, hc, hj⟩)
      have hranked := hcs c hc
      cases c with
      | document id ds | element id n as ds =>
        exact ⟨hroom id (hids id List.mem_cons_self) hranked.1, hranked.2⟩
      | doctype | text | comment | placeholder => trivial
    exact ⟨⟨hnext, hdoc, hinside⟩, trivial⟩

/-- What is left behind where a node has been taken out, and what has been taken out. -/
theorem remove (h : SoundBy rank docs tree top next) {t : NodeId} (ht : t ∈ tree.ids) (htop : t ≠ top) :
    ∃ moved, tree.find? t = some moved ∧ moved.id? = some t ∧ moved.Ranked rank docs 0 ∧
      tree.ids.Perm (moved.ids ++ (tree.remove t).ids) ∧
      SoundBy rank docs (tree.remove t) top next := by
  have hne : tree.id? ≠ some t := by
    rw [h.id?_eq]
    exact fun heq => htop (Option.some.inj heq).symm
  obtain ⟨moved, hmoved, hid, hperm⟩ := Node.ids_remove_perm h.nodup ht hne
  have hnodup := hperm.nodup_iff.mp h.nodup
  refine ⟨moved, hmoved, hid, Node.Ranked.find? tree h.ranked hmoved, hperm, {
    id?_eq := (Node.id?_remove _ _).trans h.id?_eq
    nodup := (List.nodup_append.mp hnodup).2.1
    lt_next := fun j hj => h.lt_next j (hperm.mem_iff.mpr (List.mem_append_right _ hj))
    ranked := h.ranked.remove t }⟩

end SoundBy

namespace HeldBy

variable {rank : NodeId → Nat} {docs : NodeId → Prop} {tree : Node} {top next : NodeId} {handles : List Handle}

theorem ne_top (h : HeldBy rank docs tree top next handles) {g : Handle} (hg : g ∈ handles) :
    g.id ≠ top := by
  intro heq
  have := h.above_top g hg
  rw [heq] at this
  exact Nat.lt_irrefl _ this

/-- Elements may be closed in any order. -/
theorem sublist (h : HeldBy rank docs tree top next handles) {handles' : List Handle}
    (hsub : handles'.Sublist handles) : HeldBy rank docs tree top next handles' where
  toSoundBy := h.toSoundBy
  id_mem g hg := h.id_mem g (hsub.subset hg)
  not_docs g hg := h.not_docs g (hsub.subset hg)
  inside_mem g hg := h.inside_mem g (hsub.subset hg)
  inside_eq g hg := h.inside_eq g (hsub.subset hg)
  above_top g hg := h.above_top g (hsub.subset hg)
  id_le g hg := h.id_le g (hsub.subset hg)
  ordered := h.ordered.sublist hsub

theorem target_mem (h : HeldBy rank docs tree top next handles) {t : NodeId}
    (ht : IsTarget tree top handles t) : t ∈ tree.ids := by
  rcases ht with rfl | ⟨g, hg, rfl | ⟨i, hi⟩⟩
  · exact h.top_mem
  · exact h.inside_mem g hg
  · have hne : tree.id? ≠ some g.id := by
      rw [h.id?_eq]
      exact fun heq => h.ne_top hg (Option.some.inj heq).symm
    obtain ⟨parent, j, hlocate, hparent⟩ := Node.exists_locate? h.nodup (h.id_mem g hg) hne
    rw [hi] at hlocate
    obtain ⟨rfl, -⟩ := Prod.mk.inj (Option.some.inj hlocate)
    exact hparent

/-- What ranks above all open elements ranks above all places that they give. -/
theorem target_lt (h : HeldBy rank docs tree top next handles) {t : NodeId}
    (ht : IsTarget tree top handles t) {r : Nat} (htop : rank top < r)
    (hr : ∀ g ∈ handles, rank g.inside < r) : rank t < r := by
  rcases ht with rfl | ⟨g, hg, rfl | ⟨i, hi⟩⟩
  · exact htop
  · exact hr g hg
  · calc rank t < rank g.id := Node.Ranked.locate? tree h.ranked hi
      _ ≤ rank g.inside := h.id_le g hg
      _ < r := hr g hg

/-- Ranks count only where they are of nodes in the tree. -/
theorem congr (h : HeldBy rank docs tree top next handles) {rank' : NodeId → Nat}
    {docs' : NodeId → Prop} (heq : ∀ i ∈ tree.ids, rank' i = rank i ∧ (docs' i ↔ docs i)) :
    HeldBy rank' docs' tree top next handles := by
  have hrank := fun i hi => (heq i hi).1
  exact {
    toSoundBy := h.toSoundBy.congr heq
    id_mem := h.id_mem
    not_docs := fun g hg hdoc => h.not_docs g hg ((heq _ (h.id_mem g hg)).2.mp hdoc)
    inside_mem := h.inside_mem
    inside_eq := h.inside_eq
    above_top := fun g hg => by
      rw [hrank _ h.top_mem, hrank _ (h.id_mem g hg)]
      exact h.above_top g hg
    id_le := fun g hg => by
      rw [hrank _ (h.id_mem g hg), hrank _ (h.inside_mem g hg)]
      exact h.id_le g hg
    ordered := h.ordered.imp_of_mem fun {x y} hx hy hlt => by
      rw [hrank _ (h.inside_mem y hy), hrank _ (h.id_mem x hx)]
      exact hlt }

/-- Twice the ranks leave room for a new node directly below each. -/
theorem double (h : HeldBy rank docs tree top next handles) :
    HeldBy (fun i => 2 * rank i) docs tree top next handles where
  toSoundBy := { h.toSoundBy with ranked := Node.Ranked.double tree h.ranked }
  id_mem := h.id_mem
  not_docs := h.not_docs
  inside_mem := h.inside_mem
  inside_eq := h.inside_eq
  above_top g hg := Nat.mul_lt_mul_of_pos_left (h.above_top g hg) (by decide)
  id_le g hg := Nat.mul_le_mul_left 2 (h.id_le g hg)
  ordered := h.ordered.imp fun hlt => Nat.mul_lt_mul_of_pos_left hlt (by decide)

/-- The same open elements in a tree that has got nodes and lost none. -/
theorem inTree (h : HeldBy rank docs tree top next handles) {tree' : Node} {next' : NodeId}
    (hsound : SoundBy rank docs tree' top next') (hsub : tree.ids ⊆ tree'.ids) :
    HeldBy rank docs tree' top next' handles where
  toSoundBy := hsound
  id_mem g hg := hsub (h.id_mem g hg)
  not_docs := h.not_docs
  inside_mem g hg := hsub (h.inside_mem g hg)
  inside_eq := h.inside_eq
  above_top := h.above_top
  id_le := h.id_le
  ordered := h.ordered

/-- One more element is open, and it ranks above the others. -/
theorem cons (h : HeldBy rank docs tree top next handles) {g : Handle} (hid : g.id ∈ tree.ids)
    (hdoc : ¬ docs g.id) (hinside : g.inside ∈ tree.ids)
    (hplain : g.name.isHtml ["template"] = false → g.inside = g.id)
    (htop : rank top < rank g.id) (hle : rank g.id ≤ rank g.inside)
    (horder : ∀ e ∈ handles, rank e.inside < rank g.id) :
    HeldBy rank docs tree top next (g :: handles) where
  toSoundBy := h.toSoundBy
  id_mem := List.forall_mem_cons.mpr ⟨hid, h.id_mem⟩
  not_docs := List.forall_mem_cons.mpr ⟨hdoc, h.not_docs⟩
  inside_mem := List.forall_mem_cons.mpr ⟨hinside, h.inside_mem⟩
  inside_eq := List.forall_mem_cons.mpr ⟨hplain, h.inside_eq⟩
  above_top := List.forall_mem_cons.mpr ⟨htop, h.above_top⟩
  id_le := List.forall_mem_cons.mpr ⟨hle, h.id_le⟩
  ordered := List.pairwise_cons.mpr ⟨horder, h.ordered⟩

theorem append {later earlier : List Handle} (h : HeldBy rank docs tree top next later)
    (h' : HeldBy rank docs tree top next earlier)
    (horder : ∀ x ∈ later, ∀ y ∈ earlier, rank y.inside < rank x.id) :
    HeldBy rank docs tree top next (later ++ earlier) where
  toSoundBy := h.toSoundBy
  id_mem := List.forall_mem_append.mpr ⟨h.id_mem, h'.id_mem⟩
  not_docs := List.forall_mem_append.mpr ⟨h.not_docs, h'.not_docs⟩
  inside_mem := List.forall_mem_append.mpr ⟨h.inside_mem, h'.inside_mem⟩
  inside_eq := List.forall_mem_append.mpr ⟨h.inside_eq, h'.inside_eq⟩
  above_top := List.forall_mem_append.mpr ⟨h.above_top, h'.above_top⟩
  id_le := List.forall_mem_append.mpr ⟨h.id_le, h'.id_le⟩
  ordered := List.pairwise_append.mpr ⟨h.ordered, h'.ordered, horder⟩

end HeldBy

/-- Open elements are known by their identities. -/
theorem Held.eq_of_id_eq {tree : Node} {top next : NodeId} {handles : List Handle}
    (h : Held tree top next handles) {x y : Handle} (hx : x ∈ handles) (hy : y ∈ handles)
    (heq : x.id = y.id) : x = y := by
  obtain ⟨rank, docs, h⟩ := h
  have hnodup : (handles.map Handle.id).Nodup := by
    refine List.pairwise_map.mpr (h.ordered.imp_of_mem fun {x y} _ hy hlt heq => ?_)
    exact Nat.not_le.mpr hlt (heq ▸ h.id_le y hy)
  exact List.inj_on_of_nodup_map hnodup hx hy heq

/-! ### Text and comments -/

theorem Held.put {tree : Node} {top next : NodeId} {handles : List Handle}
    (h : Held tree top next handles) {t : NodeId} (ht : IsTarget tree top handles t) {p : Piece}
    (hp : p.Fits) (hids : p.ids = []) (i : List Node → Nat) :
    Held (tree.mapChildren t fun cs => p.insertAt (i cs) cs) top next handles := by
  obtain ⟨rank, docs, h⟩ := h
  obtain ⟨hsound, hperm⟩ := h.toSoundBy.put (h.target_mem ht) hp hids i
  exact ⟨rank, docs, h.inTree hsound hperm.symm.subset⟩

/-! ### New elements -/

theorem exists_rank_le (rank : NodeId → Nat) (l : List NodeId) : ∃ r, ∀ i ∈ l, rank i ≤ r := by
  induction l with
  | nil => exact ⟨0, by simp⟩
  | cons i l ih =>
    obtain ⟨r, hr⟩ := ih
    refine ⟨max (rank i) r, fun j hj => ?_⟩
    rcases List.mem_cons.mp hj with rfl | hj
    · exact Nat.le_max_left _ _
    · exact Nat.le_trans (hr j hj) (Nat.le_max_right _ _)

namespace Builder

/-- The children of a new element: none, or the document that its contents will stand in. -/
def newChildren (next : NodeId) (name : ElementName) : List Node :=
  if name.isHtml ["template"] then [.document (next + 1) []] else []

/-- The handle of a new element. -/
def newHandle (next : NodeId) (name : ElementName) : Handle :=
  if name.isHtml ["template"] then ⟨next, name, next + 1⟩ else ⟨next, name, next⟩

/-- Where new identities start behind a new element. -/
def nextAfter (next : NodeId) (name : ElementName) : NodeId :=
  if name.isHtml ["template"] then next + 2 else next + 1

theorem create_eq (b : Builder) (name : ElementName) (attributes : List Attribute) :
    b.create name attributes = (newHandle b.nextId name,
      .element b.nextId name attributes (newChildren b.nextId name),
      { b with nextId := nextAfter b.nextId name }) := by
  rw [create, newHandle, newChildren, nextAfter]
  split <;> rfl

theorem newHandle_id (next : NodeId) (name : ElementName) : (newHandle next name).id = next := by
  rw [newHandle]
  split <;> rfl

theorem newHandle_name (next : NodeId) (name : ElementName) :
    (newHandle next name).name = name := by
  rw [newHandle]
  split <;> rfl

end Builder

open Builder

/-- **An element is in the tree as soon as it is open.** -/
theorem Held.create {tree : Node} {top next : NodeId} {handles : List Handle}
    (h : Held tree top next handles) {t : NodeId} (ht : IsTarget tree top handles t)
    (name : ElementName) (attributes : List Attribute) (i : List Node → Nat) :
    Held (tree.mapChildren t fun cs =>
        (Piece.node (.element next name attributes (newChildren next name))).insertAt (i cs) cs)
      top (nextAfter next name) (newHandle next name :: handles) := by
  obtain ⟨rank, docs, h⟩ := h
  have ht := h.target_mem ht
  obtain ⟨r, hr⟩ := exists_rank_le rank tree.ids
  -- The new element ranks above all others, and what it holds above it.
  let rank' := fun j => if next ≤ j then r + 1 + (j - next) else rank j
  let docs' := fun j => if next ≤ j then j = next + 1 else docs j
  have hold (j : NodeId) (hj : j ∈ tree.ids) : rank' j = rank j ∧ (docs' j ↔ docs j) := by
    have := Nat.not_le.mpr (h.lt_next j hj)
    exact ⟨if_neg this, by simp only [docs', if_neg this]⟩
  have hlow (j : NodeId) (hj : j ∈ tree.ids) : rank' j < r + 1 := by
    rw [(hold j hj).1]
    exact Nat.lt_succ_of_le (hr j hj)
  have hnew : rank' next = r + 1 ∧ ¬ docs' next := by simp [rank', docs']
  have hcontents : rank' (next + 1) = r + 2 ∧ docs' (next + 1) := by simp [rank', docs']
  replace h := h.congr hold
  have hfresh (j : NodeId) (hj : next ≤ j) : j ∉ tree.ids :=
    fun hmem => Nat.not_lt.mpr hj (h.lt_next j hmem)
  have htop : rank' top < rank' next := hnew.1 ▸ hlow top h.top_mem
  have hhandles (e : Handle) (he : e ∈ handles) : rank' e.inside < rank' next :=
    hnew.1 ▸ hlow _ (h.inside_mem e he)
  by_cases htemplate : name.isHtml ["template"] = true
  · rw [newChildren, newHandle, nextAfter, if_pos htemplate, if_pos htemplate, if_pos htemplate]
    let node := Node.element next name attributes [.document (next + 1) []]
    have hids : node.ids = [next, next + 1] := rfl
    have hle : rank' next < rank' (next + 1) := by
      rw [hnew.1, hcontents.1]
      exact Nat.lt_succ_self _
    have hranked : node.Ranked rank' docs' (rank' t) :=
      ⟨hnew.1 ▸ hlow t ht, hnew.2, ⟨hle, hcontents.2, trivial⟩, trivial⟩
    have hrange : ∀ j ∈ node.ids, next ≤ j ∧ j < next + 2 := by
      intro j hj
      rcases List.mem_pair.mp hj with rfl | rfl
      · exact ⟨Nat.le_refl _, Nat.lt_add_of_pos_right (by decide)⟩
      · exact ⟨Nat.le_succ _, Nat.lt_succ_self _⟩
    obtain ⟨hsound, hperm⟩ := h.toSoundBy.graft ht rfl (by simp [hids])
      (fun j hj => hfresh j (hrange j hj).1) hranked (Nat.le_add_right next 2)
      (fun j hj => (hrange j hj).2) i
    have hmem (j : NodeId) (hj : j ∈ node.ids ++ tree.ids) := hperm.mem_iff.mpr hj
    refine ⟨rank', docs', (h.inTree hsound fun j hj => hmem j (List.mem_append_right _ hj)).cons
      (hmem next (by simp [hids])) hnew.2 (hmem (next + 1) (by simp [hids])) ?_ htop
      (Nat.le_of_lt hle) hhandles⟩
    exact fun hplain => absurd (htemplate.symm.trans hplain) (by decide)
  · rw [newChildren, newHandle, nextAfter, if_neg htemplate, if_neg htemplate, if_neg htemplate]
    let node := Node.element next name attributes []
    have hids : node.ids = [next] := rfl
    have hranked : node.Ranked rank' docs' (rank' t) := ⟨hnew.1 ▸ hlow t ht, hnew.2, trivial⟩
    have hrange : ∀ j ∈ node.ids, next ≤ j ∧ j < next + 1 := by
      intro j hj
      obtain rfl := List.mem_singleton.mp hj
      exact ⟨Nat.le_refl _, Nat.lt_succ_self _⟩
    obtain ⟨hsound, hperm⟩ := h.toSoundBy.graft ht rfl (by simp [hids])
      (fun j hj => hfresh j (hrange j hj).1) hranked (Nat.le_succ next)
      (fun j hj => (hrange j hj).2) i
    have hmem (j : NodeId) (hj : j ∈ node.ids ++ tree.ids) := hperm.mem_iff.mpr hj
    exact ⟨rank', docs', (h.inTree hsound fun j hj => hmem j (List.mem_append_right _ hj)).cons
      (hmem next (by simp [hids])) hnew.2 (hmem next (by simp [hids])) (fun _ => rfl) htop
      (Nat.le_refl _) hhandles⟩

/-! ### Taking a block out of a formatting element -/

/-- What becomes of a node that is taken out, on its way through the open elements `between`: from
the inside outwards, some of them are made anew around it. -/
inductive Made : Node → NodeId → List Handle → Node → NodeId → List Handle → Prop
  | nil (moved : Node) (next : NodeId) : Made moved next [] moved next []
  | skip {moved moved' : Node} {next next' : NodeId} {between kept : List Handle} (g : Handle)
      (h : Made moved next between moved' next' kept) :
      Made moved next (g :: between) moved' next' kept
  | wrap {moved moved' : Node} {next next' : NodeId} {between kept : List Handle} (g : Handle)
      {name : ElementName} (attributes : List Attribute)
      (h : Made (.element next name attributes [moved]) (next + 1) between moved' next' kept) :
      Made moved next (g :: between) moved' next' (⟨next, name, next⟩ :: kept)

/-- What has been made anew can rank as the elements do that it is made for. -/
theorem Made.ranked {moved moved' : Node} {next next' : NodeId} {between kept : List Handle}
    (h : Made moved next between moved' next' kept) {rank : NodeId → Nat} {docs : NodeId → Prop}
    {m : NodeId} {r : Nat} (hm : moved.id? = some m) (helement : moved.isElement = true)
    (hnodup : moved.ids.Nodup) (hlt : ∀ i ∈ moved.ids, i < next)
    (hranked : moved.Ranked rank docs r) (hr : ∀ g ∈ between, r < rank g.id)
    (hid : ∀ g ∈ between, g.id < next) (hbelow : ∀ g ∈ between, rank g.id < rank m)
    (hordered : between.Pairwise fun later earlier => rank earlier.id < rank later.id) :
    ∃ rank' docs', (∀ i < next, rank' i = rank i ∧ (docs' i ↔ docs i)) ∧ next ≤ next' ∧
      moved'.isElement = true ∧ moved'.ids.Nodup ∧ (∀ i ∈ moved'.ids, i < next') ∧
      moved'.ids.Perm (kept.map Handle.id ++ moved.ids) ∧ moved'.Ranked rank' docs' r ∧
      (∀ k ∈ kept, next ≤ k.id ∧ ¬ docs' k.id ∧ k.inside = k.id ∧ rank' k.id < rank m ∧
        ∃ g ∈ between, rank' k.id = rank g.id) ∧
      kept.Pairwise fun later earlier => rank' earlier.id < rank' later.id := by
  induction h generalizing rank docs m with
  | nil moved next =>
    exact ⟨rank, docs, fun _ _ => ⟨rfl, .rfl⟩, Nat.le_refl _, helement, hnodup, hlt, .refl _,
      hranked, by simp, .nil⟩
  | skip g h ih =>
    simp only [List.forall_mem_cons] at hr hid hbelow
    obtain ⟨rank', docs', hold, hnext, helement', hnodup', hlt', hperm, hranked', hkept, hpair⟩ :=
      ih hm helement hnodup hlt hranked hr.2 hid.2 hbelow.2 (List.pairwise_cons.mp hordered).2
    refine ⟨rank', docs', hold, hnext, helement', hnodup', hlt', hperm, hranked', fun k hk => ?_,
      hpair⟩
    obtain ⟨hge, hdoc, hinside, hlow, e, he, heq⟩ := hkept k hk
    exact ⟨hge, hdoc, hinside, hlow, e, List.mem_cons_of_mem _ he, heq⟩
  | @wrap moved moved' next next' between kept g name attributes h ih =>
    simp only [List.forall_mem_cons] at hr hid hbelow
    obtain ⟨hhead, htail⟩ := List.pairwise_cons.mp hordered
    -- The new element takes the rank of the one that it is made for.
    let rank₁ := fun i => if i = next then rank g.id else rank i
    let docs₁ := fun i => i ≠ next ∧ docs i
    have hold₁ (i : NodeId) (hi : i < next) : rank₁ i = rank i ∧ (docs₁ i ↔ docs i) := by
      have hne := Nat.ne_of_lt hi
      exact ⟨if_neg hne, by simp [docs₁, hne]⟩
    have hnew : rank₁ next = rank g.id := if_pos rfl
    have hbetween (e : Handle) (he : e ∈ between) : rank₁ e.id = rank e.id :=
      (hold₁ e.id (hid.2 e he)).1
    have hinside : moved.Ranked rank₁ docs₁ (rank₁ next) := by
      refine Node.Ranked.congr moved (fun i hi => hold₁ i (hlt i hi)) ?_
      rw [hnew]
      exact hranked.withBound hm hbelow.1
    obtain ⟨rank', docs', hold, hnext, helement', hnodup', hlt', hperm, hranked', hkept, hpair⟩ :=
      @ih rank₁ docs₁ next rfl rfl
        (by simpa [Node.ids, Node.idsAll] using
          ⟨fun hmem => Nat.lt_irrefl _ (hlt next hmem), hnodup⟩)
        (by simpa [Node.ids, Node.idsAll] using fun i hi => Nat.lt_succ_of_lt (hlt i hi))
        ⟨hnew ▸ hr.1, fun hdoc => hdoc.1 rfl, hinside, trivial⟩
        (fun e he => hbetween e he ▸ hr.2 e he) (fun e he => Nat.lt_succ_of_lt (hid.2 e he))
        (fun e he => by rw [hbetween e he, hnew]; exact hhead e he)
        (htail.imp_of_mem fun {x y} hx hy hlt => by rw [hbetween x hx, hbetween y hy]; exact hlt)
    obtain ⟨hrankNew, hdocNew⟩ := hold next (Nat.lt_succ_self _)
    rw [hnew] at hrankNew
    refine ⟨rank', docs', fun i hi => ?_, Nat.le_of_succ_le hnext, helement', hnodup', hlt', ?_,
      hranked', List.forall_mem_cons.mpr ⟨⟨Nat.le_refl _, ?_, rfl, ?_, g, List.mem_cons_self,
        hrankNew⟩, fun k hk => ?_⟩, List.pairwise_cons.mpr ⟨fun k hk => ?_, hpair⟩⟩
    · obtain ⟨hrank, hdoc⟩ := hold i (Nat.lt_succ_of_lt hi)
      obtain ⟨hrank', hdoc'⟩ := hold₁ i hi
      exact ⟨hrank.trans hrank', hdoc.trans hdoc'⟩
    · refine hperm.trans ?_
      simp only [Node.ids, Node.idsAll, List.append_nil, List.map_cons, List.cons_append]
      exact List.perm_middle
    · exact fun hdoc => (hdocNew.mp hdoc).1 rfl
    · rw [hrankNew]
      exact hbelow.1
    · obtain ⟨hge, hdoc, hinside, hlow, e, he, heq⟩ := hkept k hk
      rw [hnew] at hlow
      exact ⟨Nat.le_of_succ_le hge, hdoc, hinside, Nat.lt_trans hlow hbelow.1, e,
        List.mem_cons_of_mem _ he, heq.trans (hbetween e he)⟩
    · obtain ⟨-, -, -, hlow, -⟩ := hkept k hk
      rw [hrankNew, ← hnew]
      exact hlow

/-- An open element taken out of the tree, with the elements opened before it left there. -/
theorem HeldBy.detach {rank : NodeId → Nat} {docs : NodeId → Prop} {tree : Node}
    {top next : NodeId} {above earlier : List Handle} {block : Handle}
    (h : HeldBy rank docs tree top next (above ++ block :: earlier)) :
    ∃ moved, tree.find? block.id = some moved ∧ moved.id? = some block.id ∧
      moved.isElement = true ∧ moved.Ranked rank docs 0 ∧
      tree.ids.Perm (moved.ids ++ (tree.remove block.id).ids) ∧
      HeldBy rank docs (tree.remove block.id) top next earlier := by
  have hblock : block ∈ above ++ block :: earlier := by simp
  have hearlier : earlier.Sublist (above ++ block :: earlier) :=
    (List.sublist_cons_self _ _).trans (List.sublist_append_right _ _)
  obtain ⟨moved, hfind, hid, hranked, hperm, hsound⟩ :=
    h.toSoundBy.remove (h.id_mem block hblock) (h.ne_top hblock)
  -- What ranks below the block has not been taken out with it.
  have hstays (i : NodeId) (hi : i ∈ tree.ids) (hlt : rank i < rank block.id) :
      i ∈ (tree.remove block.id).ids := by
    rcases List.mem_append.mp (hperm.mem_iff.mp hi) with hmoved | hleft
    · exact absurd (hranked.rank_le hid hmoved) (Nat.not_le.mpr hlt)
    · exact hleft
  have horder : ∀ e ∈ earlier, rank e.inside < rank block.id :=
    (List.pairwise_cons.mp (List.pairwise_append.mp h.ordered).2.1).1
  have hsub := h.sublist hearlier
  refine ⟨moved, hfind, hid, hranked.isElement hid (h.not_docs block hblock), hranked, hperm, {
    hsub with
    toSoundBy := hsound
    id_mem := fun e he => hstays _ (hsub.id_mem e he)
      (Nat.lt_of_le_of_lt (hsub.id_le e he) (horder e he))
    inside_mem := fun e he => hstays _ (hsub.inside_mem e he) (horder e he) }⟩

/-- **A block that is taken out is put back** into an element that was opened earlier, with what has
been made around it on the way. -/
theorem Held.putBack {tree : Node} {top next : NodeId} {above between below : List Handle}
    {block g : Handle} (h : Held tree top next (above ++ block :: (between ++ g :: below)))
    {moved' : Node} {next' : NodeId} {kept : List Handle}
    (hmade : Made ((tree.find? block.id).getD .placeholder) next between moved' next' kept)
    {t : NodeId} (ht : IsTarget (tree.remove block.id) top below t) (i : List Node → Nat) :
    Held ((tree.remove block.id).mapChildren t fun cs => (Piece.node moved').insertAt (i cs) cs)
      top next' (above ++ block :: (kept ++ below)) := by
  obtain ⟨rank, docs, h⟩ := h
  obtain ⟨moved, hfind, hid, helement, hranked, hperm, hearlier⟩ := h.detach
  rw [hfind] at hmade
  have hbelow : HeldBy rank docs (tree.remove block.id) top next below :=
    hearlier.sublist ((List.sublist_cons_self _ _).trans (List.sublist_append_right _ _))
  obtain ⟨haboveOrder, hlater, haboveLater⟩ := List.pairwise_append.mp h.ordered
  obtain ⟨hblockOrder, hearlierOrder⟩ := List.pairwise_cons.mp hlater
  obtain ⟨hbetweenOrder, hgOrder, hbetweenBelow⟩ := List.pairwise_append.mp hearlierOrder
  set handles := above ++ block :: (between ++ g :: below) with hhandles
  have hblock : block ∈ handles := by simp [hhandles]
  have hbetween {e : Handle} (he : e ∈ between) : e ∈ handles := by simp [hhandles, he]
  have hmemBelow {e : Handle} (he : e ∈ below) : e ∈ between ++ g :: below := by simp [he]
  have hnodup := hperm.nodup_iff.mp h.nodup
  -- The place that the block is put back in ranks below it, and below all that is made around it.
  have htMem := hbelow.target_mem ht
  have htBlock : rank t < rank block.id :=
    hbelow.target_lt ht (h.above_top _ hblock) fun y hy => hblockOrder y (hmemBelow hy)
  have htBetween (e : Handle) (he : e ∈ between) : rank t < rank e.id :=
    hbelow.target_lt ht (h.above_top _ (hbetween he)) fun y hy =>
      hbetweenBelow e he y (List.mem_cons_of_mem _ hy)
  obtain ⟨rank', docs', hold, hnext, helement', hnodup', hlt', hperm', hranked', hkept, hpair⟩ :=
    hmade.ranked hid helement (List.nodup_append.mp hnodup).1
      (fun i hi => h.lt_next i (hperm.mem_iff.mpr (List.mem_append_left _ hi)))
      (hranked.withBound hid htBlock) htBetween (fun e he => h.lt_next _ (h.id_mem e (hbetween he)))
      (fun e he => Nat.lt_of_le_of_lt (h.id_le e (hbetween he))
        (hblockOrder e (List.mem_append_left _ he)))
      (hbetweenOrder.imp_of_mem fun {x y} _ hy hlt =>
        Nat.lt_of_le_of_lt (h.id_le y (hbetween hy)) hlt)
  have hnew (j : NodeId) (hj : j ∈ moved'.ids) : j ∉ (tree.remove block.id).ids := by
    intro hleft
    rcases List.mem_append.mp (hperm'.mem_iff.mp hj) with hj | hj
    · obtain ⟨k, hk, rfl⟩ := List.mem_map.mp hj
      exact Nat.not_lt.mpr (hkept k hk).1 (hbelow.lt_next _ hleft)
    · exact (List.nodup_append.mp hnodup).2.2 j hj j hleft rfl
  obtain ⟨hsound, hpermPut⟩ := (hbelow.toSoundBy.congr fun i hi => hold i (hbelow.lt_next i hi)).graft
    htMem helement' hnodup' hnew ((hold t (hbelow.lt_next t htMem)).1 ▸ hranked') hnext hlt' i
  have hids : ((tree.remove block.id).mapChildren t fun cs =>
      (Piece.node moved').insertAt (i cs) cs).ids.Perm (kept.map Handle.id ++ tree.ids) := by
    refine hpermPut.trans ((hperm'.append_right _).trans ?_)
    rw [List.append_assoc]
    exact hperm.symm.append_left _
  have hin := (h.congr fun j hj => hold j (h.lt_next j hj)).inTree hsound fun j hj =>
    hids.mem_iff.mpr (List.mem_append_right _ hj)
  have hkeptMem (k : Handle) (hk : k ∈ kept) := hids.mem_iff.mpr
    (List.mem_append_left tree.ids (List.mem_map_of_mem (f := Handle.id) hk))
  have holdRank (e : Handle) (he : e ∈ handles) : rank' e.id = rank e.id ∧
      rank' e.inside = rank e.inside :=
    ⟨(hold _ (h.lt_next _ (h.id_mem e he))).1, (hold _ (h.lt_next _ (h.inside_mem e he))).1⟩
  have hmade : HeldBy rank' docs' _ top next' kept := {
    toSoundBy := hsound
    id_mem := hkeptMem
    not_docs := fun k hk => (hkept k hk).2.1
    inside_mem := fun k hk => (hkept k hk).2.2.1 ▸ hkeptMem k hk
    inside_eq := fun k hk _ => (hkept k hk).2.2.1
    above_top := fun k hk => by
      obtain ⟨-, -, -, -, g, hg, heq⟩ := hkept k hk
      rw [heq, (hold _ (h.lt_next _ h.top_mem)).1]
      exact h.above_top g (hbetween hg)
    id_le := fun k hk => Nat.le_of_eq (congrArg rank' (hkept k hk).2.2.1.symm)
    ordered := hpair.imp_of_mem fun {x y} _ hy hlt => (hkept y hy).2.2.1 ▸ hlt }
  have hkeptLow (e : Handle) (he : e ∈ handles) (hover : ∀ g ∈ between, rank g.inside < rank e.id)
      (k : Handle) (hk : k ∈ kept) : rank' k.inside < rank' e.id := by
    obtain ⟨-, -, hinside, -, g, hg, heq⟩ := hkept k hk
    rw [hinside, heq, (holdRank e he).1]
    exact Nat.lt_of_le_of_lt (h.id_le g (hbetween hg)) (hover g hg)
  have hlow (e : Handle) (he : e ∈ handles) (e' : Handle) (he' : e' ∈ handles)
      (hlt : rank e'.inside < rank e.id) : rank' e'.inside < rank' e.id := by
    rwa [(holdRank e he).1, (holdRank e' he').2]
  have hbelowMem {e : Handle} (he : e ∈ below) : e ∈ handles := by simp [hhandles, he]
  -- The elements that have been made anew are held between the block and what was open before.
  have hbelowSub : below.Sublist handles :=
    (((List.sublist_cons_self g below).trans (List.sublist_append_right between _)).trans
      (List.sublist_cons_self block _)).trans (List.sublist_append_right above _)
  have hlast := hmade.append (hin.sublist hbelowSub) ?_
  have hmiddle := (hin.sublist (List.singleton_sublist.mpr hblock)).append hlast ?_
  · refine ⟨rank', docs', (hin.sublist (List.sublist_append_left above _)).append hmiddle ?_⟩
    intro x hx e he
    have hxMem : x ∈ handles := List.mem_append_left _ hx
    have hover := haboveLater x hx
    rcases List.mem_cons.mp he with rfl | he
    · exact hlow x hxMem _ hblock (hover _ List.mem_cons_self)
    · rcases List.mem_append.mp he with hk | he
      · exact hkeptLow x hxMem
          (fun g hg => hover g (List.mem_cons_of_mem _ (List.mem_append_left _ hg))) e hk
      · exact hlow x hxMem e (hbelowMem he) (hover e (List.mem_cons_of_mem _ (hmemBelow he)))
  · intro x hx e he
    obtain rfl := List.mem_singleton.mp hx
    rcases List.mem_append.mp he with hk | he
    · exact hkeptLow _ hblock (fun g hg => hblockOrder g (List.mem_append_left _ hg)) e hk
    · exact hlow _ hblock e (hbelowMem he) (hblockOrder e (hmemBelow he))
  · intro k hk e he
    obtain ⟨-, -, -, -, g, hg, heq⟩ := hkept k hk
    rw [heq, (holdRank e (hbelowMem he)).2]
    exact hbetweenBelow g hg e (List.mem_cons_of_mem _ he)

/-- **A new element around all that is in an open one** is open inside it. -/
theorem Held.wrapChildren {tree : Node} {top next : NodeId} {above earlier : List Handle}
    {block : Handle} (h : Held tree top next (above ++ block :: earlier))
    (hblock : block.name.isHtml ["template"] = false) (name : ElementName)
    (attributes : List Attribute) :
    Held (tree.mapChildren block.id fun cs => [.element next name attributes cs]) top (next + 1)
      (above ++ ⟨next, name, next⟩ :: block :: earlier) := by
  obtain ⟨rank₀, docs, h⟩ := h
  replace h := h.double
  set rank := fun i => 2 * rank₀ i with hrank
  set handles := above ++ block :: earlier with hhandles
  have hmem : block ∈ handles := by simp [hhandles]
  have hid := h.id_mem block hmem
  -- The new element ranks between the block and what is in it.
  let rank' := fun j => if j = next then rank block.id + 1 else rank j
  let docs' := fun j => j ≠ next ∧ docs j
  have hold (j : NodeId) (hj : j ∈ tree.ids) : rank' j = rank j ∧ (docs' j ↔ docs j) := by
    have hne := Nat.ne_of_lt (h.lt_next j hj)
    exact ⟨if_neg hne, by simp [docs', hne]⟩
  have hnew : rank' next = rank block.id + 1 := if_pos rfl
  have hroom : ∀ j ∈ tree.ids, rank' block.id < rank' j → rank' next < rank' j := by
    intro j hj hlow
    rw [(hold _ hid).1, (hold j hj).1] at hlow
    rw [hnew, (hold j hj).1]
    simp only [hrank] at hlow ⊢
    omega
  have hnext : rank' block.id < rank' next := by
    rw [hnew, (hold _ hid).1]
    exact Nat.lt_succ_self _
  replace h := h.congr hold
  obtain ⟨hsound, hperm⟩ := h.toSoundBy.wrapChildren hid (fun hdoc => hdoc.1 rfl) hnext hroom name
    attributes
  have hin := h.inTree hsound fun j hj => hperm.mem_iff.mpr (List.mem_cons_of_mem _ hj)
  have hnextMem := hperm.mem_iff.mpr (List.mem_cons_self (a := next) (l := tree.ids))
  obtain ⟨habove, hlater, haboveLater⟩ := List.pairwise_append.mp hin.ordered
  have hearlier := hin.sublist (List.sublist_append_right above (block :: earlier))
  have hwith := hearlier.cons (g := ⟨next, name, next⟩) hnextMem (fun hdoc => hdoc.1 rfl) hnextMem
    (fun _ => rfl) (Nat.lt_trans (h.above_top _ hmem) hnext) (Nat.le_refl _) fun e he => by
      rcases List.mem_cons.mp he with rfl | he
      · rwa [h.inside_eq _ hmem hblock]
      · exact Nat.lt_trans ((List.pairwise_cons.mp hlater).1 e he) hnext
  refine ⟨rank', docs', (hin.sublist (List.sublist_append_left above _)).append hwith ?_⟩
  intro x hx e he
  have hover := haboveLater x hx
  rcases List.mem_cons.mp he with rfl | he
  · refine hroom _ (h.id_mem x (List.mem_append_left _ hx)) ?_
    rw [← h.inside_eq _ hmem hblock]
    exact hover block List.mem_cons_self
  · exact hover e he

end TerseMarkup.Html
