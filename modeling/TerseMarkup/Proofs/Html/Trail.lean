import TerseMarkup.Proofs.Html.Edit

/-! A node that a trail of first children leads to.

Where all other nodes are newer than the node at the end of the trail, edits in the rest of the tree
leave it and the trail alone: whatever is put in goes behind the first child, and what is taken out
does not stand on the trail. -/
namespace TerseMarkup.Html
namespace Node

/-- What a node is called: its identity, and its name if it is an element. -/
def label? : Node → Option (NodeId × Option ElementName)
  | document id _ => some (id, none)
  | element id name _ _ => some (id, some name)
  | _ => none

/-- First children called as `path` says lead from this node to `last`; the identities of all other
nodes start at `n`. -/
def Trail (n : NodeId) (last : Node) : List (NodeId × Option ElementName) → Node → Prop
  | [], root => root = last
  | l :: path, root => root.label? = some l ∧
      ∃ first rest, root.children = first :: rest ∧ (∀ j ∈ idsAll rest, n ≤ j) ∧ Trail n last path first

/-- Children that begin with this node go on to do so, and the others stay new. -/
def KeepsFirst (n : NodeId) (first : Node) (f : List Node → List Node) : Prop :=
  ∀ rest, (∀ j ∈ idsAll rest, n ≤ j) →
    ∃ rest', f (first :: rest) = first :: rest' ∧ ∀ j ∈ idsAll rest', n ≤ j

/-! ### Edits of new nodes -/

/-- An edit of children adds new nodes only. -/
def KeepsNew (n : NodeId) (f : List Node → List Node) : Prop :=
  ∀ cs, (∀ j ∈ idsAll cs, n ≤ j) → ∀ j ∈ idsAll (f cs), n ≤ j

mutual

theorem le_ids_mapChildren {n t : NodeId} {f : List Node → List Node} (hf : KeepsNew n f) :
    (m : Node) → (∀ j ∈ m.ids, n ≤ j) → ∀ j ∈ (m.mapChildren t f).ids, n ≤ j
  | document id cs, h | element id _ _ cs, h => by
    obtain ⟨hid, hcs⟩ := List.forall_mem_cons.mp h
    refine List.forall_mem_cons.mpr ⟨hid, ?_⟩
    split
    · exact hf cs hcs
    · exact le_ids_mapChildrenAll hf cs hcs
  | doctype _ _ _, h | text _, h | comment _, h | placeholder, h => h

theorem le_ids_mapChildrenAll {n t : NodeId} {f : List Node → List Node} (hf : KeepsNew n f) :
    (cs : List Node) → (∀ j ∈ idsAll cs, n ≤ j) → ∀ j ∈ idsAll (mapChildrenAll t f cs), n ≤ j
  | [], h => h
  | c :: rest, h => by
    obtain ⟨hc, hrest⟩ := List.forall_mem_append.mp h
    exact List.forall_mem_append.mpr
      ⟨le_ids_mapChildren hf c hc, le_ids_mapChildrenAll hf rest hrest⟩

end

theorem label?_mapChildren (t : NodeId) (f : List Node → List Node) (m : Node) :
    (m.mapChildren t f).label? = m.label? := by
  cases m <;> rfl

theorem id?_of_label? {m : Node} {l : NodeId × Option ElementName} (h : m.label? = some l) :
    m.id? = some l.1 := by
  cases m <;> simp_all [label?, id?] <;> exact h ▸ rfl

/-- A node whose identity is not meant goes on with its children. -/
theorem children_mapChildren_of_ne {m : Node} {i t : NodeId} (hid : m.id? = some i) (hne : i ≠ t)
    (f : List Node → List Node) :
    (m.mapChildren t f).children = mapChildrenAll t f m.children := by
  cases m with
  | document | element =>
    obtain rfl := Option.some.inj hid
    simp [mapChildren, children, hne]
  | doctype | text | comment | placeholder => cases hid

theorem Trail.mapChildren {n : NodeId} {last root : Node} {path : List (NodeId × Option ElementName)}
    (h : Trail n last path root) {t : NodeId} {f : List Node → List Node} (ht : t ∉ last.ids)
    (hnew : KeepsNew n f)
    (hpath : t ∈ path.map Prod.fst → ∀ first, first.id?.isSome → KeepsFirst n first f)
    (hlast : last.id?.isSome) : Trail n last path (root.mapChildren t f) := by
  induction path generalizing root with
  | nil =>
    rw [Trail] at h
    rw [h, mapChildren_of_not_mem f last ht]
    rfl
  | cons l path ih =>
    obtain ⟨hlabel, first, rest, hchildren, hrest, hfirst⟩ := h
    have hid := id?_of_label? hlabel
    refine ⟨(label?_mapChildren _ _ _).trans hlabel, ?_⟩
    by_cases hl : l.1 = t
    · have hsome : first.id?.isSome := by
        cases path with
        | nil => exact hfirst ▸ hlast
        | cons l' path => rw [id?_of_label? hfirst.1]; rfl
      obtain ⟨rest', heq, hrest'⟩ := hpath (by simp [hl]) first hsome rest hrest
      rw [mapChildren_self (hl ▸ hid), hchildren, heq]
      refine ⟨first, rest', ?_, hrest', hfirst⟩
      cases root with
      | document | element => rfl
      | doctype | text | comment | placeholder => exact nomatch hid
    · rw [children_mapChildren_of_ne hid hl, hchildren, mapChildrenAll]
      exact ⟨_, _, rfl, le_ids_mapChildrenAll hnew rest hrest,
        ih hfirst fun hmem => hpath (List.mem_cons_of_mem _ hmem)⟩

/-! ### Where new nodes stand -/

theorem locate?_eq {m : Node} {i : NodeId} (hid : m.id? = some i) (t : NodeId) :
    m.locate? t = ((position? t m.children).map (i, ·)).or (locateAmong? t m.children) := by
  cases m with
  | document | element =>
    obtain rfl := Option.some.inj hid
    rfl
  | doctype | text | comment | placeholder => exact nomatch hid

variable {n : NodeId} {last root : Node} {path : List (NodeId × Option ElementName)}

theorem Trail.id?_lt (h : Trail n last path root) (hlast : ∀ j ∈ last.ids, j < n)
    (hpath : ∀ j ∈ path.map Prod.fst, j < n) {t : NodeId} (ht : n ≤ t) : root.id? ≠ some t := by
  intro hid
  cases path with
  | nil =>
    rw [Trail] at h
    exact Nat.not_lt.mpr ht (hlast t (mem_ids_of_id? (h ▸ hid)))
  | cons l path =>
    obtain rfl := Option.some.inj ((id?_of_label? h.1).symm.trans hid)
    exact Nat.not_lt.mpr ht (hpath l.1 List.mem_cons_self)

/-- A new node stands in a new one, or behind a node of the trail. -/
theorem Trail.locate? (h : Trail n last path root) (hlast : ∀ j ∈ last.ids, j < n)
    (hpath : ∀ j ∈ path.map Prod.fst, j < n) {t parent : NodeId} {i : Nat} (ht : n ≤ t)
    (hlocate : root.locate? t = some (parent, i)) :
    n ≤ parent ∨ parent ∈ path.map Prod.fst ∧ 1 ≤ i := by
  induction path generalizing root with
  | nil =>
    rw [Trail] at h
    rw [h, locate?_of_not_mem last fun hmem => Nat.not_lt.mpr ht (hlast t hmem)] at hlocate
    exact nomatch hlocate
  | cons l path ih =>
    obtain ⟨hlabel, first, rest, hchildren, hrest, hfirst⟩ := h
    have hpath' : ∀ j ∈ path.map Prod.fst, j < n :=
      fun j hj => hpath j (List.mem_cons_of_mem _ hj)
    rw [locate?_eq (id?_of_label? hlabel), hchildren, Option.or_eq_some_iff,
      Option.map_eq_some_iff] at hlocate
    rcases hlocate with ⟨k, hk, heq⟩ | ⟨-, hlocate⟩
    · obtain ⟨rfl, rfl⟩ := Prod.mk.inj heq
      refine .inr ⟨List.mem_cons_self, Nat.pos_of_ne_zero fun hzero => ?_⟩
      rw [position?, hzero, List.findIdx?_eq_some_iff_getElem] at hk
      obtain ⟨_, hid, _⟩ := hk
      exact hfirst.id?_lt hlast hpath' ht (beq_iff_eq.mp hid)
    · rw [locateAmong?, Option.or_eq_some_iff] at hlocate
      rcases hlocate with hlocate | ⟨-, hlocate⟩
      · rcases ih hfirst hpath' hlocate with hle | ⟨hmem, hi⟩
        · exact .inl hle
        · exact .inr ⟨List.mem_cons_of_mem _ hmem, hi⟩
      · exact .inl (hrest _ (mem_idsAll_of_locateAmong? rest hlocate))

/-! ### Edits of the rest -/

theorem keepsNew_insertAt {p : Piece} (hids : ∀ j ∈ p.ids, n ≤ j) (i : List Node → Nat) :
    KeepsNew n fun cs => p.insertAt (i cs) cs := by
  intro cs hcs j hmem
  obtain ⟨c, hc, hj⟩ := mem_idsAll.mp hmem
  rcases Piece.mem_insertAt hc with hc | rfl | ⟨t, rfl⟩
  · exact hcs j (mem_idsAll.mpr ⟨c, hc, hj⟩)
  · exact hids j hj
  · exact absurd hj List.not_mem_nil

theorem insertAt_cons {p : Piece} {first : Node} (hfirst : first.id?.isSome) (i : Nat)
    (cs : List Node) : p.insertAt (i + 1) (first :: cs) = first :: p.insertAt i cs := by
  rw [Piece.insertAt, Piece.insertAt, List.splitAt_eq, List.splitAt_eq, List.take_succ_cons,
    List.drop_succ_cons]
  cases p with
  | text t =>
    cases htake : cs.take i with
    | nil => cases first <;> first | rfl | cases hfirst
    | cons c before =>
      dsimp only
      rw [List.getLast?_cons_cons]
      split <;> rfl
  | node m =>
    dsimp only
    split <;> rfl

theorem keepsFirst_insertAt {p : Piece} (hids : ∀ j ∈ p.ids, n ≤ j) {first : Node}
    (hfirst : first.id?.isSome) {i : List Node → Nat} (hi : ∀ rest, 1 ≤ i (first :: rest)) :
    KeepsFirst n first fun cs => p.insertAt (i cs) cs := by
  intro rest hrest
  refine ⟨p.insertAt (i (first :: rest) - 1) rest, ?_, ?_⟩
  · show p.insertAt (i (first :: rest)) (first :: rest) = _
    rw [← insertAt_cons hfirst, Nat.sub_add_cancel (hi rest)]
  · exact keepsNew_insertAt hids (fun _ => i (first :: rest) - 1) rest hrest

theorem keepsNew_eraseIdx (i : Nat) : KeepsNew n (·.eraseIdx i) := by
  intro cs hcs j hj
  obtain ⟨c, hc, hj⟩ := mem_idsAll.mp hj
  exact hcs j (mem_idsAll.mpr ⟨c, List.mem_of_mem_eraseIdx hc, hj⟩)

theorem keepsFirst_eraseIdx (first : Node) {i : Nat} (hi : 1 ≤ i) :
    KeepsFirst n first (·.eraseIdx i) := by
  intro rest hrest
  obtain ⟨k, rfl⟩ := Nat.exists_eq_add_of_le' hi
  exact ⟨rest.eraseIdx k, rfl, keepsNew_eraseIdx k rest hrest⟩

theorem le_ids_remove {m : Node} (h : ∀ j ∈ m.ids, n ≤ j) (t : NodeId) :
    ∀ j ∈ (m.remove t).ids, n ≤ j := by
  rw [Node.remove]
  split
  · exact le_ids_mapChildren (keepsNew_eraseIdx _) m h
  · exact h

/-- **Taking out a new node** leaves the trail. -/
theorem Trail.remove (h : Trail n last path root) (hlast : ∀ j ∈ last.ids, j < n)
    (hsome : last.id?.isSome) (hpath : ∀ j ∈ path.map Prod.fst, j < n)
    (hapart : ∀ j ∈ path.map Prod.fst, j ∉ last.ids) {t : NodeId} (ht : n ≤ t) :
    Trail n last path (root.remove t) := by
  rw [Node.remove]
  split
  next parent i hlocate =>
    have hparent := h.locate? hlast hpath ht hlocate
    refine h.mapChildren ?_ (keepsNew_eraseIdx i) ?_ hsome
    · rcases hparent with hle | ⟨hmem, -⟩
      · exact fun hmem => Nat.not_lt.mpr hle (hlast parent hmem)
      · exact hapart parent hmem
    · intro hmem first _
      rcases hparent with hle | ⟨-, hi⟩
      · exact absurd (hpath parent hmem) (Nat.not_lt.mpr hle)
      · exact keepsFirst_eraseIdx first hi
  · exact h

/-! ### What is found -/

mutual

theorem ids_subset_of_find? {t : NodeId} {m : Node} : (k : Node) → k.find? t = some m → m.ids ⊆ k.ids
  | document id cs, h | element id _ _ cs, h => by
    rw [find?] at h
    split at h
    · obtain rfl := Option.some.inj h
      exact List.Subset.refl _
    · exact List.subset_cons_of_subset _ (ids_subset_of_findAmong? cs h)
  | doctype _ _ _, h | text _, h | comment _, h | placeholder, h => nomatch h

theorem ids_subset_of_findAmong? {t : NodeId} {m : Node} : (cs : List Node) →
    findAmong? t cs = some m → m.ids ⊆ idsAll cs
  | [], h => nomatch h
  | c :: rest, h => by
    rw [findAmong?, Option.or_eq_some_iff] at h
    rcases h with h | ⟨-, h⟩
    · exact List.Subset.trans (ids_subset_of_find? c h) (List.subset_append_left _ _)
    · exact List.Subset.trans (ids_subset_of_findAmong? rest h) (List.subset_append_right _ _)

end

theorem findAmong?_le {t : NodeId} {m : Node} {cs : List Node} (h : ∀ j ∈ idsAll cs, n ≤ j)
    (hm : findAmong? t cs = some m) : ∀ j ∈ m.ids, n ≤ j :=
  fun j hj => h j (ids_subset_of_findAmong? cs hm hj)

/-- A new node holds new nodes only. -/
theorem Trail.find? (h : Trail n last path root) (hlast : ∀ j ∈ last.ids, j < n)
    (hpath : ∀ j ∈ path.map Prod.fst, j < n) {t : NodeId} (ht : n ≤ t) {m : Node}
    (hm : root.find? t = some m) : ∀ j ∈ m.ids, n ≤ j := by
  induction path generalizing root with
  | nil =>
    rw [Trail] at h
    rw [h, find?_of_not_mem last fun hmem => Nat.not_lt.mpr ht (hlast t hmem)] at hm
    exact nomatch hm
  | cons l path ih =>
    obtain ⟨hlabel, first, rest, hchildren, hrest, hfirst⟩ := h
    have hne : l.1 ≠ t := fun heq => Nat.not_lt.mpr ht (heq ▸ hpath l.1 List.mem_cons_self)
    have hfind : root.find? t = findAmong? t root.children := by
      have hid := id?_of_label? hlabel
      cases root with
      | document | element =>
        obtain rfl := Option.some.inj hid
        exact if_neg hne
      | doctype | text | comment | placeholder => exact nomatch hid
    rw [hfind, hchildren, findAmong?, Option.or_eq_some_iff] at hm
    rcases hm with hm | ⟨-, hm⟩
    · exact ih hfirst (fun j hj => hpath j (List.mem_cons_of_mem _ hj)) hm
    · exact findAmong?_le hrest hm

/-! ### Attributes -/

mutual

theorem ids_mapAttributes (t : NodeId) (f : List Attribute → List Attribute) : (m : Node) →
    (m.mapAttributes t f).ids = m.ids
  | document id cs | element id _ _ cs => congrArg (id :: ·) (idsAll_mapAttributesAll t f cs)
  | doctype _ _ _ | text _ | comment _ | placeholder => rfl

theorem idsAll_mapAttributesAll (t : NodeId) (f : List Attribute → List Attribute) :
    (cs : List Node) → idsAll (mapAttributesAll t f cs) = idsAll cs
  | [] => rfl
  | c :: rest => by
    rw [mapAttributesAll, idsAll, ids_mapAttributes t f c, idsAll_mapAttributesAll t f rest, idsAll]

end

mutual

theorem mapAttributes_of_not_mem {t : NodeId} (f : List Attribute → List Attribute) : (m : Node) →
    t ∉ m.ids → m.mapAttributes t f = m
  | document id cs, h => by
    simp only [ids, List.mem_cons, not_or] at h
    rw [mapAttributes, mapAttributesAll_of_not_mem f cs h.2]
  | element id _ _ cs, h => by
    simp only [ids, List.mem_cons, not_or] at h
    rw [mapAttributes, if_neg (Ne.symm h.1), mapAttributesAll_of_not_mem f cs h.2]
  | doctype _ _ _, _ | text _, _ | comment _, _ | placeholder, _ => rfl

theorem mapAttributesAll_of_not_mem {t : NodeId} (f : List Attribute → List Attribute) :
    (cs : List Node) → t ∉ idsAll cs → mapAttributesAll t f cs = cs
  | [], _ => rfl
  | c :: rest, h => by
    simp only [idsAll, List.mem_append, not_or] at h
    rw [mapAttributesAll, mapAttributes_of_not_mem f c h.1, mapAttributesAll_of_not_mem f rest h.2]

end

theorem Trail.mapAttributes (h : Trail n last path root) {t : NodeId} (ht : t ∉ last.ids)
    (f : List Attribute → List Attribute) : Trail n last path (root.mapAttributes t f) := by
  induction path generalizing root with
  | nil =>
    rw [Trail] at h
    rw [h, mapAttributes_of_not_mem f last ht]
    rfl
  | cons l path ih =>
    obtain ⟨hlabel, first, rest, hchildren, hrest, hfirst⟩ := h
    have hlabel' : (root.mapAttributes t f).label? = root.label? := by cases root <;> rfl
    have hchildren' : (root.mapAttributes t f).children = mapAttributesAll t f root.children := by
      cases root <;> rfl
    refine ⟨hlabel'.trans hlabel, first.mapAttributes t f, mapAttributesAll t f rest, ?_, ?_,
      ih hfirst⟩
    · rw [hchildren', hchildren, mapAttributesAll]
    · rw [idsAll_mapAttributesAll]
      exact hrest

end Node
end TerseMarkup.Html
