import TerseMarkup.Proofs.Html.Edit

/-! Trees in which ranks grow from parents to children.

Identities are given in the order in which nodes are made, and a node may be moved into one made
later. Ranks are free of that: they may be chosen anew after each edit, as long as they grow from
the top of the tree downwards. What has a lower rank than a node then does not stand below it
(`Ranked.rank_le`), however the tree came about. Which identities are those of documents is kept
along with the ranks. -/
namespace TerseMarkup.Html
namespace Node

mutual

/-- Ranks grow from each node to its children, and the node's own is above `bound`. The documents
are those that `docs` names. -/
def Ranked (rank : NodeId → Nat) (docs : NodeId → Prop) (bound : Nat) : Node → Prop
  | document id cs => bound < rank id ∧ docs id ∧ RankedAll rank docs (rank id) cs
  | element id _ _ cs => bound < rank id ∧ ¬ docs id ∧ RankedAll rank docs (rank id) cs
  | doctype _ _ _ => True
  | text _ => True
  | comment _ => True
  | placeholder => True

def RankedAll (rank : NodeId → Nat) (docs : NodeId → Prop) (bound : Nat) : List Node → Prop
  | [] => True
  | n :: rest => n.Ranked rank docs bound ∧ RankedAll rank docs bound rest

end

variable {rank rank' : NodeId → Nat} {docs docs' : NodeId → Prop} {bound bound' : Nat}
  {t : NodeId}

theorem rankedAll_iff {cs : List Node} :
    RankedAll rank docs bound cs ↔ ∀ c ∈ cs, c.Ranked rank docs bound := by
  induction cs with
  | nil => simp [RankedAll]
  | cons c cs ih => simp [RankedAll, ih]

theorem Ranked.children {n : Node} (h : n.Ranked rank docs bound) (hn : n.id? = some t) :
    bound < rank t ∧ RankedAll rank docs (rank t) n.children := by
  cases n with
  | document | element =>
    obtain rfl := Option.some.inj hn
    exact ⟨h.1, h.2.2⟩
  | doctype | text | comment | placeholder => nomatch hn

theorem Ranked.withBound {n : Node} (h : n.Ranked rank docs bound) (hn : n.id? = some t)
    (hlt : bound' < rank t) : n.Ranked rank docs bound' := by
  cases n with
  | document | element =>
    obtain rfl := Option.some.inj hn
    exact ⟨hlt, h.2⟩
  | doctype | text | comment | placeholder => trivial

theorem Ranked.isElement {n : Node} (h : n.Ranked rank docs bound) (hn : n.id? = some t)
    (hdoc : ¬ docs t) : n.isElement = true := by
  cases n with
  | document =>
    obtain rfl := Option.some.inj hn
    exact absurd h.2.1 hdoc
  | element => rfl
  | doctype | text | comment | placeholder => nomatch hn

theorem Ranked.mono {n : Node} (h : n.Ranked rank docs bound) (hle : bound' ≤ bound) :
    n.Ranked rank docs bound' := by
  cases n with
  | document | element => exact ⟨Nat.lt_of_le_of_lt hle h.1, h.2⟩
  | doctype | text | comment | placeholder => trivial

mutual

/-- Ranks count only where they are of nodes in the tree. -/
theorem Ranked.congr {bound : Nat} : (n : Node) →
    (∀ i ∈ n.ids, rank' i = rank i ∧ (docs' i ↔ docs i)) → n.Ranked rank docs bound →
    n.Ranked rank' docs' bound
  | document id cs, heq, h => by
    obtain ⟨hrank, hdocs⟩ := heq id List.mem_cons_self
    exact ⟨hrank ▸ h.1, hdocs.mpr h.2.1,
      hrank ▸ RankedAll.congr cs (fun i hi => heq i (List.mem_cons_of_mem id hi)) h.2.2⟩
  | element id _ _ cs, heq, h => by
    obtain ⟨hrank, hdocs⟩ := heq id List.mem_cons_self
    exact ⟨hrank ▸ h.1, fun hdoc => h.2.1 (hdocs.mp hdoc),
      hrank ▸ RankedAll.congr cs (fun i hi => heq i (List.mem_cons_of_mem id hi)) h.2.2⟩
  | doctype _ _ _, _, _ | text _, _, _ | comment _, _, _ | placeholder, _, _ => trivial

theorem RankedAll.congr {bound : Nat} : (cs : List Node) →
    (∀ i ∈ idsAll cs, rank' i = rank i ∧ (docs' i ↔ docs i)) → RankedAll rank docs bound cs → RankedAll rank' docs' bound cs
  | [], _, _ => trivial
  | c :: rest, heq, h =>
    ⟨Ranked.congr c (fun i hi => heq i (List.mem_append_left _ hi)) h.1,
      RankedAll.congr rest (fun i hi => heq i (List.mem_append_right _ hi)) h.2⟩

end

mutual

/-- Twice the ranks are ranks with room between them. -/
theorem Ranked.double {bound : Nat} : (n : Node) → n.Ranked rank docs bound →
    n.Ranked (fun i => 2 * rank i) docs (2 * bound)
  | document _ cs, h | element _ _ _ cs, h =>
    ⟨Nat.mul_lt_mul_of_pos_left h.1 (by decide), h.2.1, RankedAll.double cs h.2.2⟩
  | doctype _ _ _, _ | text _, _ | comment _, _ | placeholder, _ => trivial

theorem RankedAll.double {bound : Nat} : (cs : List Node) → RankedAll rank docs bound cs →
    RankedAll (fun i => 2 * rank i) docs (2 * bound) cs
  | [], _ => trivial
  | c :: rest, h => ⟨Ranked.double c h.1, RankedAll.double rest h.2⟩

end

mutual

theorem Ranked.lt_rank {bound : Nat} {i : NodeId} : (n : Node) → n.Ranked rank docs bound →
    i ∈ n.ids → bound < rank i
  | document _ cs, h, hi | element _ _ _ cs, h, hi => by
    rcases List.mem_cons.mp hi with rfl | hi
    · exact h.1
    · exact Nat.lt_trans h.1 (RankedAll.lt_rank cs h.2.2 hi)
  | doctype _ _ _, _, hi | text _, _, hi | comment _, _, hi | placeholder, _, hi =>
    absurd hi List.not_mem_nil

theorem RankedAll.lt_rank {bound : Nat} {i : NodeId} : (cs : List Node) →
    RankedAll rank docs bound cs → i ∈ idsAll cs → bound < rank i
  | [], _, hi => absurd hi List.not_mem_nil
  | c :: rest, h, hi => by
    rcases List.mem_append.mp hi with hi | hi
    · exact Ranked.lt_rank c h.1 hi
    · exact RankedAll.lt_rank rest h.2 hi

end

/-- **Nothing below a node has a lower rank.** -/
theorem Ranked.rank_le {n : Node} {i : NodeId} (h : n.Ranked rank docs bound) (hn : n.id? = some t)
    (hi : i ∈ n.ids) : rank t ≤ rank i := by
  rw [ids_eq hn] at hi
  rcases List.mem_cons.mp hi with rfl | hi
  · exact Nat.le_refl _
  · exact Nat.le_of_lt (RankedAll.lt_rank _ (h.children hn).2 hi)

/-! ### Edits -/

mutual

theorem Ranked.mapChildren {bound : Nat} {f : List Node → List Node} : (n : Node) →
    (∀ cs, idsAll cs ⊆ n.ids → RankedAll rank docs (rank t) cs → RankedAll rank docs (rank t) (f cs)) →
    n.Ranked rank docs bound → (n.mapChildren t f).Ranked rank docs bound
  | document id cs, hf, h | element id _ _ cs, hf, h => by
    have hcs : idsAll cs ⊆ id :: idsAll cs := fun i hi => List.mem_cons_of_mem id hi
    by_cases hid : id = t
    · subst hid
      rw [Node.mapChildren, if_pos rfl]
      exact ⟨h.1, h.2.1, hf cs hcs h.2.2⟩
    · rw [Node.mapChildren, if_neg hid]
      exact ⟨h.1, h.2.1, RankedAll.mapChildren cs (fun ds hds => hf ds (List.Subset.trans hds hcs)) h.2.2⟩
  | doctype _ _ _, _, _ | text _, _, _ | comment _, _, _ | placeholder, _, _ => trivial

theorem RankedAll.mapChildren {bound : Nat} {f : List Node → List Node} : (cs : List Node) →
    (∀ ds, idsAll ds ⊆ idsAll cs → RankedAll rank docs (rank t) ds → RankedAll rank docs (rank t) (f ds)) →
    RankedAll rank docs bound cs → RankedAll rank docs bound (mapChildrenAll t f cs)
  | [], _, _ => trivial
  | c :: rest, hf, h =>
    ⟨Ranked.mapChildren c (fun ds hds => hf ds fun _ hi => List.mem_append_left _ (hds hi)) h.1,
      RankedAll.mapChildren rest
        (fun ds hds => hf ds fun _ hi => List.mem_append_right _ (hds hi)) h.2⟩

end

theorem Ranked.remove {n : Node} (h : n.Ranked rank docs bound) (t : NodeId) :
    (n.remove t).Ranked rank docs bound := by
  rw [Node.remove]
  split
  · refine Ranked.mapChildren n (fun cs _ hcs => ?_) h
    rw [rankedAll_iff] at hcs ⊢
    exact fun c hc => hcs c (List.mem_of_mem_eraseIdx hc)
  · exact h

mutual

theorem Ranked.find? {bound : Nat} {m : Node} : (n : Node) → n.Ranked rank docs bound →
    n.find? t = some m → m.Ranked rank docs bound
  | document id cs, h, hm | element id _ _ cs, h, hm => by
    rw [Node.find?] at hm
    split at hm
    · obtain rfl := Option.some.inj hm
      exact h
    · exact (RankedAll.find? cs h.2.2 hm).mono (Nat.le_of_lt h.1)
  | doctype _ _ _, _, hm | text _, _, hm | comment _, _, hm | placeholder, _, hm =>
    nomatch hm

theorem RankedAll.find? {bound : Nat} {m : Node} : (cs : List Node) → RankedAll rank docs bound cs →
    findAmong? t cs = some m → m.Ranked rank docs bound
  | [], _, hm => nomatch hm
  | c :: rest, h, hm => by
    rw [findAmong?, Option.or_eq_some_iff] at hm
    rcases hm with hm | ⟨-, hm⟩
    · exact Ranked.find? c h.1 hm
    · exact RankedAll.find? rest h.2 hm

end

theorem RankedAll.of_position? {cs : List Node} {i : Nat} (h : RankedAll rank docs bound cs)
    (hi : position? t cs = some i) : bound < rank t := by
  rw [position?, List.findIdx?_eq_some_iff_getElem] at hi
  obtain ⟨hlt, hid, -⟩ := hi
  exact ((rankedAll_iff.mp h _ (List.getElem_mem hlt)).children (beq_iff_eq.mp hid)).1

mutual

/-- A node's parent has a lower rank. -/
theorem Ranked.locate? {bound : Nat} {parent : NodeId} {i : Nat} : (n : Node) →
    n.Ranked rank docs bound → n.locate? t = some (parent, i) → rank parent < rank t
  | document id cs, h, hm | element id _ _ cs, h, hm => by
    rw [Node.locate?, Option.or_eq_some_iff, Option.map_eq_some_iff] at hm
    rcases hm with ⟨j, hj, heq⟩ | ⟨-, hm⟩
    · obtain ⟨rfl, -⟩ := Prod.mk.inj heq
      exact RankedAll.of_position? h.2.2 hj
    · exact RankedAll.locate? cs h.2.2 hm
  | doctype _ _ _, _, hm | text _, _, hm | comment _, _, hm | placeholder, _, hm =>
    nomatch hm

theorem RankedAll.locate? {bound : Nat} {parent : NodeId} {i : Nat} : (cs : List Node) →
    RankedAll rank docs bound cs → locateAmong? t cs = some (parent, i) → rank parent < rank t
  | [], _, hm => nomatch hm
  | c :: rest, h, hm => by
    rw [locateAmong?, Option.or_eq_some_iff] at hm
    rcases hm with hm | ⟨-, hm⟩
    · exact Ranked.locate? c h.1 hm
    · exact RankedAll.locate? rest h.2 hm

end

theorem RankedAll.insertAt {p : Piece} {i : Nat} {cs : List Node} (h : RankedAll rank docs bound cs)
    (hp : ∀ n, p = .node n → n.Ranked rank docs bound) : RankedAll rank docs bound (p.insertAt i cs) := by
  rw [rankedAll_iff] at h ⊢
  intro c hc
  rcases Piece.mem_insertAt hc with hc | hc | ⟨t, rfl⟩
  · exact h c hc
  · exact hp c hc
  · trivial

end Node
end TerseMarkup.Html
