import TerseMarkup.Proofs.Html.Construction.Stable

/-! Where pieces go, and what becomes of a block in a formatting element.

A piece goes into an open element or before an open table. Taking a block out of a formatting element
comes to this: the block is taken out of the tree, some elements are made anew around it, it is put
back into an element opened earlier, and a new formatting element is made around all that is in it
(`rescue_eq`). -/
namespace TerseMarkup.Html
open Builder

/-- What is known of an element on the list of formatting elements. The first five identities are
those of the document and of the elements that a fragment is read in. -/
def Remembered (h : Handle) (t : Tag) : Prop :=
  5 ≤ h.id ∧ h.inside = h.id ∧ h.name = ⟨.html, t.name⟩ ∧ t.name ∈ formattingTags

theorem not_template_of_formattingTags {name : String} (h : name ∈ formattingTags) :
    ElementName.isHtml ⟨.html, name⟩ ["template"] = false := by
  have hall : ∀ name ∈ formattingTags, ElementName.isHtml ⟨.html, name⟩ ["template"] = false := by
    decide
  exact hall name h

namespace Builder

theorem create_plain (b : Builder) {name : ElementName} (h : name.isHtml ["template"] = false)
    (attributes : List Attribute) :
    b.create name attributes = (⟨b.nextId, name, b.nextId⟩, .element b.nextId name attributes [],
      { b with nextId := b.nextId + 1 }) := by
  rw [create, if_neg (by rw [h]; decide)]

theorem le_nextAfter (next : NodeId) (name : ElementName) : next ≤ nextAfter next name := by
  rw [nextAfter]
  split
  · exact Nat.le_add_right _ _
  · exact Nat.le_add_right _ _

theorem le_newHandle_inside (next : NodeId) (name : ElementName) :
    next ≤ (newHandle next name).inside := by
  rw [newHandle]
  split
  · exact Nat.le_add_right _ _
  · exact Nat.le_refl _

theorem le_ids_new {next j : NodeId} {name : ElementName} (attributes : List Attribute)
    (h : j ∈ (Node.element next name attributes (newChildren next name)).ids) : next ≤ j := by
  rcases List.mem_cons.mp h with rfl | h
  · exact Nat.le_refl _
  · rw [newChildren] at h
    split at h
    · obtain rfl := List.mem_singleton.mp h
      exact Nat.le_add_right _ _
    · exact absurd h List.not_mem_nil

theorem newHandle_plain (next : NodeId) {name : ElementName} (h : name.isHtml ["template"] = false) :
    newHandle next name = ⟨next, name, next⟩ := by
  rw [newHandle, if_neg (by rw [h]; decide)]

theorem remembered_newHandle {next : NodeId} {t : Tag} (hnext : 5 ≤ next)
    (ht : t.name ∈ formattingTags) : Remembered (newHandle next ⟨.html, t.name⟩) t := by
  rw [newHandle_plain next (not_template_of_formattingTags ht)]
  exact ⟨hnext, rfl, rfl, ht⟩

theorem stack_put (b : Builder) (p : Piece) : (b.put p).stack = b.stack := by
  obtain ⟨root, failed, hput⟩ := put_eq b p
  rw [hput]

theorem pushElement_eq (b : Builder) (space : Namespace) (t : Tag) :
    b.pushElement space t = (newHandle b.nextId ⟨space, t.name⟩,
      { (b.putElement space t).2 with stack := newHandle b.nextId ⟨space, t.name⟩ :: b.stack }) := by
  rw [pushElement, putElement_eq]
  dsimp only
  rw [stack_put]

/-- Pieces that do not belong in a table go into an open element or before an open table. -/
theorem fosterPlace_cases (stack : List Handle) :
    (∃ t, (t = 0 ∨ ∃ h ∈ stack, t = h.inside) ∧ fosterPlace stack = .inside t) ∨
      ∃ h ∈ stack, ∃ g ∈ stack, h.name.isHtml ["table"] = true ∧
        fosterPlace stack = .beforeTable h.id g.id := by
  induction stack with
  | nil => exact .inl ⟨0, .inl rfl, rfl⟩
  | cons h rest ih =>
    cases rest with
    | nil => exact .inl ⟨h.inside, .inr ⟨h, List.mem_cons_self, rfl⟩, rfl⟩
    | cons g rest =>
      rw [fosterPlace]
      split
      · exact .inl ⟨h.inside, .inr ⟨h, List.mem_cons_self, rfl⟩, rfl⟩
      · split
        next htable =>
          exact .inr ⟨h, List.mem_cons_self, g, by simp, htable, rfl⟩
        · rcases ih with ⟨t, ht, heq⟩ | ⟨e, he, e', he', htable, heq⟩
          · refine .inl ⟨t, ht.imp_right ?_, heq⟩
            rintro ⟨e, he, rfl⟩
            exact ⟨e, List.mem_cons_of_mem _ he, rfl⟩
          · exact .inr ⟨e, List.mem_cons_of_mem _ he, e', List.mem_cons_of_mem _ he', htable, heq⟩

/-- Elements made anew on the way are formatting elements. -/
theorem rescueThrough_spec (r : Rescue) (steps : Nat) (between : List Handle)
    (hnext : 5 ≤ r.builder.nextId)
    (hknown : ∀ h t, .element h t ∈ r.builder.formatting → Remembered h t) :
    ∃ next formatting kept moved bookmark, rescueThrough r steps between =
        ⟨{ r.builder with nextId := next, formatting }, r.kept ++ kept, moved, bookmark⟩ ∧
      Made r.moved r.builder.nextId between moved next kept ∧ r.builder.nextId ≤ next ∧
      (∀ k ∈ kept, r.builder.nextId ≤ k.id ∧ k.inside = k.id ∧ k.name.space = .html ∧
        k.name.name ∈ formattingTags) ∧
      ∀ h t, .element h t ∈ formatting → Remembered h t := by
  induction between generalizing r steps with
  | nil =>
    refine ⟨r.builder.nextId, r.builder.formatting, [], r.moved, r.bookmark, ?_, .nil _ _,
      Nat.le_refl _, by simp, hknown⟩
    rw [rescueThrough, List.append_nil]
  | cons g rest ih =>
    rw [rescueThrough]
    split
    next e tag hfind =>
      obtain ⟨-, -, -, hname⟩ := hknown e tag (List.mem_of_find?_eq_some hfind)
      split
      · rw [create_plain _ (not_template_of_formattingTags hname)]
        let new : Handle := ⟨r.builder.nextId, ⟨.html, tag.name⟩, r.builder.nextId⟩
        let entries := r.builder.formatting.map fun e => if e.isFor g then .element new tag else e
        have hentries : ∀ h t, .element h t ∈ entries → Remembered h t := by
          intro h t he
          obtain ⟨e', he', heq⟩ := List.mem_map.mp he
          split at heq
          · obtain ⟨rfl, rfl⟩ := Formatting.element.inj heq
            exact ⟨hnext, rfl, rfl, hname⟩
          · exact hknown h t (heq ▸ he')
        obtain ⟨next, formatting, kept, moved, bookmark, heq, hmade, hle, hkept, hknown'⟩ :=
          ih ⟨{ r.builder with nextId := r.builder.nextId + 1, formatting := entries },
              r.kept ++ [new], .element new.id new.name tag.attributes [r.moved],
              r.bookmark.or (some new)⟩
            (steps + 1) (Nat.le_succ_of_le hnext) hentries
        refine ⟨next, formatting, new :: kept, moved, bookmark, ?_, .wrap g tag.attributes hmade,
          Nat.le_of_succ_le hle, ?_, hknown'⟩
        · rw [List.append_cons]
          exact heq
        · refine List.forall_mem_cons.mpr ⟨⟨Nat.le_refl _, rfl, rfl, hname⟩, fun k hk => ?_⟩
          obtain ⟨hk, hrest⟩ := hkept k hk
          exact ⟨Nat.le_of_succ_le hk, hrest⟩
      · obtain ⟨next, formatting, kept, moved, bookmark, heq, hmade, hle, hkept, hknown'⟩ :=
          ih { r with builder := r.builder.dropFormatting g } (steps + 1) hnext
            fun h t he => hknown h t (List.mem_of_mem_filter he)
        exact ⟨next, formatting, kept, moved, bookmark, heq, .skip g hmade, hle, hkept, hknown'⟩
    · obtain ⟨next, formatting, kept, moved, bookmark, heq, hmade, hle, hkept, hknown'⟩ :=
        ih r (steps + 1) hnext hknown
      exact ⟨next, formatting, kept, moved, bookmark, heq, .skip g hmade, hle, hkept, hknown'⟩

theorem remembered_placeFormatting {old : Handle} {new : Handle} {tag : Tag}
    {bookmark : Option Handle} {entries : List Formatting} (hnew : Remembered new tag)
    (hentries : ∀ h t, .element h t ∈ entries → Remembered h t) :
    ∀ h t, .element h t ∈ placeFormatting old (.element new tag) bookmark entries →
      Remembered h t := by
  intro h t he
  have hplaced : .element h t = Formatting.element new tag ∨ .element h t ∈ entries := by
    rw [placeFormatting.eq_def] at he
    split at he
    · obtain ⟨e, he, heq⟩ := List.mem_map.mp he
      split at heq
      · exact .inl heq.symm
      · exact .inr (heq ▸ he)
    · obtain ⟨e, he, hmem⟩ := List.mem_flatMap.mp (List.mem_of_mem_filter he)
      split at hmem
      · rcases List.mem_pair.mp hmem with heq | heq
        · exact .inl heq
        · exact .inr (heq ▸ he)
      · exact .inr (List.mem_singleton.mp hmem ▸ he)
  rcases hplaced with heq | he
  · obtain ⟨rfl, rfl⟩ := Formatting.element.inj heq
    exact hnew
  · exact hentries h t he

/-- The state in which a block that has been taken out is put back. -/
def detached (b : Builder) (h : Handle) (above : List Handle) (block : Handle)
    (below : List Handle) (next : NodeId) (formatting : List Formatting) (kept : List Handle) :
    Builder :=
  { b with
    root := b.root.remove block.id
    nextId := next
    formatting
    stack := above ++ block :: (kept ++ h :: below) }

/-- The state with a block put back, if any element was opened before. -/
def reattached (b : Builder) (moved : Node) : List Handle → Builder
  | ancestor :: _ => b.putAt (.node moved) (b.placeFor ancestor)
  | [] => b

theorem reattached_eq (b : Builder) (moved : Node) (below : List Handle) :
    ∃ root failed, b.reattached moved below = { b with root, failed } := by
  cases below with
  | nil => exact ⟨b.root, b.failed, rfl⟩
  | cons ancestor _ => exact putAt_eq b _ _

/-- The state with a new formatting element around all that is in the block. -/
def refilled (b : Builder) (tag : Tag) (block : Handle) (stack : Handle → List Handle)
    (formatting : Handle → List Formatting) : Builder :=
  let new : Handle := ⟨b.nextId, ⟨.html, tag.name⟩, b.nextId⟩
  { b with
    root := b.root.mapChildren block.id fun cs => [.element new.id new.name tag.attributes cs]
    nextId := b.nextId + 1
    stack := stack new
    formatting := formatting new }

/-- **Taking a block out** of a formatting element. -/
theorem rescue_eq (b : Builder) {h : Handle} {tag : Tag} (above : List Handle) (block : Handle)
    (between below : List Handle) (hnext : 5 ≤ b.nextId) (htag : Remembered h tag)
    (hknown : ∀ h t, .element h t ∈ b.formatting → Remembered h t) :
    ∃ next formatting kept moved bookmark,
      Made ((b.root.find? block.id).getD .placeholder) b.nextId between moved next kept ∧
      b.nextId ≤ next ∧
      (∀ k ∈ kept, b.nextId ≤ k.id ∧ k.inside = k.id ∧ k.name.space = .html ∧
        k.name.name ∈ formattingTags) ∧
      (∀ h t, .element h t ∈ formatting → Remembered h t) ∧
      b.rescue h tag above block between below =
        ((b.detached h above block below next formatting kept).reattached moved below).refilled tag
          block (fun new => above ++ new :: block :: (kept ++ below))
          fun new => placeFormatting h (.element new tag) bookmark formatting := by
  obtain ⟨next, formatting, kept, moved, bookmark, heq, hmade, hle, hkept, hknown'⟩ :=
    rescueThrough_spec ⟨{ b with root := b.root.remove block.id }, [],
      (b.root.find? block.id).getD .placeholder, none⟩ 0 between hnext hknown
  refine ⟨next, formatting, kept, moved, bookmark, hmade, hle, hkept, hknown', ?_⟩
  have hplain := not_template_of_formattingTags htag.2.2.2
  cases below with
  | nil => simp only [rescue, heq, List.nil_append, create_plain _ hplain, refilled, reattached, detached]
  | cons ancestor below =>
    obtain ⟨root, failed, hput⟩ := putAt_eq
      (b.detached h above block (ancestor :: below) next formatting kept) (.node moved)
      ((b.detached h above block (ancestor :: below) next formatting kept).placeFor ancestor)
    rw [reattached, hput]
    rw [detached] at hput ⊢
    simp only [rescue, heq, List.nil_append, hput, create_plain _ hplain, refilled]

end Builder

/-- What is made on the way is new, or has been there before. -/
theorem Made.le_ids {moved moved' : Node} {next next' n : NodeId} {between kept : List Handle}
    (h : Made moved next between moved' next' kept) (hnext : n ≤ next)
    (hmoved : ∀ j ∈ moved.ids, n ≤ j) : ∀ j ∈ moved'.ids, n ≤ j := by
  induction h with
  | nil => exact hmoved
  | skip _ _ ih => exact ih hnext hmoved
  | wrap _ _ _ ih =>
    refine ih (Nat.le_succ_of_le hnext) ?_
    simp only [Node.ids, Node.idsAll, List.append_nil, List.forall_mem_cons]
    exact ⟨hnext, hmoved⟩

/-- What was opened before a handle that is not at the bottom. -/
theorem exists_bottom {later earlier above base : List Handle} {g : Handle}
    (h : later ++ g :: earlier = above ++ base) (hg : g ∉ base) :
    ∃ rest, earlier = rest ++ base ∧ above = later ++ g :: rest := by
  rcases List.append_eq_append_iff.mp h with ⟨mid, rfl, hmid⟩ | ⟨mid, rfl, hmid⟩
  · cases mid with
    | nil =>
      rw [List.nil_append] at hmid
      exact absurd (hmid ▸ List.mem_cons_self) hg
    | cons e mid =>
      obtain ⟨rfl, rfl⟩ := List.cons.inj hmid
      exact ⟨mid, rfl, rfl⟩
  · exact absurd (hmid ▸ List.mem_append_right _ List.mem_cons_self) hg

end TerseMarkup.Html
