import Mathlib.Data.List.TakeWhile
import TerseMarkup.Html.Construction
import TerseMarkup.Proofs.Html.Construction.Holding

/-! Properties that construction keeps.

The rules of the modes are many, but they change the state in a few ways only: they put something
into the tree, close elements, open one, note a formatting element or go to another mode. A property
that each of these keeps (`Stable`) is kept by all that is made of them. Here are the edits and the
rules that several modes share; those of each mode follow in `Rules`. -/
namespace TerseMarkup.Html
open Builder

/-- Elements around the content of a document. -/
def outerNames : List String := ["html", "head", "body", "frameset"]

/-- Modes in which tags are taken for content. -/
def contentModes : List Mode :=
  [.inBody, .inTable, .inCaption, .inColumnGroup, .inTableBody, .inRow, .inCell, .inSelect,
    .inSelectInTable, .inTemplate]

/-- Start tags that formatting elements come from. -/
def formattingTags : List String := "a" :: "nobr" :: Opening.formattingNames

theorem formattingTags_not_outer {name : String} (h : name ∈ formattingTags) :
    name ∉ outerNames := by
  have hall : ∀ name ∈ formattingTags, name ∉ outerNames := by decide
  exact hall name h

theorem isHtml_of_subset {n : ElementName} {names names' : List String}
    (h : n.isHtml names' = false) (hsub : names ⊆ names') : n.isHtml names = false := by
  rw [ElementName.isHtml, Bool.and_eq_false_imp] at h ⊢
  intro hspace
  refine Bool.eq_false_iff.mpr fun hmem => ?_
  exact Bool.eq_false_iff.mp (h hspace)
    (List.contains_iff_mem.mpr (hsub (List.contains_iff_mem.mp hmem)))

/-- Putting something into the tree changes the tree, and may fail. -/
theorem putAt_eq (b : Builder) (p : Piece) (place : Place) :
    ∃ root failed, b.putAt p place = { b with root, failed } := by
  rw [putAt.eq_def]
  split
  · exact ⟨_, b.failed, rfl⟩
  · split
    · rw [putBefore]
      split
      · exact ⟨_, b.failed, rfl⟩
      · exact ⟨b.root, true, rfl⟩
    · exact ⟨_, b.failed, rfl⟩

theorem put_eq (b : Builder) (p : Piece) : ∃ root failed, b.put p = { b with root, failed } := by
  rw [put]
  split <;> exact putAt_eq b p _

theorem putElement_eq (b : Builder) (space : Namespace) (t : Tag) :
    b.putElement space t = (newHandle b.nextId ⟨space, t.name⟩,
      { b with nextId := nextAfter b.nextId ⟨space, t.name⟩ }.put (.node (.element b.nextId
        ⟨space, t.name⟩ t.attributes (newChildren b.nextId ⟨space, t.name⟩)))) := by
  rw [putElement, create_eq]

theorem push_mode (b : Builder) (t : Tag) : (b.push t).mode = b.mode := by
  rw [push, pushElement, putElement_eq]
  obtain ⟨root, failed, hput⟩ := put_eq { b with nextId := nextAfter b.nextId ⟨.html, t.name⟩ }
    (.node (.element b.nextId ⟨.html, t.name⟩ t.attributes (newChildren b.nextId ⟨.html, t.name⟩)))
  rw [hput]

/-- Elements whose text is no markup. -/
def rawNames : List String :=
  ["title", "textarea", "noframes", "style", "noscript", "xmp", "iframe", "noembed"]

/-- The name of the element that the text stands in is one of those that have no markup in them. -/
def Content.IsKnown : Content → Prop
  | escapable name => name ∈ rawNames
  | raw name => name ∈ rawNames
  | _ => True

/-- What holds of a builder after each change that opens an element or puts something into the tree.
`Q` is what is known of the elements on the list of formatting elements. -/
structure Growing (P : Builder → Prop) (Q : Handle → Tag → Prop) : Prop where
  known {b : Builder} {h : Handle} {t : Tag} : P b → .element h t ∈ b.formatting → Q h t
  name_mem {h : Handle} {t : Tag} : Q h t → t.name ∈ formattingTags
  /-- What does not tell elements apart. -/
  tune {b : Builder} (tableText : List Text) (form : Option Handle)
    (framesetOk dropNewline fostering oldLayout : Bool) : P b →
    P { b with tableText, form, framesetOk, dropNewline, fostering, oldLayout }
  isKnown {b : Builder} : P b → b.content.IsKnown
  readAs {b : Builder} {content : Content} : P b → content.IsKnown → P { b with content }
  note {b : Builder} {formatting : List Formatting} : P b →
    (∀ h t, .element h t ∈ formatting → Q h t) → P { b with formatting }
  /-- Text and comments. -/
  put {b : Builder} {p : Piece} : P b → p.Fits → p.ids = [] → P (b.put p)
  putElement {b : Builder} {space : Namespace} {t : Tag} : P b →
    (space = .html → t.name ∉ outerNames) → P (b.putElement space t).2
  pushElement {b : Builder} {space : Namespace} {t : Tag} : P b →
    (space = .html → t.name ∉ outerNames) → P (b.pushElement space t).2
  fresh {b : Builder} {t : Tag} : P b → t.name ∈ formattingTags → Q (b.pushElement .html t).1 t

/-- What holds of a builder after each change that the rules make. -/
structure Stable (P : Builder → Prop) (Q : Handle → Tag → Prop) : Prop extends Growing P Q where
  drop {b : Builder} {stack : List Handle} : P b → stack <:+ b.stack → P { b with stack }
  close {b : Builder} {h : Handle} : P b → (∃ t, Q h t) ∨ b.isOpen "template" = false →
    P (b.close h)
  goTo {b : Builder} {mode : Mode} : P b → mode ∈ contentModes → P { b with mode }
  /-- Behind text that is no markup, or that has been waiting. -/
  goBack {b : Builder} : P b → b.mode = .inText ∨ b.mode = .inTableText →
    P { b with mode := b.returnMode }
  keepMode {b : Builder} : P b → P { b with returnMode := b.mode }
  goToText {b : Builder} : P b → P { b with returnMode := b.mode, mode := .inText }
  setTemplateModes {b : Builder} {templateModes : List Mode} : P b →
    (∀ m ∈ templateModes, m ∈ b.templateModes ∨ m ∈ contentModes) → P { b with templateModes }
  reset {b : Builder} : P b → P b.resetMode
  leaveBody {b : Builder} : P b → b.inScope ElementName.endsScope ["body"] = true →
    P { b with mode := .afterBody }
  rescue {b : Builder} {h g block block' : Handle} {t : Tag} {above between below : List Handle} :
    P b → Q h t → b.stack = (above ++ block' :: between) ++ g :: below → g.id = h.id →
    block ∈ above ++ block' :: between → block'.id = block.id →
    (∀ e ∈ above ++ block' :: between, e.name.endsScope = false) →
    P (b.rescue h t above block between below)
  addAttributes {b : Builder} {h : Handle} {new : List Attribute} : P b → h ∈ b.stack →
    b.isOpen "template" = false → P (b.addAttributes h new)
  framesetStart {b : Builder} {t : Tag} : P b → P (b.framesetStart t)
  acceptDoctype {b : Builder} {d : Doctype} : P b → P (b.acceptDoctype d)

namespace Growing

variable {P : Builder → Prop} {Q : Handle → Tag → Prop} {b : Builder}

theorem framesetOk (s : Growing P Q) (h : P b) (ok : Bool) : P { b with framesetOk := ok } :=
  s.tune b.tableText b.form ok b.dropNewline b.fostering b.oldLayout h

theorem fostering (s : Growing P Q) (h : P b) (fostering : Bool) : P { b with fostering } :=
  s.tune b.tableText b.form b.framesetOk b.dropNewline fostering b.oldLayout h

theorem form (s : Growing P Q) (h : P b) (form : Option Handle) : P { b with form } :=
  s.tune b.tableText form b.framesetOk b.dropNewline b.fostering b.oldLayout h

theorem tableText (s : Growing P Q) (h : P b) (tableText : List Text) : P { b with tableText } :=
  s.tune tableText b.form b.framesetOk b.dropNewline b.fostering b.oldLayout h

/-! ### Pieces -/

theorem putText (s : Growing P Q) (h : P b) (t : Text) : P (b.putText t) := s.put h trivial rfl

theorem putComment (s : Growing P Q) (h : P b) (c : Text) : P (b.putComment c) :=
  s.put h (.inr rfl) rfl

theorem putEmpty (s : Growing P Q) (h : P b) {t : Tag} (ht : t.name ∉ outerNames) :
    P (b.putEmpty t) := s.putElement h fun _ => ht

theorem push (s : Growing P Q) (h : P b) {t : Tag} (ht : t.name ∉ outerNames) : P (b.push t) :=
  s.pushElement h fun _ => ht

/-! ### Formatting elements -/

theorem noteSome (s : Growing P Q) (h : P b) {formatting : List Formatting}
    (hsub : ∀ e ∈ formatting, e ∈ b.formatting) : P { b with formatting } :=
  s.note h fun _ _ he => s.known h (hsub _ he)

theorem addMarker (s : Growing P Q) (h : P b) : P b.addMarker := by
  refine s.note h fun g t he => ?_
  rcases List.mem_cons.mp he with he | he
  · exact nomatch he
  · exact s.known h he

theorem clearToMarker (s : Growing P Q) (h : P b) : P b.clearToMarker :=
  s.noteSome h ((List.drop_suffix _ _).trans (List.dropWhile_suffix _)).subset

theorem dropFormatting (s : Growing P Q) (h : P b) (g : Handle) : P (b.dropFormatting g) :=
  s.noteSome h (List.filter_subset_self _)

/-- Each element is opened again by the tag that it had. -/
theorem reopenFrom (s : Growing P Q) {kept entries : List Formatting}
    (hkept : ∀ g t, .element g t ∈ kept → Q g t) (hentries : ∀ g t, .element g t ∈ entries → Q g t)
    (h : P b) : P (b.reopenFrom kept entries) := by
  induction entries generalizing b kept with
  | nil => exact s.note h hkept
  | cons e rest ih =>
    have hrest : ∀ g t, .element g t ∈ rest → Q g t :=
      fun g t he => hentries g t (List.mem_cons_of_mem _ he)
    cases e with
    | marker =>
      refine ih (fun g t he => ?_) hrest h
      rcases List.mem_cons.mp he with he | he
      · exact nomatch he
      · exact hkept g t he
    | element g tag =>
      have hname : tag.name ∈ formattingTags := s.name_mem (hentries g tag List.mem_cons_self)
      refine ih (fun g' t he => ?_) hrest (s.push h (formattingTags_not_outer hname))
      rcases List.mem_cons.mp he with he | he
      · obtain ⟨rfl, rfl⟩ := Formatting.element.inj he
        exact s.fresh h hname
      · exact hkept g' t he

theorem reopenFormatting (s : Growing P Q) (h : P b) : P b.reopenFormatting := by
  refine s.reopenFrom (fun g t he => s.known h (List.mem_of_mem_drop he)) (fun g t he => ?_) h
  exact s.known h ((List.takeWhile_prefix _).subset (List.mem_reverse.mp he))

theorem pushFormatting (s : Growing P Q) (h : P b) {t : Tag} (ht : t.name ∈ formattingTags) :
    P (b.pushFormatting t) := by
  refine s.note (s.push h (formattingTags_not_outer ht)) fun g u he => ?_
  rcases List.mem_cons.mp he with he | he
  · obtain ⟨rfl, rfl⟩ := Formatting.element.inj he
    exact s.fresh h ht
  · have hrecent : b.recentFormatting ⊆ b.formatting := (List.takeWhile_prefix _).subset
    rcases List.mem_append.mp he with he | he
    · split at he
      · have he := List.mem_of_mem_eraseP (List.mem_reverse.mp he)
        exact s.known h (hrecent (List.mem_reverse.mp he))
      · exact s.known h (hrecent he)
    · exact s.known h (List.mem_of_mem_drop he)

theorem bodyText (s : Growing P Q) (h : P b) (t : Text) : P (b.bodyText t) := by
  rw [Builder.bodyText]
  refine s.putText ?_ t
  split
  · exact s.reopenFormatting h
  · exact s.framesetOk (s.reopenFormatting h) false

theorem fosterText (s : Growing P Q) (h : P b) (t : Text) : P (b.fosterText t) :=
  s.fostering (s.bodyText (s.fostering h true) t) false

end Growing

namespace Stable

variable {P : Builder → Prop} {Q : Handle → Tag → Prop} {b : Builder}

/-! ### Open elements -/

theorem pop (s : Stable P Q) (h : P b) : P b.pop := s.drop h (List.drop_suffix _ _)

theorem popThrough (s : Stable P Q) (h : P b) (names : List String) : P (b.popThrough names) :=
  s.drop h ((List.drop_suffix _ _).trans (List.dropWhile_suffix _))

theorem popTo (s : Stable P Q) (h : P b) (names : List String) : P (b.popTo names) :=
  s.drop h (List.dropWhile_suffix _)

theorem popImplied (s : Stable P Q) (h : P b) (names : List String) : P (b.popImplied names) :=
  s.drop h (List.dropWhile_suffix _)

theorem popImpliedThrough (s : Stable P Q) (h : P b) (implied names : List String) :
    P ((b.popImplied implied).popThrough names) := s.popThrough (s.popImplied h _) _

theorem endParagraph (s : Stable P Q) (h : P b) : P b.endParagraph := by
  rw [Builder.endParagraph]
  split
  · exact s.popImpliedThrough h _ _
  · exact h

theorem popIf (s : Stable P Q) (h : P b) (names : List String) : P (b.popIf names) := by
  rw [Builder.popIf]
  split
  · exact s.pop h
  · exact h

theorem pushRaw (s : Stable P Q) (h : P b) {t : Tag} (ht : t.name ∉ outerNames)
    {content : Content} (hcontent : content.IsKnown) : P (b.pushRaw t content) := by
  have hraw := s.readAs (s.goToText (s.push h ht)) hcontent
  rw [push_mode] at hraw
  exact hraw

/-! ### Formatting elements -/

theorem endOther (s : Stable P Q) (h : P b) (name : String) : P (b.endOther name) := by
  rw [Builder.endOther]
  split
  · split
    · exact s.popThrough h _
    · exact h
  · exact h

/-- Where a formatting element is in reach, nothing opened since ends the scope. -/
theorem not_endsScope_of_reaches {g : Handle} {above below : List Handle} {i : NodeId}
    (habove : ∀ e ∈ above, e.id ≠ i)
    (hreach : reaches ElementName.endsScope (·.id == i) (above ++ g :: below) = true) :
    ∀ e ∈ above, e.name.endsScope = false := by
  induction above with
  | nil => exact fun e he => absurd he List.not_mem_nil
  | cons a above ih =>
    rw [List.forall_mem_cons] at habove ⊢
    rw [List.cons_append, reaches, Bool.or_eq_true, Bool.and_eq_true, Bool.not_eq_true',
      beq_eq_false_iff_ne.mpr habove.1] at hreach
    obtain ⟨hends, hrest⟩ := hreach.resolve_left (by decide)
    exact ⟨hends, ih habove.2 hrest⟩

/-- The first of the handles with this identity, between those before and behind it. -/
theorem exists_split {handles : List Handle} {i : NodeId} (h : ∃ e ∈ handles, e.id = i) :
    ∃ e, handles = handles.takeWhile (·.id != i) ++
      e :: handles.drop ((handles.takeWhile (·.id != i)).length + 1) ∧ e.id = i := by
  induction handles with
  | nil =>
    obtain ⟨e, he, -⟩ := h
    exact absurd he List.not_mem_nil
  | cons a rest ih =>
    by_cases ha : a.id = i
    · exact ⟨a, by simp [ha], ha⟩
    · obtain ⟨e, he, hid⟩ := h
      obtain ⟨e, hrest, hid⟩ := ih ⟨e, (List.mem_cons.mp he).resolve_left (ha <| · ▸ hid), hid⟩
      refine ⟨e, ?_, hid⟩
      rw [List.takeWhile_cons_of_pos (p := fun e : Handle => e.id != i) (bne_iff_ne.mpr ha)]
      exact congrArg (a :: ·) hrest

theorem endFormattingFrom (s : Stable P Q) (fuel : Nat) (h : P b) (name : String) :
    P (b.endFormattingFrom fuel name) := by
  induction fuel generalizing b with
  | zero => exact h
  | succ fuel ih =>
    rw [Builder.endFormattingFrom]
    split
    next g tag hfind =>
      have hknown : Q g tag :=
        s.known h ((List.takeWhile_prefix _).subset (List.mem_of_find?_eq_some hfind))
      dsimp only
      split
      · exact s.dropFormatting h g
      next e below hdrop =>
        have hopen : ∃ e ∈ b.stack, e.id = g.id := by
          by_contra! hnone
          rw [List.takeWhile_eq_self_iff.mpr fun e he => bne_iff_ne.mpr (hnone e he),
            List.drop_length] at hdrop
          exact nomatch hdrop
        obtain ⟨e', hstack, hid⟩ := exists_split hopen
        set above := b.stack.takeWhile (·.id != g.id) with habove
        have hne : ∀ e ∈ above, e.id ≠ g.id := fun e he =>
          bne_iff_ne.mp (List.mem_takeWhile_imp (p := fun e : Handle => e.id != g.id) he)
        rw [← List.drop_drop, hdrop, List.drop_one, List.tail_cons] at hstack
        split
        · exact h
        next hreach =>
          have hscope : ∀ e ∈ above, e.name.endsScope = false := by
            have hreach' : reaches ElementName.endsScope (·.id == g.id) (above ++ e' :: below) := by
              rw [← hstack]
              simpa using hreach
            exact not_endsScope_of_reaches hne hreach'
          split
          · refine s.dropFormatting (s.drop h ?_) g
            rw [hstack]
            exact (List.suffix_cons _ _).trans (List.suffix_append _ _)
          next block hblock =>
            have hmem : block ∈ above := List.mem_reverse.mp (List.mem_of_find?_eq_some hblock)
            obtain ⟨block', hsplit, hblock'⟩ := exists_split ⟨block, hmem, rfl⟩
            exact ih (s.rescue h hknown (hsplit ▸ hstack) hid (hsplit ▸ hmem) hblock'
              (hsplit ▸ hscope))
    · exact s.endOther h name

theorem endFormatting (s : Stable P Q) (h : P b) (name : String) : P (b.endFormatting name) := by
  rw [Builder.endFormatting]
  split
  · split
    · exact s.pop h
    · exact s.endFormattingFrom 8 h name
  · exact h

theorem endOpenLink (s : Stable P Q) (h : P b) : P b.endOpenLink := by
  rw [Builder.endOpenLink]
  split
  next g t hfind =>
    have hknown : Q g t :=
      s.known h ((List.takeWhile_prefix _).subset (List.mem_of_find?_eq_some hfind))
    exact s.close (s.dropFormatting (s.endFormatting h "a") g) (.inl ⟨t, hknown⟩)
  · exact h

end Stable
end TerseMarkup.Html
