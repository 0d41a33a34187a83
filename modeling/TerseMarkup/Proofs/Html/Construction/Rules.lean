import TerseMarkup.Html.Document
import TerseMarkup.Proofs.Html.Construction.Stable
import TerseMarkup.Proofs.Html.Token.Progress

/-! What is stable is kept by every rule for content.

The rules of the content modes keep a stable property, with one exception: text inside a part of a
table waits in a mode of its own (`Waits`), and the property is back as soon as the text has been put
where it belongs. With the rules outside of content given, so do all tokens of a text. -/
namespace TerseMarkup.Html
open Builder

namespace Outcome

/-- The state that an outcome leads to. -/
def builder : Outcome → Builder
  | done b => b
  | again b _ => b

theorem builder_map (f : Builder → Builder) (o : Outcome) : (o.map f).builder = f o.builder := by
  cases o <;> rfl

theorem of_ite {P : Builder → Prop} {p : Prop} [Decidable p] {first last : Outcome}
    (h : p → P first.builder) (h' : ¬ p → P last.builder) : P (if p then first else last).builder := by
  split
  · exact h ‹_›
  · exact h' ‹_›

end Outcome

namespace Opening

theorem ofName_of_outer {name : String} (h : name ∈ outerNames) :
    ofName name ∈ [html, body, frameset, misplaced] := by
  have hall : ∀ name ∈ outerNames, ofName name ∈ [html, body, frameset, misplaced] := by decide
  exact hall name h

/-- The classes are tried one after the other. -/
theorem mem_of_ite {p : Prop} [Decidable p] {first last : Opening} {classes : List Opening}
    (h : (if p then first else last) ∈ classes) : p ∧ first ∈ classes ∨ last ∈ classes := by
  split at h
  · exact .inl ⟨‹p›, h⟩
  · exact .inr h

theorem formattingTags_of_ofName {name : String}
    (h : ofName name ∈ [link, formatting, unbroken]) : name ∈ formattingTags := by
  rw [ofName] at h
  repeat
    rcases mem_of_ite h with ⟨hname, hclass⟩ | h
    · first
        | exact absurd hclass (by decide)
        | exact hname ▸ by decide
        | exact List.mem_cons_of_mem _ (List.mem_cons_of_mem _ (List.contains_iff_mem.mp hname))
  exact absurd h (by decide)

theorem rawNames_of_ofName {name : String}
    (h : ofName name ∈ [textarea, sample, inlineFrame, unshown]) : name ∈ rawNames := by
  rw [ofName] at h
  repeat
    rcases mem_of_ite h with ⟨hname, hclass⟩ | h
    · first
        | exact absurd hclass (by decide)
        | exact hname ▸ by decide
        | exact hname.elim (· ▸ by decide) (· ▸ by decide)
  exact absurd h (by decide)

end Opening

namespace Stable
open Outcome (of_ite)

variable {P : Builder → Prop} {Q : Handle → Tag → Prop} {b : Builder}

/-! ### Content of the head, and templates -/

theorem templateStart (s : Stable P Q) (h : P b) {t : Tag} (ht : t.name ∉ outerNames) :
    P (b.templateStart t) := by
  have hmode : Mode.inTemplate ∈ contentModes := by decide
  have hpush := s.framesetOk (s.goTo (s.addMarker (s.push h ht)) hmode) false
  refine s.setTemplateModes hpush fun m hm => ?_
  rcases List.mem_cons.mp hm with rfl | hm
  · exact .inr (by decide)
  · exact .inl hm

theorem headStart (s : Stable P Q) (h : P b) {t : Tag} (ht : t.name ∉ outerNames) :
    P (b.headStart t) := by
  rw [Builder.headStart]
  split
  next heq => exact s.pushRaw h ht (show t.name ∈ rawNames from heq ▸ by decide)
  · exact s.pushRaw h ht trivial
  next heq => exact s.pushRaw h ht (show t.name ∈ rawNames from heq ▸ by decide)
  next heq => exact s.pushRaw h ht (show t.name ∈ rawNames from heq ▸ by decide)
  next heq => exact s.pushRaw h ht (show t.name ∈ rawNames from heq ▸ by decide)
  · exact s.templateStart h ht
  · exact s.putEmpty h ht

theorem dropTemplateMode (s : Stable P Q) (h : P b) :
    P { b with templateModes := b.templateModes.drop 1 } :=
  s.setTemplateModes h fun _ hm => .inl (List.mem_of_mem_drop hm)

theorem endTemplate (s : Stable P Q) (h : P b) : P b.endTemplate := by
  rw [Builder.endTemplate]
  split
  · exact s.reset (s.dropTemplateMode (s.clearToMarker (s.popImpliedThrough h _ _)))
  · exact h

theorem endOpenTemplate (s : Stable P Q) (h : P b) : P b.endOpenTemplate.builder := by
  rw [Builder.endOpenTemplate]
  split
  · exact s.reset (s.dropTemplateMode (s.clearToMarker (s.popThrough h _)))
  · exact h

theorem htmlStart (s : Stable P Q) (h : P b) (t : Tag) : P (b.htmlStart t) := by
  rw [Builder.htmlStart]
  split
  · exact h
  next hopen =>
    split
    next g hlast =>
      exact s.addAttributes h (List.mem_of_getLast? hlast) (Bool.eq_false_iff.mpr hopen)
    · exact h

/-! ### The body -/

theorem pushInline (s : Stable P Q) (h : P b) {t : Tag} (ht : t.name ∉ outerNames) :
    P (b.pushInline t) := s.push (s.reopenFormatting h) ht

theorem putInline (s : Stable P Q) (h : P b) {t : Tag} (ht : t.name ∉ outerNames) :
    P (b.putInline t) := s.putEmpty (s.reopenFormatting h) ht

theorem mem_stack_of_body? {g : Handle} (hbody : b.body? = some g) : g ∈ b.stack := by
  rw [body?] at hbody
  split at hbody
  next outermost second rest hstack =>
    split at hbody
    · obtain rfl := Option.some.inj hbody
      rw [← List.mem_reverse, hstack]
      simp
    · exact nomatch hbody
  · exact nomatch hbody

theorem bodyTagStart (s : Stable P Q) (h : P b) (t : Tag) : P (b.bodyTagStart t) := by
  rw [Builder.bodyTagStart]
  split
  next g hbody =>
    split
    · exact h
    next hopen =>
      exact s.addAttributes (s.framesetOk h false) (mem_stack_of_body? hbody)
        (Bool.eq_false_iff.mpr hopen)
  · exact h

theorem formStart (s : Stable P Q) (h : P b) {t : Tag} (ht : t.name ∉ outerNames) :
    P (b.formStart t) := by
  rw [Builder.formStart]
  split
  · exact h
  · have hpush := s.pushElement (s.endParagraph h) fun (_ : Namespace.html = .html) => ht
    dsimp only
    split
    · exact hpush
    · exact s.form hpush _

theorem listItemStart (s : Stable P Q) (h : P b) {t : Tag} (ht : t.name ∉ outerNames) :
    P (b.listItemStart t) := by
  refine s.push (s.endParagraph ?_) ht
  split
  · exact s.popImpliedThrough (s.framesetOk h false) _ _
  · exact s.framesetOk h false

theorem buttonStart (s : Stable P Q) (h : P b) {t : Tag} (ht : t.name ∉ outerNames) :
    P (b.buttonStart t) := by
  refine s.framesetOk (s.pushInline ?_ ht) false
  split
  · exact s.popImpliedThrough h _ _
  · exact h

theorem unbrokenStart (s : Stable P Q) (h : P b) {t : Tag} (ht : t.name ∈ formattingTags) :
    P (b.unbrokenStart t) := by
  refine s.pushFormatting ?_ ht
  split
  · exact s.reopenFormatting (s.endFormatting (s.reopenFormatting h) _)
  · exact s.reopenFormatting h

theorem selectStart (s : Stable P Q) (h : P b) {t : Tag} (ht : t.name ∉ outerNames) :
    P (b.selectStart t) := by
  refine s.goTo (s.framesetOk (s.pushInline h ht) false) ?_
  split <;> decide

theorem rubyStart (s : Stable P Q) (h : P b) {t : Tag} (ht : t.name ∉ outerNames)
    (implied : List String) : P (b.rubyStart t implied) := by
  refine s.push ?_ ht
  split
  · exact s.popImplied h _
  · exact h

theorem foreignStart (s : Stable P Q) (h : P b) {space : Namespace} {t : Tag}
    (ht : space = .html → t.name ∉ outerNames) : P (b.foreignStart space t) := by
  rw [Builder.foreignStart]
  split
  · exact s.putElement h ht
  · exact s.pushElement h ht

theorem bodyStart (s : Stable P Q) (h : P b) (t : Tag) : P (b.bodyStart t) := by
  have hplain : Opening.ofName t.name ∉ [.html, .body, .frameset, .misplaced] →
      t.name ∉ outerNames := mt Opening.ofName_of_outer
  have hformatting : Opening.ofName t.name ∈ [.link, .formatting, .unbroken] →
      t.name ∈ formattingTags := Opening.formattingTags_of_ofName
  have hraw : Opening.ofName t.name ∈ [.textarea, .sample, .inlineFrame, .unshown] →
      t.name ∈ rawNames := Opening.rawNames_of_ofName
  rw [Builder.bodyStart]
  cases hclass : Opening.ofName t.name <;> rw [hclass] at hplain hformatting hraw
  case html => exact s.htmlStart h t
  case head => exact s.headStart h (hplain (by decide))
  case body => exact s.bodyTagStart h t
  case frameset => exact s.framesetStart h
  case block => exact s.push (s.endParagraph h) (hplain (by decide))
  case heading =>
    refine s.push ?_ (hplain (by decide))
    split
    · exact s.pop (s.endParagraph h)
    · exact s.endParagraph h
  case verbatim =>
    exact s.tune _ _ _ _ _ _ (s.push (s.endParagraph h) (hplain (by decide)))
  case form => exact s.formStart h (hplain (by decide))
  case listItem => exact s.listItemStart h (hplain (by decide))
  case plaintext => exact s.readAs (s.push (s.endParagraph h) (hplain (by decide))) trivial
  case button => exact s.buttonStart h (hplain (by decide))
  case link =>
    exact s.pushFormatting (s.reopenFormatting (s.endOpenLink h)) (hformatting (by decide))
  case formatting => exact s.pushFormatting (s.reopenFormatting h) (hformatting (by decide))
  case unbroken => exact s.unbrokenStart h (hformatting (by decide))
  case embedded => exact s.framesetOk (s.addMarker (s.pushInline h (hplain (by decide)))) false
  case table =>
    refine s.goTo (s.framesetOk (s.push ?_ (hplain (by decide))) false) (by decide)
    split
    · exact h
    · exact s.endParagraph h
  case void =>
    have hput := s.putInline h (hplain (by decide))
    dsimp only
    split
    · exact hput
    · exact s.framesetOk hput false
  case parameter => exact s.putEmpty h (hplain (by decide))
  case rule => exact s.framesetOk (s.putEmpty (s.endParagraph h) (hplain (by decide))) false
  case image => exact s.framesetOk (s.putInline h (show "img" ∉ outerNames by decide)) false
  case textarea =>
    exact s.pushRaw (s.tune _ _ _ _ _ _ h) (hplain (by decide)) (hraw (by decide))
  case sample =>
    exact s.pushRaw (s.framesetOk (s.reopenFormatting (s.endParagraph h)) false)
      (hplain (by decide)) (hraw (by decide))
  case inlineFrame =>
    exact s.pushRaw (s.framesetOk h false) (hplain (by decide)) (hraw (by decide))
  case unshown => exact s.pushRaw h (hplain (by decide)) (hraw (by decide))
  case select => exact s.selectStart h (hplain (by decide))
  case option =>
    refine s.pushInline ?_ (hplain (by decide))
    split
    · exact s.pop h
    · exact h
  case rubyBase => exact s.rubyStart h (hplain (by decide)) _
  case rubyText => exact s.rubyStart h (hplain (by decide)) _
  case foreign space => exact s.foreignStart h fun _ => hplain (by simp)
  case misplaced => exact h
  case other => exact s.pushInline h (hplain (by decide))

theorem isOpen_of_suffix {names : String} {stack : List Handle} (h : b.isOpen names = false)
    (hsuffix : stack <:+ b.stack) : { b with stack }.isOpen names = false := by
  rw [isOpen, List.any_eq_false] at h ⊢
  exact fun e he => h e (hsuffix.subset he)

theorem formEnd (s : Stable P Q) (h : P b) : P b.formEnd := by
  rw [Builder.formEnd]
  split
  · split
    · exact s.popImpliedThrough h _ _
    · exact h
  next hopen =>
    split
    · exact h
    · dsimp only
      split
      · refine s.close (s.popImplied (s.form h none) _) (.inr ?_)
        exact isOpen_of_suffix (Bool.eq_false_iff.mpr hopen) (List.dropWhile_suffix _)
      · exact s.form h none

theorem endBlock (s : Stable P Q) (h : P b) (name : String) : P (b.endBlock name) := by
  rw [Builder.endBlock]
  split
  · exact s.popImpliedThrough h _ _
  · exact h

theorem endItem (s : Stable P Q) (h : P b) (name : String) : P (b.endItem name) := by
  rw [Builder.endItem]
  split
  all_goals
    split
    · exact s.popImpliedThrough h _ _
    · exact h

theorem bodyEnd (s : Stable P Q) (h : P b) (name : String) : P (b.bodyEnd name).builder := by
  rw [Builder.bodyEnd]
  refine of_ite (fun _ => s.endTemplate h) fun _ => ?_
  refine of_ite (fun _ => ?body) fun _ => ?_
  case body =>
    refine iteInduction (motive := P) (fun hscope => s.leaveBody h hscope) fun _ => h
  refine of_ite (fun _ => of_ite (fun hscope => s.leaveBody h hscope) fun _ => h) fun _ => ?_
  refine of_ite (fun _ => s.endBlock h name) fun _ => ?_
  refine of_ite (fun _ => s.formEnd h) fun _ => ?_
  refine of_ite (fun _ => s.popImpliedThrough ?paragraph _ _) fun _ => ?_
  case paragraph =>
    exact iteInduction (motive := P) (fun _ => h)
      fun _ => s.push h (show "p" ∉ outerNames by decide)
  refine of_ite (fun _ => s.endItem h name) fun _ => ?_
  refine of_ite (fun _ => ?heading) fun _ => ?_
  case heading =>
    exact iteInduction (motive := P) (fun _ => s.popImpliedThrough h _ _) fun _ => h
  refine of_ite (fun _ => s.endFormatting h name) fun _ => ?_
  refine of_ite (fun _ => ?embedded) fun _ => ?_
  case embedded =>
    exact iteInduction (motive := P) (fun _ => s.clearToMarker (s.endBlock h name)) fun _ => h
  exact of_ite (fun _ => s.bodyStart h _) fun _ => s.endOther h name

theorem inBody (s : Stable P Q) (h : P b) (t : Token) : P (b.inBody t).builder := by
  cases t with
  | text u => exact s.bodyText h u
  | comment c => exact s.putComment h c
  | start t => exact s.bodyStart h t
  | finish name => exact s.bodyEnd h name
  | eof =>
    rw [Builder.inBody]
    split
    · exact h
    · exact s.endOpenTemplate h
  | doctype | null | mistake => exact h

theorem inBodyBeforeTable (s : Stable P Q) (h : P b) (t : Token) :
    P (b.inBodyBeforeTable t).builder := by
  rw [Builder.inBodyBeforeTable, Outcome.builder_map]
  exact s.fostering (s.inBody (s.fostering h true) t) false

/-! ### Tables -/

theorem pushPart (s : Stable P Q) (h : P b) (context : List String) {t : Tag}
    (ht : t.name ∉ outerNames) {mode : Mode} (hmode : mode ∈ contentModes) :
    P (b.pushPart context t mode) := s.goTo (s.push (s.popTo h _) ht) hmode

theorem leavePart (s : Stable P Q) (h : P b) (context : List String) {mode : Mode}
    (hmode : mode ∈ contentModes) : P (b.leavePart context mode) :=
  s.goTo (s.pop (s.popTo h _)) hmode

theorem not_outer {names : List String} {name : String} (h : names.contains name = true)
    (hall : ∀ name ∈ names, name ∉ outerNames) : name ∉ outerNames :=
  hall name (List.contains_iff_mem.mp h)

theorem tableStart (s : Stable P Q) (h : P b) (t : Tag) : P (b.tableStart t).builder := by
  have hplain {name : String} (hname : t.name = name) (hname' : name ∉ outerNames) :
      t.name ∉ outerNames := hname ▸ hname'
  rw [Builder.tableStart]
  refine of_ite (fun hname => s.push ?_ (hplain hname (by decide))) fun _ => ?_
  · exact s.addMarker (s.goTo (s.popTo h _) (by decide))
  refine of_ite (fun hname => s.pushPart h _ (hplain hname (by decide)) (by decide)) fun _ => ?_
  refine of_ite (fun _ => s.pushPart h _ (by decide) (by decide)) fun _ => ?_
  refine of_ite (fun hname => s.pushPart h _ (not_outer hname (by decide)) (by decide)) fun _ => ?_
  refine of_ite (fun _ => s.pushPart h _ (by decide) (by decide)) fun _ => ?_
  refine of_ite (fun _ => of_ite (fun _ => s.reset (s.popThrough h _)) fun _ => h) fun _ => ?_
  refine of_ite (fun hname => s.headStart h (not_outer hname (by decide))) fun _ => ?_
  refine of_ite (fun hname => s.putEmpty h (hplain hname.1 (by decide))) fun _ => ?_
  refine of_ite (fun hname => of_ite (fun _ => h) fun _ => ?_) fun _ => s.inBodyBeforeTable h _
  exact s.form (s.putElement h fun _ => hplain hname (by decide)) _

theorem tableEnd (s : Stable P Q) (h : P b) (name : String) : P (b.tableEnd name).builder := by
  rw [Builder.tableEnd]
  refine of_ite (fun _ => ?_) fun _ => ?_
  · exact iteInduction (motive := P) (fun _ => s.reset (s.popThrough h _)) fun _ => h
  refine of_ite (fun _ => h) fun _ => ?_
  exact of_ite (fun _ => s.endTemplate h) fun _ => s.inBodyBeforeTable h _

/-- Text waits until it is known whether it belongs in the table. When the next other token comes,
construction goes back to where it was. -/
def Waits (P : Builder → Prop) (b : Builder) : Prop :=
  b.mode = .inTableText ∧ b.currentIs tableParts = true ∧ P { b with mode := b.returnMode }

/-- A property holds, or will again when the text that waits has been put somewhere. -/
def Kept (P : Builder → Prop) (b : Builder) : Prop := P b ∨ Waits P b

theorem inTable (s : Stable P Q) (h : P b) (t : Token) : Kept P (b.inTable t).builder := by
  cases t with
  | text | null =>
    rw [Builder.inTable]
    refine of_ite (fun hcurrent => .inr ⟨rfl, hcurrent, s.keepMode h⟩) fun _ => ?_
    exact .inl (s.inBodyBeforeTable h _)
  | comment c => exact .inl (s.putComment h c)
  | start t => exact .inl (s.tableStart h t)
  | finish name => exact .inl (s.tableEnd h name)
  | eof => exact .inl (s.inBody h .eof)
  | doctype | mistake => exact .inl (s.inBodyBeforeTable h _)

theorem foldl (h : P b) {f : Builder → Text → Builder} (hf : ∀ b t, P b → P (f b t))
    (ts : List Text) : P (ts.foldl f b) := by
  induction ts generalizing b with
  | nil => exact h
  | cons t ts ih => exact ih (hf b t h)

theorem inTableText (s : Stable P Q) (h : Kept P b) (hmode : b.mode = .inTableText) (t : Token) :
    Kept P (b.inTableText t).builder := by
  have hback : P { b with mode := b.returnMode } :=
    h.elim (fun h => s.goBack h (.inr hmode)) fun h => h.2.2
  have hwait (u : Text) : Kept P { b with tableText := u :: b.tableText } :=
    h.imp (fun h => s.tableText h _) fun h => ⟨hmode, h.2.1, s.tableText hback _⟩
  have hflush : P (if b.tableText.reverse.all isSpaces then
      b.tableText.reverse.foldl Builder.putText { b with tableText := [], mode := b.returnMode }
      else b.tableText.reverse.foldl Builder.fosterText { b with tableText := [], mode := b.returnMode }) := by
    have hempty := s.tableText hback []
    split
    · exact foldl hempty (fun _ u h => s.putText h u) _
    · exact foldl hempty (fun _ u h => s.fosterText h u) _
  cases t with
  | null => exact h
  | text u => exact hwait u
  | doctype | start | finish | comment | mistake | eof => exact .inl hflush

theorem endCaption (s : Stable P Q) (h : P b) : P b.endCaption :=
  s.goTo (s.clearToMarker (s.popImpliedThrough h _ _)) (by decide)

theorem inCaption (s : Stable P Q) (h : P b) (t : Token) : P (b.inCaption t).builder := by
  have hother := s.inBody h t
  cases t with
  | start tag =>
    refine of_ite (fun _ => ?_) fun _ => hother
    exact of_ite (fun _ => s.endCaption h) fun _ => h
  | finish name =>
    refine of_ite (fun _ => ?_) fun _ => ?_
    · exact iteInduction (motive := P) (fun _ => s.endCaption h) fun _ => h
    refine of_ite (fun _ => of_ite (fun _ => s.endCaption h) fun _ => h) fun _ => ?_
    exact of_ite (fun _ => h) fun _ => hother
  | doctype | comment | text | null | mistake | eof => exact hother

theorem inColumnGroup (s : Stable P Q) (h : P b) (t : Token) : P (b.inColumnGroup t).builder := by
  have hleave : P { b.pop with mode := .inTable } := s.goTo (s.pop h) (by decide)
  have hother : P (if b.currentIs ["colgroup"] then Outcome.again { b.pop with mode := .inTable } t
      else .done b).builder := of_ite (fun _ => hleave) fun _ => h
  cases t with
  | text u => exact of_ite (fun _ => s.putText h u) fun _ => hother
  | comment c => exact s.putComment h c
  | start tag =>
    refine of_ite (fun _ => s.htmlStart h tag) fun _ => ?_
    refine of_ite (fun hname => s.putEmpty h (hname ▸ by decide)) fun _ => ?_
    exact of_ite (fun hname => s.headStart h (hname ▸ by decide)) fun _ => hother
  | finish name =>
    refine of_ite (fun _ => ?_) fun _ => ?_
    · exact iteInduction (motive := P) (fun _ => hleave) fun _ => h
    refine of_ite (fun _ => h) fun _ => ?_
    exact of_ite (fun _ => s.endTemplate h) fun _ => hother
  | eof => exact s.inBody h .eof
  | doctype | null | mistake => exact hother

theorem inTableBody (s : Stable P Q) (h : P b) (t : Token) : Kept P (b.inTableBody t).builder := by
  have hother := s.inTable h t
  have hpart : P (b.leavePart sectionContext .inTable) := s.leavePart h _ (by decide)
  have hleave : Kept P (if b.inTableScope ["table", "tbody", "tfoot"] then
      Outcome.again (b.leavePart sectionContext .inTable) t else .done b).builder :=
    of_ite (fun _ => .inl hpart) fun _ => .inl h
  cases t with
  | start tag =>
    refine of_ite (fun hname => .inl (s.pushPart h _ (hname ▸ by decide) (by decide))) fun _ => ?_
    refine of_ite (fun _ => .inl (s.pushPart h _ (by decide) (by decide))) fun _ => ?_
    exact of_ite (fun _ => hleave) fun _ => hother
  | finish name =>
    refine of_ite (fun _ => .inl ?_) fun _ => ?_
    · exact iteInduction (motive := P) (fun _ => hpart) fun _ => h
    refine of_ite (fun _ => hleave) fun _ => ?_
    exact of_ite (fun _ => .inl h) fun _ => hother
  | doctype | comment | text | null | mistake | eof => exact hother

theorem inRow (s : Stable P Q) (h : P b) (t : Token) : Kept P (b.inRow t).builder := by
  have hother := s.inTable h t
  have hpart : P (b.leavePart rowContext .inTableBody) := s.leavePart h _ (by decide)
  have hleave : Kept P (if b.inTableScope ["tr"] then
      Outcome.again (b.leavePart rowContext .inTableBody) t else .done b).builder :=
    of_ite (fun _ => .inl hpart) fun _ => .inl h
  cases t with
  | start tag =>
    refine of_ite (fun hname => .inl (s.addMarker ?_)) fun _ => ?_
    · exact s.pushPart h _ (not_outer hname (by decide)) (by decide)
    exact of_ite (fun _ => hleave) fun _ => hother
  | finish name =>
    refine of_ite (fun _ => .inl ?_) fun _ => ?_
    · exact iteInduction (motive := P) (fun _ => hpart) fun _ => h
    refine of_ite (fun _ => hleave) fun _ => ?_
    refine of_ite (fun _ => of_ite (fun _ => hleave) fun _ => .inl h) fun _ => ?_
    exact of_ite (fun _ => .inl h) fun _ => hother
  | doctype | comment | text | null | mistake | eof => exact hother

theorem endCell (s : Stable P Q) (h : P b) (names : List String) : P (b.endCell names) :=
  s.goTo (s.clearToMarker (s.popImpliedThrough h _ _)) (by decide)

theorem inCell (s : Stable P Q) (h : P b) (t : Token) : P (b.inCell t).builder := by
  have hother := s.inBody h t
  cases t with
  | start tag =>
    refine of_ite (fun _ => ?_) fun _ => hother
    exact of_ite (fun _ => s.endCell h cells) fun _ => h
  | finish name =>
    refine of_ite (fun _ => ?_) fun _ => ?_
    · exact iteInduction (motive := P) (fun _ => s.endCell h [name]) fun _ => h
    refine of_ite (fun _ => h) fun _ => ?_
    refine of_ite (fun _ => of_ite (fun _ => s.endCell h cells) fun _ => h) fun _ => hother
  | doctype | comment | text | null | mistake | eof => exact hother

/-! ### Selections, templates, and text that is no markup -/

theorem leaveSelection (s : Stable P Q) (h : P b) : P b.leaveSelection := s.reset (s.popThrough h _)

theorem endGroup (s : Stable P Q) (h : P b) : P b.endGroup := by
  rw [Builder.endGroup.eq_def]
  split
  · refine s.popIf ?_ _
    split
    · exact s.pop h
    · exact h
  · exact s.popIf h _

theorem inSelect (s : Stable P Q) (h : P b) (t : Token) : P (b.inSelect t).builder := by
  have hselect : P (if b.selectionInReach then b.leaveSelection else b) :=
    iteInduction (motive := P) (fun _ => s.leaveSelection h) fun _ => h
  cases t with
  | text u => exact s.putText h u
  | comment c => exact s.putComment h c
  | start tag =>
    have hclosed := s.popIf (s.popIf h ["option"]) ["optgroup"]
    refine of_ite (fun _ => s.htmlStart h tag) fun _ => ?_
    refine of_ite (fun hname => s.push (s.popIf h _) (hname ▸ by decide)) fun _ => ?_
    refine of_ite (fun hname => s.push hclosed (hname ▸ by decide)) fun _ => ?_
    refine of_ite (fun hname => s.putEmpty hclosed (hname ▸ by decide)) fun _ => ?_
    refine of_ite (fun _ => hselect) fun _ => ?_
    refine of_ite (fun _ => of_ite (fun _ => s.leaveSelection h) fun _ => h) fun _ => ?_
    exact of_ite (fun hname => s.headStart h (not_outer hname (by decide))) fun _ => h
  | finish name =>
    refine of_ite (fun _ => s.endGroup h) fun _ => ?_
    refine of_ite (fun _ => s.popIf h _) fun _ => ?_
    refine of_ite (fun _ => hselect) fun _ => ?_
    exact of_ite (fun _ => s.endTemplate h) fun _ => h
  | eof => exact s.inBody h .eof
  | doctype | null | mistake => exact h

theorem inSelectInTable (s : Stable P Q) (h : P b) (t : Token) :
    P (b.inSelectInTable t).builder := by
  have hother := s.inSelect h t
  cases t with
  | start tag => exact of_ite (fun _ => s.leaveSelection h) fun _ => hother
  | finish name =>
    refine of_ite (fun _ => ?_) fun _ => hother
    exact of_ite (fun _ => s.leaveSelection h) fun _ => h
  | doctype | comment | text | null | mistake | eof => exact hother

theorem templateMode_mem (name : String) : templateMode name ∈ contentModes := by
  rw [templateMode]
  split_ifs <;> decide

theorem inTemplate (s : Stable P Q) (h : P b) (t : Token) : P (b.inTemplate t).builder := by
  cases t with
  | text u => exact s.bodyText h u
  | comment c => exact s.putComment h c
  | start tag =>
    refine of_ite (fun hname => s.headStart h (not_outer hname (by decide))) fun _ => ?_
    have hmode := templateMode_mem tag.name
    refine s.setTemplateModes (s.goTo h hmode) fun m hm => ?_
    rcases List.mem_cons.mp hm with rfl | hm
    · exact .inr hmode
    · exact .inl (List.mem_of_mem_drop hm)
  | finish name => exact iteInduction (motive := P) (fun _ => s.endTemplate h) fun _ => h
  | eof => exact s.endOpenTemplate h
  | doctype | null | mistake => exact h

theorem inText (s : Stable P Q) (h : P b) (hmode : b.mode = .inText) (t : Token) :
    P (b.inText t).builder := by
  have hback : P { b.pop with mode := b.returnMode } :=
    s.goBack (s.pop h) (.inl hmode)
  cases t with
  | text u => exact s.putText h u
  | finish | eof => exact hback
  | doctype | start | comment | null | mistake => exact h

/-! ### SVG and MathML -/

theorem backToHtml (s : Stable P Q) (h : P b) : P b.backToHtml := s.drop h (List.dropWhile_suffix _)

theorem suffix_of_reachOf {name : String} {innermost : Bool} {handles below : List Handle}
    (h : reachOf name innermost handles = .element below) : below <:+ handles := by
  induction handles generalizing innermost with
  | nil => exact nomatch h
  | cons e rest ih =>
    cases rest with
    | nil => exact nomatch h
    | cons e' rest =>
      rw [reachOf.eq_3 _ _ _ _ (List.cons_ne_nil _ _)] at h
      split_ifs at h
      · obtain rfl := Reach.element.inj h
        exact List.suffix_cons _ _
      · exact (ih h).trans (List.suffix_cons _ _)

/-- What goes into an SVG or MathML element is no HTML. -/
theorem inForeign (s : Stable P Q) (h : P b) {t : Token} (hforeign : b.isForeign t = true)
    {rules : Builder → Token → Outcome} (hrules : ∀ b, P b → Kept P (rules b t).builder) :
    Kept P (b.inForeign rules t).builder := by
  cases t with
  | null => exact .inl (s.putText h _)
  | text u =>
    refine .inl (s.putText ?_ u)
    split
    · exact h
    · exact s.framesetOk h false
  | comment c => exact .inl (s.putComment h c)
  | start tag =>
    refine of_ite (fun _ => hrules _ (s.backToHtml h)) fun _ => ?_
    rw [isForeign.eq_def] at hforeign
    split at hforeign
    · exact nomatch hforeign
    next e rest hstack =>
      have hspace : e.name.space ≠ .html := by
        simp only [Bool.and_eq_true, bne_iff_ne] at hforeign
        exact hforeign.1.1.1
      rw [hstack]
      exact .inl (s.foreignStart h fun hhtml => absurd hhtml hspace)
  | finish name =>
    refine of_ite (fun _ => hrules _ (s.backToHtml h)) fun _ => ?_
    split
    next below hreach => exact .inl (s.drop h (suffix_of_reachOf hreach))
    · exact hrules b h
    · exact .inl h
  | doctype | mistake | eof => exact .inl h

/-! ### Tokens -/

/-- A property is kept by the rules outside of content. -/
def KeptOutside (P : Builder → Prop) : Prop :=
  ∀ b t, P b → b.mode ∉ .inText :: .inTableText :: contentModes → P (b.inMode t).builder

theorem inMode (s : Stable P Q) (hout : KeptOutside P) (h : P b) (t : Token) :
    Kept P (b.inMode t).builder := by
  by_cases hmode : b.mode ∈ .inText :: .inTableText :: contentModes
  · simp only [contentModes, List.mem_cons, List.not_mem_nil, or_false] at hmode
    rw [Builder.inMode]
    rcases hmode with hmode | hmode | hmode | hmode | hmode | hmode | hmode | hmode | hmode |
      hmode | hmode | hmode <;> rw [hmode]
    · exact .inl (s.inText h hmode t)
    · exact s.inTableText (.inl h) hmode t
    · exact .inl (s.inBody h t)
    · exact s.inTable h t
    · exact .inl (s.inCaption h t)
    · exact .inl (s.inColumnGroup h t)
    · exact s.inTableBody h t
    · exact s.inRow h t
    · exact .inl (s.inCell h t)
    · exact .inl (s.inSelect h t)
    · exact .inl (s.inSelectInTable h t)
    · exact .inl (s.inTemplate h t)
  · exact .inl (hout b t h hmode)

theorem isForeign_of_currentIs {names : List String} (h : b.currentIs names = true) (t : Token) :
    b.isForeign t = false := by
  rw [currentIs] at h
  rw [isForeign.eq_def]
  split
  · rfl
  next e rest hstack =>
    rw [hstack] at h
    have hspace : (e.name.space != .html) = false := by
      simp only [List.head?_cons, Option.any_some, ElementName.isHtml, Bool.and_eq_true,
        beq_iff_eq] at h
      simp [h.1]
    cases t <;> simp [hspace]

/-- **One look at a token** keeps what is stable. -/
theorem step (s : Stable P Q) (hout : KeptOutside P) (h : Kept P b) (t : Token) :
    Kept P (b.step t).builder := by
  rw [Builder.step]
  rcases h with h | h
  · refine of_ite (fun hforeign => ?_) fun _ => s.inMode hout h t
    exact s.inForeign h hforeign fun b h => s.inMode hout h t
  · rw [isForeign_of_currentIs h.2.1, Builder.inMode, h.1]
    exact s.inTableText (.inr h) h.1 t

theorem settle (s : Stable P Q) (hout : KeptOutside P) (fuel : Nat) (h : Kept P b) (t : Token) :
    Kept P (b.settle fuel t) := by
  induction fuel generalizing b t with
  | zero => exact h
  | succ fuel ih =>
    have hstep := s.step hout h t
    rw [Builder.settle]
    split
    next b' heq =>
      rw [heq] at hstep
      exact hstep
    next b' t' heq =>
      rw [heq] at hstep
      exact ih hstep t'

theorem acceptText (s : Stable P Q) (hout : KeptOutside P) (h : Kept P b) (t : Text) :
    Kept P (b.acceptText t) :=
  foldl (P := Kept P) h (fun _ run h => s.settle hout _ h (.text run)) _

/-- Neither what is done with a line feed nor how the text goes on decides what is kept. -/
theorem readOn (s : Stable P Q) (h : Kept P b) (dropNewline : Bool) {content : Content}
    (hcontent : content.IsKnown) : Kept P { b with dropNewline, content } := by
  have htune {b : Builder} (h : P b) : P { b with dropNewline, content } :=
    s.tune b.tableText b.form b.framesetOk dropNewline b.fostering b.oldLayout (s.readAs h hcontent)
  exact h.imp htune fun h => ⟨h.1, h.2.1, htune h.2.2⟩

theorem isKnown_of_kept (s : Stable P Q) (h : Kept P b) : b.content.IsKnown :=
  h.elim s.isKnown fun h => s.isKnown (b := { b with mode := b.returnMode }) h.2.2

theorem accept (s : Stable P Q) (hout : KeptOutside P) (h : Kept P b) (t : Token) :
    Kept P (b.accept t) := by
  have hdrop : Kept P { b with dropNewline := false } :=
    s.readOn h false (s.isKnown_of_kept h)
  cases t with
  | mistake => exact hdrop
  | doctype d =>
    rcases hdrop with h | h
    · exact .inl (s.acceptDoctype h)
    · refine .inr ?_
      rw [Builder.accept, Builder.acceptDoctype, if_neg (by rw [h.1]; decide)]
      exact h
  | text u => exact s.acceptText hout hdrop _
  | start | finish | comment | null | eof => exact s.settle hout _ hdrop _

theorem acceptAll (s : Stable P Q) (hout : KeptOutside P) (h : Kept P b) (ts : List Token) :
    Kept P (ts.foldl Builder.accept b) := by
  induction ts generalizing b with
  | nil => exact h
  | cons t ts ih => exact ih (s.accept hout h t)

/-- **What is stable lasts through a whole text.** -/
theorem constructFrom (s : Stable P Q) (hout : KeptOutside P) (fuel : Nat) (h : Kept P b)
    (text : Text) : Kept P (Document.constructFrom fuel b text) := by
  induction fuel generalizing b text with
  | zero => exact h
  | succ fuel ih =>
    cases text with
    | nil => exact h
    | cons c r =>
      refine ih (s.acceptAll hout (s.readOn h b.dropNewline ?_) _) _
      rcases Token.content_read b.content b.takesSections (c :: r) with heq | heq
      · rw [heq]
        trivial
      · rw [heq]
        exact s.isKnown_of_kept h

end Stable
end TerseMarkup.Html
