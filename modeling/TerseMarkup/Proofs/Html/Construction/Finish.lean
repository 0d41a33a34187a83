import TerseMarkup.Proofs.Html.Construction.Open

/-! How a template that is open ends.

The end of the text closes what is open from the innermost element outwards, and so does the end tag
of the template. Nothing is put into the tree on the way but text that waits to be put into a table,
and a body behind the head (`Finishing`). So the document ends up with the template in its head and
nothing else (`Finishing.root_eq`). -/
namespace TerseMarkup.Html
open Builder

/-- The document with the template in its head and these nodes behind the head. -/
def wrapped (contents behind : List Node) : Node :=
  .document 0 [.element 1 htmlHandle.name [] (.element 2 headHandle.name [] [wrapper contents] :: behind)]

/-- Construction on its way to the end: the template is open, or it is closed, and construction goes
through the head to an empty body. -/
inductive Finishing (contents : List Node) : Builder → Prop
  | inside {b : Builder} {above : List Handle} : OpenWith contents above b → Finishing contents b
  /-- The template has been closed by the end of raw text. -/
  | outside {b : Builder} : b.root = wrapped contents [] → b.failed = false →
    b.stack <:+ [headHandle, htmlHandle] → b.mode ∈ .inText :: contentModes →
    b.returnMode ∈ .inText :: contentModes → Finishing contents b
  | inHead {b : Builder} : b.root = wrapped contents [] → b.failed = false →
    b.stack = [headHandle, htmlHandle] → b.mode = .inHead → Finishing contents b
  | afterHead {b : Builder} : b.root = wrapped contents [] → b.failed = false →
    b.stack = [htmlHandle] → b.mode = .afterHead → Finishing contents b
  | inBody {b : Builder} {i : NodeId} :
    b.root = wrapped contents [.element i ⟨.html, "body"⟩ [] []] → b.failed = false →
    b.isOpen "template" = false → b.mode = .inBody → Finishing contents b

/-- The head is followed by nothing, or by an empty body. -/
def NoContent (behind : List Node) : Prop :=
  behind = [] ∨ ∃ i, behind = [.element i ⟨.html, "body"⟩ [] []]

namespace Finishing

variable {contents : List Node} {b : Builder}

theorem root_eq (h : Finishing contents b) :
    ∃ behind, NoContent behind ∧ b.root = wrapped contents behind := by
  cases h with
  | inside h => exact ⟨[], .inl rfl, h.root_eq⟩
  | outside hroot | inHead hroot | afterHead hroot => exact ⟨[], .inl rfl, hroot⟩
  | inBody hroot => exact ⟨_, .inr ⟨_, rfl⟩, hroot⟩

theorem failed_eq (h : Finishing contents b) : b.failed = false := by
  cases h with
  | inside h => exact h.failed
  | outside _ hfailed | inHead _ hfailed | afterHead _ hfailed | inBody _ hfailed => exact hfailed

end Finishing

/-! ### Closing elements -/

theorem not_template {names : List String} (h : "template" ∉ names) :
    wrapperHandle.name.isHtml names = false := by
  simp [ElementName.isHtml, wrapperHandle, h]

/-- Elements that end by themselves do so within the template. -/
theorem dropWhile_outer {p : Handle → Bool} (hp : p wrapperHandle = false) (above : List Handle) :
    ∃ above', above' <:+ above ∧ (above ++ outerHandles).dropWhile p = above' ++ outerHandles := by
  induction above with
  | nil =>
    refine ⟨[], List.suffix_refl _, ?_⟩
    rw [List.nil_append, outerHandles, List.dropWhile_cons, hp]
    rfl
  | cons g above ih =>
    rw [List.cons_append, List.dropWhile_cons]
    split
    · obtain ⟨above', hsuffix, heq⟩ := ih
      exact ⟨above', hsuffix.trans (List.suffix_cons _ _), heq⟩
    · exact ⟨g :: above, List.suffix_refl _, rfl⟩

/-- The innermost template is one in the fragment, or the one around it. -/
theorem popThrough_outer (above : List Handle) :
    (∃ above', above' <:+ above ∧
      ((above ++ outerHandles).dropWhile (!·.name.isHtml ["template"])).drop 1 =
        above' ++ outerHandles) ∨
      ((above ++ outerHandles).dropWhile (!·.name.isHtml ["template"])).drop 1 =
        [headHandle, htmlHandle] := by
  induction above with
  | nil => exact .inr rfl
  | cons g above ih =>
    rw [List.cons_append, List.dropWhile_cons]
    split
    · refine ih.imp_left ?_
      rintro ⟨above', hsuffix, heq⟩
      exact ⟨above', hsuffix.trans (List.suffix_cons _ _), heq⟩
    · exact .inl ⟨above, List.suffix_cons _ _, rfl⟩

/-- The end tag of an element of SVG or MathML closes one that stands in the template. -/
theorem reachOf_outer {name : String} {innermost : Bool} {above below : List Handle}
    (hopen : innermost = true → above ≠ [])
    (h : reachOf name innermost (above ++ outerHandles) = .element below) :
    ∃ above', above' <:+ above ∧ below = above' ++ outerHandles := by
  induction above generalizing innermost with
  | nil =>
    obtain rfl : innermost = false := by
      cases innermost with
      | false => rfl
      | true => exact absurd rfl (hopen rfl)
    cases h
  | cons g above ih =>
    obtain ⟨e, rest, hrest⟩ := List.exists_cons_of_ne_nil
      (List.append_ne_nil_of_right_ne_nil above (show outerHandles ≠ [] by decide))
    rw [List.cons_append, hrest, reachOf.eq_3 _ _ _ _ (by simp), ← hrest] at h
    split at h
    · cases h
    · split at h
      · exact ⟨above, List.suffix_cons _ _, (Reach.element.inj h).symm⟩
      · obtain ⟨above', hsuffix, heq⟩ := ih (by simp) h
        exact ⟨above', hsuffix.trans (List.suffix_cons _ _), heq⟩

namespace OpenWith

variable {contents : List Node} {above : List Handle} {b : Builder}

theorem suffix (h : OpenWith contents above b) {above' : List Handle} (hsuffix : above' <:+ above) :
    OpenWith contents above' { b with stack := above' ++ outerHandles } := h.sublist hsuffix.sublist

/-- Behind raw text construction goes on as before. -/
theorem back (h : OpenWith contents above b) (hmode : b.mode = .inText) :
    Finishing contents { b.pop with mode := b.returnMode } := by
  have hreturn := h.returnMode hmode
  cases above with
  | nil =>
    have hstack : b.stack.drop 1 = [headHandle, htmlHandle] := by rw [h.stack_eq]; rfl
    refine .outside h.root_eq h.failed ?_ hreturn hreturn
    show b.stack.drop 1 <:+ _
    rw [hstack]
  | cons g above =>
    have hstack : b.stack.drop 1 = above ++ outerHandles := by rw [h.stack_eq]; rfl
    have hinside : OpenWith contents above { b.pop with mode := b.returnMode } :=
      { h.suffix (List.suffix_cons g above) with
        stack_eq := hstack
        mode := hreturn
        returnMode := fun _ => hreturn }
    exact .inside hinside

/-- The innermost template is closed. -/
theorem leaveTemplate (h : OpenWith contents above b) :
    Finishing contents
      { (b.popThrough ["template"]).clearToMarker with
        templateModes := b.templateModes.drop 1 }.resetMode := by
  have hremembered : ∀ g t, .element g t ∈ ((b.formatting.dropWhile (· != .marker)).drop 1) →
      Remembered g t := fun g t hmem => h.remembered g t
    ((List.dropWhile_suffix _).subset ((List.drop_suffix _ _).subset hmem))
  rcases popThrough_outer above with ⟨above', hsuffix, hstack⟩ | hstack
  · have hstack' : ((b.popThrough ["template"]).clearToMarker).stack = above' ++ outerHandles := by
      rw [← hstack, ← h.stack_eq]
      rfl
    have hinside : OpenWith contents above' { (b.popThrough ["template"]).clearToMarker with
        templateModes := b.templateModes.drop 1 } :=
      { h.suffix hsuffix with
        stack_eq := hstack'
        remembered := hremembered
        templateModes := fun m hm => h.templateModes m ((List.drop_suffix _ _).subset hm) }
    exact .inside hinside.reset
  · rw [← h.stack_eq] at hstack
    refine .inHead h.root_eq h.failed hstack ?_
    show Builder.modeFor _ ((b.stack.dropWhile _).drop 1) = _
    rw [hstack]
    rfl

end OpenWith

/-! ### Steps -/

/-- A state to go on from, with the same token unless it has been dealt with. -/
def Outcome.Leads (o : Outcome) (t : Token) (P : Builder → Prop) : Prop :=
  match o with
  | .done b => P b
  | .again b t' => P b ∧ t' = t

theorem step_eof (b : Builder) : b.step .eof = b.inMode .eof := by
  have hforeign : b.isForeign .eof = false := by
    rw [isForeign]
    split <;> rfl
  rw [step, hforeign, if_neg Bool.false_ne_true]

/-- In a mode for content the end of the text ends the innermost template. -/
theorem inMode_eof {b : Builder} (hmode : b.mode ∈ contentModes) :
    b.inMode .eof = .done b ∨ b.inMode .eof = b.endOpenTemplate := by
  have hbody : b.inBody .eof = .done b ∨ b.inBody .eof = b.endOpenTemplate := by
    rw [inBody]
    split
    · exact .inl rfl
    · exact .inr rfl
  simp only [contentModes, List.mem_cons, List.not_mem_nil, or_false] at hmode
  rw [inMode]
  rcases hmode with h | h | h | h | h | h | h | h | h | h <;> rw [h]
  case inr.inr.inr.inr.inr.inr.inr.inr.inr => exact .inr rfl
  all_goals exact hbody

/-- Where no template is open, the end of the text is the end. -/
theorem inMode_eof_closed {b : Builder} (hmode : b.mode ∈ contentModes)
    (hclosed : b.isOpen "template" = false) : b.inMode .eof = .done b := by
  rcases inMode_eof hmode with heq | heq
  · exact heq
  · rw [heq, endOpenTemplate, hclosed, if_neg Bool.false_ne_true]

/-- In a mode for content the end tag of a template closes the innermost one. -/
theorem inMode_finish {b : Builder} (hmode : b.mode ∈ contentModes) :
    b.inMode (.finish "template") = .done b.endTemplate := by
  simp only [contentModes, List.mem_cons, List.not_mem_nil, or_false] at hmode
  rw [inMode]
  rcases hmode with h | h | h | h | h | h | h | h | h | h <;> rw [h] <;> rfl

namespace OpenWith

variable {contents : List Node} {above : List Handle} {b : Builder}

theorem step_eof (h : OpenWith contents above b) :
    (b.step .eof).Leads .eof (Finishing contents) := by
  rw [TerseMarkup.Html.step_eof]
  rcases List.mem_cons.mp h.mode with hmode | hmode
  · rw [inMode, hmode]
    exact ⟨h.back hmode, rfl⟩
  · rcases inMode_eof hmode with heq | heq
    · rw [heq]
      exact .inside h
    · rw [heq, endOpenTemplate, if_pos h.isOpen]
      exact ⟨h.leaveTemplate, rfl⟩

theorem endTemplate (h : OpenWith contents above b) : Finishing contents b.endTemplate := by
  rw [Builder.endTemplate, if_pos h.isOpen]
  obtain ⟨above', hsuffix, hstack⟩ :=
    dropWhile_outer (p := (·.name.isHtml allImpliedEnds)) (not_template (by decide)) above
  have himplied : OpenWith contents above' (b.popImplied allImpliedEnds) := by
    refine { h.suffix hsuffix with stack_eq := ?_ }
    rw [← hstack, ← h.stack_eq]
    rfl
  exact himplied.leaveTemplate

theorem step_finish (h : OpenWith contents above b) :
    ∃ b', b.step (.finish "template") = .done b' ∧ Finishing contents b' := by
  have hrules : ∃ b', b.inMode (.finish "template") = .done b' ∧ Finishing contents b' := by
    rcases List.mem_cons.mp h.mode with hmode | hmode
    · rw [inMode, hmode]
      exact ⟨_, rfl, h.back hmode⟩
    · rw [inMode_finish hmode]
      exact ⟨_, rfl, h.endTemplate⟩
  rw [step]
  split
  next hforeign =>
    rw [inForeign, if_neg (by decide)]
    split
    next below hreach =>
      rw [h.stack_eq] at hreach
      have hne : true = true → above ≠ [] := by
        rintro - rfl
        rw [isForeign, h.stack_eq] at hforeign
        exact absurd hforeign (by decide)
      obtain ⟨above', hsuffix, rfl⟩ := reachOf_outer hne hreach
      exact ⟨_, rfl, .inside (h.suffix hsuffix)⟩
    · exact hrules
    · exact ⟨_, rfl, .inside h⟩
  · exact hrules

end OpenWith

namespace Finishing

variable {contents : List Node} {b : Builder}

theorem isOpen_outside {stack : List Handle} (h : stack <:+ [headHandle, htmlHandle]) :
    stack.any (·.name.isHtml ["template"]) = false := by
  rw [List.any_eq_false]
  intro g hg
  have hnone : ∀ g ∈ [headHandle, htmlHandle], ¬ g.name.isHtml ["template"] = true := by decide
  exact hnone g (h.subset hg)

theorem pushBody (hroot : b.root = wrapped contents []) (hfailed : b.failed = false)
    (hstack : b.stack = [htmlHandle]) :
    Finishing contents (b.pushBody { name := "body" }) := by
  have hplace (b : Builder) : b.placeFor htmlHandle = .inside 1 := by
    have hname : htmlHandle.name.isHtml tableParts = false := by decide
    rw [placeFor, hname, Bool.and_false, if_neg Bool.false_ne_true]
    rfl
  have hname : ElementName.isHtml ⟨.html, "body"⟩ ["template"] = false := by decide
  have hpush : b.push { name := "body" } = { b with
      root := wrapped contents [.element b.nextId ⟨.html, "body"⟩ [] []]
      nextId := b.nextId + 1
      stack := [⟨b.nextId, ⟨.html, "body"⟩, b.nextId⟩, htmlHandle] } := by
    rw [push, pushElement, putElement, create, hname, if_neg Bool.false_ne_true]
    simp only [put, hstack, hplace, putAt, hroot]
    rfl
  have hclosed : [⟨b.nextId, ⟨.html, "body"⟩, b.nextId⟩, htmlHandle].any
      (·.name.isHtml ["template"]) = false := by
    rw [List.any_cons, hname]
    rfl
  rw [Builder.pushBody, hpush]
  exact .inBody rfl hfailed hclosed rfl

/-- **The end of the text goes on to the end.** -/
theorem step_eof (h : Finishing contents b) : (b.step .eof).Leads .eof (Finishing contents) := by
  cases h with
  | inside h => exact h.step_eof
  | outside hroot hfailed hstack hmode hreturn =>
    rw [TerseMarkup.Html.step_eof]
    rcases List.mem_cons.mp hmode with hmode | hmode
    · rw [inMode, hmode]
      exact ⟨.outside hroot hfailed ((List.drop_suffix 1 _).trans hstack) hreturn hreturn, rfl⟩
    · rw [inMode_eof_closed hmode (isOpen_outside hstack)]
      exact .outside hroot hfailed hstack (List.mem_cons_of_mem _ hmode) hreturn
  | inHead hroot hfailed hstack hmode =>
    rw [TerseMarkup.Html.step_eof, inMode, hmode]
    refine ⟨.afterHead hroot hfailed ?_ rfl, rfl⟩
    show b.stack.drop 1 = _
    rw [hstack]
    rfl
  | afterHead hroot hfailed hstack hmode =>
    rw [TerseMarkup.Html.step_eof, inMode, hmode]
    exact ⟨pushBody hroot hfailed hstack, rfl⟩
  | inBody hroot hfailed hclosed hmode =>
    rw [TerseMarkup.Html.step_eof, inMode_eof_closed (by rw [hmode]; decide) hclosed]
    exact .inBody hroot hfailed hclosed hmode

theorem settle_eof (fuel : Nat) (h : Finishing contents b) :
    Finishing contents (b.settle fuel .eof) := by
  induction fuel generalizing b with
  | zero => exact h
  | succ fuel ih =>
    have hstep := h.step_eof
    rw [settle]
    split
    next heq =>
      rw [heq] at hstep
      exact hstep
    next heq =>
      rw [heq] at hstep
      obtain ⟨hnext, rfl⟩ := hstep
      exact ih hnext

theorem accept_eof (h : Finishing contents b) : Finishing contents (b.accept .eof) := by
  refine settle_eof _ ?_
  cases h with
  | inside h => exact .inside { h with }
  | outside hroot hfailed hstack hmode hreturn => exact .outside hroot hfailed hstack hmode hreturn
  | inHead hroot hfailed hstack hmode => exact .inHead hroot hfailed hstack hmode
  | afterHead hroot hfailed hstack hmode => exact .afterHead hroot hfailed hstack hmode
  | inBody hroot hfailed hclosed hmode => exact .inBody hroot hfailed hclosed hmode

end Finishing

/-! ### Text that waits -/

/-- Text that has been waiting is put where it belongs. -/
def flushed (b : Builder) : Builder :=
  let pending := b.tableText.reverse
  let b := { b with tableText := [], mode := b.returnMode }
  if pending.all isSpaces then pending.foldl putText b else pending.foldl fosterText b

theorem open_flushed {b : Builder} (h : Open { b with mode := b.returnMode }) :
    Open (flushed b) := by
  have hempty : Open { b with tableText := [], mode := b.returnMode } := growing_open.tableText h []
  rw [flushed]
  split
  · exact Stable.foldl hempty (fun _ u h => growing_open.putText h u) _
  · exact Stable.foldl hempty (fun _ u h => growing_open.fosterText h u) _

/-- The template is open, or will be when the text that waits has been put somewhere. -/
def KeptOpen (b : Builder) : Prop := Open b ∨ Stable.Waits Open b

theorem step_waiting {b : Builder} (h : Stable.Waits Open b) :
    b.step .eof = .again (flushed b) .eof ∧
      b.step (.finish "template") = .again (flushed b) (.finish "template") := by
  obtain ⟨hmode, hcurrent, -⟩ := h
  constructor
  · rw [step, Stable.isForeign_of_currentIs hcurrent, if_neg Bool.false_ne_true, inMode, hmode]
    rfl
  · rw [step, Stable.isForeign_of_currentIs hcurrent, if_neg Bool.false_ne_true, inMode, hmode]
    rfl

theorem KeptOpen.dropNewline {b : Builder} (h : KeptOpen b) :
    KeptOpen { b with dropNewline := false } := by
  rcases h with ⟨contents, above, h⟩ | ⟨hmode, hcurrent, contents, above, h⟩
  · exact .inl ⟨contents, above, { h with }⟩
  · exact .inr ⟨hmode, hcurrent, contents, above, { h with }⟩

/-- **The end tag of the template changes nothing**: with it or without it, the document ends up
with the same contents in the template. -/
theorem KeptOpen.accept {b : Builder} (h : KeptOpen b) :
    ∃ contents, Finishing contents (b.accept .eof) ∧
      Finishing contents ((b.accept (.finish "template")).accept .eof) := by
  have hopen := h.dropNewline
  set b' : Builder := { b with dropNewline := false } with hb'
  obtain ⟨fuel, hfuel⟩ : ∃ fuel, 24 * (b'.stack.length + 2) = fuel + 2 := ⟨_, rfl⟩
  have hfinish {contents : List Node} {above : List Handle} {b : Builder}
      (h : OpenWith contents above b) (fuel : Nat) :
      Finishing contents (b.settle (fuel + 1) (.finish "template")) := by
    obtain ⟨b', heq, hb'⟩ := h.step_finish
    rw [settle, heq]
    exact hb'
  show ∃ contents, Finishing contents (b'.take .eof) ∧
    Finishing contents ((b'.take (.finish "template")).accept .eof)
  rw [take, take, hfuel]
  rcases hopen with ⟨contents, above, h⟩ | h
  · exact ⟨contents, Finishing.settle_eof _ (.inside h), (hfinish h _).accept_eof⟩
  · obtain ⟨contents, above, hopen⟩ := open_flushed h.2.2
    refine ⟨contents, ?_, Finishing.accept_eof ?_⟩
    · rw [settle, (step_waiting h).1]
      exact Finishing.settle_eof _ (.inside hopen)
    · rw [settle, (step_waiting h).2]
      exact hfinish hopen _

end TerseMarkup.Html
