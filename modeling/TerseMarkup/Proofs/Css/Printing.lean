import TerseMarkup.Proofs.Css.Codes
import TerseMarkup.Proofs.Css.Lexeme.Usual
import TerseMarkup.Proofs.Css.Nesting
import TerseMarkup.Proofs.Css.Source

/-! Selectors printed as they were read.

What a selector prints is what it was read from, less the text of curly blocks that nothing took
over: at the end of a level, or in front of square brackets. `Part.Kept` says that there is no such
block, and then, and only then, a selector with its blocks closed prints as it was written
(`text_parse_eq_iff`). -/
namespace TerseMarkup.Css

/-- `printed` is `source` with characters left out, and none is if `P`. -/
structure Keeps (P : Prop) (source printed : Text) : Prop where
  sublist : printed.Sublist source
  eq_iff : printed = source ↔ P

namespace Keeps

theorem refl (s : Text) : Keeps True s s := ⟨List.Sublist.refl s, by simp⟩

theorem dropped (s : Text) : Keeps (s = []) s [] := ⟨List.nil_sublist s, eq_comm⟩

theorem append {P Q : Prop} {s s' t t' : Text} (h : Keeps P s s') (h' : Keeps Q t t') :
    Keeps (P ∧ Q) (s ++ t) (s' ++ t') := by
  refine ⟨h.sublist.append h'.sublist, ?_⟩
  rw [← h.eq_iff, ← h'.eq_iff]
  refine ⟨fun heq => ?_, fun ⟨hs, ht⟩ => hs ▸ ht ▸ rfl⟩
  have hlength := congrArg List.length heq
  rw [List.length_append, List.length_append] at hlength
  have hs := h.sublist.length_le
  have ht := h'.sublist.length_le
  exact ⟨h.sublist.eq_of_length (by omega), h'.sublist.eq_of_length (by omega)⟩

theorem of {P Q : Prop} {s s' t t' : Text} (h : Keeps P s s') (hiff : Q ↔ P) (hs : t = s)
    (hs' : t' = s') : Keeps Q t t' := by
  subst hs hs'
  exact ⟨h.sublist, h.eq_iff.trans hiff.symm⟩

end Keeps

namespace Part

/-- Whether there is a part that takes over the text of a curly block before it. -/
def TakesOver : List Component → Prop
  | [] => False
  | .block _ .square _ _ :: _ => False
  | _ => True

/-- Whether the text of every curly block is taken over, in parentheses too. -/
def Kept : List Component → Prop
  | [] => True
  | .block _ .curly _ _ :: rest => TakesOver rest ∧ Kept rest
  | .block _ .square _ _ :: rest => Kept rest
  | .block _ .paren inside _ :: rest => Kept inside ∧ Kept rest
  | .plain _ :: rest => Kept rest

theorem text_attributeTest_read (inside : List Component) :
    (attributeTest (AttributeTest.read inside)).text =
      '[' :: (Component.textOf inside ++ [']']) := by
  have hblank : (AttributeTest.read inside).blank = AttributeTest.read inside :=
    AttributeTest.blank_readFrom rfl ..
  have hvalue : (AttributeTest.read inside).value.map AttributeValue.text =
      (AttributeTest.read inside).value.map AttributeValue.source := by
    rw [← hblank, AttributeTest.blank, Option.map_map, Option.map_map]
    rfl
  rw [← AttributeTest.source_read inside, text, AttributeTest.text, hvalue, AttributeTest.source]

/-- What is printed is what was read, less the text that is not taken over. -/
theorem keeps_readFrom (pseudo : Bool) (pending : Text) {bracket : Option Bracket}
    {cs : List Component} (hfits : Component.FitAll bracket cs)
    (hclosed : Component.unclosedAll cs = []) (husual : ∀ l ∈ Component.lexemesOf cs, l.Usual) :
    Keeps ((pending ≠ [] → TakesOver cs) ∧ Kept cs) (pending ++ Component.textOf cs)
      (textOf (readFrom pseudo pending cs)) := by
  fun_induction readFrom pseudo pending cs generalizing bracket with
  | case1 pseudo pending =>
    exact (Keeps.dropped pending).of (by simp [TakesOver, Kept]) (by simp [Component.textOf]) rfl
  | case2 pseudo pending opener inside closer rest ih =>
    obtain ⟨closer, rfl, -, hrest⟩ := Component.exists_closer hclosed
    obtain ⟨-, -, hcloser, husual⟩ := Component.forall_lexemesOf_block.mp husual
    have hinside : (Component.block opener .curly inside (some closer)).textInside ≠ [] := by
      simp [Component.textInside, (hcloser _ rfl).closeCurly (hfits.1.2.2 _ rfl)]
    refine ((Keeps.refl (pending ++ opener.text)).append (ih hfits.2 hrest husual)).of ?_ ?_ rfl
    · simp [TakesOver, Kept, hinside]
    · simp [Component.textOf, Component.text, Component.textInside]
  | case3 pseudo pending opener inside closer rest ih =>
    obtain ⟨closer, rfl, -, hrest⟩ := Component.exists_closer hclosed
    obtain ⟨hopener, -, hcloser, husual⟩ := Component.forall_lexemesOf_block.mp husual
    have hopen : opener.text = ['['] :=
      hopener.openSquare (Token.eq_opening hfits.1.1 (by decide))
    have hclose : closer.text = [']'] := (hcloser _ rfl).closeSquare (hfits.1.2.2 _ rfl)
    refine (((Keeps.dropped pending).append (.refl _)).append (ih hfits.2 hrest husual)).of
      ?_ ?_ (by rw [List.nil_append, textOf])
    · simp [TakesOver, Kept]
    · simp [text_attributeTest_read, Component.textOf, Component.text, hopen, hclose]
  | case4 pseudo pending opener inside closer rest ihinside ih =>
    obtain ⟨closer, rfl, hinside, hrest⟩ := Component.exists_closer hclosed
    obtain ⟨-, husualInside, hcloser, husual⟩ := Component.forall_lexemesOf_block.mp husual
    have hclose : closer.text = [')'] := (hcloser _ rfl).closeParen (hfits.1.2.2 _ rfl)
    have hfunction := ((Keeps.refl (pending ++ opener.text)).append
      (ihinside hfits.1.2.1 hinside husualInside)).append (.refl [')'])
    refine (hfunction.append (ih hfits.2 hrest husual)).of ?_ ?_ rfl
    · simp [TakesOver, Kept]
    · simp [Component.textOf, Component.text, hclose]
  | case5 pseudo pending dot value source rest ih =>
    obtain ⟨-, hname⟩ := Component.unclosedAll_cons_eq_nil.mp hclosed
    obtain ⟨-, hrest⟩ := Component.unclosedAll_cons_eq_nil.mp hname
    have husual := (List.forall_mem_cons.mp (List.forall_mem_cons.mp husual).2).2
    refine ((Keeps.refl (pending ++ dot ++ source)).append (ih hfits.2.2 hrest husual)).of ?_ ?_ rfl
    · simp [TakesOver, Kept]
    · simp [Component.textOf, Component.text]
  | case6 pseudo pending l rest hclass source part =>
    rename_i ih
    obtain ⟨-, hrest⟩ := Component.unclosedAll_cons_eq_nil.mp hclosed
    have husual := (List.forall_mem_cons.mp husual).2
    refine ((Keeps.refl (pending ++ l.text)).append (ih hfits.2 hrest husual)).of ?_ ?_ ?_
    · simp [TakesOver, Kept]
    · simp [Component.textOf, Component.text]
    · have hpart : part.text = pending ++ l.text := by
        unfold part
        split
        · cases pseudo <;> rfl
        · rfl
        · rfl
      rw [textOf, hpart]

end Part

namespace Selector

theorem keeps_parse {s : Text} (hclosed : Component.unclosedAll (Component.read s) = []) :
    Keeps (Part.Kept (Component.read s)) s (parse s).text := by
  have husual : ∀ l ∈ Component.lexemesOf (Component.read s), l.Usual := by
    rw [Component.lexemesOf_read]
    exact (Lexeme.standing_scan s).usual
  refine (Part.keeps_readFrom false [] (Component.fitAll_read s) hclosed husual).of
    (and_iff_right fun h => absurd rfl h).symm ?_ rfl
  rw [List.nil_append, Component.textOf_read]

/-- **A selector prints as it was written exactly if the text of every curly block is taken over**:
the block stands in front of something that is no attribute test. -/
theorem text_parse_eq_iff {s : Text} (hclosed : Component.unclosedAll (Component.read s) = []) :
    (parse s).text = s ↔ Part.Kept (Component.read s) := (keeps_parse hclosed).eq_iff

/-- The block in `{x}:not(y)` is taken over by the colon. -/
theorem text_parse_eq_iff_colon :
    let s := "\x7bx\x7d:not(y)".toList
    Component.unclosedAll (Component.read s) = [] ∧ Part.Kept (Component.read s) ∧
      (parse s).text = s := by
  intro s
  have hclosed : Component.unclosedAll (Component.read s) = [] := by decide +kernel
  have hread : Component.read s =
      [.block ⟨.opening .curly, ['{']⟩ .curly [.plain ⟨.ident ['x'], ['x']⟩]
          (some ⟨.closing .curly, ['}']⟩),
        .plain ⟨.colon, [':']⟩,
        .block ⟨.function "not".toList, "not(".toList⟩ .paren [.plain ⟨.ident ['y'], ['y']⟩]
          (some ⟨.closing .paren, [')']⟩)] := by rfl
  have hkept : Part.Kept (Component.read s) := by simp [hread, Part.Kept, Part.TakesOver]
  exact ⟨hclosed, hkept, (text_parse_eq_iff hclosed).mpr hkept⟩

/-- Of `{x}`, the bracket alone is printed. -/
theorem text_parse_curly :
    let s := "\x7bx\x7d".toList
    Component.unclosedAll (Component.read s) = [] ∧ (parse s).text = ['{'] ∧ (parse s).text ≠ s := by
  intro s
  have hread : Component.read s = [.block ⟨.opening .curly, ['{']⟩ .curly
      [.plain ⟨.ident ['x'], ['x']⟩] (some ⟨.closing .curly, ['}']⟩)] := by rfl
  have htext : (parse s).text = ['{'] := by
    simp [parse, hread, Part.readFrom, text, Part.textOf, Part.text]
  refine ⟨by decide +kernel, htext, ?_⟩
  rw [htext]
  decide

end Selector

end TerseMarkup.Css
