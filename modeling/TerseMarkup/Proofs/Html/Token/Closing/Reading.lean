import TerseMarkup.Proofs.Html.Token.Closing.Doctype
import TerseMarkup.Proofs.Html.Token.Closing.RawText
import TerseMarkup.Proofs.Html.Token.Closing.Tag

/-! Readings before the end tag.

The readers put together: a reading of a text with `</template>` behind it takes all of it, or it is
the reading of the text alone and leaves the tag where it stands (`Token.read_closing`). -/
namespace TerseMarkup.Html

/-- Whether the end tag of a template ends no text that is read in this way. -/
def Content.Passes : Content → Prop
  | escapable name | raw name =>
    '<' ∉ name.toList ∧ RawText.length name.toList closing = closing.length
  | _ => True

namespace Token

/-- A reading that takes the end tag too, or leaves it and is that of the part before it. -/
def Spare (whole part : Reading) : Prop :=
  whole.rest = [] ∨ whole = { part with rest := part.rest ++ closing }

theorem Spare.of_pair {α : Type} {whole part : α × Text} (h : Spares whole part)
    (tokens : α → List Token) (content : Content) :
    Spare ⟨tokens whole.1, whole.2, content⟩ ⟨tokens part.1, part.2, content⟩ := by
  rcases h with h | h
  · exact .inl h
  · exact .inr (by rw [h])

/-- A tag goes through to the end, or leaves the end tag behind it. -/
theorem Spare.of_tag (token : Tag → Token) (s : Text) :
    Spare
      (match Tag.read? (s ++ closing) with
        | some (tag, rest) => ⟨[token tag], rest, .data⟩
        | none => ⟨[], [], .data⟩)
      (match Tag.read? s with
        | some (tag, rest) => ⟨[token tag], rest, .data⟩
        | none => ⟨[], [], .data⟩) := by
  split
  next tag rest h =>
    rcases Tag.read?_closing h with rfl | ⟨r, rfl, hpart⟩
    · exact .inl rfl
    · rw [hpart]
      exact .inr rfl
  · exact .inl rfl

theorem cut?_closing {part : Text} (h : '<' ∉ part) (hne : part ≠ [])
    (htag : Text.cut? part closing = none) (s : Text) :
    Text.cut? part (s ++ closing) = (Text.cut? part s).map fun (before, rest) =>
      (before, rest ++ closing) := by
  induction s with
  | nil =>
    rw [List.nil_append, htag, Text.cut?, if_neg (by simpa using hne)]
    rfl
  | cons c s ih =>
    have hafter := after?_closing h (c :: s)
    rw [List.cons_append] at hafter ⊢
    rw [Text.cut?, Text.cut?, hafter]
    cases Text.after? part (c :: s) with
    | some rest => rfl
    | none =>
      dsimp only [Option.map_none]
      rw [ih]
      cases Text.cut? part s <;> rfl

theorem readDeclaration_closing (sections : Bool) (s : Text) :
    Spare (readDeclaration sections (s ++ closing)) (readDeclaration sections s) := by
  rw [readDeclaration, readDeclaration, after?_closing (by decide)]
  cases Text.after? "--".toList s with
  | some r => exact .of_pair (Comment.read_closing r) (fun c => [comment c]) .data
  | none =>
    dsimp only [Option.map_none]
    rw [afterIgnoringCase?_closing (by decide)]
    cases Text.afterIgnoringCase? "doctype".toList s with
    | some r => exact .of_pair (Doctype.read_closing r) (fun d => [doctype d]) .data
    | none =>
      dsimp only [Option.map_none]
      have hother := Spare.of_pair (Comment.readOther_closing s) (fun c => [comment c]) .data
      cases sections with
      | false => exact hother
      | true =>
        simp only [if_true]
        rw [after?_closing (by decide)]
        cases Text.after? "[CDATA[".toList s with
        | none => exact hother
        | some r =>
          dsimp only [Option.map_some]
          rw [cut?_closing (by decide) (by decide) (by decide)]
          cases Text.cut? "]]>".toList r with
          | some p => exact .inr rfl
          | none => exact .inl rfl

theorem readEnd_closing (s : Text) : Spare (readEnd (s ++ closing)) (readEnd s) := by
  cases s with
  | nil => exact .inl rfl
  | cons c r =>
    by_cases hend : c = '>'
    · subst hend
      exact .inr rfl
    have hother (t : Text) : readEnd (c :: t) =
        if c.isAlpha then
          match Tag.read? (c :: t) with
          | some (tag, rest) => ⟨[finish tag.name], rest, .data⟩
          | none => ⟨[], [], .data⟩
        else
          let (contents, rest) := Comment.readOther (c :: t)
          ⟨[comment contents], rest, .data⟩ := readEnd.eq_3 c t fun h => hend h
    rw [List.cons_append, hother, hother, ← List.cons_append]
    split
    · exact .of_tag (finish ·.name) (c :: r)
    · exact .of_pair (Comment.readOther_closing (c :: r)) (fun c => [comment c]) .data

theorem readMarkup_closing (sections : Bool) (s : Text) :
    Spare (readMarkup sections (s ++ closing)) (readMarkup sections s) := by
  cases s with
  | nil => exact .inr rfl
  | cons c r =>
    by_cases hdeclaration : c = '!'
    · subst hdeclaration
      exact readDeclaration_closing sections r
    by_cases hend : c = '/'
    · subst hend
      exact readEnd_closing r
    by_cases hinstruction : c = '?'
    · subst hinstruction
      exact .of_pair (Comment.readOther_closing ('?' :: r)) (fun c => [comment c]) .data
    have hother (t : Text) : readMarkup sections (c :: t) =
        if c.isAlpha then
          match Tag.read? (c :: t) with
          | some (tag, rest) => ⟨[start tag], rest, .data⟩
          | none => ⟨[], [], .data⟩
        else ⟨[text ['<']], c :: t, .data⟩ := by
      rw [readMarkup.eq_4]
      · rfl
      · exact fun r heq => hdeclaration (List.cons.inj heq).1
      · exact fun r heq => hend (List.cons.inj heq).1
      · exact fun r heq => hinstruction (List.cons.inj heq).1
    rw [List.cons_append, hother, hother, ← List.cons_append]
    split
    · exact .of_tag start (c :: r)
    · exact .inr rfl

theorem readData_closing (sections : Bool) {s : Text} (hs : s ≠ []) :
    Spare (readData sections (s ++ closing)) (readData sections s) := by
  obtain ⟨c, r, rfl⟩ := List.exists_cons_of_ne_nil hs
  by_cases hmarkup : c = '<'
  · subst hmarkup
    exact readMarkup_closing sections r
  by_cases hnull : c = '\x00'
  · subst hnull
    exact .inr rfl
  have hother (t : Text) : readData sections (c :: t) =
      ⟨ofEscaped ((c :: t).span fun c => c ≠ '<' && c ≠ '\x00').1,
        ((c :: t).span fun c => c ≠ '<' && c ≠ '\x00').2, .data⟩ := by
    rw [readData.eq_3]
    · exact fun r heq => hmarkup (List.cons.inj heq).1
    · exact fun r heq => hnull (List.cons.inj heq).1
  rw [List.cons_append, hother, hother, ← List.cons_append]
  rw [span_closing (by decide)]
  exact .inr rfl

/-- Raw text before an end tag is the same with the other tag behind it. -/
theorem readRaw_closing (content : Content) {whole part : Nat} (tokens : Text → List Token)
    {s : Text} (h : RawText.SparesLength whole part s)
    (hstart : part = 0 → s ≠ [] → 2 ≤ s.length) :
    Spare (readRaw content whole tokens (s ++ closing)) (readRaw content part tokens s) := by
  rcases h with rfl | ⟨rfl, hpart⟩
  · have hpos : s.length + closing.length ≠ 0 := Nat.succ_ne_zero _
    rw [readRaw, if_neg hpos]
    refine .inl (List.drop_eq_nil_of_le ?_)
    rw [List.length_append]
  · rw [readRaw, readRaw]
    split
    next hzero =>
      have hlength := hstart hzero (List.ne_nil_of_length_pos (hzero ▸ hpart))
      rw [readRawEnd, readRawEnd, List.drop_append_of_le_length hlength]
      exact .of_tag (finish ·.name) (s.drop 2)
    · rw [List.take_append_of_le_length hpart.le, List.drop_append_of_le_length hpart.le]
      exact .inr rfl

theorem dropByteOrderMark_closing (s : Text) :
    dropByteOrderMark (s ++ closing) = dropByteOrderMark s ++ closing := by
  cases s with
  | nil => decide
  | cons c s =>
    rw [List.cons_append, dropByteOrderMark, dropByteOrderMark]
    split <;> rfl

theorem two_le_of_startsEnd (name : Text) {s : Text} {n : Nat}
    (h : ∀ c r, s = c :: r → RawText.startsEnd name (c :: r) = false → n ≠ 0) (hn : n = 0)
    (hs : s ≠ []) : 2 ≤ s.length := by
  obtain ⟨c, r, rfl⟩ := List.exists_cons_of_ne_nil hs
  have hstart : RawText.startsEnd name (c :: r) = true := by
    rw [← Bool.not_eq_false]
    exact fun hstart => h c r rfl hstart hn
  have hlength := RawText.length_le_of_startsEnd hstart
  rw [List.length_cons]
  omega

theorem readScript_closing (s : Text) : Spare (readScript (s ++ closing)) (readScript s) := by
  have hlength := RawText.scriptLength_closing 0 .plain (Nat.zero_le s.length)
  have hraw := readRaw_closing .script (fun t => [text t.withoutNull]) hlength fun hzero hs => by
    refine two_le_of_startsEnd RawText.scriptName (fun c r hcons hstart => ?_) hzero hs
    rw [hcons, RawText.scriptLength, hstart]
    simp only [Bool.false_eq_true, if_false]
    split <;> exact Nat.succ_ne_zero _
  rw [readScript, readScript]
  rcases hlength with hlength | ⟨hlength, -⟩
  · have hpos : s.length + closing.length ≠ 0 := Nat.succ_ne_zero _
    rw [hlength] at hraw ⊢
    rw [if_neg hpos]
    refine .inl ?_
    rw [readRaw, if_neg hpos]
    exact List.drop_eq_nil_of_le (by rw [List.length_append])
  · rw [hlength] at hraw ⊢
    split
    · rcases hraw with hraw | hraw
      · exact .inl (by rw [hraw]; rfl)
      · refine .inr ?_
        rw [hraw]
        exact congrArg (Reading.mk _ · _) (dropByteOrderMark_closing _)
    · exact hraw

/-- **A reading takes the end tag too, or it is that of the text before the tag.** -/
theorem read_closing {content : Content} (hcontent : content.Passes) (sections : Bool) {s : Text}
    (hs : s ≠ []) : Spare (read content sections (s ++ closing)) (read content sections s) := by
  have hraw (name : String) (hzero : RawText.length name.toList s = 0) (hs : s ≠ []) :
      2 ≤ s.length := by
    refine two_le_of_startsEnd name.toList (fun c r hcons hstart => ?_) hzero hs
    rw [hcons, RawText.length, hstart]
    exact Nat.succ_ne_zero _
  cases content with
  | data => exact readData_closing sections hs
  | escapable name =>
    exact readRaw_closing _ _ (RawText.length_closing hcontent.1 hcontent.2 s) (hraw name)
  | raw name =>
    exact readRaw_closing _ _ (RawText.length_closing hcontent.1 hcontent.2 s) (hraw name)
  | script => exact readScript_closing s
  | plain => exact .inl rfl

end Token

end TerseMarkup.Html
