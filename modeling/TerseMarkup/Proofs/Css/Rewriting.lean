import TerseMarkup.Css.Selector
import TerseMarkup.Proofs.Css.Lexeme.Recoding
import TerseMarkup.Proofs.Css.Lexeme.Usual
import TerseMarkup.Proofs.Css.Nesting
import TerseMarkup.Proofs.Css.Codes

/-! Selectors printed with codes, and read again.

A part that got a code prints it in the place of its name, between lexemes that print as they were
read. So there are components with the same shape as the ones read, whose names are the codes
(`Part.refill`); their lexemes stand, and reading what they print finds them again. All of it rests
on `AllApart`: there are two marks that a code can make together with what is printed around it, and
then another selector is read (`parse_text_merged`). -/
namespace TerseMarkup.Css
open Lexeme (Recoded)

/-! ### Lexemes for codes -/

/-- The lexemes with codes in the place of names, whatever they stand behind. -/
def Recodes (ls ls' : List Lexeme) : Prop := ∀ before, Recoded before ls ls'

theorem Recodes.append (kept : List Lexeme) {ls ls' : List Lexeme} (h : Recodes ls ls') :
    Recodes (kept ++ ls) (kept ++ ls') := fun _ => .append kept (h _)

theorem textOf_map_plain (ls : List Lexeme) :
    Component.textOf (ls.map .plain) = ls.flatMap Lexeme.text := by
  induction ls with
  | nil => rfl
  | cons l ls ih => simp [Component.textOf, Component.text, ih]

theorem head?_append_ne {a b : Text} {c : Char} (ha : a.head? ≠ some c) (hb : b.head? ≠ some c) :
    (a ++ b).head? ≠ some c := by
  cases a with
  | nil => exact hb
  | cons d a => exact ha

/-- A bracket before the head is no part of a mark. -/
theorem isSuffix_of_square {before head : Text} (h : ['<', '!'] <:+ before ++ '[' :: head) :
    ['<', '!'] <:+ head := by
  have hsquare : '[' :: head <:+ before ++ '[' :: head := List.suffix_append ..
  obtain h | h := List.suffix_or_suffix_of_suffix h hsquare
  · obtain h | h := List.suffix_cons_iff.mp h
    · exact absurd (List.cons.inj h).1 (by decide)
    · exact h
  · exact absurd (h.subset (List.mem_cons_self ..)) (by decide)

/-- The token that reads as a value. -/
def AttributeValue.token (value : Text) (quoted : Bool) : Token :=
  if quoted then .string value else .ident value

/-- A value's lexeme is exchanged for its code. -/
theorem AttributeValue.refill {l : Lexeme} {v : AttributeValue} (hsource : v.source = l.text)
    (htoken : l.token = token v.value v.quoted) (hwritable : ∀ code ∈ v.code, Writable code) :
    ∃ l' : Lexeme, l'.token = token (v.code.getD v.value) v.quoted ∧ l'.text = v.text ∧
      ∀ {before : Text} {ls ls' : List Lexeme},
        (v.quoted = false → ∀ code ∈ v.code,
          (code = ['-', '-'] → (ls'.flatMap Lexeme.text).head? ≠ some '>') ∧
            (['-', '-'] <+: code → ¬ ['<', '!'] <:+ before)) →
        Recodes ls ls' → Recoded before (l :: ls) (l' :: ls') := by
  obtain ⟨source, value, quoted, code⟩ := v
  cases code with
  | none => exact ⟨l, htoken, hsource.symm, fun _ h => .keep l (h _)⟩
  | some code =>
    obtain ⟨hne, hnull⟩ := hwritable code rfl
    cases quoted with
    | false =>
      exact ⟨⟨.ident code, writeIdent code⟩, rfl, rfl, fun hapart h =>
        .ident htoken hne hnull (hapart rfl code rfl).1 (hapart rfl code rfl).2 (h _)⟩
    | true =>
      exact ⟨⟨.string code, writeString code⟩, rfl, rfl, fun _ h => .string htoken hnull (h _)⟩

namespace AttributeTest

/-- A lexeme is the value, or it goes to the head. -/
theorem readFrom_plain (a : AttributeTest) (operator : Bool) (l : Lexeme) :
    (∃ value quoted, l.token = AttributeValue.token value quoted ∧ operator = true) ∨
      ∃ name operator', ∀ rest, readFrom a operator [] (.plain l :: rest) =
        readFrom { a with name, head := a.head ++ l.text } operator' [] rest := by
  by_cases hident : ∃ v, l.token = .ident v
  · obtain ⟨v, hv⟩ := hident
    cases operator with
    | true => exact .inl ⟨v, false, hv, rfl⟩
    | false => exact .inr ⟨some v, false, fun rest => by simp [readFrom, hv]⟩
  by_cases hstring : ∃ v, l.token = .string v
  · obtain ⟨v, hv⟩ := hstring
    cases operator with
    | true => exact .inl ⟨v, true, hv, rfl⟩
    | false => exact .inr ⟨a.name, false, fun rest => by simp [readFrom, hv]⟩
  refine .inr ⟨a.name, operator || isOperator l.token, fun rest => ?_⟩
  rw [readFrom]
  split
  · exact absurd ⟨_, ‹_›⟩ hident
  · exact absurd ⟨_, ‹_›⟩ hstring
  · simp

theorem readFrom_value (a : AttributeTest) {l : Lexeme} {value : Text} {quoted : Bool}
    (h : l.token = AttributeValue.token value quoted) (rest : List Component) :
    readFrom a true [] (.plain l :: rest) =
      { a with
        value := some { source := l.text, value, quoted }, tail := Component.textOf rest } := by
  cases quoted <;> simp [readFrom, h, AttributeValue.token, withTail]

/-- The value's lexeme is exchanged for its code, and nothing else changes. -/
theorem refill (a : AttributeTest) (operator : Bool) (ls : List Lexeme) (hvalue : a.value = none)
    (htail : a.tail = []) {filled : AttributeTest}
    (hblank : filled.blank = readFrom a operator [] (ls.map .plain))
    (hwritable : filled.EachCode Writable) (hapart : filled.Apart) :
    ∃ ls', readFrom a operator [] (ls'.map .plain) = filled.settled ∧
      a.head ++ ls'.flatMap Lexeme.text =
        filled.head ++ (filled.value.map AttributeValue.text).getD [] ++ filled.tail ∧
      (∀ b, Component.FitAll b (ls.map .plain) → Component.FitAll b (ls'.map .plain)) ∧
      ∀ before after after', (after'.flatMap Lexeme.text).head? ≠ some '>' →
        Recodes after after' →
        Recoded (before ++ '[' :: a.head) (ls ++ after) (ls' ++ after') := by
  induction ls generalizing a operator with
  | nil =>
    obtain ⟨name, head, value, tail⟩ := filled
    obtain ⟨name', head', value', tail'⟩ := a
    simp only at hvalue htail
    subst hvalue htail
    simp only [blank, List.map_nil, readFrom, List.append_nil, mk.injEq, Option.map_eq_none_iff]
      at hblank
    obtain ⟨rfl, rfl, rfl, rfl⟩ := hblank
    exact ⟨[], by simp [readFrom, settled], by simp, fun b h => h, fun _ _ _ _ h => h _⟩
  | cons l ls ih =>
    obtain ⟨value, quoted, htoken, rfl⟩ | ⟨name, operator', hskip⟩ := readFrom_plain a operator l
    · obtain ⟨name, head, v, tail⟩ := filled
      rw [List.map_cons, readFrom_value a htoken] at hblank
      simp only [blank, mk.injEq, Option.map_eq_some_iff] at hblank
      obtain ⟨rfl, rfl, ⟨v, rfl, hv⟩, rfl⟩ := hblank
      obtain ⟨source, value', quoted', code⟩ := v
      simp only [AttributeValue.blank, AttributeValue.mk.injEq] at hv
      obtain ⟨rfl, rfl, rfl, -⟩ := hv
      obtain ⟨l', htoken', htext, hrecoded⟩ :=
        AttributeValue.refill (l := l) rfl htoken (hwritable _ rfl)
      refine ⟨l' :: ls, ?_, ?_, fun b h => ?_, fun before after after' hafter h => ?_⟩
      · rw [List.map_cons, readFrom_value a htoken']
        simp [settled, AttributeValue.settled, htext]
      · simp [htext, textOf_map_plain]
      · have hfits : (Component.plain l').Fits b := by
          rw [Component.Fits, htoken']
          cases quoted' <;> simp [AttributeValue.token, Token.opens?]
        exact ⟨hfits, h.2⟩
      · refine hrecoded (fun hquoted code hcode => ?_) (h.append ls)
        obtain ⟨hclose, hopen⟩ := hapart _ rfl hquoted code hcode
        refine ⟨fun hcode => ?_, fun hcode hbefore => hopen hcode (isSuffix_of_square hbefore)⟩
        show ((ls ++ after').flatMap Lexeme.text).head? ≠ some '>'
        rw [List.flatMap_append, ← textOf_map_plain]
        exact head?_append_ne (hclose hcode) hafter
    · rw [List.map_cons, hskip] at hblank
      obtain ⟨ls', hread, htext, hfits, hrecoded⟩ :=
        ih { a with name, head := a.head ++ l.text } operator' hvalue htail hblank
      refine ⟨l :: ls', ?_, ?_, fun b h => ⟨h.1, hfits b h.2⟩,
        fun before after after' hafter h => ?_⟩
      · rw [List.map_cons, hskip, hread]
      · rw [← htext]
        simp
      · refine .keep l ?_
        have := hrecoded before after after' hafter h
        simpa using this

end AttributeTest

/-! ### Components for codes -/

theorem Component.lexemesOf_map_plain (ls : List Lexeme) : lexemesOf (ls.map .plain) = ls := by
  induction ls with
  | nil => rfl
  | cons l ls ih => simp [lexemesOf, lexemes, ih]

theorem Component.lexemesOf_block (opener : Lexeme) (bracket : Bracket) (inside : List Component)
    (closer : Lexeme) (rest : List Component) (after : List Lexeme) :
    lexemesOf (.block opener bracket inside (some closer) :: rest) ++ after =
      opener :: (lexemesOf inside ++ ([closer] ++ (lexemesOf rest ++ after))) := by
  simp [lexemesOf, lexemes]

theorem Component.exists_map_plain {cs : List Component} (h : ∀ c ∈ cs, ∃ l, c = plain l) :
    ∃ ls : List Lexeme, cs = ls.map .plain := by
  induction cs with
  | nil => exact ⟨[], rfl⟩
  | cons c cs ih =>
    obtain ⟨l, rfl⟩ := h c (List.mem_cons_self ..)
    obtain ⟨ls, rfl⟩ := ih fun c' hc' => h c' (List.mem_cons_of_mem _ hc')
    exact ⟨l :: ls, rfl⟩

namespace Part

theorem blankAll_eq_cons {ps : List Part} {p : Part} {rest : List Part}
    (h : blankAll ps = p :: rest) : ∃ q qs, ps = q :: qs ∧ q.blank = p ∧ blankAll qs = rest := by
  cases ps with
  | nil => simp [blankAll] at h
  | cons q qs => exact ⟨q, qs, rfl, List.cons.inj h⟩

/-- Whether components start with an identifier. A dot before them makes it a class name. -/
def StartsIdent : List Component → Prop
  | .plain ⟨.ident _, _⟩ :: _ => True
  | _ => False

theorem StartsIdent.exists_cons {cs : List Component} (h : StartsIdent cs) :
    ∃ value source more, cs = .plain ⟨.ident value, source⟩ :: more := by
  unfold StartsIdent at h
  split at h
  · exact ⟨_, _, _, rfl⟩
  · exact h.elim

theorem startsIdent_plain {l : Lexeme} {rest : List Component} :
    StartsIdent (.plain l :: rest) ↔ ∃ name, l.token = .ident name := by
  obtain ⟨token, text⟩ := l
  cases token <;> simp [StartsIdent]

/-- The part that a single lexeme makes. -/
def ofLexeme (pseudo : Bool) (l : Lexeme) : Part :=
  match l.token with
  | .ident _ => if pseudo then other l.text else tag l.text
  | .idHash value => id { source := l.text, value }
  | _ => other l.text

theorem ofLexeme_cases (pseudo : Bool) (l : Lexeme) :
    (∃ value, l.token = .idHash value ∧ ofLexeme pseudo l = id { source := l.text, value }) ∨
      ofLexeme pseudo l = tag l.text ∨ ofLexeme pseudo l = other l.text := by
  unfold ofLexeme
  split
  · cases pseudo <;> simp
  · next value htoken => exact .inl ⟨value, htoken, rfl⟩
  · exact .inr (.inr rfl)

theorem readFrom_plain {l : Lexeme} {rest : List Component}
    (h : l.token = .delim '.' → ¬ StartsIdent rest) (pseudo : Bool) :
    readFrom pseudo [] (.plain l :: rest) =
      ofLexeme pseudo l :: readFrom (l.token == .colon) [] rest := by
  rw [readFrom.eq_6]
  · rfl
  · rintro dot value source more rfl rfl
    exact h rfl trivial

/-- `cs'` are the components `cs` with the codes of `filled`. -/
structure Refills (bracket : Option Bracket) (pseudo : Bool) (cs : List Component)
    (filled : List Part) (cs' : List Component) : Prop where
  read : readFrom pseudo [] cs' = settledAll filled
  text : Component.textOf cs' = textOf filled
  fits : Component.FitAll bracket cs'
  whole : Component.WholeAll cs'
  startsIdent : StartsIdent cs' → StartsIdent cs
  recodes : ∀ after after', (after'.flatMap Lexeme.text).head? ≠ some '>' →
    Recodes after after' →
    Recodes (Component.lexemesOf cs ++ after) (Component.lexemesOf cs' ++ after')

namespace Refills

variable {bracket : Option Bracket} {pseudo : Bool} {rest rest' : List Component}
  {filled : List Part}

theorem square {opener closer : Lexeme} {inside : List Component}
    (hfits : (Component.block opener .square inside (some closer)).Fits bracket)
    (hplain : ∀ c ∈ inside, ∃ l, c = .plain l) (hopener : opener.Usual) (hcloser : closer.Usual)
    {a : AttributeTest} (hblank : a.blank = AttributeTest.read inside)
    (hwritable : a.EachCode Writable) (hapart : a.Apart)
    (h : Refills bracket false rest filled rest') :
    ∃ cs', Refills bracket pseudo (.block opener .square inside (some closer) :: rest)
      (attributeTest a :: filled) cs' := by
  obtain ⟨ls, rfl⟩ := Component.exists_map_plain hplain
  obtain ⟨hopens, hinside, hcloses⟩ := hfits
  obtain ⟨ls', hread, htext, hfits, hrecoded⟩ :=
    AttributeTest.refill {} false ls rfl rfl hblank hwritable hapart
  have hopened : opener.text = ['['] := hopener.openSquare (Token.eq_opening hopens (by decide))
  have hclosed : closer.text = [']'] := hcloser.closeSquare (hcloses _ rfl)
  refine ⟨.block opener .square (ls'.map .plain) (some closer) :: rest', ?_, ?_, ?_, ?_, ?_, ?_⟩
  · simp [readFrom, AttributeTest.read, hread, h.read, settledAll, settled]
  · rw [List.nil_append] at htext
    simp [Component.textOf, Component.text, Part.text, Part.textOf, AttributeTest.text,
      textOf_map_plain, hopened, hclosed, htext, h.text]
  · exact ⟨⟨hopens, hfits _ hinside, hcloses⟩, h.fits⟩
  · exact ⟨⟨rfl, by simp⟩, h.whole⟩
  · exact fun h => h
  · intro after after' hafter hrecodes before
    have hrest := (h.recodes after after' hafter hrecodes).append [closer]
    have hinner := hrecoded before _ _ (by simp [hclosed]) hrest
    rw [Component.lexemesOf_block, Component.lexemesOf_block, Component.lexemesOf_map_plain,
      Component.lexemesOf_map_plain]
    exact .keep opener (hopened ▸ hinner)

theorem paren {opener closer : Lexeme} {inside inside' : List Component}
    (hfits : (Component.block opener .paren inside (some closer)).Fits bracket)
    (hcloser : closer.Usual) {parts : List Part}
    (hinside : Refills (some .paren) false inside parts inside')
    (h : Refills bracket false rest filled rest') :
    Refills bracket pseudo (.block opener .paren inside (some closer) :: rest)
      (function opener.text parts :: filled)
      (.block opener .paren inside' (some closer) :: rest') := by
  have hclosed : closer.text = [')'] := hcloser.closeParen (hfits.2.2 _ rfl)
  refine ⟨?_, ?_, ⟨⟨hfits.1, hinside.fits, hfits.2.2⟩, h.fits⟩, ⟨⟨rfl, hinside.whole⟩, h.whole⟩,
    fun h => h, ?_⟩
  · simp [readFrom, hinside.read, h.read, settledAll, settled]
  · simp [Component.textOf, Component.text, Part.text, Part.textOf, hclosed, hinside.text, h.text]
  · intro after after' hafter hrecodes
    have hrest := (h.recodes after after' hafter hrecodes).append [closer]
    rw [Component.lexemesOf_block, Component.lexemesOf_block]
    exact (hinside.recodes _ _ (by simp [hclosed]) hrest).append [opener]

theorem className {dot : Lexeme} {name : Lexeme} (hdot : dot.token = .delim '.')
    (husual : dot.Usual) {n : Name} (hsource : n.source = '.' :: name.text)
    (hname : name.token = .ident n.value) (hwritable : ∀ code ∈ n.code, Writable code)
    (hapart : (Part.className n).Apart (textOf filled))
    (h : Refills bracket false rest filled rest') :
    ∃ cs', Refills bracket pseudo (.plain dot :: .plain name :: rest)
      (.className n :: filled) cs' := by
  obtain ⟨token, text⟩ := dot
  obtain rfl : token = .delim '.' := hdot
  obtain rfl : text = ['.'] := husual.delim '.' rfl
  obtain ⟨l', htoken, htext, hrecoded⟩ := AttributeValue.refill
    (v := { source := name.text, value := n.value, quoted := false, code := n.code })
    rfl hname hwritable
  obtain ⟨token, source⟩ := l'
  obtain rfl : token = .ident (n.code.getD n.value) := htoken
  have hspelled : '.' :: source = n.text '.' := by
    obtain ⟨_, _, code⟩ := n
    obtain rfl : source = _ := htext
    cases code with
    | none => exact hsource.symm
    | some code => rfl
  refine ⟨.plain ⟨.delim '.', ['.']⟩ :: .plain ⟨.ident (n.code.getD n.value), source⟩ :: rest',
    ?_, ?_, ?_, ?_, ?_, ?_⟩
  · simp [readFrom, h.read, settledAll, settled, Name.settled, hspelled]
  · simp [Component.textOf, Component.text, Part.text, Part.textOf, h.text, ← hspelled]
  · exact ⟨⟨rfl, by simp⟩, ⟨rfl, by simp⟩, h.fits⟩
  · exact ⟨trivial, trivial, h.whole⟩
  · exact fun h => h
  · intro after after' hafter hrecodes before
    refine .keep _ (hrecoded (fun _ code hcode => ⟨?_, ?_⟩)
      (h.recodes after after' hafter hrecodes))
    · intro hhyphens
      show ((Component.lexemesOf rest' ++ after').flatMap Lexeme.text).head? ≠ some '>'
      rw [List.flatMap_append, Component.flatMap_text_lexemesOf, h.text]
      exact head?_append_ne (hapart (hhyphens ▸ hcode)) hafter
    · rintro - ⟨u, hu⟩
      simpa using congrArg List.getLast? hu

theorem id {l : Lexeme} {n : Name} (hl : l.token = .idHash n.value) (hsource : n.source = l.text)
    (hwritable : ∀ code ∈ n.code, Writable code) (h : Refills bracket false rest filled rest') :
    ∃ cs', Refills bracket pseudo (.plain l :: rest) (.id n :: filled) cs' := by
  obtain ⟨l', htoken, htext, hrecoded⟩ : ∃ l' : Lexeme,
      l'.token = .idHash (n.code.getD n.value) ∧ l'.text = n.text '#' ∧
        ∀ {before : Text} {ls ls' : List Lexeme}, Recodes ls ls' →
          Recoded before (l :: ls) (l' :: ls') := by
    obtain ⟨source, value, code⟩ := n
    cases code with
    | none => exact ⟨l, hl, hsource.symm, fun h => .keep l (h _)⟩
    | some code =>
      obtain ⟨hne, hnull⟩ := hwritable code rfl
      exact ⟨⟨.idHash code, '#' :: writeIdent code⟩, rfl, rfl, fun h =>
        .idHash hl hne hnull (h _)⟩
  refine ⟨.plain l' :: rest', ?_, ?_, ⟨?_, h.fits⟩, ⟨trivial, h.whole⟩, ?_, ?_⟩
  · have hread : readFrom (l'.token == .colon) [] rest' = settledAll filled := by
      rw [← h.read, htoken]
      rfl
    rw [readFrom_plain (by simp [htoken]), hread]
    simp [ofLexeme, htoken, htext, settledAll, settled, Name.settled]
  · simp [Component.textOf, Component.text, Part.text, Part.textOf, htext, h.text]
  · simp [Component.Fits, htoken, Token.opens?]
  · simp [startsIdent_plain, htoken]
  · exact fun after after' hafter hrecodes _ => hrecoded (h.recodes after after' hafter hrecodes)

/-- A lexeme without a name stays as it is. -/
theorem kept {l : Lexeme} (hfits : (Component.plain l).Fits bracket)
    (hdot : l.token = .delim '.' → ¬ StartsIdent rest)
    (hsettled : (ofLexeme pseudo l).settled = ofLexeme pseudo l)
    (htext : (ofLexeme pseudo l).text = l.text)
    (h : Refills bracket (l.token == .colon) rest filled rest') :
    Refills bracket pseudo (.plain l :: rest) (ofLexeme pseudo l :: filled)
      (.plain l :: rest') := by
  refine ⟨?_, ?_, ⟨hfits, h.fits⟩, ⟨trivial, h.whole⟩,
    fun h => startsIdent_plain.mpr (startsIdent_plain.mp h), ?_⟩
  · rw [readFrom_plain fun htoken hstart => hdot htoken (h.startsIdent hstart), h.read, settledAll,
      hsettled]
  · rw [Component.textOf, Component.text, h.text, Part.textOf, htext]
  · exact fun after after' hafter hrecodes => (h.recodes after after' hafter hrecodes).append [l]

end Refills

/-- **Every code goes where a name was**: whatever codes are put into the parts of some components,
there are components that they are the parts of. -/
theorem refill {pseudo : Bool} {pending : Text} (cs : List Component) (hpending : pending = [])
    {bracket : Option Bracket} (hfits : Component.FitAll bracket cs)
    (hwhole : Component.WholeAll cs) (husual : ∀ l ∈ Component.lexemesOf cs, l.Usual)
    {filled : List Part} (hblank : blankAll filled = readFrom pseudo pending cs)
    (hwritable : EachCodeOf Writable filled) (hapart : AllApart filled) :
    ∃ cs', Refills bracket pseudo cs filled cs' := by
  fun_induction readFrom pseudo pending cs generalizing bracket filled with
  | case1 pseudo pending =>
    cases filled with
    | nil =>
      exact ⟨[], by simp [readFrom, settledAll], rfl, trivial, trivial, fun h => h,
        fun after after' _ h => h⟩
    | cons p ps => simp [blankAll] at hblank
  | case2 => exact absurd hwhole.1 (by simp [Component.Whole])
  | case3 pseudo pending opener inside closer rest ih =>
    obtain ⟨p, filled, rfl, hp, hmore⟩ := blankAll_eq_cons hblank
    obtain ⟨closer, rfl⟩ := Option.isSome_iff_exists.mp hwhole.1.1
    cases p <;> simp only [blank, attributeTest.injEq, reduceCtorEq] at hp
    obtain ⟨hopener, -, hcloser, husual⟩ := Component.forall_lexemesOf_block.mp husual
    obtain ⟨rest', hrest⟩ := ih rfl hfits.2 hwhole.2 husual hmore hwritable.2 hapart.2
    exact hrest.square hfits.1 hwhole.1.2 hopener (hcloser _ rfl) hp hwritable.1 hapart.1
  | case4 pseudo pending opener inside closer rest ihinside ih =>
    obtain ⟨p, filled, rfl, hp, hmore⟩ := blankAll_eq_cons hblank
    obtain ⟨closer, rfl⟩ := Option.isSome_iff_exists.mp hwhole.1.1
    cases p <;> simp only [blank, function.injEq, reduceCtorEq] at hp
    obtain ⟨rfl, hinside⟩ := hp
    obtain ⟨-, husualInside, hcloser, husual⟩ := Component.forall_lexemesOf_block.mp husual
    obtain ⟨rest', hrest⟩ := ih rfl hfits.2 hwhole.2 husual hmore hwritable.2 hapart.2
    obtain ⟨inside', hparts⟩ :=
      ihinside rfl hfits.1.2.1 hwhole.1.2 husualInside hinside hwritable.1 hapart.1
    subst hpending
    exact ⟨_, hparts.paren hfits.1 (hcloser _ rfl) hrest⟩
  | case5 pseudo pending dot value source rest ih =>
    obtain ⟨p, filled, rfl, hp, hmore⟩ := blankAll_eq_cons hblank
    cases p <;> simp only [blank, className.injEq, reduceCtorEq] at hp
    obtain ⟨hdot, husual⟩ := List.forall_mem_cons.mp husual
    obtain ⟨rest', hrest⟩ := ih rfl hfits.2.2 hwhole.2.2 (List.forall_mem_cons.mp husual).2 hmore
      hwritable.2 hapart.2
    obtain rfl : dot = ['.'] := hdot.delim '.' rfl
    subst hpending
    refine hrest.className rfl hdot (congrArg Name.source hp) ?_ hwritable.1 hapart.1
    exact congrArg Token.ident (congrArg Name.value hp).symm
  | case6 pseudo pending l rest hclass source part =>
    rename_i ih
    subst hpending
    have hdot (htoken : l.token = .delim '.') : ¬ StartsIdent rest := fun hstart => by
      obtain ⟨token, text⟩ := l
      obtain ⟨value, source, more, rfl⟩ := hstart.exists_cons
      exact hclass text value source more rfl (by rw [← htoken])
    obtain ⟨p, filled, rfl, hp, hmore⟩ := blankAll_eq_cons (p := ofLexeme pseudo l) hblank
    obtain ⟨-, husual⟩ := List.forall_mem_cons.mp husual
    obtain ⟨rest', hrest⟩ := ih rfl hfits.2 hwhole.2 husual hmore hwritable.2 hapart.2
    obtain ⟨value, htoken, hpart⟩ | hpart | hpart := ofLexeme_cases pseudo l
    · rw [hpart] at hp
      cases p <;> simp only [blank, Part.id.injEq, reduceCtorEq] at hp
      rw [htoken] at hrest
      refine hrest.id ?_ (congrArg Name.source hp) hwritable.1
      rw [htoken]
      exact congrArg Token.idHash (congrArg Name.value hp).symm
    all_goals
      obtain rfl : p = ofLexeme pseudo l := by
        rw [hpart] at hp ⊢
        cases p <;> simp only [blank, reduceCtorEq] at hp
        exact hp
      exact ⟨_, hrest.kept hfits.1 hdot (by rw [hpart, settled]) (by rw [hpart, text])⟩

end Part

namespace Selector

/-- A selector with codes is read as it is meant, whatever the codes are. -/
theorem parse_text_of_blankAll {s : Text} {selector : Selector}
    (hblank : Part.blankAll selector = parse s) (hwhole : Component.WholeAll (Component.read s))
    (hwritable : Part.EachCodeOf Writable selector) (hapart : Part.AllApart selector) :
    parse selector.text = Part.settledAll selector := by
  have hlexemes := Component.lexemesOf_read s
  have hstanding : Lexeme.Standing (Component.lexemesOf (Component.read s)) :=
    hlexemes ▸ Lexeme.standing_scan s
  obtain ⟨cs', h⟩ := Part.refill _ rfl (Component.fitAll_read s) hwhole hstanding.usual hblank
    hwritable hapart
  have hrecoded := h.recodes [] [] (by simp) fun _ => .nil _
  rw [List.append_nil, List.append_nil] at hrecoded
  have hscan := Lexeme.scan_flatMap_text ((hrecoded []).standing hstanding)
  rw [Component.flatMap_text_lexemesOf, h.text] at hscan
  rw [parse, Component.read, text, hscan, Component.ofLexemes_lexemesOf h.fits
    (Component.WholeAll.closed _ h.whole), h.read]

/-- **A renamed selector means what was asked for.** Renaming changes nothing but codes, the codes
are the answers to its names, and what it prints reads as the same selector, each name that got a
code valued as the code. -/
theorem parse_text_rename {σ : Type} {f : Renaming σ} (hf : Gives f Writable) (st : σ) {s : Text}
    (hwhole : Component.WholeAll (Component.read s))
    (hapart : Part.AllApart (((parse s).rename f).run st).1) :
    let renamed := (((parse s).rename f).run st).1
    Part.blankAll renamed = parse s ∧
      Part.codesAll renamed = answers f (Part.mentionsAll (parse s)) st ∧
      parse (text renamed) = Part.settledAll renamed := by
  intro renamed
  have hrenamed := Part.renamedAll_renameAll hf st (parse s)
  have hread : Part.blankAll (parse s) = parse s := Part.blankAll_readFrom ..
  have hblank : Part.blankAll renamed = parse s := hrenamed.blank.trans hread
  have hwritable : Part.EachCodeOf Writable renamed :=
    hrenamed.eachCode (hread ▸ Part.eachCodeOf_blankAll Writable (parse s))
  exact ⟨hblank, hrenamed.codes, parse_text_of_blankAll hblank hwhole hwritable hapart⟩

/-- In `a.x>[FOR="y"]:not(#z)`, each name becomes a digit and a quote. -/
theorem parse_text_rename_digit :
    let f : Renaming Unit := fun _ _ => pure (some ['1', '"'])
    let s := "a.x>[FOR=\"y\"]:not(#z)".toList
    let renamed := (((parse s).rename f).run ()).1
    Gives f Writable ∧ Component.WholeAll (Component.read s) ∧ Part.AllApart renamed ∧
      text renamed = "a.\\31 \\\">[FOR=\"1\\\"\"]:not(#\\31 \\\")".toList ∧
      parse (text renamed) = Part.settledAll renamed := by
  intro f s renamed
  have hread : Component.read s =
      [.plain ⟨.ident ['a'], ['a']⟩, .plain ⟨.delim '.', ['.']⟩, .plain ⟨.ident ['x'], ['x']⟩,
        .plain ⟨.delim '>', ['>']⟩,
        .block ⟨.opening .square, ['[']⟩ .square [.plain ⟨.ident "FOR".toList, "FOR".toList⟩,
          .plain ⟨.delim '=', ['=']⟩, .plain ⟨.string ['y'], ['"', 'y', '"']⟩]
          (some ⟨.closing .square, [']']⟩),
        .plain ⟨.colon, [':']⟩,
        .block ⟨.function "not".toList, "not(".toList⟩ .paren [.plain ⟨.idHash ['z'], ['#', 'z']⟩]
          (some ⟨.closing .paren, [')']⟩)] := by rfl
  have hf : Gives f Writable := by
    rintro k name st code ⟨⟩
    simp [Writable]
  have hparse : parse s =
      [.tag ['a'], .className { source := ['.', 'x'], value := ['x'] }, .other ['>'],
        .attributeTest
          { name := some "FOR".toList, head := "FOR=".toList,
            value := some { source := ['"', 'y', '"'], value := ['y'], quoted := true } },
        .other [':'], .function "not(".toList [.id { source := ['#', 'z'], value := ['z'] }]] := by
    rw [parse, hread]
    simp [Part.readFrom, AttributeTest.read, AttributeTest.readFrom, AttributeTest.isOperator,
      AttributeTest.withTail, Component.textOf]
  have hrenamed : renamed =
      [.tag ['a'], .className { source := ['.', 'x'], value := ['x'], code := some ['1', '"'] },
        .other ['>'],
        .attributeTest
          { name := some "FOR".toList, head := "FOR=".toList,
            value := some
              { source := ['"', 'y', '"'], value := ['y'], quoted := true,
                code := some ['1', '"'] } },
        .other [':'], .function "not(".toList
          [.id { source := ['#', 'z'], value := ['z'], code := some ['1', '"'] }]] := by
    simp only [renamed, hparse]
    rfl
  have hwhole : Component.WholeAll (Component.read s) := by
    simp [hread, Component.WholeAll, Component.Whole]
  have hapart : Part.AllApart renamed := by
    simp [hrenamed, Part.AllApart, Part.Apart, AttributeTest.Apart]
  refine ⟨hf, hwhole, hapart, ?_, (parse_text_rename hf () hwhole hapart).2.2⟩
  rw [hrenamed]
  decide +kernel

/-- A name of two hyphens, with the bracket of a combinator behind it, is read as the mark `-->`. -/
theorem parse_text_merged :
    let f : Renaming Unit := fun _ _ => pure (some ['-', '-'])
    let s := ".\\->p".toList
    let renamed := (((parse s).rename f).run ()).1
    Gives f Writable ∧ Component.WholeAll (Component.read s) ∧ text renamed = ".-->p".toList ∧
      parse (text renamed) ≠ Part.settledAll renamed := by
  intro f s renamed
  have hread : Component.read s = [.plain ⟨.delim '.', ['.']⟩, .plain ⟨.ident ['-'], ['\\', '-']⟩,
      .plain ⟨.delim '>', ['>']⟩, .plain ⟨.ident ['p'], ['p']⟩] := by rfl
  have hparse : parse s = [.className { source := ['.', '\\', '-'], value := ['-'] },
      .other ['>'], .tag ['p']] := by simp [parse, hread, Part.readFrom]
  have hrenamed : renamed =
      [.className { source := ['.', '\\', '-'], value := ['-'], code := some ['-', '-'] },
        .other ['>'], .tag ['p']] := by
    simp only [renamed, hparse]
    rfl
  have htext : text renamed = ".-->p".toList := by rw [hrenamed]; rfl
  refine ⟨?_, ?_, htext, ?_⟩
  · rintro k name st code ⟨⟩
    simp [Writable]
  · simp [hread, Component.WholeAll, Component.Whole]
  · have hmerged : Component.read ".-->p".toList = [.plain ⟨.delim '.', ['.']⟩,
        .plain ⟨.commentClose, "-->".toList⟩, .plain ⟨.ident ['p'], ['p']⟩] := by rfl
    rw [htext, hrenamed, parse, hmerged]
    simp [Part.readFrom, Part.settledAll, Part.settled]

end Selector

end TerseMarkup.Css
