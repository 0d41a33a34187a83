import TerseMarkup.Proofs.Css.Comparison
import TerseMarkup.Proofs.Css.Lexeme.Finished
import TerseMarkup.Proofs.Css.Printing
import TerseMarkup.Proofs.Css.Unclosed

/-! Renamed selectors as they are spelled.

`Piece.ofText` cuts a text into the names that renaming asks for and what stands between them. A
renamed selector prints the text with codes in the place of names and everything else as it was, but
for one thing: where a block stands directly before the value of an attribute test, as in
`[class=(x)y]`, a code for the value takes the place of the block too, from behind its opening
bracket (`Selector.text_rename_iff`). `Respells` is the relation between pieces and parts that is
put together along the parts. -/
namespace TerseMarkup.Css

/-! ### Names and what stands between them -/

/-- A name where it stands in a text. -/
structure Spot where
  kind : Kind
  name : Text
  source : Text
  form : Form
  /-- Whether a block that is passed over stands directly before the name. -/
  behind : Bool := false
  code : Option Text := none

def Spot.text (n : Spot) : Text := (n.code.map n.form.write).getD n.source

inductive Piece
  | kept (source : Text)
  | spot (n : Spot)

namespace Piece

def text : Piece → Text
  | kept s => s
  | spot n => n.text

def textOf (ps : List Piece) : Text := ps.flatMap text

/-- The inside of square brackets: the value is a name if the attribute holds names. -/
def ofTest (inside : List Component) : List Piece :=
  match Component.comparison? inside with
  | none => [kept (Component.textOf inside)]
  | some c =>
    match c.name.bind Kind.ofAttribute?, c.operand.operand? with
    | some kind, some (form, name) =>
      [kept (Component.textOf c.before),
        spot { kind, name, form, source := c.operand.text, behind := c.behind },
        kept (Component.textOf c.after)]
    | _, _ => [kept (Component.textOf inside)]

/-- A lexeme on its own: only an id is a name. -/
def ofLexeme (l : Lexeme) : Piece :=
  match l.token with
  | .idHash name => spot { kind := .id, name, source := l.text, form := .hashed }
  | _ => kept l.text

/-- Parentheses hold a selector again, curly brackets hold nothing that is renamed. -/
def ofComponents : List Component → List Piece
  | [] => []
  | .block opener .curly inside closer :: rest =>
    kept (Component.block opener .curly inside closer).text :: ofComponents rest
  | .block opener .square inside closer :: rest =>
    kept opener.text ::
      (ofTest inside ++ kept ((closer.map Lexeme.text).getD []) :: ofComponents rest)
  | .block opener .paren inside closer :: rest =>
    kept opener.text ::
      (ofComponents inside ++ kept ((closer.map Lexeme.text).getD []) :: ofComponents rest)
  | .plain ⟨.delim '.', dot⟩ :: .plain ⟨.ident name, source⟩ :: rest =>
    spot { kind := .className, name, source := dot ++ source, form := .dotted } :: ofComponents rest
  | .plain l :: rest => ofLexeme l :: ofComponents rest

def ofText (s : Text) : List Piece := ofComponents (Component.read s)

/-- Asks for the code of a name. -/
def ask {σ : Type} (f : Renaming σ) : Piece → StateM σ Piece
  | kept s => return kept s
  | spot n => do return spot { n with code := ← f n.kind n.name }

/-- Asks for the codes of all names, from left to right. -/
def askAll {σ : Type} (f : Renaming σ) (ps : List Piece) : StateM σ (List Piece) := ps.mapM (ask f)

theorem textOf_append (ps qs : List Piece) : textOf (ps ++ qs) = textOf ps ++ textOf qs :=
  List.flatMap_append

end Piece

/-! ### Texts with every block closed and no curly bracket -/

namespace Component

/-- Components of a text that has no open block and no curly bracket. -/
structure Sound (bracket : Option Bracket) (cs : List Component) : Prop where
  fits : FitAll bracket cs
  closed : unclosedAll cs = []
  lexemes : ∀ l ∈ lexemesOf cs, l.Usual ∧ l.text ≠ [] ∧ l.token ≠ .opening .curly

theorem sound_read {s : Text} (hcurly : '{' ∉ s) (hclosed : unclosedAll (read s) = []) :
    Sound none (read s) := by
  refine ⟨fitAll_read s, hclosed, fun l hl => ?_⟩
  rw [lexemesOf_read] at hl
  have husual := (Lexeme.standing_scan s).usual l hl
  refine ⟨husual, (Lexeme.standing_scan s).ne_nil_of_mem l hl, fun htoken => hcurly ?_⟩
  have hs : (Lexeme.scan s).flatMap Lexeme.text = s := Lexeme.spelling_scan s
  rw [← hs]
  exact List.mem_flatMap.mpr ⟨l, hl, by simp [husual.openCurly htoken]⟩

namespace Sound

variable {bracket : Option Bracket} {cs : List Component}

theorem of_append {ds : List Component} (h : Sound bracket (cs ++ ds)) :
    Sound bracket cs ∧ Sound bracket ds := by
  obtain ⟨hfits, hfits'⟩ := fitAll_append.mp h.fits
  obtain ⟨hclosed, hclosed'⟩ := List.append_eq_nil_iff.mp (unclosedAll_append cs ds ▸ h.closed)
  obtain ⟨hlexemes, hlexemes'⟩ := List.forall_mem_append.mp (lexemesOf_append cs ds ▸ h.lexemes)
  exact ⟨⟨hfits, hclosed, hlexemes⟩, ⟨hfits', hclosed', hlexemes'⟩⟩

theorem tail {c : Component} (h : Sound bracket (c :: cs)) : Sound bracket cs :=
  (of_append (show Sound bracket ([c] ++ cs) from h)).2

theorem block {opener : Lexeme} {b : Bracket} {inside : List Component} {closer : Option Lexeme}
    (h : Sound bracket (.block opener b inside closer :: cs)) :
    (opener.Usual ∧ opener.token.opens? = some b ∧ b ≠ .curly) ∧ Sound (some b) inside ∧
      ∃ l, closer = some l ∧ l.Usual ∧ l.text ≠ [] ∧ l.token = .closing b := by
  obtain ⟨l, rfl, hinside, -⟩ := exists_closer h.closed
  obtain ⟨hopener, hlexemes, hcloser, -⟩ := forall_lexemesOf_block.mp h.lexemes
  obtain ⟨⟨hopens, hfits, htoken⟩, -⟩ := h.fits
  refine ⟨⟨hopener.1, hopens, ?_⟩, ⟨hfits, hinside, hlexemes⟩, l, rfl, (hcloser l rfl).1,
    (hcloser l rfl).2.1, htoken l rfl⟩
  rintro rfl
  exact hopener.2.2 (Token.eq_opening hopens (by decide))

/-- Nothing is carried over to what has no block before it. -/
theorem carried_eq_nil_iff (h : Sound bracket cs) :
    carried [] cs = [] ↔ cs.getLast?.any isBlock = false := by
  obtain rfl | ⟨cs, c, rfl⟩ := List.eq_nil_or_concat' cs
  · simp [carried]
  · rw [carried_append, carried, carried, List.getLast?_concat]
    cases c with
    | plain l => simp [textInside, isBlock]
    | block opener b inside closer =>
      obtain ⟨-, -, l, rfl, -, hne, -⟩ := h.of_append.2.block
      simp [textInside, isBlock, hne]

end Sound
end Component

/-! ### Parts against pieces -/

section Respelled

variable {σ : Type}

/-- Whether the code of a name, if it has one, takes the place of the name alone. -/
def Spot.Clear (n : Spot) : Prop := n.code.isSome → n.behind = false

/-- Renamed parts print what the pieces with the same codes spell, less the inside of blocks before
names that are not clear. -/
structure Respelled (ps : List Piece × σ) (qs : List Part × σ) : Prop where
  state : qs.2 = ps.2
  keeps : Keeps (∀ n, .spot n ∈ ps.1 → n.Clear) (Piece.textOf ps.1) (Part.textOf qs.1)

theorem run_mapM_append {α β : Type} (act : α → StateM σ β) (xs ys : List α) (st : σ) :
    ((xs ++ ys).mapM act).run st =
      (((xs.mapM act).run st).1 ++ ((ys.mapM act).run ((xs.mapM act).run st).2).1,
        ((ys.mapM act).run ((xs.mapM act).run st).2).2) := by
  rw [List.mapM_append, StateT.run_bind]
  rfl

variable {f : Renaming σ}

theorem Part.renameAll_eq_mapM (ps : List Part) : renameAll f ps = ps.mapM (rename f) := by
  induction ps with
  | nil => rw [renameAll, List.mapM_nil]
  | cons p ps ih => rw [renameAll, List.mapM_cons, ih]

theorem Part.run_renameAll_append (ps qs : List Part) (st : σ) :
    (renameAll f (ps ++ qs)).run st =
      (((renameAll f ps).run st).1 ++ ((renameAll f qs).run ((renameAll f ps).run st).2).1,
        ((renameAll f qs).run ((renameAll f ps).run st).2).2) := by
  simp only [renameAll_eq_mapM]
  exact run_mapM_append (rename f) ps qs st

theorem Part.textOf_append (ps qs : List Part) : textOf (ps ++ qs) = textOf ps ++ textOf qs := by
  induction ps with
  | nil => rfl
  | cons p ps ih => rw [List.cons_append, textOf, textOf, ih, List.append_assoc]

namespace Piece

theorem run_askAll_append (ps qs : List Piece) (st : σ) :
    (askAll f (ps ++ qs)).run st =
      (((askAll f ps).run st).1 ++ ((askAll f qs).run ((askAll f ps).run st).2).1,
        ((askAll f qs).run ((askAll f ps).run st).2).2) :=
  run_mapM_append (ask f) ps qs st

theorem run_askAll_cons (p : Piece) (ps : List Piece) (st : σ) :
    (askAll f (p :: ps)).run st =
      (((ask f p).run st).1 :: ((askAll f ps).run ((ask f p).run st).2).1,
        ((askAll f ps).run ((ask f p).run st).2).2) := by
  rw [askAll, List.mapM_cons]
  rfl

theorem run_askAll_kept (ss : List Text) (st : σ) :
    (askAll f (ss.map kept)).run st = (ss.map kept, st) := by
  induction ss with
  | nil => rfl
  | cons s ss ih =>
    have hkept : (ask f (kept s)).run st = (kept s, st) := rfl
    rw [List.map_cons, run_askAll_cons, hkept, ih]

theorem textOf_kept (ss : List Text) : textOf (ss.map kept) = ss.flatten := by
  simp [textOf, List.flatMap_map, text]

end Piece

/-- Renaming the parts asks for the names of the pieces and prints them with the answers. -/
def Respells (f : Renaming σ) (pieces : List Piece) (parts : List Part) : Prop :=
  ∀ st, Respelled ((Piece.askAll f pieces).run st) ((Part.renameAll f parts).run st)

namespace Respells

theorem append {ps qs : List Piece} {parts parts' : List Part} (h : Respells f ps parts)
    (h' : Respells f qs parts') : Respells f (ps ++ qs) (parts ++ parts') := by
  intro st
  obtain ⟨hstate, hkeeps⟩ := h st
  obtain ⟨hstate', hkeeps'⟩ := h' ((Piece.askAll f ps).run st).2
  rw [Piece.run_askAll_append, Part.run_renameAll_append, hstate]
  refine ⟨hstate', (hkeeps.append hkeeps').of ?_ (Piece.textOf_append ..) (Part.textOf_append ..)⟩
  simp only [List.mem_append, or_imp, forall_and]

theorem cons {p : Part} {ps qs : List Piece} {parts : List Part} (h : Respells f ps [p])
    (h' : Respells f qs parts) : Respells f (ps ++ qs) (p :: parts) := h.append h'

/-- One part against its pieces. -/
theorem single {ps : List Piece} {p : Part}
    (h : ∀ st, ∃ ps' p' st', (Piece.askAll f ps).run st = (ps', st') ∧
      (p.rename f).run st = (p', st') ∧
      Keeps (∀ n, .spot n ∈ ps' → n.Clear) (Piece.textOf ps') p'.text) : Respells f ps [p] := by
  intro st
  obtain ⟨ps', p', st', hasked, hrenamed, hkeeps⟩ := h st
  have hrun : (Part.renameAll f [p]).run st = ([p'], st') := by
    rw [Part.renameAll, StateT.run_bind, hrenamed]
    rfl
  rw [hrun, hasked]
  exact ⟨rfl, hkeeps.of Iff.rfl rfl (List.append_nil _)⟩

/-- A part that is not renamed. -/
theorem kept (ss : List Text) {p : Part} (hrename : p.rename f = pure p)
    (htext : p.text = ss.flatten) : Respells f (ss.map .kept) [p] := by
  refine single fun st => ⟨_, p, st, Piece.run_askAll_kept ss st, by rw [hrename]; rfl, ?_⟩
  exact (Keeps.refl _).of (by simp) rfl (htext.trans (Piece.textOf_kept ss).symm)

/-- A part with one name. -/
theorem spot {n : Spot} (front back : List Text) {p : Option Text → Part}
    (hrename : ∀ st, ((p none).rename f).run st =
      (p (f n.kind n.name st).1, (f n.kind n.name st).2))
    (hkeeps : ∀ code, Keeps { n with code }.Clear
      (front.flatten ++ { n with code }.text ++ back.flatten) (p code).text) :
    Respells f (front.map .kept ++ .spot n :: back.map .kept) [p none] := by
  refine single fun st => ⟨front.map .kept ++ .spot { n with code := (f n.kind n.name st).1 } ::
    back.map .kept, _, _, ?_, hrename st, (hkeeps _).of ?_ ?_ rfl⟩
  · have hasked : (Piece.ask f (.spot n)).run st =
        (.spot { n with code := (f n.kind n.name st).1 }, (f n.kind n.name st).2) := rfl
    rw [Piece.run_askAll_append, Piece.run_askAll_kept, Piece.run_askAll_cons, hasked,
      Piece.run_askAll_kept]
  · simp
  · rw [Piece.textOf_append, Piece.textOf_kept, List.append_assoc, ← Piece.textOf_kept back]
    rfl

/-- A class name or an id. -/
theorem name {k : Kind} {form : Form} {p : Name → Part}
    (hrename : ∀ n st, ((p n).rename f).run st =
      (p { n with code := (f k n.value st).1 }, (f k n.value st).2))
    (htext : ∀ n, (p n).text = (n.code.map form.write).getD n.source) (source value : Text) :
    Respells f [.spot { kind := k, name := value, source, form }] [p { source, value }] := by
  refine spot [] [] (p := fun code => p ⟨source, value, code⟩)
    (fun st => hrename _ st) fun code => ?_
  refine (Keeps.refl _).of (by simp [Spot.Clear]) rfl ?_
  rw [htext]
  exact (List.append_nil _).symm

theorem className (source value : Text) :
    Respells f [.spot { kind := .className, name := value, source, form := .dotted }]
      [.className { source, value }] :=
  name (fun n st => by rw [Part.rename]; rfl)
    (fun n => by rw [Part.text, Name.text]; cases n.code <;> rfl) source value

theorem id (source value : Text) :
    Respells f [.spot { kind := .id, name := value, source, form := .hashed }]
      [.id { source, value }] :=
  name (fun n st => by rw [Part.rename]; rfl)
    (fun n => by rw [Part.text, Name.text]; cases n.code <;> rfl) source value

/-- A code for the value takes the place of what is carried over to the value. -/
theorem keeps_filled {n : Spot} {c : Component.Comparison} {head : Text} (value : Text)
    {quoted : Bool} {code : Option Text} (hn : n.form = if quoted then .quoted else .bare)
    (hsource : n.source = c.operand.text) (hcode : n.code = code)
    (hclear : n.behind = false ↔ Component.carried [] c.before = [])
    (hhead : head ++ Component.carried [] c.before = Component.textOf c.before) :
    Keeps n.Clear
      ('[' :: Component.textOf c.before ++ n.text ++ (Component.textOf c.after ++ [']']))
      (Part.attributeTest (.filled c head value quoted code)).text := by
  cases code with
  | none =>
    refine (Keeps.refl _).of (by simp [Spot.Clear, hcode]) rfl ?_
    simp [Part.text, AttributeTest.text, AttributeTest.filled, AttributeValue.text, Spot.text,
      hcode, hsource, ← hhead]
  | some code =>
    have hhead' := (Keeps.refl ('[' :: head)).append (.dropped (Component.carried [] c.before))
    have hlost := hhead'.append (.refl (n.form.write code ++ Component.textOf c.after ++ [']']))
    refine hlost.of (by simp [Spot.Clear, hcode, hclear]) ?_ ?_
    · simp [Spot.text, hcode, ← hhead]
    · cases quoted <;>
        simp [Part.text, AttributeTest.text, AttributeTest.filled, AttributeValue.text, hn,
          Form.write]

theorem attributeTest {inside : List Component} (h : Component.Sound (some .square) inside) :
    Respells f (.kept ['['] :: (Piece.ofTest inside ++ [.kept [']']]))
      [.attributeTest (.read inside)] := by
  have htext := Part.text_attributeTest_read inside
  have hkept (hkind : (AttributeTest.read inside).kind? = none) :
      Respells f [.kept ['['], .kept (Component.textOf inside), .kept [']']]
        [.attributeTest (.read inside)] := by
    refine kept [['['], Component.textOf inside, [']']] ?_ (by simpa using htext)
    rw [Part.rename, hkind]
  rw [Piece.ofTest]
  cases hcut : Component.comparison? inside with
  | none =>
    have hvalue := AttributeTest.value_read_of_none hcut
    exact hkept (by simp [AttributeTest.kind?, hvalue])
  | some c =>
    obtain ⟨hinside, form, value, quoted, head, hoperand, hform, hhead, hread⟩ :=
      AttributeTest.read_of_comparison hcut
    cases hkind : c.name.bind Kind.ofAttribute? with
    | none =>
      simp only [hoperand, hkind]
      exact hkept (by simp [AttributeTest.kind?, AttributeTest.filled, hread, hkind])
    | some k =>
      simp only [hoperand, hkind]
      rw [hread]
      refine spot [['['], Component.textOf c.before] [Component.textOf c.after, [']']]
        (p := fun code => .attributeTest (.filled c head value quoted code)) (fun st => ?_)
        fun code => ?_
      · have hasked : (AttributeTest.filled c head value quoted none).kind? = some k := hkind
        rw [Part.rename, hasked]
        rfl
      · have hclear := (hinside ▸ h).of_append.1.carried_eq_nil_iff.symm
        have hkeeps := keeps_filled (n := ⟨k, value, c.operand.text, form, c.behind, code⟩) value
          hform rfl rfl hclear hhead
        simpa using hkeeps

theorem function {ps : List Piece} {inside : List Part} (h : Respells f ps inside)
    (opener : Text) :
    Respells f (.kept opener :: (ps ++ [.kept [')']])) [.function opener inside] := by
  refine single fun st => ?_
  obtain ⟨hstate, hkeeps⟩ := h st
  refine ⟨.kept opener :: (((Piece.askAll f ps).run st).1 ++ [.kept [')']]),
    .function opener ((Part.renameAll f inside).run st).1, ((Piece.askAll f ps).run st).2,
    ?_, ?_, (((Keeps.refl opener).append hkeeps).append (.refl [')'])).of ?_ ?_ rfl⟩
  · have hkept (s : Text) (st : σ) : (Piece.ask f (.kept s)).run st = (.kept s, st) := rfl
    rw [Piece.run_askAll_cons, hkept, Piece.run_askAll_append]
    rfl
  · rw [← hstate, Part.rename]
    rfl
  · simp
  · simp [Piece.textOf, Piece.text]

/-- **The parts of components print as their pieces do.** -/
theorem readFrom (pseudo : Bool) {pending : Text} (hpending : pending = [])
    {bracket : Option Bracket} {cs : List Component} (h : Component.Sound bracket cs) :
    Respells f (Piece.ofComponents cs) (Part.readFrom pseudo pending cs) := by
  fun_induction Part.readFrom pseudo pending cs generalizing bracket with
  | case1 pseudo pending =>
    rw [Piece.ofComponents]
    refine fun st => ⟨rfl, (Keeps.refl []).of (iff_true_intro fun n hn => ?_) rfl rfl⟩
    exact absurd hn List.not_mem_nil
  | case2 pseudo pending opener inside closer rest ih =>
    -- Without curly blocks nothing is ever pending on a level of parts.
    obtain ⟨⟨-, -, hcurly⟩, -⟩ := h.block
    exact absurd rfl hcurly
  | case3 pseudo pending opener inside closer rest ih =>
    obtain ⟨⟨husual, hopens, -⟩, hinside, closer, rfl, hcloser, -, hclosing⟩ := h.block
    have hopen : opener.text = ['['] := husual.openSquare (Token.eq_opening hopens (by decide))
    have hclose : closer.text = [']'] := hcloser.closeSquare hclosing
    have htest := (attributeTest (f := f) hinside).cons (ih rfl h.tail)
    simpa [Piece.ofComponents, hopen, hclose] using htest
  | case4 pseudo pending opener inside closer rest ihinside ih =>
    obtain ⟨-, hinside, closer, rfl, hcloser, -, hclosing⟩ := h.block
    have hclose : closer.text = [')'] := hcloser.closeParen hclosing
    have hfunction := ((ihinside rfl hinside).function opener.text).cons (ih rfl h.tail)
    simpa [Piece.ofComponents, hpending, hclose] using hfunction
  | case5 pseudo pending dot value source rest ih =>
    have hname := className (f := f) (dot ++ source) value
    simpa [Piece.ofComponents, hpending] using hname.cons (ih rfl h.tail.tail)
  | case6 pseudo pending l rest hclass source part =>
    rename_i ih
    have hsource : source = l.text := by simp [source, hpending]
    have hpart : Respells f [Piece.ofLexeme l] [part] := by
      unfold part
      rw [hsource, Piece.ofLexeme]
      cases htoken : l.token with
      | idHash value => exact id l.text value
      | ident value => cases pseudo <;> exact kept [l.text] rfl (List.append_nil _).symm
      | _ => exact kept [l.text] rfl (List.append_nil _).symm
    rw [Piece.ofComponents]
    · exact hpart.cons (ih rfl h.tail)
    · exact hclass

end Respells
end Respelled

/-! ### The source in pieces -/

namespace Piece

theorem textOf_ofTest (inside : List Component) :
    textOf (ofTest inside) = Component.textOf inside := by
  rw [ofTest]
  split
  · simp [textOf, text]
  · next c hcut =>
    obtain ⟨hinside, -⟩ := AttributeTest.read_of_comparison hcut
    split
    · rw [hinside, Component.textOf_append, Component.textOf]
      simp [textOf, text, Spot.text]
    · simp [textOf, text]

/-- The pieces of components spell them. -/
theorem textOf_ofComponents (cs : List Component) :
    textOf (ofComponents cs) = Component.textOf cs := by
  have textOf_cons (p : Piece) (ps : List Piece) : textOf (p :: ps) = p.text ++ textOf ps :=
    List.flatMap_cons
  fun_induction ofComponents cs with
  | case1 => rfl
  | case2 opener inside closer rest ih => rw [textOf_cons, ih, Component.textOf, text]
  | case3 opener inside closer rest ih =>
    rw [textOf_cons, textOf_append, textOf_cons, textOf_ofTest, ih]
    simp [text, Component.textOf, Component.text]
  | case4 opener inside closer rest ihinside ih =>
    rw [textOf_cons, textOf_append, textOf_cons, ihinside, ih]
    simp [text, Component.textOf, Component.text]
  | case5 dot name source rest ih =>
    rw [textOf_cons, ih]
    simp [text, Spot.text, Component.textOf, Component.text]
  | case6 l rest hclass ih =>
    rw [textOf_cons, ih, Component.textOf, ofLexeme]
    cases l.token <;> rfl

end Piece

/-! ### Renamed selectors -/

namespace Selector

/-- **A renamed selector prints the text it was read from with codes in the place of names**, and
nothing else changed, exactly if no name that gets a code has a block directly before it. This is
for texts without an open block or a curly bracket and for every way to answer. -/
theorem text_rename_iff {σ : Type} (f : Renaming σ) (st : σ) {s : Text} (hcurly : '{' ∉ s)
    (hclosed : Component.unclosedAll (Component.read s) = []) :
    let asked := (Piece.askAll f (Piece.ofText s)).run st
    let renamed := ((parse s).rename f).run st
    Piece.textOf (Piece.ofText s) = s ∧ renamed.2 = asked.2 ∧
      (text renamed.1).Sublist (Piece.textOf asked.1) ∧
      (text renamed.1 = Piece.textOf asked.1 ↔
        ∀ n, .spot n ∈ asked.1 → n.code.isSome → n.behind = false) := by
  intro asked renamed
  have hrespelled := Respells.readFrom false rfl (Component.sound_read hcurly hclosed) (f := f) st
  refine ⟨?_, hrespelled.state, hrespelled.keeps.sublist, hrespelled.keeps.eq_iff⟩
  rw [Piece.ofText, Piece.textOf_ofComponents, Component.textOf_read]

/-- In `[for=(x) "b"]:not(.c)` a space parts the block and the value. -/
theorem text_rename_iff_spaced :
    let s := "[for=(x) \"b\"]:not(.c)".toList
    let f : Renaming Nat := fun _ _ st => (some (Nat.repr st).toList, st + 1)
    '{' ∉ s ∧ Component.unclosedAll (Component.read s) = [] ∧
      text (((parse s).rename f).run 0).1 = "[for=(x) \"0\"]:not(.\\31 )".toList := by
  intro s f
  have hcurly : '{' ∉ s := by decide
  have hclosed : Component.unclosedAll (Component.read s) = [] := by decide +kernel
  have hread : Component.read s =
      [.block ⟨.opening .square, ['[']⟩ .square
          [.plain ⟨.ident "for".toList, "for".toList⟩, .plain ⟨.delim '=', ['=']⟩,
            .block ⟨.opening .paren, ['(']⟩ .paren [.plain ⟨.ident ['x'], ['x']⟩]
              (some ⟨.closing .paren, [')']⟩),
            .plain ⟨.whitespace, [' ']⟩, .plain ⟨.string ['b'], "\"b\"".toList⟩]
          (some ⟨.closing .square, [']']⟩),
        .plain ⟨.colon, [':']⟩,
        .block ⟨.function "not".toList, "not(".toList⟩ .paren
          [.plain ⟨.delim '.', ['.']⟩, .plain ⟨.ident ['c'], ['c']⟩]
          (some ⟨.closing .paren, [')']⟩)] := by rfl
  have hasked : ((Piece.askAll f (Piece.ofText s)).run 0).1 =
      [.kept ['['], .kept "for=(x) ".toList,
        .spot ⟨.id, ['b'], "\"b\"".toList, .quoted, false, some ['0']⟩, .kept [], .kept [']'],
        .kept [':'], .kept "not(".toList,
        .spot ⟨.className, ['c'], ".c".toList, .dotted, false, some ['1']⟩, .kept [')']] := by
    rw [Piece.ofText, hread]
    simp only [Piece.ofComponents]
    rfl
  refine ⟨hcurly, hclosed, ?_⟩
  obtain ⟨-, -, -, hiff⟩ := text_rename_iff f 0 hcurly hclosed
  rw [hiff.mpr (by simp [hasked]), hasked]
  decide

/-- In `[class=(x)y]` the block stands directly before the value, and is lost. -/
theorem text_rename_widened :
    let s := "[class=(x)y]".toList
    let f : Renaming Unit := fun _ _ => pure (some ['z'])
    '{' ∉ s ∧ Component.unclosedAll (Component.read s) = [] ∧
      Piece.textOf ((Piece.askAll f (Piece.ofText s)).run ()).1 = "[class=(x)z]".toList ∧
      text (((parse s).rename f).run ()).1 = "[class=(z]".toList := by
  intro s f
  have hread : Component.read s =
      [.block ⟨.opening .square, ['[']⟩ .square
        [.plain ⟨.ident "class".toList, "class".toList⟩, .plain ⟨.delim '=', ['=']⟩,
          .block ⟨.opening .paren, ['(']⟩ .paren [.plain ⟨.ident ['x'], ['x']⟩]
            (some ⟨.closing .paren, [')']⟩),
          .plain ⟨.ident ['y'], ['y']⟩]
        (some ⟨.closing .square, [']']⟩)] := by rfl
  refine ⟨by decide, by decide +kernel, ?_, ?_⟩
  · rw [Piece.ofText, hread]
    simp only [Piece.ofComponents]
    rfl
  · rw [parse, hread]
    simp only [Part.readFrom]
    rfl

end Selector

end TerseMarkup.Css
