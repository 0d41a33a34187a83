import TerseMarkup.Css.Selector
import TerseMarkup.Proofs.Css.Exchange

/-! Codes in a selector.

Renaming changes nothing but codes (`blankAll_renameAll`), and the codes are the answers to the
names in turn (`codesAll_renameAll`). `settledAll` is the selector that a selector with codes is
meant to be. -/
namespace TerseMarkup.Css

/-! ### Without codes, and with codes for names -/

namespace AttributeValue

/-- The value as it was read. -/
def blank (v : AttributeValue) : AttributeValue := { v with code := none }

/-- The value as it is read from what it prints. -/
def settled (v : AttributeValue) : AttributeValue :=
  { source := v.text, value := v.code.getD v.value, quoted := v.quoted }

end AttributeValue

namespace AttributeTest

def blank (a : AttributeTest) : AttributeTest :=
  { a with value := a.value.map AttributeValue.blank }

def settled (a : AttributeTest) : AttributeTest :=
  { a with value := a.value.map AttributeValue.settled }

end AttributeTest

namespace Name

def blank (n : Name) : Name := { n with code := none }

def settled (n : Name) (sigil : Char) : Name :=
  { source := n.text sigil, value := n.code.getD n.value }

end Name

namespace Part

mutual

/-- The part as it was read, without codes. -/
def blank : Part → Part
  | className n => className n.blank
  | id n => id n.blank
  | attributeTest a => attributeTest a.blank
  | function opener inside => function opener (blankAll inside)
  | tag s => tag s
  | other s => other s

def blankAll : List Part → List Part
  | [] => []
  | p :: rest => p.blank :: blankAll rest

end

mutual

/-- The part as it is meant: a code is a name now, spelled as it is written. -/
def settled : Part → Part
  | className n => className (n.settled '.')
  | id n => id (n.settled '#')
  | attributeTest a => attributeTest a.settled
  | function opener inside => function opener (settledAll inside)
  | tag s => tag s
  | other s => other s

def settledAll : List Part → List Part
  | [] => []
  | p :: rest => p.settled :: settledAll rest

end

end Part

/-! ### Codes that can be read again -/

/-- A name that can be written: no text at all is none, and NUL is written as another character. -/
def Writable (code : Text) : Prop := code ≠ [] ∧ '\x00' ∉ code

namespace AttributeTest

def EachCode (P : Text → Prop) (a : AttributeTest) : Prop := ∀ v ∈ a.value, ∀ code ∈ v.code, P code

/-- An identifier makes no mark of what is around it: two hyphens would make `-->` of a bracket
behind them, and hyphens behind `<!` would make `<!--`. -/
def Apart (a : AttributeTest) : Prop :=
  ∀ v ∈ a.value, v.quoted = false → ∀ code ∈ v.code,
    (code = ['-', '-'] → a.tail.head? ≠ some '>') ∧
      (['-', '-'] <+: code → ¬ ['<', '!'] <:+ a.head)

end AttributeTest

namespace Part

mutual

def EachCode (P : Text → Prop) : Part → Prop
  | className n => ∀ code ∈ n.code, P code
  | id n => ∀ code ∈ n.code, P code
  | attributeTest a => a.EachCode P
  | function _ inside => EachCodeOf P inside
  | tag _ => True
  | other _ => True

def EachCodeOf (P : Text → Prop) : List Part → Prop
  | [] => True
  | p :: rest => p.EachCode P ∧ EachCodeOf P rest

end

mutual

/-- No code makes a mark of what is printed around it. A hash keeps an id apart from everything. -/
def Apart (after : Text) : Part → Prop
  | className n => n.code = some ['-', '-'] → after.head? ≠ some '>'
  | id _ => True
  | attributeTest a => a.Apart
  | function _ inside => AllApart inside
  | tag _ => True
  | other _ => True

def AllApart : List Part → Prop
  | [] => True
  | p :: rest => p.Apart (textOf rest) ∧ AllApart rest

end

end Part

/-! ### Renaming -/

/-- The answers to names that are asked for in turn. -/
def answers {σ : Type} (f : Renaming σ) : List Mention → σ → List (Option Text)
  | [], _ => []
  | m :: rest, st => (f m.1 m.2 st).1 :: answers f rest (f m.1 m.2 st).2

/-- Whether every code among the answers satisfies `P`. -/
def Gives {σ : Type} (f : Renaming σ) (P : Text → Prop) : Prop :=
  ∀ k name st, ∀ code ∈ (f k name st).1, P code

theorem answers_append {σ : Type} (f : Renaming σ) (ms ns : List Mention) (st : σ) :
    answers f (ms ++ ns) st = answers f ms st ++ answers f ns (f.visit ms st) := by
  induction ms generalizing st with
  | nil => rfl
  | cons m ms ih => simp [answers, ih, Renaming.visit]

namespace Part

mutual

/-- What has been put for each name, in the order of `mentions`. -/
def codes : Part → List (Option Text)
  | className n => [n.code]
  | id n => [n.code]
  | attributeTest a =>
    match a.kind?, a.value with
    | some _, some v => [v.code]
    | _, _ => []
  | function _ inside => codesAll inside
  | tag _ => []
  | other _ => []

def codesAll : List Part → List (Option Text)
  | [] => []
  | p :: rest => p.codes ++ codesAll rest

end

section Renamed

variable {σ : Type} {f : Renaming σ} {P : Text → Prop}

/-- A renamed part, compared with the part and the names asked for. -/
structure Renamed (f : Renaming σ) (P : Text → Prop) (st : σ) (p : Part) (q : Part × σ) :
    Prop where
  eachCode : p.EachCode P → q.1.EachCode P
  blank : q.1.blank = p.blank
  codes : q.1.codes = answers f p.mentions st
  state : q.2 = f.visit p.mentions st

structure RenamedAll (f : Renaming σ) (P : Text → Prop) (st : σ) (ps : List Part)
    (qs : List Part × σ) : Prop where
  eachCode : EachCodeOf P ps → EachCodeOf P qs.1
  blank : blankAll qs.1 = blankAll ps
  codes : codesAll qs.1 = answers f (mentionsAll ps) st
  state : qs.2 = f.visit (mentionsAll ps) st

theorem renamed_attributeTest (hf : Gives f P) (a : AttributeTest) (st : σ) :
    Renamed f P st (attributeTest a) ((rename f (attributeTest a)).run st) := by
  obtain ⟨name, head, value, tail⟩ := a
  cases hasked : (⟨name, head, value, tail⟩ : AttributeTest).kind? with
  | none =>
    have hrename : (rename f (attributeTest ⟨name, head, value, tail⟩)).run st =
        (attributeTest ⟨name, head, value, tail⟩, st) := by
      rw [rename, hasked]
      rfl
    have hmentions : (attributeTest ⟨name, head, value, tail⟩).mentions = [] := by
      rw [mentions, AttributeTest.mentions, hasked]
    rw [hrename]
    refine ⟨fun h => h, rfl, ?_, ?_⟩
    · rw [hmentions, codes, hasked]
      rfl
    · rw [hmentions]
      rfl
  | some k =>
    cases value with
    | none => simp [AttributeTest.kind?] at hasked
    | some v =>
      have hrename : (rename f (attributeTest ⟨name, head, some v, tail⟩)).run st =
          (attributeTest ⟨name, head, some { v with code := (f k v.value st).1 }, tail⟩,
            (f k v.value st).2) := by
        rw [rename, hasked]
        rfl
      have hmentions : (attributeTest ⟨name, head, some v, tail⟩).mentions = [(k, v.value)] := by
        rw [mentions, AttributeTest.mentions, hasked]
      rw [hrename]
      refine ⟨?_, rfl, ?_, ?_⟩
      · intro _ w hw
        obtain rfl := Option.some.inj hw
        exact hf k v.value st
      · have hkind : (⟨name, head, some { v with code := (f k v.value st).1 }, tail⟩ :
            AttributeTest).kind? = some k := hasked
        rw [hmentions, codes, hkind]
        rfl
      · rw [hmentions]
        rfl

mutual

theorem renamed_rename (hf : Gives f P) (st : σ) :
    (p : Part) → Renamed f P st p ((p.rename f).run st)
  | className n => by
    rw [rename]
    exact ⟨fun _ => hf .className n.value st, rfl, rfl, rfl⟩
  | id n => by
    rw [rename]
    exact ⟨fun _ => hf .id n.value st, rfl, rfl, rfl⟩
  | attributeTest a => renamed_attributeTest hf a st
  | function opener inside => by
    have ih := renamedAll_renameAll hf st inside
    rw [rename]
    refine ⟨ih.eachCode, ?_, ?_, ?_⟩
    · exact congrArg (function opener) ih.blank
    · rw [mentions, ← ih.codes]; rfl
    · rw [mentions, ← ih.state]; rfl
  | tag s => by
    rw [rename]
    exact ⟨fun h => h, rfl, rfl, rfl⟩
  | other s => by
    rw [rename]
    exact ⟨fun h => h, rfl, rfl, rfl⟩

theorem renamedAll_renameAll (hf : Gives f P) (st : σ) :
    (ps : List Part) → RenamedAll f P st ps ((renameAll f ps).run st)
  | [] => by
    rw [renameAll]
    exact ⟨fun h => h, rfl, rfl, rfl⟩
  | p :: rest => by
    have hp := renamed_rename hf st p
    have ih := renamedAll_renameAll hf ((p.rename f).run st).2 rest
    rw [renameAll]
    refine ⟨fun h => ⟨hp.eachCode h.1, ih.eachCode h.2⟩, ?_, ?_, ?_⟩
    · exact List.cons_eq_cons.mpr ⟨hp.blank, ih.blank⟩
    · rw [mentionsAll, answers_append, ← hp.state, ← hp.codes, ← ih.codes]; rfl
    · rw [mentionsAll, Renaming.visit_append, ← hp.state, ← ih.state]; rfl

end

end Renamed

/-! ### A selector that has just been read -/

mutual

theorem eachCode_blank (P : Text → Prop) : (p : Part) → p.blank.EachCode P
  | className _ | id _ => by simp [blank, Name.blank, EachCode]
  | attributeTest a => by
    intro v hv
    obtain ⟨w, -, rfl⟩ := Option.map_eq_some_iff.mp hv
    simp [AttributeValue.blank]
  | function _ inside => eachCodeOf_blankAll P inside
  | tag _ | other _ => trivial

theorem eachCodeOf_blankAll (P : Text → Prop) : (ps : List Part) → EachCodeOf P (blankAll ps)
  | [] => trivial
  | p :: rest => ⟨eachCode_blank P p, eachCodeOf_blankAll P rest⟩

end

end Part

/-- Reading makes no codes. -/
theorem AttributeTest.blank_readFrom {a : AttributeTest}
    (h : a.value.map AttributeValue.blank = a.value) (operator : Bool) (pending : Text)
    (inside : List Component) :
    (readFrom a operator pending inside).blank = readFrom a operator pending inside := by
  induction inside generalizing a operator pending with
  | nil => simp [readFrom, blank, h]
  | cons c rest ih =>
    cases c with
    | block opener bracket inner closer =>
      rw [readFrom]
      refine ih ?_ _ _
      exact h
    | plain l =>
      rw [readFrom]
      have hskip (name head operator) : (readFrom { a with name, head } operator [] rest).blank =
          readFrom { a with name, head } operator [] rest := by
        refine ih ?_ _ _
        exact h
      split
      · cases operator
        · exact hskip _ _ _
        · rfl
      · cases operator
        · exact hskip _ _ _
        · rfl
      · exact hskip _ _ _

theorem Part.blankAll_readFrom (pseudo : Bool) (pending : Text) (cs : List Component) :
    blankAll (readFrom pseudo pending cs) = readFrom pseudo pending cs := by
  fun_induction readFrom pseudo pending cs with
  | case1 => rfl
  | case2 _ _ _ _ _ _ ih => rw [blankAll, blank, ih]
  | case3 _ _ _ inside _ _ ih =>
    rw [blankAll, blank, ih, AttributeTest.read, AttributeTest.blank_readFrom rfl]
  | case4 _ _ _ _ _ _ ihinside ih => rw [blankAll, blank, ihinside, ih]
  | case5 _ _ _ _ _ _ ih =>
    rw [blankAll, blank, ih]
    rfl
  | case6 _ _ l _ _ _ part =>
    rename_i ih
    have hpart : part.blank = part := by
      unfold part
      split
      · split <;> rfl
      · rfl
      · rfl
    rw [blankAll, hpart, ih]

end TerseMarkup.Css
