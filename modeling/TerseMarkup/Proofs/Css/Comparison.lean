import TerseMarkup.Css.Selector

/-! Where the value of an attribute test stands.

`Component.comparison?` cuts the inside of square brackets at the first identifier or string behind
the first operator, blocks taken as a whole. An attribute test is read from there
(`read_of_comparison`), but for one thing: the inside and the end of a block that stands directly
before the value go with the value (`carried`). -/
namespace TerseMarkup.Css

/-- How a name is spelled: behind a dot, behind a hash, as an identifier or as a string. -/
inductive Form
  | dotted
  | hashed
  | bare
  | quoted

/-- The code of a name, written as the name is. -/
def Form.write : Form → Text → Text
  | dotted, code => '.' :: writeIdent code
  | hashed, code => '#' :: writeIdent code
  | bare, code => writeIdent code
  | quoted, code => writeString code

namespace Component

def isBlock : Component → Bool
  | plain _ => false
  | block _ _ _ _ => true

def isOperator : Component → Bool
  | plain l => AttributeTest.isOperator l.token
  | block _ _ _ _ => false

def ident? : Component → Option Text
  | plain ⟨.ident name, _⟩ => some name
  | _ => none

def lastIdent? (cs : List Component) : Option Text := (cs.filterMap ident?).getLast?

/-- What an attribute can be compared with. -/
def operand? : Component → Option (Form × Text)
  | plain ⟨.ident value, _⟩ => some (.bare, value)
  | plain ⟨.string value, _⟩ => some (.quoted, value)
  | _ => none

/-- What stands before the first component with `p`, that component, and what stands behind it. -/
def cutAt? (p : Component → Bool) :
    List Component → Option (List Component × Component × List Component)
  | [] => none
  | c :: rest =>
    if p c then some ([], c, rest)
    else (cutAt? p rest).map fun (front, found, behind) => (c :: front, found, behind)

/-- The inside of square brackets, cut at the value of the test. -/
structure Comparison where
  /-- The last identifier before the first operator. -/
  name : Option Text
  before : List Component
  /-- The first identifier or string behind the operator. -/
  operand : Component
  after : List Component

/-- Whether a block stands directly before the value. -/
def Comparison.behind (c : Comparison) : Bool := c.before.getLast?.any isBlock

def comparison? (inside : List Component) : Option Comparison := do
  let (front, operator, rest) ← cutAt? isOperator inside
  let (gap, operand, after) ← cutAt? (·.operand?.isSome) rest
  return {
    name := lastIdent? front
    before := front ++ operator :: gap
    operand
    after }

theorem cutAt?_eq_none {p : Component → Bool} {cs : List Component} (h : cutAt? p cs = none) :
    ∀ c ∈ cs, p c = false := by
  fun_induction cutAt? p cs with
  | case1 => simp
  | case2 c rest hc => simp at h
  | case3 c rest hc ih =>
    rw [List.forall_mem_cons]
    exact ⟨by simpa using hc, ih (Option.map_eq_none_iff.mp h)⟩

theorem cutAt?_eq_some {p : Component → Bool} {cs front behind : List Component} {found : Component}
    (h : cutAt? p cs = some (front, found, behind)) :
    cs = front ++ found :: behind ∧ (∀ c ∈ front, p c = false) ∧ p found = true := by
  fun_induction cutAt? p cs generalizing front with
  | case1 => simp at h
  | case2 c rest hc =>
    obtain ⟨rfl, rfl, rfl⟩ : [] = front ∧ c = found ∧ rest = behind := by simpa using h
    exact ⟨rfl, by simp, hc⟩
  | case3 c rest hc ih =>
    obtain ⟨⟨front', _, _⟩, hcut, heq⟩ := Option.map_eq_some_iff.mp h
    obtain ⟨rfl, rfl, rfl⟩ : c :: front' = front ∧ _ = found ∧ _ = behind := by simpa using heq
    obtain ⟨rfl, hfront, hfound⟩ := ih hcut
    exact ⟨rfl, List.forall_mem_cons.mpr ⟨by simpa using hc, hfront⟩, hfound⟩

theorem ident?_of_isOperator {c : Component} (h : c.isOperator = true) : c.ident? = none := by
  cases c with
  | block => rfl
  | plain l =>
    obtain ⟨token, text⟩ := l
    cases token <;> first | rfl | simp [isOperator, AttributeTest.isOperator] at h

theorem lastIdent?_cons (c : Component) (cs : List Component) :
    lastIdent? (c :: cs) = (lastIdent? cs).or c.ident? := by
  rw [lastIdent?, lastIdent?, List.filterMap_cons]
  cases c.ident? with
  | none => simp
  | some name =>
    rw [List.getLast?_cons]
    cases (cs.filterMap ident?).getLast? <;> rfl

/-- A component without the inside and the end of a block. -/
def openingText : Component → Text
  | plain l => l.text
  | block opener _ _ _ => opener.text

theorem openingText_append (c : Component) : c.openingText ++ c.textInside = c.text := by
  cases c <;> simp [openingText, textInside, text]

/-- The text that goes with what stands behind components. -/
def carried (pending : Text) : List Component → Text
  | [] => pending
  | c :: rest => carried c.textInside rest

theorem carried_append (pending : Text) (cs ds : List Component) :
    carried pending (cs ++ ds) = carried (carried pending cs) ds := by
  induction cs generalizing pending with
  | nil => rfl
  | cons c cs ih => exact ih c.textInside

end Component

namespace AttributeTest
open Component

/-- What is not the value goes to the head, but for the inside of a block. -/
theorem readFrom_cons (a : AttributeTest) (operator : Bool) (pending : Text) {c : Component}
    (h : operator = true → c.operand? = none) (rest : List Component) :
    readFrom a operator pending (c :: rest) =
      readFrom
        { a with
          name := if operator then a.name else c.ident?.or a.name
          head := a.head ++ pending ++ c.openingText }
        (operator || c.isOperator) c.textInside rest := by
  cases c with
  | block opener bracket inside closer =>
    cases operator <;> simp [readFrom, ident?, openingText, Component.isOperator]
  | plain l =>
    obtain ⟨token, text⟩ := l
    cases operator <;> cases token <;>
      simp_all [readFrom, ident?, operand?, openingText, textInside, Component.isOperator,
        isOperator]

/-- Reading goes on behind components that are no operator, or behind one no value. Of the head it
is known what it spells together with what is carried over. -/
theorem readFrom_append (a : AttributeTest) (operator : Bool) (pending : Text)
    {cs : List Component}
    (h : ∀ c ∈ cs, if operator then c.operand? = none else c.isOperator = false) :
    ∃ head, head ++ carried pending cs = a.head ++ pending ++ Component.textOf cs ∧
      ∀ rest, readFrom a operator pending (cs ++ rest) =
        readFrom
          { a with
            name := if operator then a.name else (lastIdent? cs).or a.name
            head }
          operator (carried pending cs) rest := by
  -- The state at the end is that of a reader who started behind the first component.
  induction cs generalizing a pending with
  | nil =>
    refine ⟨a.head, by simp [carried, Component.textOf], fun rest => ?_⟩
    cases operator <;> rfl
  | cons c cs ih =>
    obtain ⟨hc, hcs⟩ := List.forall_mem_cons.mp h
    obtain ⟨head, hhead, hread⟩ := ih
      { a with
        name := if operator then a.name else c.ident?.or a.name
        head := a.head ++ pending ++ c.openingText } c.textInside hcs
    refine ⟨head, ?_, fun rest => ?_⟩
    · rw [carried, hhead, Component.textOf, ← openingText_append]
      simp
    · cases operator with
      | true =>
        rw [List.cons_append, readFrom_cons a true _ (fun _ => by simpa using hc)]
        exact hread rest
      | false =>
        have hoperator : (false || c.isOperator) = false := by simpa using hc
        rw [List.cons_append, readFrom_cons a false _ (by simp), hoperator]
        refine (hread rest).trans ?_
        simp only [Bool.false_eq_true, if_false, lastIdent?_cons, Option.or_assoc, carried]

theorem readFrom_operand (a : AttributeTest) (pending : Text) {c : Component} {form : Form}
    {value : Text} (h : c.operand? = some (form, value)) (rest : List Component) :
    ∃ quoted, form = (if quoted then .quoted else .bare) ∧
      readFrom a true pending (c :: rest) =
        { a with
          value := some { source := pending ++ c.text, value, quoted }
          tail := Component.textOf rest } := by
  cases c with
  | block => simp [operand?] at h
  | plain l =>
    obtain ⟨token, text⟩ := l
    cases token <;> simp [operand?] at h
    · obtain ⟨rfl, rfl⟩ := h
      exact ⟨false, rfl, rfl⟩
    · obtain ⟨rfl, rfl⟩ := h
      exact ⟨true, rfl, rfl⟩

/-- Reading goes on behind an operator. -/
theorem read_operator {front gap : List Component} {operator : Component}
    (hfront : ∀ c ∈ front, c.isOperator = false) (hoperator : operator.isOperator = true)
    (hgap : ∀ c ∈ gap, c.operand? = none) :
    let before := front ++ operator :: gap
    ∃ head, head ++ carried [] before = Component.textOf before ∧
      ∀ rest, read (before ++ rest) =
        readFrom { name := lastIdent? front, head } true (carried [] before) rest := by
  intro before
  obtain ⟨head, hhead, hreadFront⟩ :=
    readFrom_append {} false [] (by simpa using hfront)
  obtain ⟨head', hhead', hreadGap⟩ := readFrom_append
    { name := lastIdent? front, head := head ++ carried [] front ++ operator.openingText }
    true operator.textInside (by simpa using hgap)
  have hcarried : carried [] before = carried operator.textInside gap := carried_append _ _ _
  refine ⟨head', ?_, fun rest => ?_⟩
  · rw [hcarried, hhead', hhead, Component.textOf_append, Component.textOf, ← openingText_append]
    simp
  · have hident := ident?_of_isOperator hoperator
    rw [hcarried]
    refine Eq.trans ?_ (hreadGap rest)
    rw [read, List.append_assoc, hreadFront, List.cons_append, readFrom_cons _ _ _ (by simp),
      hoperator]
    simp [hident]

/-- The attribute test that is cut as `c`, with a code for its value. -/
def filled (c : Comparison) (head value : Text) (quoted : Bool) (code : Option Text) :
    AttributeTest :=
  { name := c.name
    head
    value := some { source := carried [] c.before ++ c.operand.text, value, quoted, code }
    tail := Component.textOf c.after }

/-- **What is read between square brackets** is the test that they are cut into, but the inside of a
block directly before the value goes with the value. -/
theorem read_of_comparison {inside : List Component} {c : Comparison}
    (h : comparison? inside = some c) :
    inside = c.before ++ c.operand :: c.after ∧
      ∃ form value quoted head, c.operand.operand? = some (form, value) ∧
        form = (if quoted then .quoted else .bare) ∧
        head ++ carried [] c.before = Component.textOf c.before ∧
        read inside = filled c head value quoted none := by
  simp only [comparison?, Option.bind_eq_bind, Option.bind_eq_some_iff] at h
  obtain ⟨⟨front, operator, rest⟩, hcut, ⟨gap, operand, after⟩, hcutRest, hc⟩ := h
  obtain rfl := Option.some.inj hc
  obtain ⟨rfl, hfront, hoperator⟩ := cutAt?_eq_some hcut
  obtain ⟨rfl, hgap, hoperand⟩ := cutAt?_eq_some hcutRest
  obtain ⟨⟨form, value⟩, hvalue⟩ := Option.isSome_iff_exists.mp hoperand
  obtain ⟨head, hhead, hread⟩ := read_operator hfront hoperator (by simpa using hgap)
  obtain ⟨quoted, hform, hreadOperand⟩ := readFrom_operand
    { name := lastIdent? front, head } (carried [] (front ++ operator :: gap)) hvalue after
  refine ⟨by simp, form, value, quoted, head, hvalue, hform, hhead, ?_⟩
  rw [filled, ← hreadOperand, ← hread]
  simp

/-- Square brackets that cannot be cut hold no value. -/
theorem value_read_of_none {inside : List Component} (h : comparison? inside = none) :
    (read inside).value = none := by
  simp only [comparison?, Option.bind_eq_bind, Option.bind_eq_none_iff] at h
  cases hcut : cutAt? Component.isOperator inside with
  | none =>
    obtain ⟨head, -, hread⟩ := readFrom_append {} false [] (by simpa using cutAt?_eq_none hcut)
    rw [read, ← List.append_nil inside, hread, readFrom]
  | some cut =>
    obtain ⟨front, operator, rest⟩ := cut
    obtain ⟨rfl, hfront, hoperator⟩ := cutAt?_eq_some hcut
    have hrest : cutAt? (·.operand?.isSome) rest = none :=
      Option.eq_none_iff_forall_ne_some.mpr fun cut hcutRest =>
        absurd (h _ hcut _ hcutRest) (by simp)
    obtain ⟨head, -, hread⟩ :=
      read_operator hfront hoperator (by simpa using cutAt?_eq_none hrest)
    rw [← List.append_nil (front ++ operator :: rest), hread, readFrom]

end AttributeTest

end TerseMarkup.Css
