import TerseMarkup.Html.Markup

/-! The markup of a tree, node by node.

`written?` follows the tree: an element is its start tag, what its children are where they stand, and
its end tag. The list of tasks that a tree is written with comes to the same (`markup?_eq`). -/
namespace TerseMarkup.Html

/-- What an element asks of its content, where this is asked of the element. -/
def Surroundings.inside (outer : Surroundings) (name : ElementName) (hasChildren : Bool) :
    Surroundings :=
  ⟨name.hasRawText, outer.silent || (name.mayClose && !hasChildren || name.isVoid)⟩

/-- The start tag of an element, unless it is left out. -/
def Surroundings.start? (outer : Surroundings) (name : ElementName) (attributes : List Attribute)
    (hasChildren : Bool) : Option Text :=
  if outer.silent then some []
  else Markup.writeStart? name attributes (name.mayClose && !hasChildren)

namespace Node

mutual

/-- The markup of a node where this is asked of it. -/
def written? (outer : Surroundings) : Node → Option Text
  | element _ name attributes cs => do
    let inner := outer.inside name !cs.isEmpty
    let start ← outer.start? name attributes !cs.isEmpty
    let contents ← writtenAll? inner cs
    some (start ++ contents ++ if inner.silent then [] else Markup.writeEnd name)
  | text t => some (if outer.silent then [] else if outer.raw then t else Markup.writeText t)
  | comment c => some (if outer.silent then [] else Markup.writeComment c)
  | doctype name publicId systemId => some (Markup.writeDoctype name publicId systemId)
  | document _ _ | placeholder => some []

def writtenAll? (outer : Surroundings) : List Node → Option Text
  | [] => some []
  | n :: rest => do
    let first ← n.written? outer
    let others ← writtenAll? outer rest
    some (first ++ others)

end

/-! ### The list of tasks -/

theorem markup_write (w : Writer) (t : Text) : (w.write t).markup = w.markup ++ t := by
  simp [Writer.write, Writer.markup]

/-- A writer goes on from here with so much more written, or it fails where that cannot be
written. -/
def GoesOn (result : Option Writer) (w : Writer) (more : Option Text)
    (next : Writer → Option Writer) : Prop :=
  match more with
  | none => result = none
  | some t => ∃ w', w'.around = w.around ∧ w'.markup = w.markup ++ t ∧ result = next w'

theorem GoesOn.write {w : Writer} (t : Text) (next : Writer → Option Writer) :
    GoesOn (next (w.write t)) w (some t) next :=
  ⟨w.write t, rfl, markup_write w t, rfl⟩

theorem GoesOn.stay {w : Writer} (next : Writer → Option Writer) :
    GoesOn (next w) w (some []) next :=
  ⟨w, rfl, (List.append_nil _).symm, rfl⟩

/-- One thing is written, and then another. -/
theorem GoesOn.trans {result : Option Writer} {w : Writer} {more more' : Option Text}
    {next next' : Writer → Option Writer} (h : GoesOn result w more next)
    (h' : ∀ w', w'.around = w.around → GoesOn (next w') w' more' next') :
    GoesOn result w (do let t ← more; let t' ← more'; some (t ++ t')) next' := by
  cases more with
  | none => exact h
  | some t =>
    obtain ⟨w', haround, hmarkup, rfl⟩ := h
    have hnext := h' w' haround
    cases more' with
    | none => exact hnext
    | some t' =>
      obtain ⟨w'', haround', hmarkup', heq⟩ := hnext
      exact ⟨w'', haround'.trans haround, by rw [hmarkup', hmarkup, List.append_assoc], heq⟩

theorem start?_eq {w : Writer} {outer : Surroundings} {more : List Surroundings}
    (haround : w.around = outer :: more) (name : ElementName) (attributes : List Attribute)
    (hasChildren : Bool) :
    w.start? name attributes hasChildren = none ∧ outer.start? name attributes hasChildren = none ∨
      ∃ start w', outer.start? name attributes hasChildren = some start ∧
        w'.around = outer.inside name hasChildren :: w.around ∧ w'.markup = w.markup ++ start ∧
        w.start? name attributes hasChildren = some w' := by
  rw [Writer.start?, haround, Surroundings.start?, Surroundings.inside]
  simp only [List.head?_cons, Option.bind_eq_bind, Option.bind_some]
  split
  · next hsilent =>
    refine .inr ⟨[], { w with around := ⟨name.hasRawText, true⟩ :: outer :: more }, rfl, ?_,
      (List.append_nil _).symm, rfl⟩
    simp [hsilent]
  · next hsilent =>
    cases Markup.writeStart? name attributes (name.mayClose && !hasChildren) with
    | none => exact .inl ⟨rfl, rfl⟩
    | some start =>
      refine .inr ⟨start, { w.write start with
        around := ⟨name.hasRawText, name.mayClose && !hasChildren || name.isVoid⟩ :: outer :: more },
        rfl, ?_, markup_write w start, rfl⟩
      simp [hsilent]

/-- Behind the content of an element its surroundings count again. -/
theorem finish?_eq {w : Writer} {inner : Surroundings} {around : List Surroundings}
    (haround : w.around = inner :: around) (name : ElementName) :
    ∃ w', w'.around = around ∧
      w'.markup = w.markup ++ (if inner.silent then [] else Markup.writeEnd name) ∧
      w.finish? name = some w' := by
  rw [Writer.finish?, haround]
  refine ⟨_, ?_, ?_, rfl⟩
  · split <;> rfl
  · split
    · exact (List.append_nil _).symm
    · exact markup_write _ _

mutual

/-- A node to be written comes to its markup. -/
theorem goesOn_open (fuel : Nat) (rest : List Task) {w : Writer} {outer : Surroundings}
    {more : List Surroundings} (haround : w.around = outer :: more) : (n : Node) →
    GoesOn (writeTasks (n.tasks + fuel) (.open n :: rest) w) w (n.written? outer)
      (writeTasks fuel rest)
  | element _ name attributes cs => by
    have htasks : (tasksOf cs + 2) + fuel = (tasksOf cs + (fuel + 1)) + 1 := by omega
    rw [tasks, htasks, writeTasks, written?]
    rcases start?_eq haround name attributes !cs.isEmpty with ⟨hnone, hstart⟩ |
      ⟨start, w', hstart, haround', hmarkup', heq⟩
    · rw [hnone, hstart]
      exact rfl
    rw [hstart, heq, Option.bind_eq_bind, Option.bind_some]
    generalize (outer.inside name !cs.isEmpty) = inner at *
    have hcontents := goesOn_openAll (fuel + 1) (.close name :: rest) haround' cs
    show GoesOn _ w (do let contents ← writtenAll? inner cs; _) _
    cases hinside : writtenAll? inner cs with
    | none =>
      rw [hinside] at hcontents
      exact hcontents
    | some contents =>
      rw [hinside] at hcontents
      obtain ⟨w'', haround'', hmarkup'', heq'⟩ := hcontents
      obtain ⟨w₃, haround₃, hmarkup₃, heq₃⟩ := finish?_eq (haround''.trans haround') name
      refine ⟨w₃, haround₃, ?_, ?_⟩
      · rw [hmarkup₃, hmarkup'', hmarkup']
        simp only [List.append_assoc]
      · rw [heq', writeTasks, heq₃]
        rfl
  | text t => by
    show GoesOn (writeTasks (1 + fuel) _ w) w _ _
    rw [Nat.add_comm, writeTasks, Writer.text?, haround, written?]
    cases hsilent : outer.silent with
    | true => simpa [hsilent] using .stay _
    | false => simpa [hsilent] using .write _ _
  | comment c => by
    show GoesOn (writeTasks (1 + fuel) _ w) w _ _
    rw [Nat.add_comm, writeTasks, Writer.comment, haround, written?]
    cases hsilent : outer.silent with
    | true => simpa [hsilent] using .stay _
    | false => simpa [hsilent] using .write _ _
  | doctype name publicId systemId => by
    show GoesOn (writeTasks (1 + fuel) _ w) w _ _
    rw [Nat.add_comm, writeTasks, written?]
    exact .write _ _
  | document _ _ => by
    rw [tasks, Nat.add_comm, writeTasks, written?]
    exact .stay _
  | placeholder => by
    show GoesOn (writeTasks (1 + fuel) _ w) w _ _
    rw [Nat.add_comm, writeTasks, written?]
    exact .stay _

theorem goesOn_openAll (fuel : Nat) (rest : List Task) {w : Writer} {outer : Surroundings}
    {more : List Surroundings} (haround : w.around = outer :: more) : (cs : List Node) →
    GoesOn (writeTasks (tasksOf cs + fuel) (cs.map .open ++ rest) w) w (writtenAll? outer cs)
      (writeTasks fuel rest)
  | [] => by
    rw [tasksOf, Nat.zero_add, writtenAll?]
    exact .stay _
  | n :: cs => by
    rw [tasksOf, Nat.add_assoc, writtenAll?]
    exact (goesOn_open (tasksOf cs + fuel) (cs.map .open ++ rest) haround n).trans
      fun w' haround' => goesOn_openAll fuel rest (haround'.trans haround) cs

end

/-- **A tree is written node by node.** -/
theorem markup?_eq (root : Node) : root.markup? = writtenAll? {} root.children := by
  have hstart : ({} : Writer).around = {} :: [] := rfl
  have h := goesOn_openAll 0 [] hstart root.children
  rw [Nat.add_zero, List.append_nil] at h
  rw [markup?]
  cases hwritten : writtenAll? {} root.children with
  | none =>
    rw [hwritten] at h
    rw [show writeTasks _ _ _ = none from h]
    rfl
  | some t =>
    rw [hwritten] at h
    obtain ⟨w, -, hmarkup, heq⟩ := h
    rw [heq]
    exact congrArg some hmarkup

theorem serialize_eq_ok {root : Node} {s : Text} :
    root.serialize = .ok s ↔ writtenAll? {} root.children = some s := by
  rw [serialize, markup?_eq]
  cases writtenAll? {} root.children with
  | none => exact iff_of_false (by rintro ⟨⟩) (by rintro ⟨⟩)
  | some t => exact ⟨fun h => congrArg some (Except.ok.inj h), fun h => congrArg _ (Option.some.inj h)⟩

end Node
end TerseMarkup.Html
