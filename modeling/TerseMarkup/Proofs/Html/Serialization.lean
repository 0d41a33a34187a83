import TerseMarkup.Proofs.Html.Bytes

/-! Writing a tree with a list of tasks.

The tasks that are left and the surroundings of what is written are kept apart from each other, but
in step: there is one entry for every element to be closed, and one for the root (`Reached.lockstep`).
So a task fails only where an attribute cannot be written (`Reached.run?_eq_none`), and the work ends
with what the recursion writes (`markup_refines`). -/
namespace TerseMarkup.Html

namespace Markup

/-! ### Attributes that can be written -/

/-- The namespaces that an attribute's name can be written for. -/
def writableSpaces : List (Option Namespace) := [none, some .xml, some .xmlns, some .xlink]

theorem attributeLead?_eq_none (name : AttributeName) :
    attributeLead? name = none ↔ name.space ∉ writableSpaces := by
  obtain ⟨_ | space, name⟩ := name
  · exact iff_of_false (Option.some_ne_none _) (by simp [writableSpaces])
  · cases space with
    | html | svg | mathml => exact iff_of_true rfl (by simp [writableSpaces])
    | xml | xmlns | xlink =>
      exact iff_of_false (Option.some_ne_none _) (by simp [writableSpaces])

theorem writeAttribute?_eq_none (element : ElementName) (a : Attribute) :
    writeAttribute? element a = none ↔ a.name.space ∉ writableSpaces := by
  rw [← attributeLead?_eq_none, writeAttribute?]
  cases attributeLead? a.name <;> simp

theorem writeAttributes?_eq_none (element : ElementName) (attributes : List Attribute) :
    writeAttributes? element attributes = none ↔
      ∃ a ∈ attributes, a.name.space ∉ writableSpaces := by
  induction attributes with
  | nil => simp [writeAttributes?]
  | cons a rest ih =>
    simp only [List.mem_cons, or_and_right, exists_or, exists_eq_left]
    rw [← ih, ← writeAttribute?_eq_none element, writeAttributes?]
    cases writeAttribute? element a <;> cases writeAttributes? element rest <;> simp

end Markup

namespace Surroundings
open Markup

theorem start?_eq_none (outer : Surroundings) (name : ElementName) (attributes : List Attribute)
    (hasChildren : Bool) :
    outer.start? name attributes hasChildren = none ↔
      outer.silent = false ∧ ∃ a ∈ attributes, a.name.space ∉ writableSpaces := by
  rw [start?, ← writeAttributes?_eq_none name, writeStart?]
  cases outer.silent with
  | true => simp
  | false => cases writeAttributes? name attributes <;> simp

end Surroundings

namespace Writer

theorem length_start? {w w' : Writer} {name : ElementName} {attributes : List Attribute}
    {hasChildren : Bool} (h : w.start? name attributes hasChildren = some w') :
    w'.around.length = w.around.length + 1 := by
  obtain ⟨outer, -, h⟩ := Option.bind_eq_some_iff.mp h
  split at h
  · rw [← Option.some.inj h]
    rfl
  · obtain ⟨tag, -, heq⟩ := Option.bind_eq_some_iff.mp h
    rw [← Option.some.inj heq]
    rfl

theorem length_finish? {w w' : Writer} {name : ElementName} (h : w.finish? name = some w') :
    w'.around.length + 1 = w.around.length := by
  cases haround : w.around with
  | nil =>
    rw [finish?, haround] at h
    cases h
  | cons inner around =>
    obtain ⟨w₁, hrest, -, hsome⟩ := Node.finish?_eq haround name
    rw [h] at hsome
    rw [Option.some.inj hsome, hrest]
    rfl

theorem around_text? {w w' : Writer} {t : Text} (h : w.text? t = some w') : w'.around = w.around := by
  obtain ⟨outer, -, heq⟩ := Option.bind_eq_some_iff.mp h
  rw [← Option.some.inj heq]
  split <;> rfl

theorem around_comment (w : Writer) (c : Text) : (w.comment c).around = w.around := by
  rw [Writer.comment]
  split <;> rfl

end Writer

namespace Node
open Markup

/-! ### Content that is left out -/

mutual

/-- The doctypes of a node and what is below it. -/
def doctypes : Node → Text
  | element _ _ _ cs => doctypesAll cs
  | doctype name publicId systemId => writeDoctype name publicId systemId
  | text _ | comment _ | document _ _ | placeholder => []

def doctypesAll : List Node → Text
  | [] => []
  | n :: rest => n.doctypes ++ doctypesAll rest

end

mutual

/-- Where nothing is written, this holds for all that is below, except for a doctype. -/
theorem written?_silent (raw : Bool) : (n : Node) → n.written? ⟨raw, true⟩ = some n.doctypes
  | element _ name attributes cs => by
    rw [written?, Surroundings.inside, Bool.true_or, writtenAll?_silent name.hasRawText cs]
    simp [Surroundings.start?, doctypes]
  | doctype _ _ _ => rfl
  | text _ | comment _ | document _ _ | placeholder => rfl

theorem writtenAll?_silent (raw : Bool) :
    (cs : List Node) → writtenAll? ⟨raw, true⟩ cs = some (doctypesAll cs)
  | [] => rfl
  | n :: rest => by
    rw [writtenAll?, written?_silent raw n, writtenAll?_silent raw rest]
    rfl

end

/-! ### Trees that cannot be written -/

mutual

/-- The attributes of the elements that are written. -/
def writtenAttributes (outer : Surroundings) : Node → List Attribute
  | element _ name attributes cs =>
    (if outer.silent then [] else attributes) ++
      writtenAttributesAll (outer.inside name !cs.isEmpty) cs
  | doctype _ _ _ | text _ | comment _ | document _ _ | placeholder => []

def writtenAttributesAll (outer : Surroundings) : List Node → List Attribute
  | [] => []
  | n :: rest => n.writtenAttributes outer ++ writtenAttributesAll outer rest

end

mutual

theorem written?_eq_none (outer : Surroundings) : (n : Node) →
    (n.written? outer = none ↔ ∃ a ∈ n.writtenAttributes outer, a.name.space ∉ writableSpaces)
  | element _ name attributes cs => by
    have hstart := outer.start?_eq_none name attributes !cs.isEmpty
    have hcontents := writtenAll?_eq_none (outer.inside name !cs.isEmpty) cs
    have hattributes : (∃ a ∈ if outer.silent then [] else attributes,
        a.name.space ∉ writableSpaces) ↔ (outer.start? name attributes !cs.isEmpty) = none := by
      rw [hstart]
      cases outer.silent <;> simp
    rw [writtenAttributes, written?]
    simp only [List.mem_append, or_and_right, exists_or, hattributes, ← hcontents]
    cases outer.start? name attributes !cs.isEmpty <;>
      cases writtenAll? (outer.inside name !cs.isEmpty) cs <;> simp
  | doctype _ _ _ | text _ | comment _ | document _ _ | placeholder => by
    simp [written?, writtenAttributes]

theorem writtenAll?_eq_none (outer : Surroundings) : (cs : List Node) →
    (writtenAll? outer cs = none ↔
      ∃ a ∈ writtenAttributesAll outer cs, a.name.space ∉ writableSpaces)
  | [] => by simp [writtenAll?, writtenAttributesAll]
  | n :: rest => by
    rw [writtenAttributesAll, writtenAll?]
    simp only [List.mem_append, or_and_right, exists_or, ← written?_eq_none outer n,
      ← writtenAll?_eq_none outer rest]
    cases n.written? outer <;> cases writtenAll? outer rest <;> simp

end

/-! ### The work -/

namespace Task

/-- Does one task: what is to be done next because of it, and the writer behind it. -/
def run? (w : Writer) : Task → Option (List Task × Writer)
  | .open (element _ name attributes cs) => do
    let w ← w.start? name attributes !cs.isEmpty
    some (cs.map .open ++ [.close name], w)
  | .open (text t) => do some ([], ← w.text? t)
  | .open (comment c) => some ([], w.comment c)
  | .open (doctype name publicId systemId) =>
    some ([], w.write (writeDoctype name publicId systemId))
  | .open (document _ _) | .open placeholder => some ([], w)
  | .close name => do some ([], ← w.finish? name)

/-- The number of tasks that a task comes to. -/
def weight : Task → Nat
  | .open n => n.tasks
  | .close _ => 1

def weights : List Task → Nat
  | [] => 0
  | task :: rest => task.weight + weights rest

def closes : Task → Bool
  | .open _ => false
  | .close _ => true

end Task

/-- The states of the work on a tree: the tasks that are left, and the writer. -/
inductive Reached (root : Node) : List Task → Writer → Prop
  | start : Reached root (root.children.map .open) {}
  | next {task : Task} {rest more : List Task} {w w' : Writer} (h : Reached root (task :: rest) w)
      (hrun : task.run? w = some (more, w')) : Reached root (more ++ rest) w'

theorem writeTasks_cons (fuel : Nat) (task : Task) (rest : List Task) (w : Writer) :
    writeTasks (fuel + 1) (task :: rest) w =
      (task.run? w).bind fun next => writeTasks fuel (next.1 ++ rest) next.2 := by
  match task with
  | .open (element _ name attributes cs) =>
    rw [writeTasks, Task.run?]
    cases w.start? name attributes !cs.isEmpty <;> simp
  | .open (text t) =>
    rw [writeTasks, Task.run?]
    cases w.text? t <;> simp
  | .open (comment _) | .open (doctype _ _ _) | .open (document _ _) | .open placeholder =>
    rw [writeTasks, Task.run?]
    rfl
  | .close name =>
    rw [writeTasks, Task.run?]
    cases w.finish? name <;> simp

namespace Task

theorem weights_append (a b : List Task) : weights (a ++ b) = weights a + weights b := by
  induction a with
  | nil => exact (Nat.zero_add _).symm
  | cons task rest ih => rw [List.cons_append, weights, weights, ih, Nat.add_assoc]

theorem eq_nil_of_weights {tasks : List Task} (h : weights tasks = 0) : tasks = [] := by
  cases tasks with
  | nil => rfl
  | cons task rest =>
    have hpos : 0 < task.weight := by
      match task with
      | .open (element _ _ _ _) => exact Nat.succ_pos _
      | .open (text _) | .open (comment _) | .open (doctype _ _ _) | .open (document _ _)
      | .open placeholder | .close _ => exact Nat.one_pos
    rw [weights] at h
    omega

@[simp] theorem weights_open (cs : List Node) : weights (cs.map .open) = tasksOf cs := by
  induction cs with
  | nil => rfl
  | cons n rest ih =>
    rw [tasksOf, ← ih]
    rfl

@[simp] theorem closes_open (cs : List Node) : (cs.map Task.open).countP closes = 0 :=
  List.countP_eq_zero.mpr fun task htask => by
    obtain ⟨n, -, rfl⟩ := List.mem_map.mp htask
    exact Bool.false_ne_true

/-- What one task does to the two stacks: what it leaves to do makes up for it, and the surroundings
grow with what is now to be closed. -/
theorem run?_eq_some {task : Task} {w w' : Writer} {more : List Task}
    (h : task.run? w = some (more, w')) :
    weights more + 1 = task.weight ∧
      w'.around.length + [task].countP closes = w.around.length + more.countP closes := by
  match task with
  | .open (element _ name attributes cs) =>
    obtain ⟨w₁, hstart, heq⟩ := Option.bind_eq_some_iff.mp h
    obtain ⟨rfl, rfl⟩ := Prod.mk.inj (Option.some.inj heq)
    constructor
    · rw [weights_append, weights_open]
      rfl
    · rw [Writer.length_start? hstart, List.countP_append, closes_open]
      rfl
  | .open (text t) =>
    obtain ⟨w₁, htext, heq⟩ := Option.bind_eq_some_iff.mp h
    obtain ⟨rfl, rfl⟩ := Prod.mk.inj (Option.some.inj heq)
    exact ⟨rfl, by rw [Writer.around_text? htext]; rfl⟩
  | .open (comment c) =>
    obtain ⟨rfl, rfl⟩ := Prod.mk.inj (Option.some.inj h)
    exact ⟨rfl, by rw [Writer.around_comment]; rfl⟩
  | .open (doctype _ _ _) | .open (document _ _) | .open placeholder =>
    obtain ⟨rfl, rfl⟩ := Prod.mk.inj (Option.some.inj h)
    exact ⟨rfl, rfl⟩
  | .close name =>
    obtain ⟨w₁, hfinish, heq⟩ := Option.bind_eq_some_iff.mp h
    obtain ⟨rfl, rfl⟩ := Prod.mk.inj (Option.some.inj heq)
    exact ⟨rfl, Writer.length_finish? hfinish⟩

theorem weights_next {task : Task} {w w' : Writer} {more : List Task}
    (h : task.run? w = some (more, w')) (rest : List Task) :
    weights (task :: rest) = weights (more ++ rest) + 1 := by
  rw [weights, weights_append, Nat.add_right_comm, (run?_eq_some h).1]

/-- A task fails for an attribute of an element that is to be written, and for nothing else. -/
theorem run?_eq_none {task : Task} {w : Writer} (hlength : [task].countP closes < w.around.length)
    (h : task.run? w = none) :
    ∃ id name attributes cs, task = .open (element id name attributes cs) ∧
      w.around.head?.any Surroundings.silent = false ∧
      ∃ a ∈ attributes, a.name.space ∉ writableSpaces := by
  cases haround : w.around with
  | nil =>
    rw [haround] at hlength
    exact absurd hlength (Nat.not_lt_zero _)
  | cons outer more =>
    match task with
    | .open (element id name attributes cs) =>
      rcases start?_eq haround name attributes !cs.isEmpty with ⟨-, hnone⟩ | ⟨_, w', -, -, -, hsome⟩
      · exact ⟨id, name, attributes, cs, rfl, (outer.start?_eq_none name attributes _).mp hnone⟩
      · rw [run?, hsome] at h
        cases h
    | .open (text t) =>
      rw [run?, Writer.text?, haround] at h
      cases h
    | .open (comment _) | .open (doctype _ _ _) | .open (document _ _) | .open placeholder => cases h
    | .close name =>
      obtain ⟨w', -, -, hsome⟩ := finish?_eq haround name
      rw [run?, hsome] at h
      cases h

end Task

/-- **The two stacks are in step**: there is one entry for every element to be closed, and one for
the root. -/
theorem Reached.lockstep {root : Node} {tasks : List Task} {w : Writer} (h : Reached root tasks w) :
    w.around.length = tasks.countP Task.closes + 1 := by
  induction h with
  | start =>
    rw [Task.closes_open]
    rfl
  | next _ hrun ih =>
    have hstep := (Task.run?_eq_some hrun).2
    rw [← List.singleton_append, List.countP_append] at ih
    rw [List.countP_append]
    omega

/-- Nothing fails but for an attribute. -/
theorem Reached.run?_eq_none {root : Node} {task : Task} {rest : List Task} {w : Writer}
    (h : Reached root (task :: rest) w) (hrun : task.run? w = none) :
    ∃ id name attributes cs, task = .open (element id name attributes cs) ∧
      w.around.head?.any Surroundings.silent = false ∧
      ∃ a ∈ attributes, a.name.space ∉ writableSpaces := by
  have hlength := h.lockstep
  rw [← List.singleton_append, List.countP_append] at hlength
  exact Task.run?_eq_none (by omega) hrun

/-- From every state the work goes on to what the tree is written as. -/
theorem Reached.markup?_eq {root : Node} {tasks : List Task} {w : Writer}
    (h : Reached root tasks w) :
    root.markup? = (writeTasks (Task.weights tasks) tasks w).map Writer.markup := by
  induction h with
  | start =>
    rw [Task.weights_open, markup?]
    cases writeTasks (tasksOf root.children) (root.children.map .open) {} <;> rfl
  | next _ hrun ih => rw [ih, Task.weights_next hrun, writeTasks_cons, hrun, Option.bind_some]

/-- Work that comes to an end has gone through the states. -/
theorem Reached.finished {root : Node} {tasks : List Task} {w w' : Writer}
    (h : Reached root tasks w) (hrun : writeTasks (Task.weights tasks) tasks w = some w') :
    Reached root [] w' := by
  generalize hfuel : Task.weights tasks = fuel at hrun
  induction fuel generalizing tasks w with
  | zero =>
    obtain rfl := Task.eq_nil_of_weights hfuel
    rw [writeTasks] at hrun
    exact Option.some.inj hrun ▸ h
  | succ fuel ih =>
    cases tasks with
    | nil =>
      rw [writeTasks] at hrun
      · exact Option.some.inj hrun ▸ h
      · exact Nat.succ_ne_zero fuel
    | cons task rest =>
      rw [writeTasks_cons] at hrun
      obtain ⟨⟨more, w₁⟩, hnext, hrun⟩ := Option.bind_eq_some_iff.mp hrun
      rw [Task.weights_next hnext] at hfuel
      exact ih (h.next hnext) (Nat.succ.inj hfuel) hrun

/-- The work ends with the markup of the tree, if there is one. -/
theorem markup?_eq_some_iff (root : Node) (t : Text) :
    root.markup? = some t ↔ ∃ w, Reached root [] w ∧ w.markup = t := by
  constructor
  · intro h
    rw [Reached.start.markup?_eq] at h
    obtain ⟨w, hrun, hmarkup⟩ := Option.map_eq_some_iff.mp h
    exact ⟨w, Reached.start.finished hrun, hmarkup⟩
  · rintro ⟨w, h, rfl⟩
    exact h.markup?_eq

/-- **The work with the two stacks comes to what the recursion writes.** Below an element without
content the recursion writes nothing but doctypes. The work comes to an end unless an element that is
written has an attribute that cannot be; until then there is one entry in the surroundings for every
element to be closed, and one for the root. Escaped byte by byte, what is written is the UTF-8 form
of the markup. -/
theorem markup_refines (root : Node) :
    root.markup? = writtenAll? {} root.children ∧
      (∀ raw cs, writtenAll? ⟨raw, true⟩ cs = some (doctypesAll cs)) ∧
      (root.markup? = none ↔ ∃ a ∈ writtenAttributesAll {} root.children,
        a.name.space ∉ [none, some .xml, some .xmlns, some .xlink]) ∧
      (∀ t, root.markup? = some t ↔ ∃ w, Reached root [] w ∧ w.markup = t) ∧
      (∀ tasks w, Reached root tasks w → w.around.length = tasks.countP Task.closes + 1) ∧
      (∀ task rest w, Reached root (task :: rest) w → task.run? w = none →
        ∃ id name attributes cs, task = .open (element id name attributes cs) ∧
          w.around.head?.any Surroundings.silent = false ∧
          ∃ a ∈ attributes, a.name.space ∉ [none, some .xml, some .xmlns, some .xlink]) ∧
      bytesAll? {} root.children = root.markup?.map Text.bytes ∧
      ∀ bs, bytesAll? {} root.children = some bs → bs.toByteArray.IsValidUTF8 := by
  have hbytes : bytesAll? {} root.children = root.markup?.map Text.bytes := by
    rw [markup?_eq]
    exact bytesAll?_eq {} root.children
  refine ⟨root.markup?_eq, writtenAll?_silent, ?_, root.markup?_eq_some_iff,
    fun _ _ h => h.lockstep, fun _ _ _ h => h.run?_eq_none, hbytes, fun bs hbs => ?_⟩
  · rw [markup?_eq]
    exact writtenAll?_eq_none {} root.children
  · obtain ⟨t, -, rfl⟩ := Option.map_eq_some_iff.mp (hbytes ▸ hbs)
    exact ⟨t, t.toByteArray_bytes⟩

/-- What is below an element without content is left out, but for a doctype. -/
example :
    (document 0 [element 1 ⟨.html, "br"⟩ [] [text ['x'], doctype ['d'] [] []], text ['&']]).markup? =
      some "<br><!DOCTYPE d>&amp;".toList := by
  decide

end Node
end TerseMarkup.Html
