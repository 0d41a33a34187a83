import TerseMarkup.Shortener

/-! A renaming seen from its end.

A renaming hands a state on from name to name. Where the last state still knows every answer given
on the way, nothing needs to be said about the states in between: what asks for names one after the
other returns what it would if the answers were known from the start, and its state is that after
the same names in turn. `Follows` is this relation between the one and the other. It is put together
along `bind`, so a traversal of a tree has it as soon as each of its cases has. -/
namespace TerseMarkup

/-- A name as it is met, with its kind. -/
abbrev Mention := Kind × Text

/-- What a name is exchanged for, if it is, whatever has been met before. -/
abbrev Codes := Kind → Text → Option Text

namespace Renaming

variable {σ α β : Type}

/-- The state after names have been asked for in turn. -/
def visit (f : Renaming σ) (mentions : List Mention) (st : σ) : σ :=
  mentions.foldl (fun st m => (f m.1 m.2 st).2) st

theorem visit_append (f : Renaming σ) (ms ns : List Mention) (st : σ) :
    f.visit (ms ++ ns) st = f.visit ns (f.visit ms st) :=
  List.foldl_append

/-- If `m` ends in a state before the end, it started in one, returned `a` and asked for these
names. -/
def Follows (f : Renaming σ) (Before : σ → Prop) (m : StateM σ α) (a : α)
    (mentions : List Mention) : Prop :=
  ∀ st, Before (m.run st).2 → Before st ∧ m.run st = (a, f.visit mentions st)

/-- At the end it is `codes` that all answers have been. -/
def Foretells (f : Renaming σ) (Before : σ → Prop) (codes : Codes) : Prop :=
  ∀ k name, f.Follows Before (f k name) (codes k name) [(k, name)]

variable {f : Renaming σ} {Before : σ → Prop}

namespace Follows

theorem pure (a : α) : f.Follows Before (Pure.pure a) a [] := fun _ hend => ⟨hend, rfl⟩

/-- What comes second ends before the end, so what comes first does too, and its result is known. -/
theorem bind {m : StateM σ α} {a : α} {ms : List Mention} {next : α → StateM σ β} {b : α → β}
    {ns : α → List Mention} (hm : f.Follows Before m a ms)
    (hnext : ∀ x, f.Follows Before (next x) (b x) (ns x)) :
    f.Follows Before (m >>= next) (b a) (ms ++ ns a) := by
  intro st hend
  obtain ⟨x, st', hrun⟩ : ∃ x st', m.run st = (x, st') := ⟨_, _, rfl⟩
  have hbind : (m >>= next).run st = (next x).run st' := by
    rw [StateT.run_bind, hrun]
    rfl
  rw [hbind] at hend ⊢
  obtain ⟨hmiddle, hsecond⟩ := hnext x st' hend
  have hlast : Before (m.run st).2 := by rwa [hrun]
  obtain ⟨hstart, hfirst⟩ := hm st hlast
  rw [hrun] at hfirst
  obtain ⟨rfl, rfl⟩ := Prod.mk.inj hfirst
  exact ⟨hstart, by rw [hsecond, visit_append]⟩

theorem map {m : StateM σ α} {a : α} {ms : List Mention} (hm : f.Follows Before m a ms)
    (φ : α → β) : f.Follows Before (do return φ (← m)) (φ a) ms := by
  have hbind := hm.bind fun x => Follows.pure (φ x)
  rwa [List.append_nil] at hbind

theorem mapM {act : α → StateM σ β} {b : α → β} {ns : α → List Mention}
    (hact : ∀ x, f.Follows Before (act x) (b x) (ns x)) (xs : List α) :
    f.Follows Before (xs.mapM act) (xs.map b) (xs.flatMap ns) := by
  induction xs with
  | nil => exact .pure []
  | cons x rest ih =>
    rw [List.mapM_cons]
    exact (hact x).bind fun y => ih.map (y :: ·)

end Follows

/-- Answers that do not depend on the state are the same at every end. -/
theorem foretells_pure (codes : Codes) :
    Foretells (fun k name => (Pure.pure (codes k name) : StateM σ _)) (fun _ => True) codes :=
  fun _ _ _ hend => ⟨hend, rfl⟩

/-! ### What is asked for -/

/-- The renaming, which also lists what it is asked for. -/
def logged (f : Renaming σ) : Renaming (σ × List Mention) := fun k name =>
  fun (st, log) => let (code, st') := f k name st; (code, st', log ++ [(k, name)])

/-- `m'` does what `m` does and asks for these names. -/
def Logs (m' : StateM (σ × List Mention) α) (m : StateM σ α) (mentions : List Mention) : Prop :=
  ∀ st log, m'.run (st, log) = ((m.run st).1, (m.run st).2, log ++ mentions)

namespace Logs

theorem logged (f : Renaming σ) (k : Kind) (name : Text) :
    Logs (f.logged k name) (f k name) [(k, name)] := fun _ _ => rfl

theorem pure (a : α) : Logs (Pure.pure a : StateM (σ × List Mention) α) (Pure.pure a) [] :=
  fun st log => by
    show (a, st, log) = (a, st, log ++ [])
    rw [List.append_nil]

theorem bind {m' : StateM (σ × List Mention) α} {m : StateM σ α} {ms ns : List Mention}
    {next' : α → StateM (σ × List Mention) β} {next : α → StateM σ β} (hm : Logs m' m ms)
    (hnext : ∀ x, Logs (next' x) (next x) ns) : Logs (m' >>= next') (m >>= next) (ms ++ ns) := by
  intro st log
  rw [StateT.run_bind, StateT.run_bind, hm st log]
  show ((next' (m.run st).1).run ((m.run st).2, log ++ ms)) =
    (((next (m.run st).1).run (m.run st).2).1, ((next (m.run st).1).run (m.run st).2).2, _)
  rw [hnext, List.append_assoc]

theorem map {m' : StateM (σ × List Mention) α} {m : StateM σ α} {ms : List Mention}
    (hm : Logs m' m ms) (φ : α → β) : Logs (do return φ (← m')) (do return φ (← m)) ms := by
  have hbind := hm.bind fun x => Logs.pure (φ x)
  rwa [List.append_nil] at hbind

end Logs

end Renaming
end TerseMarkup
