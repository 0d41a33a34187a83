import TerseMarkup.Proofs.Name.Growth
import TerseMarkup.Proofs.Name.Minting
import TerseMarkup.Proofs.Renaming

/-! What one request does, and what many do.

`Outcome` lists the four things that a request can do, everything said that a later proof needs, so
that no later proof opens `assign`. Every request lets the table grow (`growsTo_assign`), so an
answer once given is what the last table says (`assign_eq_lookup`). `assignAll` is a run of
requests. -/
namespace TerseMarkup

namespace Shortener

variable (s : Shortener)

/-- Whether a name gets a code at all. -/
def renames (k : Kind) (name : Text) : Bool := !(name.isEmpty || s.whitelist.contains k name)

theorem renames_iff (k : Kind) (name : Text) :
    s.renames k name = true ↔ name ≠ [] ∧ s.whitelist.contains k name = false := by
  simp [renames]

/-! ### One request -/

/-- What a request for the code of `name` results in. -/
inductive Outcome (k : Kind) (name : Text) (t : Table) (result : Option Text × Table) : Prop
  | declined (hname : s.renames k name = false) (hresult : result = (none, t))
  | known {code : Text} (hname : s.renames k name = true) (hfind : t.find? k name = some code)
      (hresult : result = (some code, t))
  | lent {l : Loan} (hname : s.renames k name = true) (hfind : t.find? k name = none)
      (hlender : t.lender? k name = some l)
      (hresult : result = (some l.text, t.insert k name l.text))
  | minted {n : Nat} (hname : s.renames k name = true) (hfind : t.find? k name = none)
      (hlender : t.lender? k name = none) (hcounter : t.counter ≤ n)
      (hpassed : ∀ m, t.counter ≤ m → m < n → s.whitelist.contains k (s.codec.encode m) = true)
      (hfree : s.codec.Distinct → s.whitelist.contains k (s.codec.encode n) = false)
      (hresult : result = (some (s.codec.encode n),
        { t with skipped := n - t.size }.insert k name (s.codec.encode n)))

theorem outcome (k : Kind) (name : Text) (t : Table) : s.Outcome k name t (s.assign k name t) := by
  rw [assign]
  by_cases hkept : (name.isEmpty || s.whitelist.contains k name) = true
  · rw [if_pos hkept]
    exact .declined (by rw [renames, hkept]; rfl) rfl
  · have hname : s.renames k name = true := by
      rw [renames, Bool.eq_false_iff.mpr hkept]
      rfl
    rw [if_neg hkept, Table.resolve, Table.findWithin?_eq]
    cases hfind : t.find? k name with
    | some code =>
      refine .known hname hfind ?_
      show (some code, t.insert k name code) = _
      rw [Table.insert_of_find? hfind]
    | none =>
      cases hlender : t.lender? k name with
      | some l => exact .lent hname hfind hlender rfl
      | none =>
        obtain ⟨n, hmint, hcounter, hpassed, hfree⟩ := t.mint_eq k s.codec s.whitelist
        refine .minted hname hfind hlender hcounter hpassed hfree ?_
        simp only [Option.map_none, hmint]

/-! ### Growth -/

variable {s}

theorem growsTo_assign (k : Kind) (name : Text) (t : Table) :
    t.GrowsTo (s.assign k name t).2 := by
  cases s.outcome k name t with
  | declined _ hresult | known _ _ hresult =>
    rw [hresult]
    exact .refl t
  | lent _ hfind _ hresult =>
    rw [hresult]
    exact .insert _ hfind
  | @minted n _ hfind _ _ _ _ hresult =>
    rw [hresult]
    exact (Table.GrowsTo.skip t _).trans (.insert _ (by rw [Table.find?_skip, hfind]))

/-- A code is found where it has been assigned. -/
theorem find?_assign {k : Kind} {name code : Text} {t : Table}
    (h : (s.assign k name t).1 = some code) : (s.assign k name t).2.find? k name = some code := by
  cases s.outcome k name t with
  | declined _ hresult =>
    rw [hresult] at h
    cases h
  | known _ hfind hresult =>
    rw [hresult] at h ⊢
    obtain rfl := Option.some.inj h
    exact hfind
  | lent _ hfind _ hresult =>
    rw [hresult] at h ⊢
    obtain rfl := Option.some.inj h
    exact Table.find?_insert _ hfind
  | minted _ hfind _ _ _ _ hresult =>
    rw [hresult] at h ⊢
    obtain rfl := Option.some.inj h
    exact Table.find?_insert _ (by rw [Table.find?_skip, hfind])

theorem assign_isSome (k : Kind) (name : Text) (t : Table) :
    (s.assign k name t).1.isSome = s.renames k name := by
  cases s.outcome k name t with
  | declined hname hresult | known hname _ hresult | lent hname _ _ hresult
  | minted hname _ _ _ _ _ hresult =>
    rw [hresult, hname]
    rfl

variable (s) in
/-- The code of a name as a table has it; nothing is recorded. -/
def lookup (t : Table) (k : Kind) (name : Text) : Option Text :=
  if s.renames k name then t.find? k name else none

/-- **An answer once given is what every later table says.** -/
theorem assign_eq_lookup {k : Kind} {name : Text} {t t' : Table}
    (h : (s.assign k name t).2.GrowsTo t') : (s.assign k name t).1 = s.lookup t' k name := by
  rw [lookup]
  have hsome := s.assign_isSome k name t
  cases hanswer : (s.assign k name t).1 with
  | none =>
    rw [hanswer] at hsome
    rw [← hsome]
    rfl
  | some code =>
    rw [hanswer] at hsome
    rw [← hsome, h.find? (find?_assign hanswer)]
    rfl

/-- Every table on the way to a last one answers as the last one does. -/
theorem foretells_lookup (last : Table) : s.assign.Foretells (·.GrowsTo last) (s.lookup last) :=
  fun k name _ hend =>
    ⟨(growsTo_assign k name _).trans hend, Prod.ext (assign_eq_lookup hend) rfl⟩

/-- What asks for names one after the other returns what the last table foretells. -/
theorem run_of_follows {α : Type} {m : StateM Table α} {a : Table → α}
    {mentions : Table → List Mention}
    (h : ∀ last, s.assign.Follows (·.GrowsTo last) m (a last) (mentions last)) (start : Table) :
    ∃ last, m.run start = (a last, last) := by
  obtain ⟨-, hrun⟩ := h (m.run start).2 start (.refl _)
  have hresult : (m.run start).1 = a (m.run start).2 := congrArg Prod.fst hrun
  exact ⟨(m.run start).2, Prod.ext hresult rfl⟩

/-- A name that gets a code and is not known comes last; nothing else happens to the names. -/
theorem names_assign (k : Kind) (name : Text) (t : Table) (k' : Kind) :
    (s.assign k name t).2.names k' =
      if k' = k ∧ s.renames k name = true ∧ name ∉ t.names k then t.names k' ++ [name]
      else t.names k' := by
  cases s.outcome k name t with
  | declined hname hresult => rw [hresult, if_neg (by simp [hname])]
  | known _ hfind hresult =>
    rw [hresult, if_neg (fun h => h.2.2 (Table.mem_names_of_find? hfind))]
  | lent hname hfind _ hresult =>
    rw [hresult, Table.names_insert _ hfind]
    by_cases hk : k' = k
    · rw [if_pos hk, if_pos ⟨hk, hname, (t.find?_eq_none_iff k name).mp hfind⟩, hk]
    · rw [if_neg hk, if_neg (fun h => hk h.1)]
  | minted hname hfind _ _ _ _ hresult =>
    rw [hresult, Table.names_insert _ (by rw [Table.find?_skip, hfind])]
    by_cases hk : k' = k
    · rw [if_pos hk, if_pos ⟨hk, hname, (t.find?_eq_none_iff k name).mp hfind⟩, hk,
        Table.names_skip]
    · rw [if_neg hk, if_neg (fun h => hk h.1), Table.names_skip]

/-! ### Many requests -/

variable (s) in
/-- The table after requests for names in turn. -/
def assignAll (mentions : List Mention) (t : Table) : Table := s.assign.visit mentions t

/-- The last table is the first one after what has been asked for. -/
theorem eq_assignAll_of_follows {α : Type} {m : StateM Table α} {a : Table → α}
    {mentions : Table → List Mention}
    (h : ∀ last, s.assign.Follows (·.GrowsTo last) m (a last) (mentions last)) {start last : Table}
    {result : α} (hrun : m.run start = (result, last)) :
    result = a last ∧ last = s.assignAll (mentions last) start := by
  have hlast : ((m.run start).2).GrowsTo last := by
    rw [hrun]
    exact .refl last
  obtain ⟨-, heq⟩ := h last start hlast
  exact Prod.mk.inj (hrun.symm.trans heq)

theorem assignAll_append (ms ns : List Mention) (t : Table) :
    s.assignAll (ms ++ ns) t = s.assignAll ns (s.assignAll ms t) :=
  s.assign.visit_append ms ns t

/-- What every request preserves, a run preserves. -/
theorem assignAll_preserves {P : Table → Prop}
    (hstep : ∀ k name t, P t → P (s.assign k name t).2) (mentions : List Mention) {t : Table}
    (h : P t) : P (s.assignAll mentions t) := by
  induction mentions generalizing t with
  | nil => exact h
  | cons m rest ih => exact ih (hstep m.1 m.2 t h)

theorem growsTo_assignAll (mentions : List Mention) (t : Table) :
    t.GrowsTo (s.assignAll mentions t) :=
  assignAll_preserves (fun k name _ h => h.trans (growsTo_assign k name _)) mentions (.refl t)

variable (s) in
/-- The names of a kind that requests add to the known ones, in the order of their first mention. -/
def newNames (k : Kind) (known : List Text) (mentions : List Mention) : List Text :=
  ((mentions.filter fun m => m.1 = k ∧ s.renames k m.2 = true ∧ m.2 ∉ known).map
    Prod.snd).eraseDups

theorem newNames_cons_of_new {k : Kind} {known : List Text} {name : Text}
    (hname : s.renames k name = true) (hnew : name ∉ known) (rest : List Mention) :
    s.newNames k known ((k, name) :: rest) = name :: s.newNames k (known ++ [name]) rest := by
  rw [newNames, List.filter_cons_of_pos (by simp [hname, hnew]), List.map_cons, List.eraseDups_cons,
    List.filter_map, List.filter_filter, newNames]
  congr 3
  refine List.filter_congr fun m _ => ?_
  rw [Bool.eq_iff_iff]
  simp only [Function.comp_apply, Bool.and_eq_true, Bool.not_eq_true', beq_eq_false_iff_ne,
    decide_eq_true_eq, List.mem_append, List.mem_singleton]
  tauto

theorem newNames_cons_of_not {k : Kind} {known : List Text} {m : Mention}
    (h : ¬ (m.1 = k ∧ s.renames k m.2 = true ∧ m.2 ∉ known)) (rest : List Mention) :
    s.newNames k known (m :: rest) = s.newNames k known rest := by
  rw [newNames, List.filter_cons_of_neg (by simpa using h), newNames]

/-- **The names after a run** are those before it and the new ones behind them. -/
theorem names_assignAll (mentions : List Mention) (t : Table) (k : Kind) :
    (s.assignAll mentions t).names k = t.names k ++ s.newNames k (t.names k) mentions := by
  induction mentions generalizing t with
  | nil => exact (List.append_nil _).symm
  | cons m rest ih =>
    show (s.assignAll rest (s.assign m.1 m.2 t).2).names k = _
    rw [ih, names_assign]
    by_cases hnew : m.1 = k ∧ s.renames k m.2 = true ∧ m.2 ∉ t.names k
    · obtain ⟨rfl, hname, hmem⟩ := hnew
      rw [if_pos ⟨rfl, hname, hmem⟩, newNames_cons_of_new hname hmem, List.append_assoc]
      rfl
    · rw [newNames_cons_of_not hnew, if_neg]
      rintro ⟨rfl, hname, hmem⟩
      exact hnew ⟨rfl, hname, hmem⟩

/-- A run adds no names but those it is asked for. -/
theorem mem_names_assignAll {mentions : List Mention} {t : Table} {k : Kind} {name : Text}
    (h : name ∈ (s.assignAll mentions t).names k) : name ∈ t.names k ∨ (k, name) ∈ mentions := by
  rw [names_assignAll, newNames, List.mem_append, List.mem_eraseDups, List.mem_map] at h
  rcases h with hold | ⟨m, hm, rfl⟩
  · exact .inl hold
  · obtain ⟨hmem, hnew⟩ := List.mem_filter.mp hm
    obtain ⟨rfl, -⟩ := of_decide_eq_true hnew
    exact .inr hmem

/-- Every name that is asked for and gets a code at all has one at the end. -/
theorem exists_find?_assignAll {mentions : List Mention} {k : Kind} {name : Text}
    (hmem : (k, name) ∈ mentions) (hname : s.renames k name = true) (t : Table) :
    ∃ code, (s.assignAll mentions t).find? k name = some code := by
  have hnames : name ∈ (s.assignAll mentions t).names k := by
    rw [names_assignAll, newNames, List.mem_append, List.mem_eraseDups, List.mem_map]
    by_cases hknown : name ∈ t.names k
    · exact .inl hknown
    · exact .inr ⟨(k, name), List.mem_filter.mpr ⟨hmem, by simp [hname, hknown]⟩, rfl⟩
  cases hfind : (s.assignAll mentions t).find? k name with
  | none => exact absurd hnames ((Table.find?_eq_none_iff _ k name).mp hfind)
  | some code => exact ⟨code, rfl⟩

/-- The answer in the middle of a run is what the table at its end says. -/
theorem assign_eq_lookup_assignAll (k : Kind) (name : Text) (before after : List Mention)
    (t : Table) : (s.assign k name (s.assignAll before t)).1 =
      s.lookup (s.assignAll (before ++ (k, name) :: after) t) k name := by
  apply assign_eq_lookup
  rw [assignAll_append]
  exact growsTo_assignAll after _

end Shortener
end TerseMarkup
