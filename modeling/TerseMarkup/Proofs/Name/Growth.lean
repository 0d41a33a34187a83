import TerseMarkup.Proofs.Name.Lending

/-! How a table grows.

An insertion either changes nothing, if the name is known under the code, or puts one entry behind
the others (`entries_insert`). What a table says about a name it therefore keeps saying: `GrowsTo`
is that relation between an earlier table and a later one. -/
namespace TerseMarkup.Table

/-- The names of a kind, in the order of their first insertion. -/
def names (t : Table) (k : Kind) : List Text := (t.entries k).map Prod.fst

/-- The loan that a name takes from the entries of its kind. -/
def lender? (t : Table) (k : Kind) (name : Text) : Option Loan := (t.entries k).lender? name

theorem findWithin?_eq (t : Table) (k : Kind) (name : Text) :
    t.findWithin? k name = (t.lender? k name).map Loan.text :=
  Entries.within?_eq (t.entries k) name

theorem find?_eq_none_iff (t : Table) (k : Kind) (name : Text) :
    t.find? k name = none ↔ name ∉ t.names k :=
  Entries.get?_eq_none_iff (t.entries k) name

theorem mem_names_of_find? {t : Table} {k : Kind} {name code : Text}
    (h : t.find? k name = some code) : name ∈ t.names k :=
  List.mem_map_of_mem (Entries.mem_of_get? h)

@[simp] theorem entries_empty (k : Kind) : empty.entries k = [] := by cases k <;> rfl

@[simp] theorem entries_skip (t : Table) (n : Nat) (k : Kind) :
    { t with skipped := n }.entries k = t.entries k := by cases k <;> rfl

@[simp] theorem find?_skip (t : Table) (n : Nat) (k : Kind) (name : Text) :
    { t with skipped := n }.find? k name = t.find? k name := by
  rw [find?, find?, entries_skip]

@[simp] theorem names_skip (t : Table) (n : Nat) (k : Kind) :
    { t with skipped := n }.names k = t.names k := by
  rw [names, names, entries_skip]

@[simp] theorem lender?_skip (t : Table) (n : Nat) (k : Kind) (name : Text) :
    { t with skipped := n }.lender? k name = t.lender? k name := by
  rw [lender?, lender?, entries_skip]

/-! ### Insertion -/

theorem insert_of_find? {t : Table} {k : Kind} {name code : Text} (h : t.find? k name = some code) :
    t.insert k name code = t := by
  cases k with
  | className =>
    have hput : t.classes.put name code = t.classes := Entries.put_of_get? h
    show { t with classes := t.classes.put name code } = t
    rw [hput]
  | id =>
    have hput : t.ids.put name code = t.ids := Entries.put_of_get? h
    show { t with ids := t.ids.put name code } = t
    rw [hput]

/-- An unknown name goes behind the others of its kind. -/
theorem entries_insert {t : Table} {k : Kind} {name : Text} (code : Text)
    (h : t.find? k name = none) (k' : Kind) :
    (t.insert k name code).entries k' =
      if k' = k then t.entries k ++ [(name, code)] else t.entries k' := by
  cases k with
  | className => cases k' with
    | className => exact Entries.put_of_get?_eq_none code h
    | id => rfl
  | id => cases k' with
    | className => rfl
    | id => exact Entries.put_of_get?_eq_none code h

theorem entries_insert_self {t : Table} {k : Kind} {name : Text} (code : Text)
    (h : t.find? k name = none) :
    (t.insert k name code).entries k = t.entries k ++ [(name, code)] := by
  rw [entries_insert code h, if_pos rfl]

theorem entries_insert_of_ne {t : Table} {k k' : Kind} {name : Text} (code : Text)
    (h : t.find? k name = none) (hk : k' ≠ k) :
    (t.insert k name code).entries k' = t.entries k' := by
  rw [entries_insert code h, if_neg hk]

theorem find?_insert {t : Table} {k : Kind} {name : Text} (code : Text)
    (h : t.find? k name = none) : (t.insert k name code).find? k name = some code := by
  rw [find?, entries_insert_self code h]
  exact Entries.get?_append_self code h

/-- What is found after an insertion is the new entry or was found before. -/
theorem find?_insert_cases {t : Table} {k : Kind} {name code : Text} (h : t.find? k name = none)
    {k' : Kind} {name' code' : Text}
    (hfind : (t.insert k name code).find? k' name' = some code') :
    (k' = k ∧ name' = name ∧ code' = code) ∨ t.find? k' name' = some code' := by
  by_cases hk : k' = k
  · subst hk
    rw [find?, entries_insert_self code h, Entries.get?, List.lookup_append] at hfind
    rw [find?, Entries.get?]
    cases hold : (t.entries k').lookup name' with
    | some c =>
      rw [hold] at hfind
      exact .inr hfind
    | none =>
      rw [hold, Option.none_or] at hfind
      obtain ⟨rfl, rfl⟩ := Prod.mk.inj (List.mem_singleton.mp (Entries.mem_of_get? hfind))
      exact .inl ⟨rfl, rfl, rfl⟩
  · rw [find?, entries_insert_of_ne code h hk] at hfind
    exact .inr hfind

theorem names_insert {t : Table} {k : Kind} {name : Text} (code : Text)
    (h : t.find? k name = none) (k' : Kind) :
    (t.insert k name code).names k' = if k' = k then t.names k ++ [name] else t.names k' := by
  rw [names, entries_insert code h]
  split
  · rw [List.map_append]
    rfl
  · rfl

theorem size_insert {t : Table} {k : Kind} {name : Text} (code : Text)
    (h : t.find? k name = none) : (t.insert k name code).size = t.size + 1 := by
  cases k with
  | className =>
    have hput : t.classes.put name code = t.classes ++ [(name, code)] :=
      Entries.put_of_get?_eq_none code h
    show (t.classes.put name code).length + t.ids.length = t.classes.length + t.ids.length + 1
    rw [hput, List.length_append, List.length_singleton, Nat.add_right_comm]
  | id =>
    have hput : t.ids.put name code = t.ids ++ [(name, code)] := Entries.put_of_get?_eq_none code h
    show t.classes.length + (t.ids.put name code).length = t.classes.length + t.ids.length + 1
    rw [hput, List.length_append, List.length_singleton, Nat.add_assoc]

theorem skipped_insert (t : Table) (k : Kind) (name code : Text) :
    (t.insert k name code).skipped = t.skipped := by cases k <;> rfl

/-- A new entry moves the counter on by one. -/
theorem counter_insert {t : Table} {k : Kind} {name : Text} (code : Text)
    (h : t.find? k name = none) : (t.insert k name code).counter = t.counter + 1 := by
  rw [counter, size_insert code h, skipped_insert, counter]
  omega

theorem counter_skip (t : Table) {n : Nat} (h : t.counter ≤ n) :
    { t with skipped := n - t.size }.counter = n := by
  show t.size + (n - t.size) = n
  rw [counter] at h
  omega

/-! ### Earlier and later tables -/

/-- The later table has all entries of the earlier one in their places, and perhaps more. -/
def GrowsTo (t t' : Table) : Prop := ∀ k, t.entries k <+: t'.entries k

namespace GrowsTo

theorem refl (t : Table) : t.GrowsTo t := fun k => List.prefix_refl (t.entries k)

theorem trans {t t' t'' : Table} (h : t.GrowsTo t') (h' : t'.GrowsTo t'') : t.GrowsTo t'' :=
  fun k => (h k).trans (h' k)

theorem find? {t t' : Table} (h : t.GrowsTo t') {k : Kind} {name code : Text}
    (hfind : t.find? k name = some code) : t'.find? k name = some code := by
  obtain ⟨later, hlater⟩ := h k
  rw [Table.find?, ← hlater]
  exact Entries.get?_append_of_some hfind later

theorem lender? {t t' : Table} (h : t.GrowsTo t') {k : Kind} {name : Text} {l : Loan}
    (hl : t.lender? k name = some l) : t'.lender? k name = some l := by
  obtain ⟨later, hlater⟩ := h k
  rw [Table.lender?, ← hlater]
  exact Entries.lender?_append_of_some hl later

theorem skip (t : Table) (n : Nat) : t.GrowsTo { t with skipped := n } := fun k => by
  rw [entries_skip t n k]

theorem insert {t : Table} {k : Kind} {name : Text} (code : Text) (h : t.find? k name = none) :
    t.GrowsTo (t.insert k name code) := fun k' => by
  rw [entries_insert code h]
  split
  · rename_i hk
    rw [hk]
    exact List.prefix_append _ _
  · exact List.prefix_refl _

end GrowsTo
end TerseMarkup.Table
