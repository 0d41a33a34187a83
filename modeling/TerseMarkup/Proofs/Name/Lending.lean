import TerseMarkup.Name.Table
import TerseMarkup.Proofs.Text.Occurrence

/-! Which entry lends its code to a name.

`within?` returns a text; a `Loan` says how it came about: which entry lent its code, and what
stands around the lender's name. The first entry whose name occurs lends, so a lender itself has no
earlier entry's name in it and is its own lender (`lender?_lender`): no code is lent twice over. -/
namespace TerseMarkup

/-- A code lent to a name, which is `before ++ lender ++ after`. -/
structure Loan where
  lender : Text
  code : Text
  before : Text
  after : Text
deriving DecidableEq, Repr

namespace Loan

def text (l : Loan) : Text := l.before ++ l.code ++ l.after

/-- What an entry lends to its own name. -/
def whole (name code : Text) : Loan := ⟨name, code, [], []⟩

@[simp] theorem text_whole (name code : Text) : (whole name code).text = code := by
  simp [text, whole]

/-- What an entry lends to a name, if its own name occurs there. -/
def of? (name : Text) : Text × Text → Option Loan
  | (lender, code) =>
    if lender.isEmpty then none
    else (Text.cut? lender name).map fun (before, after) => { lender, code, before, after }

theorem of?_eq_some {name : Text} {entry : Text × Text} {l : Loan} (h : of? name entry = some l) :
    entry = (l.lender, l.code) ∧ l.lender ≠ [] ∧ name = l.before ++ l.lender ++ l.after := by
  obtain ⟨lender, code⟩ := entry
  cases lender with
  | nil => simp [of?] at h
  | cons c lender =>
    obtain ⟨⟨before, after⟩, hcut, rfl⟩ := Option.map_eq_some_iff.mp h
    exact ⟨rfl, List.cons_ne_nil _ _, Text.cut?_eq_some hcut⟩

theorem of?_eq_none_iff (name : Text) (entry : Text × Text) :
    of? name entry = none ↔ entry.1 = [] ∨ ¬ entry.1 <:+: name := by
  obtain ⟨lender, code⟩ := entry
  rw [← Text.cut?_eq_none_iff]
  cases lender <;> simp [of?]

theorem of?_whole {name : Text} (code : Text) (h : name ≠ []) :
    of? name (name, code) = some (whole name code) := by
  cases name with
  | nil => exact absurd rfl h
  | cons c name =>
    show (Text.cut? (c :: name) (c :: name)).map _ = _
    rw [Text.cut?_self]
    rfl

end Loan

namespace Entries

/-! ### Entries by their own name -/

theorem get?_eq_none_iff (e : Entries) (name : Text) :
    e.get? name = none ↔ name ∉ e.map Prod.fst := by
  rw [get?, List.lookup_eq_none_iff, List.mem_map]
  constructor
  · rintro h ⟨entry, hmem, rfl⟩
    exact absurd (h entry hmem) (by simp)
  · intro h entry hmem
    exact bne_iff_ne.mpr fun he => h ⟨entry, hmem, he.symm⟩

theorem mem_of_get? {e : Entries} {name code : Text} (h : e.get? name = some code) :
    (name, code) ∈ e := by
  obtain ⟨earlier, later, rfl, _⟩ := List.lookup_eq_some_iff.mp h
  exact List.mem_append_right _ (List.mem_cons_self ..)

/-- Putting a known name with its code changes nothing. -/
theorem put_of_get? {e : Entries} {name code : Text} (h : e.get? name = some code) :
    e.put name code = e := by
  induction e with
  | nil => cases h
  | cons entry rest ih =>
    obtain ⟨n, c⟩ := entry
    rw [put]
    by_cases hn : n = name
    · subst hn
      have hc : c = code := by simpa [get?] using h
      rw [if_pos rfl, hc]
    · have hne : (name == n) = false := beq_eq_false_iff_ne.mpr (Ne.symm hn)
      have hrest : get? rest name = some code := by simpa [get?, List.lookup_cons, hne] using h
      rw [if_neg hn, ih hrest]

/-- An unknown name goes behind the others. -/
theorem put_of_get?_eq_none {e : Entries} {name : Text} (code : Text) (h : e.get? name = none) :
    e.put name code = e ++ [(name, code)] := by
  induction e with
  | nil => rfl
  | cons entry rest ih =>
    obtain ⟨n, c⟩ := entry
    obtain ⟨hn, hrest⟩ : name ≠ n ∧ name ∉ rest.map Prod.fst := by
      simpa [get?_eq_none_iff] using (get?_eq_none_iff _ _).mp h
    rw [put, if_neg (Ne.symm hn), ih ((get?_eq_none_iff _ _).mpr hrest)]
    rfl

theorem get?_append_of_some {e : Entries} {name code : Text} (h : e.get? name = some code)
    (later : Entries) : get? (e ++ later) name = some code := by
  rw [get?, List.lookup_append]
  rw [get?] at h
  rw [h]
  rfl

theorem get?_append_self {e : Entries} {name : Text} (code : Text) (h : e.get? name = none) :
    get? (e ++ [(name, code)]) name = some code := by
  rw [get?, List.lookup_append]
  rw [get?] at h
  rw [h]
  simp

/-! ### Entries by a name in which theirs occurs -/

/-- The loan that a name takes. -/
def lender? (e : Entries) (name : Text) : Option Loan := e.findSome? (Loan.of? name)

theorem within?_eq (e : Entries) (name : Text) :
    e.within? name = (e.lender? name).map Loan.text := by
  rw [within?, lender?, List.map_findSome?]
  congr 1
  funext ⟨lender, code⟩
  cases lender with
  | nil => rfl
  | cons c lender =>
    simp [Loan.of?, Text.replaceFirst?, Loan.text, Option.map_map, Function.comp_def]

theorem lender?_append (e later : Entries) (name : Text) :
    lender? (e ++ later) name = (e.lender? name).or (later.lender? name) :=
  List.findSome?_append

theorem lender?_append_of_some {e : Entries} {name : Text} {l : Loan} (h : e.lender? name = some l)
    (later : Entries) : lender? (e ++ later) name = some l := by
  rw [lender?_append, h]
  rfl

theorem lender?_eq_none_iff (e : Entries) (name : Text) :
    e.lender? name = none ↔ ∀ entry ∈ e, entry.1 = [] ∨ ¬ entry.1 <:+: name := by
  rw [lender?, List.findSome?_eq_none_iff]
  exact forall₂_congr fun entry _ => Loan.of?_eq_none_iff name entry

/-- A loan puts the name together again, and its lender is an entry. -/
theorem lender?_eq_some {e : Entries} {name : Text} {l : Loan} (h : e.lender? name = some l) :
    (l.lender, l.code) ∈ e ∧ l.lender ≠ [] ∧ name = l.before ++ l.lender ++ l.after := by
  obtain ⟨earlier, entry, later, rfl, hentry, _⟩ := List.findSome?_eq_some_iff.mp h
  obtain ⟨rfl, hne, hname⟩ := Loan.of?_eq_some hentry
  exact ⟨List.mem_append_right _ (List.mem_cons_self ..), hne, hname⟩

/-- A part of a name without a lender has none either. -/
theorem lender?_eq_none_of_infix {e : Entries} {part name : Text} (hpart : part <:+: name)
    (h : e.lender? name = none) : e.lender? part = none := by
  rw [lender?_eq_none_iff] at h ⊢
  intro entry hmem
  exact (h entry hmem).imp id fun hno hocc => hno (hocc.trans hpart)

/-- **A lender is its own lender**, so its code is none that it has been lent. -/
theorem lender?_lender {e : Entries} {name : Text} {l : Loan} (h : e.lender? name = some l) :
    e.lender? l.lender = some (.whole l.lender l.code) := by
  obtain ⟨earlier, entry, later, rfl, hentry, hearlier⟩ := List.findSome?_eq_some_iff.mp h
  obtain ⟨rfl, hne, hname⟩ := Loan.of?_eq_some hentry
  have hocc : l.lender <:+: name := ⟨l.before, l.after, hname.symm⟩
  have hnone : lender? earlier l.lender = none :=
    lender?_eq_none_of_infix hocc (List.findSome?_eq_none_iff.mpr hearlier)
  rw [lender?_append, hnone, Option.none_or, lender?, List.findSome?_cons, Loan.of?_whole _ hne]

end Entries
end TerseMarkup
