import TerseMarkup.Proofs.Assignment.Repetition
import TerseMarkup.Proofs.History

/-! What the salt changes.

Two shorteners with different salts meet the same requests. Their codes differ, and with a whitelist
the counters that they pass over differ as well, but neither is ever looked at again: what a request
comes to is decided by the whitelist and by the names met before it. So tables that have the same
names (`Table.SameNames`) answer a request in the same way (`alike_way`) and keep having the same
names (`sameNames_assign`). With nothing exempt the counters are the same too (`way_eq`). -/
namespace TerseMarkup

/-- How a request comes by its answer. -/
inductive Way
  /-- The name is empty or exempt. -/
  | declined
  /-- The name has its code already. -/
  | known
  /-- The name is `before ++ lender ++ after` and takes the code of `lender`. -/
  | lent (lender before after : Text)
  /-- The name gets a code of its own. -/
  | minted (counter : Nat)
deriving DecidableEq, Repr

/-- The same way, at whatever counters codes are minted. -/
def Way.Alike : Way → Way → Prop
  | .minted _, .minted _ => True
  | way, way' => way = way'

theorem Way.Alike.refl (way : Way) : way.Alike way := by
  cases way with
  | declined | known | lent => rfl
  | minted => trivial

namespace Loan

def way (l : Loan) : Way := .lent l.lender l.before l.after

/-- How a name comes by the code of `lender`, whatever that code is. -/
def way? (name lender : Text) : Option Way :=
  if lender.isEmpty then none
  else (Text.cut? lender name).map fun (before, after) => .lent lender before after

theorem map_way_of? (name : Text) (entry : Text × Text) :
    (of? name entry).map way = way? name entry.1 := by
  obtain ⟨lender, code⟩ := entry
  rw [of?, way?]
  split
  · rfl
  · rw [Option.map_map]
    rfl

end Loan

/-- **Which name lends, and where it stands, is decided by the names alone.** -/
theorem Entries.map_way_lender? (e : Entries) (name : Text) :
    (e.lender? name).map Loan.way = (e.map Prod.fst).findSome? (Loan.way? name) := by
  rw [lender?, List.map_findSome?, List.findSome?_map]
  exact congrArg (e.findSome? ·) (funext (Loan.map_way_of? name))

namespace Table

/-- Tables with the same names in the same order. -/
def SameNames (t t' : Table) : Prop := ∀ k, t.names k = t'.names k

theorem isSome_find? (t : Table) (k : Kind) (name : Text) :
    (t.find? k name).isSome = decide (name ∈ t.names k) := by
  rw [Bool.eq_iff_iff, decide_eq_true_iff, ← Option.ne_none_iff_isSome, Ne, find?_eq_none_iff,
    not_not]

theorem size_eq (t : Table) : t.size = (t.names .className).length + (t.names .id).length := by
  rw [names, names, List.length_map, List.length_map]
  rfl

namespace SameNames

variable {t t' : Table} (h : t.SameNames t')
include h

theorem isSome_find? (k : Kind) (name : Text) :
    (t.find? k name).isSome = (t'.find? k name).isSome := by
  rw [Table.isSome_find?, Table.isSome_find?, h k]

theorem map_way_lender? (k : Kind) (name : Text) :
    (t.lender? k name).map Loan.way = (t'.lender? k name).map Loan.way := by
  have hnames : (t.entries k).map Prod.fst = (t'.entries k).map Prod.fst := h k
  rw [lender?, lender?, Entries.map_way_lender?, Entries.map_way_lender?, hnames]

theorem size_eq : t.size = t'.size := by
  rw [Table.size_eq, Table.size_eq, h .className, h .id]

end SameNames
end Table

namespace Shortener

/-! ### One request -/

/-- What a request on this way finds, and what it results in. -/
inductive Takes (s : Shortener) (k : Kind) (name : Text) (t : Table) :
    Way → Option Text × Table → Prop
  | declined (hname : s.renames k name = false) : Takes s k name t .declined (none, t)
  | known {code : Text} (hname : s.renames k name = true) (hfind : t.find? k name = some code) :
      Takes s k name t .known (some code, t)
  | lent {lender code before after : Text} (hname : s.renames k name = true)
      (hfind : t.find? k name = none)
      (hlender : t.lender? k name = some { lender, code, before, after }) :
      Takes s k name t (.lent lender before after)
        (some (before ++ code ++ after), t.insert k name (before ++ code ++ after))
  | minted {n : Nat} (hname : s.renames k name = true) (hfind : t.find? k name = none)
      (hlender : t.lender? k name = none) (hcounter : t.counter ≤ n)
      (hpassed : ∀ m, t.counter ≤ m → m < n → s.whitelist.contains k (s.codec.encode m) = true)
      (hfree : s.whitelist.contains k (s.codec.encode n) = false) :
      Takes s k name t (.minted n) (some (s.codec.encode n),
        { t with skipped := n - t.size }.insert k name (s.codec.encode n))

/-- The way that a request takes. -/
def way (s : Shortener) (k : Kind) (name : Text) (t : Table) : Way :=
  if s.renames k name = false then .declined
  else if (t.find? k name).isSome then .known
  else ((t.lender? k name).map Loan.way).getD (.minted (t.minted k s.codec s.whitelist))

theorem takes_way {s : Shortener} (hc : s.codec.Distinct) (k : Kind) (name : Text) (t : Table) :
    s.Takes k name t (s.way k name t) (s.assign k name t) := by
  cases hname : s.renames k name with
  | false =>
    rw [way, if_pos hname, assign_of_not_renames hname]
    exact .declined hname
  | true =>
    rw [way, if_neg (ne_false_of_eq_true hname), assign_of_renames hname]
    cases hfind : t.find? k name with
    | some code =>
      rw [Table.resolve, hfind]
      show s.Takes k name t .known (some code, t.insert k name code)
      rw [Table.insert_of_find? hfind]
      exact .known hname hfind
    | none =>
      cases hlender : t.lender? k name with
      | some l =>
        rw [Table.resolve, hfind, Table.findWithin?_eq, hlender]
        exact .lent hname hfind hlender
      | none =>
        have hknows : t.knows k name = false := by
          rw [Table.knows, hfind, Table.findWithin?_eq, hlender]
          rfl
        rw [Table.resolve_of_not_knows hknows, Table.mint_eq_minted]
        exact .minted hname hfind hlender (t.counter_le_minted k _ _)
          (fun m hm hlt => Table.exempt_of_mem_passed (Table.mem_passed.mpr ⟨hm, hlt⟩))
          (Table.minted_free hc)

section Pair

variable {s s' : Shortener} {t t' : Table} (hw : s.whitelist = s'.whitelist)
include hw

theorem renames_congr (k : Kind) (name : Text) : s.renames k name = s'.renames k name := by
  rw [renames, renames, hw]

/-- **Tables with the same names answer a request in the same way.** -/
theorem alike_way (h : t.SameNames t') (k : Kind) (name : Text) :
    (s.way k name t).Alike (s'.way k name t') := by
  rw [way, way, renames_congr hw, h.isSome_find?, h.map_way_lender?]
  split
  · exact .refl _
  · split
    · exact .refl _
    · cases (t'.lender? k name).map Loan.way with
      | some way => exact .refl way
      | none => trivial

/-- **A request leaves the same names behind**, whatever the codes are. -/
theorem sameNames_assign (h : t.SameNames t') (k : Kind) (name : Text) :
    (s.assign k name t).2.SameNames (s'.assign k name t').2 := by
  intro k'
  rw [names_assign, names_assign, h k, h k', renames_congr hw]

/-! ### Many requests -/

theorem sameNames_assignAll (h : t.SameNames t') (mentions : List Mention) :
    (s.assignAll mentions t).SameNames (s'.assignAll mentions t') := by
  induction mentions generalizing t t' with
  | nil => exact h
  | cons m rest ih => exact ih (sameNames_assign hw h m.1 m.2)

end Pair

section NothingExempt

variable {s : Shortener} (hempty : s.whitelist = {})
include hempty

/-- With nothing exempt, no counter is passed over. -/
theorem skipped_assign (k : Kind) (name : Text) (t : Table) :
    (s.assign k name t).2.skipped = t.skipped := by
  cases s.outcome k name t with
  | declined _ hresult | known _ _ hresult => rw [hresult]
  | lent _ _ _ hresult =>
    rw [hresult]
    exact Table.skipped_insert ..
  | minted _ _ _ hcounter hpassed _ hresult =>
    obtain rfl := eq_counter_of_minted hempty hcounter hpassed
    rw [hresult, Table.skip_counter]
    exact Table.skipped_insert ..

theorem skipped_assignAll_eq_zero (mentions : List Mention) :
    (s.assignAll mentions .empty).skipped = 0 :=
  assignAll_preserves (P := (·.skipped = 0))
    (fun k name t h => (skipped_assign hempty k name t).trans h) mentions rfl

/-- With nothing exempt, a code is minted at the table's counter. -/
theorem minted_eq_counter (k : Kind) (t : Table) :
    t.minted k s.codec s.whitelist = t.counter :=
  (eq_counter_of_minted hempty (t.counter_le_minted k _ _)
    fun _ hm hlt => Table.exempt_of_mem_passed (Table.mem_passed.mpr ⟨hm, hlt⟩)).symm

end NothingExempt

/-- **With nothing exempt, codes are minted at the same counters**, if tables have the same names
and have passed over as many counters. -/
theorem way_eq {s s' : Shortener} {t t' : Table} (hempty : s.whitelist = {})
    (hempty' : s'.whitelist = {}) (h : t.SameNames t') (hskipped : t.skipped = t'.skipped)
    (k : Kind) (name : Text) : s.way k name t = s'.way k name t' := by
  have hcounter : t.counter = t'.counter := by
    rw [Table.counter, Table.counter, h.size_eq, hskipped]
  rw [way, way, renames_congr (hempty.trans hempty'.symm), h.isSome_find?, h.map_way_lender?,
    minted_eq_counter hempty, minted_eq_counter hempty', hcounter]

/-- **The salt changes how codes are spelled and nothing else.** After the same requests, tables
filled under two salts have the same names in the same order, and a further request is declined
under both or under neither. It takes the same way: the name is known, is lent the code of the same
name at the same place, or gets a code of its own, at the same counter if nothing is exempt. -/
theorem way_of_salts (whitelist : Whitelist) (salt salt' : Text) (before : List Mention) (k : Kind)
    (name : Text) :
    let s := ofSettings { salt, whitelist }
    let s' := ofSettings { salt := salt', whitelist }
    let t := s.assignAll before .empty
    let t' := s'.assignAll before .empty
    (∀ k, t.names k = t'.names k) ∧
      ((s.assign k name t).1 = none ↔ (s'.assign k name t').1 = none) ∧
      s.Takes k name t (s.way k name t) (s.assign k name t) ∧
      s'.Takes k name t' (s'.way k name t') (s'.assign k name t') ∧
      (s.way k name t).Alike (s'.way k name t') ∧
      (whitelist = {} → s.way k name t = s'.way k name t') := by
  intro s s' t t'
  have hw : s.whitelist = s'.whitelist := rfl
  have hsame : t.SameNames t' := sameNames_assignAll hw (fun _ => rfl) before
  refine ⟨hsame, ?_, takes_way (Codec.distinct_ofSalt salt) k name t,
    takes_way (Codec.distinct_ofSalt salt') k name t', alike_way hw hsame k name, fun hempty => ?_⟩
  · rw [← Option.isNone_iff_eq_none, ← Option.isNone_iff_eq_none, ← Option.not_isSome,
      ← Option.not_isSome, assign_isSome, assign_isSome, renames_congr hw]
  · have hskipped := (skipped_assignAll_eq_zero (s := s) hempty before).trans
      (skipped_assignAll_eq_zero (s := s') hempty before).symm
    exact way_eq hempty hempty hsame hskipped k name

/-- With `.a` exempt, one salt passes the first counter over and the other does not. -/
example :
    let whitelist : Whitelist := ⟨[['.', 'a']]⟩
    let s := ofSettings { salt := [], whitelist }
    let s' := ofSettings { salt := ['s'], whitelist }
    s.way .className ['x'] .empty = .minted 1 ∧ s'.way .className ['x'] .empty = .minted 0 := by
  decide +kernel

end Shortener
end TerseMarkup
