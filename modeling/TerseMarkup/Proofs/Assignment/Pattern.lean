import TerseMarkup.Proofs.Assignment.Origin

/-! When a pattern keeps matching the names that it matched.

A selector may look for a part of a name, and after the exchange it looks for the part's code. That
goes well where the name holds the part around the very occurrence that is exchanged (`Carries`).
The part's code may also turn up in the name's by coincidence (`Coincides`). There is no third way
(`text_infix_iff`), so these two say when the exchange keeps a pattern (`pattern_kept_iff`). -/
namespace TerseMarkup

namespace Table

/-- The name holds the part around the occurrence that is exchanged in both. -/
def Carries (t : Table) (k : Kind) (part name : Text) : Prop :=
  ∃ x y, t.lender? k part = some x ∧ t.lender? k name = some y ∧ x.lender = y.lender ∧
    x.before <:+ y.before ∧ x.after <+: y.after

/-- The code of the part occurs in the code of the name, but not around the code that both have been
lent. -/
def Coincides (t : Table) (k : Kind) (part name : Text) : Prop :=
  ∃ x y front back, t.lender? k part = some x ∧ t.lender? k name = some y ∧
    y.text = front ++ x.text ++ back ∧ ¬ (x.lender = y.lender ∧ front ++ x.before = y.before)

variable {t : Table} {k : Kind}

theorem code_eq_of_lender_eq {v c : Text} {x y : Loan} (hx : t.lender? k v = some x)
    (hy : t.lender? k c = some y) (h : x.lender = y.lender) : x.code = y.code := by
  have hx' := root_of_lender? hx
  have hy' := root_of_lender? hy
  rw [Root, h, hy'] at hx'
  exact (congrArg Loan.code (Option.some.inj hx')).symm

/-- What carries a part holds it. -/
theorem Carries.infix {v c : Text} (h : t.Carries k v c) : v <:+: c := by
  obtain ⟨x, y, hx, hy, hlender, ⟨front, hfront⟩, ⟨back, hback⟩⟩ := h
  refine ⟨front, back, ?_⟩
  rw [(Entries.lender?_eq_some hx).2.2, (Entries.lender?_eq_some hy).2.2, ← hfront, ← hback,
    hlender]
  simp only [List.append_assoc]

/-- **The code of a part occurs in the code of a name in two ways**: carried or by coincidence. -/
theorem text_infix_iff {v c : Text} {x y : Loan} (hx : t.lender? k v = some x)
    (hy : t.lender? k c = some y) : x.text <:+: y.text ↔ t.Carries k v c ∨ t.Coincides k v c := by
  constructor
  · rintro ⟨front, back, htext⟩
    by_cases hplace : x.lender = y.lender ∧ front ++ x.before = y.before
    · obtain ⟨hlender, hfront⟩ := hplace
      have hcode := code_eq_of_lender_eq hx hy hlender
      have hback : x.after ++ back = y.after := by
        simpa only [Loan.text, hcode, ← hfront, List.append_assoc, List.append_cancel_left_eq]
          using htext
      exact .inl ⟨x, y, hx, hy, hlender, ⟨front, hfront⟩, ⟨back, hback⟩⟩
    · exact .inr ⟨x, y, front, back, hx, hy, htext.symm, hplace⟩
  · rintro (⟨x', y', hx', hy', hlender, ⟨front, hfront⟩, ⟨back, hback⟩⟩ |
      ⟨x', y', front, back, hx', hy', htext, _⟩)
    · obtain rfl := Option.some.inj (hx.symm.trans hx')
      obtain rfl := Option.some.inj (hy.symm.trans hy')
      refine ⟨front, back, ?_⟩
      simp only [Loan.text, code_eq_of_lender_eq hx hy hlender, ← hfront, ← hback,
        List.append_assoc]
    · obtain rfl := Option.some.inj (hx.symm.trans hx')
      obtain rfl := Option.some.inj (hy.symm.trans hy')
      exact ⟨front, back, htext.symm⟩

end Table

namespace Shortener

variable {s : Shortener}

/-- A name that is asked for again has the code that a later table tells of its loan. -/
theorem Assigned.exists_lender {t t' : Table} (h : s.Assigned t') {k : Kind} {name : Text}
    (hname : s.renames k name = true) (hgrows : (s.assign k name t).2.GrowsTo t') :
    ∃ l, (s.assign k name t).1 = some l.text ∧ t'.lender? k name = some l := by
  have hsome := s.assign_isSome k name t
  rw [hname] at hsome
  obtain ⟨code, hcode⟩ := Option.isSome_iff_exists.mp hsome
  obtain ⟨l, hl, rfl⟩ := h.lent k name code (hgrows.find? (find?_assign hcode))
  exact ⟨l, hcode, hl⟩

/-- **A pattern keeps matching a name exactly if** a name that held the part carries it, or has its
code by coincidence, and no other name has its code by coincidence. -/
theorem pattern_kept_iff (salt : Text) (before middle : List Mention) (k : Kind) (v c : Text)
    (hv : v ≠ []) (hc : c ≠ []) :
    let s := ofSettings { salt }
    let tv := s.assignAll before .empty
    let tc := s.assignAll (before ++ (k, v) :: middle) .empty
    let t := (s.assign k c tc).2
    ∃ cv cc, (s.assign k v tv).1 = some cv ∧ (s.assign k c tc).1 = some cc ∧
      ((cv <:+: cc ↔ v <:+: c) ↔
        (v <:+: c → t.Carries k v c ∨ t.Coincides k v c) ∧ (t.Coincides k v c → v <:+: c)) := by
  intro s tv tc t
  have hassigned : s.Assigned t := assigned_assign k c tc (assigned_assignAll _)
  have hrenames (name : Text) (hname : name ≠ []) : s.renames k name = true :=
    (s.renames_iff k name).mpr ⟨hname, rfl⟩
  have hgrows : (s.assign k v tv).2.GrowsTo t := by
    have hmiddle : tc = s.assignAll middle (s.assign k v tv).2 := assignAll_append before _ .empty
    refine .trans ?_ (growsTo_assign k c tc)
    rw [hmiddle]
    exact growsTo_assignAll middle _
  obtain ⟨x, hcv, hx⟩ := hassigned.exists_lender (hrenames v hv) hgrows
  obtain ⟨y, hcc, hy⟩ := hassigned.exists_lender (hrenames c hc) (.refl t)
  refine ⟨x.text, y.text, hcv, hcc, ?_⟩
  rw [Table.text_infix_iff hx hy]
  constructor
  · intro hkept
    exact ⟨hkept.mpr, fun hco => hkept.mp (.inr hco)⟩
  · rintro ⟨hheld, hother⟩
    exact ⟨fun h => h.elim Table.Carries.infix hother, hheld⟩

theorem pattern_kept_iff_x :
    (['x'] : Text) ≠ [] ∧ (['y', 'x'] : Text) ≠ [] ∧
      let s := ofSettings { salt := [] }
      let tv := s.assignAll [] .empty
      let tc := s.assignAll [(.className, ['x'])] .empty
      let t := (s.assign .className ['y', 'x'] tc).2
      ∃ cv cc, (s.assign .className ['x'] tv).1 = some cv ∧
        (s.assign .className ['y', 'x'] tc).1 = some cc ∧
        ((cv <:+: cc ↔ ['x'] <:+: ['y', 'x']) ↔
          (['x'] <:+: ['y', 'x'] → t.Carries .className ['x'] ['y', 'x'] ∨
            t.Coincides .className ['x'] ['y', 'x']) ∧
          (t.Coincides .className ['x'] ['y', 'x'] → ['x'] <:+: ['y', 'x'])) :=
  ⟨by decide, by decide,
    pattern_kept_iff [] [] [] .className ['x'] ['y', 'x'] (by decide) (by decide)⟩

/-- After `x` and `y`, the name `yak` takes the code of `y`, and the code of `x` then occurs in it. -/
theorem pattern_not_kept :
    let s := ofSettings { salt := [] }
    let tv := s.assignAll [] .empty
    let tc := s.assignAll [(.className, ['x']), (.className, ['y'])] .empty
    ∃ cv cc, (s.assign .className ['x'] tv).1 = some cv ∧
      (s.assign .className ['y', 'a', 'k'] tc).1 = some cc ∧
      ¬ (cv <:+: cc ↔ ['x'] <:+: ['y', 'a', 'k']) := by
  refine ⟨['a'], ['b', 'a', 'k'], by decide +kernel, by decide +kernel, by decide⟩

end Shortener
end TerseMarkup
