import TerseMarkup.Proofs.Assignment.Origin

/-! When a code is an exempt name.

Minting passes the exempt codes over. A name that takes the code of a root is not looked at again,
so its code may be exempt; `answers_exempt_iff` says that this is the only way. -/
namespace TerseMarkup.Shortener

variable {s : Shortener} {t : Table}

/-- A code that a name has of its own is not exempt. -/
theorem Assigned.not_exempt_of_self (h : s.Assigned t) (hc : s.codec.Distinct) {k : Kind}
    {name : Text} {l : Loan} (hl : t.lender? k name = some l) (hself : l.lender = name) :
    s.whitelist.contains k l.text = false := by
  have hwhole := Table.eq_whole_of_lender? hl hself
  have htext : l.text = l.code := by
    rw [hwhole]
    exact Loan.text_whole name l.code
  rw [hwhole] at hl
  obtain ⟨n, _, _, hfree⟩ := h.minted k name l.code hl
  rw [htext]
  exact hfree hc

/-- **No answer of a run is exempt exactly if no loan is**: of all codes, only one that a name takes
from a name within it can be an exempt name. -/
theorem answers_exempt_iff (settings : Settings) (mentions : List Mention) :
    let s := ofSettings settings
    let t := s.assignAll mentions .empty
    (∀ before k name after code, mentions = before ++ (k, name) :: after →
        (s.assign k name (s.assignAll before .empty)).1 = some code →
        s.whitelist.contains k code = false) ↔
      ∀ k, ∀ name ∈ t.names k, ∀ l, t.lender? k name = some l → l.lender ≠ name →
        s.whitelist.contains k l.text = false := by
  intro s t
  have hassigned : s.Assigned t := assigned_assignAll mentions
  have hc : s.codec.Distinct := Codec.distinct_ofSalt settings.salt
  constructor
  · intro hfree k name hname l hl _
    have hmem : (k, name) ∈ mentions :=
      (mem_names_assignAll hname).resolve_left (by simp [Table.names])
    obtain ⟨before, after, hsplit⟩ := List.append_of_mem hmem
    apply hfree before k name after l.text hsplit
    rw [assign_eq_lookup_assignAll k name before after, ← hsplit, lookup,
      if_pos (hassigned.renamed k name hname)]
    exact hassigned.find?_of_lender? hname hl
  · intro hfree before k name after code hsplit hanswer
    rw [assign_eq_lookup_assignAll k name before after, ← hsplit, lookup] at hanswer
    split at hanswer
    · obtain ⟨l, hl, rfl⟩ := hassigned.lent k name code hanswer
      by_cases hself : l.lender = name
      · exact hassigned.not_exempt_of_self hc hl hself
      · exact hfree k name (Table.mem_names_of_find? hanswer) l hl hself
    · cases hanswer

/-- `foo` gets the code `a`, so `foob` becomes `ab`, even where `.ab` is exempt. -/
theorem answer_exempt_of_loan :
    let s := ofSettings { salt := [], whitelist := ⟨[['.', 'a', 'b']]⟩ }
    ¬ ∀ before k name after code,
      [(Kind.className, ['f', 'o', 'o']), (Kind.className, ['f', 'o', 'o', 'b'])] =
        before ++ (k, name) :: after →
      (s.assign k name (s.assignAll before .empty)).1 = some code →
      s.whitelist.contains k code = false := by
  intro s hfree
  have hanswer : (s.assign .className ['f', 'o', 'o', 'b']
      (s.assignAll [(.className, ['f', 'o', 'o'])] .empty)).1 = some ['a', 'b'] := by
    decide +kernel
  exact absurd (hfree [(.className, ['f', 'o', 'o'])] _ _ [] _ rfl hanswer) (by decide)

end TerseMarkup.Shortener
