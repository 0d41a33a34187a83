import TerseMarkup.Proofs.Assignment

/-! Where the codes of a run come from.

A name is a root if no name met before occurs in it; its code has been minted then. Every other name
takes the code of the first name within it, and that is a root. `Assigned` says so of a table, and
that different roots have different codes, whatever their kinds; it holds of every table that a run
of requests fills from nothing (`assigned_assignAll`). -/
namespace TerseMarkup

namespace Table

/-- A name in which no earlier one occurs: it is its own lender. -/
def Root (t : Table) (k : Kind) (name code : Text) : Prop :=
  t.lender? k name = some (.whole name code)

theorem root_of_lender? {t : Table} {k : Kind} {name : Text} {l : Loan}
    (h : t.lender? k name = some l) : t.Root k l.lender l.code :=
  Entries.lender?_lender h

/-- A name that lends to itself takes nothing but its own code. -/
theorem eq_whole_of_lender? {t : Table} {k : Kind} {name : Text} {l : Loan}
    (h : t.lender? k name = some l) (hself : l.lender = name) : l = .whole name l.code := by
  have hroot := root_of_lender? h
  rw [hself, Root, h] at hroot
  exact Option.some.inj hroot

/-- A table with one more entry has its old roots, and the new name if nothing lends to it. -/
theorem root_insert_cases {t : Table} {k : Kind} {name code : Text} (h : t.find? k name = none)
    {k' : Kind} {name' code' : Text} (hroot : (t.insert k name code).Root k' name' code') :
    (k' = k ∧ name' = name ∧ code' = code ∧ t.lender? k name = none) ∨ t.Root k' name' code' := by
  by_cases hk : k' = k
  · subst hk
    rw [Root, lender?, entries_insert_self code h, Entries.lender?_append] at hroot
    rw [Root, lender?]
    cases hold : (t.entries k').lender? name' with
    | some l =>
      rw [hold, Option.some_or] at hroot
      exact .inr (hold.trans hroot)
    | none =>
      rw [hold, Option.none_or] at hroot
      obtain ⟨rfl, rfl⟩ :=
        Prod.mk.inj (List.mem_singleton.mp (Entries.lender?_eq_some hroot).1)
      exact .inl ⟨rfl, rfl, rfl, hold⟩
  · rw [Root, lender?, entries_insert_of_ne code h hk] at hroot
    exact .inr hroot

end Table

namespace Shortener

/-- What holds of a table whose codes have all been assigned. -/
structure Assigned (s : Shortener) (t : Table) : Prop where
  renamed : ∀ k, ∀ name ∈ t.names k, s.renames k name = true
  nodup : ∀ k, (t.names k).Nodup
  /-- A code is what the name is lent, if only by itself. -/
  lent : ∀ k name code, t.find? k name = some code →
    ∃ l, t.lender? k name = some l ∧ l.text = code
  /-- A root's code has been minted. -/
  minted : ∀ k name code, t.Root k name code → ∃ n, n < t.counter ∧ code = s.codec.encode n ∧
    (s.codec.Distinct → s.whitelist.contains k code = false)
  distinct : s.codec.Distinct → ∀ k k' name name' code, t.Root k name code →
    t.Root k' name' code → k = k' ∧ name = name'

variable {s : Shortener}

theorem assigned_empty : s.Assigned .empty where
  renamed k name h := by simp [Table.names] at h
  nodup k := by simp [Table.names]
  lent k name code h := by simp [Table.find?, Entries.get?] at h
  minted k name code h := by simp [Table.Root, Table.lender?, Entries.lender?] at h
  distinct _ k k' name name' code h := by simp [Table.Root, Table.lender?, Entries.lender?] at h

namespace Assigned

/-- A name of the table has the code that it is lent. -/
theorem find?_of_lender? {t : Table} (h : s.Assigned t) {k : Kind} {name : Text} {l : Loan}
    (hname : name ∈ t.names k) (hl : t.lender? k name = some l) : t.find? k name = some l.text := by
  cases hfind : t.find? k name with
  | none => exact absurd hname ((t.find?_eq_none_iff k name).mp hfind)
  | some code =>
    obtain ⟨l', hl', htext⟩ := h.lent k name code hfind
    obtain rfl := Option.some.inj (hl.symm.trans hl')
    rw [htext]

/-- Passing counters over leaves all codes as they are. -/
theorem skip {t : Table} (h : s.Assigned t) {n : Nat} (hn : t.counter ≤ n) :
    s.Assigned { t with skipped := n - t.size } where
  renamed k := by
    rw [Table.names_skip]
    exact h.renamed k
  nodup k := by
    rw [Table.names_skip]
    exact h.nodup k
  lent k name code := by
    rw [Table.find?_skip, Table.lender?_skip]
    exact h.lent k name code
  minted k name code := by
    rw [Table.Root, Table.lender?_skip, Table.counter_skip t hn]
    intro hroot
    obtain ⟨m, hm, hcode⟩ := h.minted k name code hroot
    exact ⟨m, Nat.lt_of_lt_of_le hm hn, hcode⟩
  distinct hc k k' name name' code := by
    rw [Table.Root, Table.Root, Table.lender?_skip, Table.lender?_skip]
    exact h.distinct hc k k' name name' code

/-- A new name with the code that it is lent, or else with the next one minted. -/
theorem insert {t : Table} (h : s.Assigned t) {k : Kind} {name code : Text}
    (hname : s.renames k name = true) (hfind : t.find? k name = none)
    (hlent : ∀ l, t.lender? k name = some l → l.text = code)
    (hminted : t.lender? k name = none → code = s.codec.encode t.counter ∧
      (s.codec.Distinct → s.whitelist.contains k code = false)) :
    s.Assigned (t.insert k name code) where
  renamed k' name' hmem := by
    rw [Table.names_insert code hfind] at hmem
    split at hmem
    · rename_i hk
      subst hk
      rcases List.mem_append.mp hmem with hold | hnew
      · exact h.renamed k' name' hold
      · rw [List.mem_singleton.mp hnew]
        exact hname
    · exact h.renamed k' name' hmem
  nodup k' := by
    rw [Table.names_insert code hfind]
    split
    · refine List.Nodup.append (h.nodup k) (List.nodup_singleton name) ?_
      rw [List.disjoint_singleton]
      exact (t.find?_eq_none_iff k name).mp hfind
    · exact h.nodup k'
  lent k' name' code' hnew := by
    have hgrows := Table.GrowsTo.insert code hfind
    rcases Table.find?_insert_cases hfind hnew with ⟨rfl, rfl, rfl⟩ | hold
    · cases hl : t.lender? k' name' with
      | some l => exact ⟨l, hgrows.lender? hl, hlent l hl⟩
      | none =>
        refine ⟨.whole name' code', ?_, Loan.text_whole name' code'⟩
        have hne := ((s.renames_iff k' name').mp hname).1
        rw [Table.lender?, Table.entries_insert_self code' hfind, Entries.lender?_append]
        rw [Table.lender?] at hl
        rw [hl, Option.none_or, Entries.lender?, List.findSome?_cons, Loan.of?_whole code' hne]
    · obtain ⟨l, hl, htext⟩ := h.lent k' name' code' hold
      exact ⟨l, hgrows.lender? hl, htext⟩
  minted k' name' code' hroot := by
    rw [Table.counter_insert code hfind]
    rcases Table.root_insert_cases hfind hroot with ⟨rfl, rfl, rfl, hnone⟩ | hold
    · exact ⟨t.counter, Nat.lt_succ_self _, hminted hnone⟩
    · obtain ⟨n, hn, hcode⟩ := h.minted k' name' code' hold
      exact ⟨n, Nat.lt_succ_of_lt hn, hcode⟩
  distinct hc k₁ k₂ name₁ name₂ code' hroot₁ hroot₂ := by
    -- An old root's counter lies below the table's, which is the counter of a new root.
    have hnew (k' : Kind) (name' : Text) (hnone : t.lender? k name = none)
        (hold : t.Root k' name' code) : False := by
      obtain ⟨n, hn, hcode, _⟩ := h.minted k' name' code hold
      have := Codec.encode_injective hc ((hminted hnone).1.symm.trans hcode)
      omega
    rcases Table.root_insert_cases hfind hroot₁ with ⟨rfl, rfl, rfl, hnone₁⟩ | hold₁ <;>
      rcases Table.root_insert_cases hfind hroot₂ with ⟨rfl, rfl, hcode, hnone₂⟩ | hold₂
    · exact ⟨rfl, rfl⟩
    · exact (hnew k₂ name₂ hnone₁ hold₂).elim
    · exact (hnew k₁ name₁ hnone₂ (hcode ▸ hold₁)).elim
    · exact h.distinct hc k₁ k₂ name₁ name₂ code' hold₁ hold₂

end Assigned

theorem assigned_assign (k : Kind) (name : Text) (t : Table) (h : s.Assigned t) :
    s.Assigned (s.assign k name t).2 := by
  cases s.outcome k name t with
  | declined _ hresult | known _ _ hresult =>
    rw [hresult]
    exact h
  | lent hname hfind hlender hresult =>
    rw [hresult]
    refine h.insert hname hfind (fun l hl => ?_) (fun hnone => ?_)
    · rw [hlender] at hl
      rw [Option.some.inj hl]
    · rw [hlender] at hnone
      cases hnone
  | @minted n hname hfind hlender hcounter _ hfree hresult =>
    rw [hresult]
    refine (h.skip hcounter).insert hname (by rw [Table.find?_skip, hfind]) (fun l hl => ?_)
      (fun _ => ⟨by rw [Table.counter_skip t hcounter], hfree⟩)
    rw [Table.lender?_skip, hlender] at hl
    cases hl

/-- **Every table that a run fills from nothing has assigned codes only.** -/
theorem assigned_assignAll (mentions : List Mention) : s.Assigned (s.assignAll mentions .empty) :=
  assignAll_preserves assigned_assign mentions assigned_empty

end Shortener
end TerseMarkup
