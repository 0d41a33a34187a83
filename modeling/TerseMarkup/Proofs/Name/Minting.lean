import Mathlib.Data.List.Perm.Subperm
import TerseMarkup.Proofs.Name.Encoding
import TerseMarkup.Name.Table

/-! What minting returns.

Minting looks at as many counters as the whitelist has entries. All of them may be exempt, but then
the next one is not: that would be one code more than there are entries (`exempt_run_le`). So the
code that minting returns is never exempt, and its counter is the first such one from the table's
counter on (`mint_eq`). A search that nothing bounds ends there too (`mints_iff`). -/
namespace TerseMarkup.Table

variable {codec : Codec} {exempt : Text → Bool}

theorem nextFree_ge (fuel n : Nat) : n ≤ nextFree codec exempt fuel n := by
  induction fuel generalizing n with
  | zero => exact Nat.le_refl n
  | succ fuel ih =>
    rw [nextFree]
    split
    · exact Nat.le_of_succ_le (ih (n + 1))
    · exact Nat.le_refl n

/-- Every counter passed over has an exempt code. -/
theorem nextFree_passes (fuel n m : Nat) (hn : n ≤ m) (hm : m < nextFree codec exempt fuel n) :
    exempt (codec.encode m) = true := by
  induction fuel generalizing n with
  | zero => exact absurd hm (Nat.not_lt.mpr hn)
  | succ fuel ih =>
    rw [nextFree] at hm
    split at hm
    · rename_i hexempt
      rcases Nat.eq_or_lt_of_le hn with rfl | hlt
      · exact hexempt
      · exact ih (n + 1) hlt hm
    · exact absurd hm (Nat.not_lt.mpr hn)

/-- The search ends on an exempt code only if it has looked at exempt codes alone. -/
theorem nextFree_exhausts (fuel n : Nat)
    (h : exempt (codec.encode (nextFree codec exempt fuel n)) = true) :
    nextFree codec exempt fuel n = n + fuel := by
  induction fuel generalizing n with
  | zero => rfl
  | succ fuel ih =>
    rw [nextFree] at h ⊢
    split at h
    · rename_i hexempt
      rw [if_pos hexempt, ih (n + 1) h]
      omega
    · rename_i hfree
      exact absurd h hfree

/-- A run of counters with exempt codes is no longer than the whitelist. -/
theorem exempt_run_le (hc : codec.Distinct) (w : Whitelist) (k : Kind) (n length : Nat)
    (h : ∀ m, n ≤ m → m < n + length → w.contains k (codec.encode m) = true) : length ≤ w.size := by
  let entry (i : Nat) : Text := k.sigil :: codec.encode (n + i)
  have hnodup : ((List.range length).map entry).Nodup := by
    refine List.Nodup.map (fun i j he => ?_) List.nodup_range
    have := Codec.encode_injective hc (List.tail_eq_of_cons_eq he)
    omega
  have hsubset : (List.range length).map entry ⊆ w.entries := by
    intro e he
    obtain ⟨i, hi, rfl⟩ := List.mem_map.mp he
    have hi := List.mem_range.mp hi
    exact (w.contains_iff k _).mp (h (n + i) (by omega) (by omega))
  have hle := (List.subperm_of_subset hnodup hsubset).length_le
  rwa [List.length_map, List.length_range] at hle

/-- The search for a code outside a whitelist ends on one. -/
theorem nextFree_free (hc : codec.Distinct) (w : Whitelist) (k : Kind) (n : Nat) :
    w.contains k (codec.encode (nextFree codec (w.contains k) w.size n)) = false := by
  cases hexempt : w.contains k (codec.encode (nextFree codec (w.contains k) w.size n)) with
  | false => rfl
  | true =>
    have hend := nextFree_exhausts w.size n hexempt
    have hle := exempt_run_le hc w k n (w.size + 1) fun m hn hm => by
      rcases Nat.lt_or_ge m (nextFree codec (w.contains k) w.size n) with hlt | hge
      · exact nextFree_passes w.size n m hn hlt
      · rw [show m = nextFree codec (w.contains k) w.size n by omega]
        exact hexempt
    exact absurd hle (Nat.not_succ_le_self w.size)

/-- **Minting returns the code of the first counter that is not exempt**, from the table's counter
on, and the table remembers the counters passed over. -/
theorem mint_eq (t : Table) (k : Kind) (codec : Codec) (w : Whitelist) :
    ∃ n, t.mint k codec w = (codec.encode n, { t with skipped := n - t.size }) ∧ t.counter ≤ n ∧
      (∀ m, t.counter ≤ m → m < n → w.contains k (codec.encode m) = true) ∧
      (codec.Distinct → w.contains k (codec.encode n) = false) :=
  ⟨nextFree codec (w.contains k) w.size t.counter, rfl, nextFree_ge _ _, nextFree_passes _ _,
    fun hc => nextFree_free hc w k t.counter⟩

/-! ### The search as a loop -/

/-- The search for a code with nothing to bound it: a counter with an exempt code is passed over,
and the first other one ends the search. -/
inductive Mints (k : Kind) (codec : Codec) (w : Whitelist) : Table → Text × Table → Prop
  | free {t : Table} (h : w.contains k (codec.encode t.counter) = false) :
      Mints k codec w t (codec.encode t.counter, t)
  | pass {t : Table} {result : Text × Table} (h : w.contains k (codec.encode t.counter) = true)
      (hrest : Mints k codec w { t with skipped := t.skipped + 1 } result) :
      Mints k codec w t result

/-- What the search finds is the first counter with a code that is not exempt. -/
theorem mints_iff_first {k : Kind} {codec : Codec} {w : Whitelist} {t : Table}
    {result : Text × Table} : Mints k codec w t result ↔
      ∃ n, result = (codec.encode n, { t with skipped := n - t.size }) ∧ t.counter ≤ n ∧
        (∀ m, t.counter ≤ m → m < n → w.contains k (codec.encode m) = true) ∧
        w.contains k (codec.encode n) = false := by
  have hnext (t : Table) : { t with skipped := t.skipped + 1 }.counter = t.counter + 1 := rfl
  constructor
  · intro h
    induction h with
    | @free t h =>
      have hskipped : t.counter - t.size = t.skipped := Nat.add_sub_cancel_left ..
      exact ⟨t.counter, by rw [hskipped], Nat.le_refl _,
        fun m hm hlt => absurd hlt (Nat.not_lt.mpr hm), h⟩
    | @pass t result h _ ih =>
      obtain ⟨n, hresult, hn, hpassed, hfree⟩ := ih
      rw [hnext] at hn hpassed
      refine ⟨n, hresult, Nat.le_of_succ_le hn, fun m hm hlt => ?_, hfree⟩
      rcases Nat.eq_or_lt_of_le hm with rfl | hm
      · exact h
      · exact hpassed m hm hlt
  · rintro ⟨n, rfl, hn, hpassed, hfree⟩
    -- The counters still to be passed over become fewer.
    induction hleft : n - t.counter generalizing t with
    | zero =>
      obtain rfl : n = t.counter := by omega
      have hskipped : t.counter - t.size = t.skipped := Nat.add_sub_cancel_left ..
      rw [hskipped]
      exact .free hfree
    | succ left ih =>
      have hexempt := hpassed t.counter (Nat.le_refl _) (by omega)
      refine .pass hexempt (ih (t := { t with skipped := t.skipped + 1 }) ?_ ?_ ?_)
      · rw [hnext]
        omega
      · exact fun m hm => hpassed m (Nat.le_of_succ_le hm)
      · rw [hnext]
        omega

/-- **The search ends, and minting returns what it finds.** -/
theorem mints_iff {k : Kind} {codec : Codec} (hc : codec.Distinct) {w : Whitelist} {t : Table}
    {result : Text × Table} : Mints k codec w t result ↔ result = t.mint k codec w := by
  obtain ⟨n, hmint, hn, hpassed, hfree⟩ := t.mint_eq k codec w
  rw [mints_iff_first, hmint]
  constructor
  · rintro ⟨n', rfl, hn', hpassed', hfree'⟩
    rcases Nat.lt_trichotomy n n' with hlt | rfl | hlt
    · exact absurd (hpassed' n hn hlt) (by simp [hfree hc])
    · rfl
    · exact absurd (hpassed n' hn' hlt) (by simp [hfree'])
  · rintro rfl
    exact ⟨n, rfl, hn, hpassed, hfree hc⟩

end TerseMarkup.Table
