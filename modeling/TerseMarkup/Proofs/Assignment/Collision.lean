import TerseMarkup.Proofs.Assignment.Origin

/-! When two names get the same code.

Two roots never do. A name that takes the code of a root is spelled with letters of its own around
that code, and nothing keeps the spelling from being another name's code. `codes_injective_iff` says
that a run is free of collisions exactly if no such spelling meets another. -/
namespace TerseMarkup.Shortener

variable {s : Shortener} {t : Table}

/-- Two names of one code are one name, if neither takes another's code. -/
theorem Assigned.eq_of_text_eq (h : s.Assigned t) (hc : s.codec.Distinct) {k : Kind} {v w : Text}
    {x y : Loan} (hx : t.lender? k v = some x) (hy : t.lender? k w = some y) (hv : x.lender = v)
    (hw : y.lender = w) (htext : x.text = y.text) : v = w := by
  have hx' := Table.eq_whole_of_lender? hx hv
  have hy' := Table.eq_whole_of_lender? hy hw
  have hcode : x.code = y.code := by
    rw [hx', hy', Loan.text_whole, Loan.text_whole] at htext
    exact htext
  rw [hx'] at hx
  rw [hy', ← hcode] at hy
  exact (h.distinct hc k k v w x.code hx hy).2

/-- **Codes of a kind are different exactly if no loan is spelled like another code**: for every
name that takes the code of a name within it, and every other name of the kind, what the one is lent
differs from what the other is lent, be it only by itself. -/
theorem codes_injective_iff (settings : Settings) (mentions : List Mention) (k : Kind) :
    let t := (ofSettings settings).assignAll mentions .empty
    (∀ v w code, t.find? k v = some code → t.find? k w = some code → v = w) ↔
      ∀ v ∈ t.names k, ∀ w ∈ t.names k, v ≠ w → ∀ x y, t.lender? k v = some x →
        t.lender? k w = some y → x.lender ≠ v → x.text ≠ y.text := by
  intro t
  have hassigned : (ofSettings settings).Assigned t := assigned_assignAll mentions
  have hc : (ofSettings settings).codec.Distinct := Codec.distinct_ofSalt settings.salt
  constructor
  · intro hinj v hv w hw hne x y hx hy _ htext
    have hw' := hassigned.find?_of_lender? hw hy
    rw [← htext] at hw'
    exact hne (hinj v w x.text (hassigned.find?_of_lender? hv hx) hw')
  · intro hfree v w code hv hw
    by_contra hne
    have hv' := Table.mem_names_of_find? hv
    have hw' := Table.mem_names_of_find? hw
    obtain ⟨x, hx, hxtext⟩ := hassigned.lent k v code hv
    obtain ⟨y, hy, hytext⟩ := hassigned.lent k w code hw
    have htext := hxtext.trans hytext.symm
    by_cases hself : x.lender = v
    · by_cases hself' : y.lender = w
      · exact hne (hassigned.eq_of_text_eq hc hx hy hself hself' htext)
      · exact hfree w hw' v hv' (Ne.symm hne) y x hy hx hself' htext.symm
    · exact hfree v hv' w hw' hne x y hx hy hself htext

/-- `ax` and `xa` both take the code `a` of `x`, and both become `aa`. -/
theorem codes_not_injective :
    let t := (ofSettings { salt := [] }).assignAll
      [(.className, ['x']), (.className, ['a', 'x']), (.className, ['x', 'a'])] .empty
    ¬ ∀ v w code, t.find? .className v = some code → t.find? .className w = some code → v = w := by
  intro t hinj
  have heq := hinj ['a', 'x'] ['x', 'a'] ['a', 'a'] (by decide +kernel) (by decide +kernel)
  exact absurd heq (by decide)

end TerseMarkup.Shortener
