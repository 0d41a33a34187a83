import TerseMarkup.Text

/-! What holds of all characters of some kind, found by looking at them. -/
namespace TerseMarkup

/-- What holds of the first 128 characters holds of every ASCII character. -/
theorem forall_ascii {P : Char → Prop} (h : ∀ n < 128, P (Char.ofNat n)) {c : Char}
    (hc : c.toNat < 128) : P c := Char.ofNat_toNat c ▸ h c.toNat hc

/-- The characters of a text are looked at, and not all that there are. -/
theorem forall_of_all {t : Text} {P : Char → Prop} [DecidablePred P]
    (h : t.all (fun c => decide (P c)) = true) : ∀ c ∈ t, P c :=
  fun c hc => of_decide_eq_true (List.all_eq_true.mp h c hc)

/-- A character is its own small letter, or a letter whose small letter is. -/
theorem toLower_cases (c : Char) : c.toLower = c ∨
    c.isAlpha = true ∧ c.toLower.isAlpha = true ∧ c.toLower.toLower = c.toLower := by
  by_cases hup : c.val ≥ 'A'.val ∧ c.val ≤ 'Z'.val
  · have hascii : c.toNat < 128 := Nat.lt_of_le_of_lt hup.2 (by decide)
    exact .inr (forall_ascii (P := fun c => c.val ≥ 'A'.val ∧ c.val ≤ 'Z'.val →
      c.isAlpha = true ∧ c.toLower.isAlpha = true ∧ c.toLower.toLower = c.toLower)
      (by decide +kernel) hascii hup)
  · exact .inl (dif_neg hup)

theorem toLower_toLower (c : Char) : c.toLower.toLower = c.toLower := by
  rcases toLower_cases c with h | ⟨-, -, h⟩
  · rw [h, h]
  · exact h

/-- Small letters come from letters, and anything else is left alone. -/
theorem toLower_eq_iff {c d : Char} (hd : d.isAlpha = false) : c.toLower = d ↔ c = d := by
  rcases toLower_cases c with h | ⟨hletter, hsmall, -⟩
  · rw [h]
  · constructor
    · rintro rfl
      rw [hsmall] at hd
      cases hd
    · rintro rfl
      rw [hletter] at hd
      cases hd

end TerseMarkup
