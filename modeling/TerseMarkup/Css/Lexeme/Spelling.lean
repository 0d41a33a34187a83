import TerseMarkup.Css.Lexeme

/-! The spellings of lexemes.

Every token takes at least one character (`read_pos`), so a scan cuts the text into pieces and drops
none of them (`spelling_scan`). -/
namespace TerseMarkup.Css.Lexeme

theorem readString_pos (quote : Char) (r : Text) : 1 ≤ (readString quote r).2 := by
  unfold readString
  split <;> simp

theorem readHash_pos (r : Text) : 1 ≤ (readHash r).2 := by
  unfold readHash
  split
  · simp
  · split <;> simp

theorem readAt_pos (r : Text) : 1 ≤ (readAt r).2 := by
  unfold readAt
  split <;> simp

theorem readMatch_pos (c : Char) (r : Text) : 1 ≤ (readMatch c r).2 := by
  unfold readMatch
  split <;> simp

theorem digitsLength_pos {s : Text} (h : startsWithDigit s = true) : 1 ≤ digitsLength s := by
  cases s with
  | nil => simp [startsWithDigit] at h
  | cons c r =>
    have : c.isDigit = true := by simpa [startsWithDigit] using h
    simp [digitsLength, this]

theorem fractionLength_pos {s : Text} (h : startsUnsigned s = true) :
    1 ≤ digitsLength s + fractionLength (s.drop (digitsLength s)) := by
  unfold startsUnsigned at h
  split at h
  · simp [digitsLength, fractionLength, h]
  · have := digitsLength_pos h
    omega

theorem startsUnsigned_drop {s : Text} (h : startsNumber s = true) :
    startsUnsigned (s.drop (signLength s)) = true := by
  unfold startsNumber at h
  split at h <;> simpa [signLength] using h

theorem readNumber_pos {s : Text} (h : startsNumber s = true) : 1 ≤ (readNumber s).2 := by
  have := fractionLength_pos (startsUnsigned_drop h)
  rw [List.drop_drop] at this
  unfold readNumber
  simp only
  split
  · simp
  · split <;> (simp only; omega)

theorem readIdentLike_pos {c : Char} {r : Text} (h : startsIdent (c :: r) = true) :
    1 ≤ (readIdentLike (c :: r)).2 := by
  have := nameFrom_pos r h
  unfold readIdentLike name
  simp only
  split
  · split
    · split
      · exact Nat.le_add_right_of_le (Nat.le_add_left 1 _)
      · exact Nat.le_add_left 1 _
    · simp
  · exact this

private theorem one_le_ite {p : Prop} [Decidable p] {a b : Token × Nat} (ha : p → 1 ≤ a.2)
    (hb : 1 ≤ b.2) : 1 ≤ (if p then a else b).2 := by
  split
  · exact ha ‹p›
  · exact hb

/-- Every token takes a character, so scanning moves on. -/
theorem read_pos (c : Char) (r : Text) : 1 ≤ (read c r).2 := by
  have space (h : Text.isSpace c = true) : 1 ≤ ((c :: r).takeWhile Text.isSpace).length := by
    simp [h]
  unfold read
  refine one_le_ite space (one_le_ite (fun _ => readString_pos _ _) ?_)
  refine one_le_ite (fun _ => readHash_pos _) (one_le_ite (fun _ => readAt_pos _) ?_)
  iterate 9 refine one_le_ite (fun _ => Nat.le_refl _) ?_
  refine one_le_ite (fun _ => readMatch_pos _ _) (one_le_ite (fun _ => Nat.le_add_left _ _) ?_)
  refine one_le_ite (fun _ => Nat.le_add_left _ _) (one_le_ite readNumber_pos ?_)
  exact one_le_ite (fun _ => Nat.le_add_left _ _) (one_le_ite readIdentLike_pos (Nat.le_refl _))

theorem flatMap_text_scanFrom (n : Nat) (s : Text) :
    (scanFrom n s).flatMap Lexeme.text = s.drop n := by
  induction s generalizing n with
  | nil => cases n <;> simp [scanFrom]
  | cons c r ih =>
    cases n with
    | succ n => simpa [scanFrom] using ih n
    | zero =>
      have h := read_pos c r
      obtain ⟨n, hn⟩ : ∃ n, (read c r).2 = n + 1 := ⟨_, (Nat.sub_add_cancel h).symm⟩
      simp [scanFrom, ih, hn]

/-- **Scanning loses nothing**: the spellings, one after the other, are the text. -/
theorem spelling_scan (s : Text) : (scan s).flatMap Lexeme.text = s :=
  flatMap_text_scanFrom 0 s

end TerseMarkup.Css.Lexeme
