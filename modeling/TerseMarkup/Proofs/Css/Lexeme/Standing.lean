import TerseMarkup.Css.Lexeme.Spelling
import TerseMarkup.Proofs.Css.Lexeme.Lookahead

/-! Lexemes that stand where they are read.

A lexeme stands before a text if it is what is read there. The lexemes of a text stand one before
the other (`standing_scan`), and lexemes that do are those of the text they spell
(`scan_flatMap_text`). -/
namespace TerseMarkup.Css

theorem nameFrom_le (skip : Nat) (s : Text) : (nameFrom skip s).2 ≤ s.length := by
  induction s generalizing skip with
  | nil => simp [nameFrom]
  | cons c r ih =>
    cases skip with
    | succ skip =>
      have := ih skip
      simpa [nameFrom] using this
    | zero =>
      rw [nameFrom]
      split
      · split
        · exact Nat.zero_le _
        · exact Nat.succ_le_succ (ih _)
      · split
        · exact Nat.succ_le_succ (ih _)
        · exact Nat.zero_le _

theorem stringFrom_le (quote : Char) (skip : Nat) (s : Text) :
    (stringFrom quote skip s).2 ≤ s.length := by
  induction s generalizing skip with
  | nil => simp [stringFrom]
  | cons c r ih =>
    cases skip with
    | succ skip =>
      have := ih skip
      simpa [stringFrom] using this
    | zero =>
      rw [stringFrom]
      split
      · exact Nat.succ_le_succ (Nat.zero_le _)
      · split
        · exact Nat.zero_le _
        · split
          · split <;> exact Nat.succ_le_succ (ih _)
          · exact Nat.succ_le_succ (ih _)

theorem badUrlLength_le (s : Text) : badUrlLength s ≤ s.length := by
  fun_induction badUrlLength s <;> simp_all

theorem urlEnd_le (s : Text) : (urlEnd s).2 ≤ s.length := by
  fun_induction urlEnd s with
  | case1 => exact Nat.le_refl 0
  | case2 => exact Nat.le_add_left 1 _
  | case3 c r hparen hspace good n hurl ih => simpa [hurl] using ih
  | case4 c r hparen hspace => exact Nat.succ_le_succ (badUrlLength_le r)

theorem urlBody_le (skip : Nat) (s : Text) : (urlBody skip s).2 ≤ s.length := by
  induction s generalizing skip with
  | nil => simp [urlBody]
  | cons c r ih =>
    cases skip with
    | succ skip =>
      have := ih skip
      simpa [urlBody] using this
    | zero =>
      rw [urlBody]
      split
      · exact urlEnd_le _
      · split
        · exact Nat.le_add_left 1 _
        · split
          · exact Nat.succ_le_succ (badUrlLength_le r)
          · split
            · split
              · exact Nat.succ_le_succ (badUrlLength_le r)
              · exact Nat.succ_le_succ (ih _)
            · exact Nat.succ_le_succ (ih _)

theorem url?_le {s : Text} {good : Bool} {n : Nat} (h : url? s = some (good, n)) :
    n ≤ s.length := by
  induction s generalizing n with
  | nil =>
    have hn : (true, 0) = (good, n) := Option.some.inj h
    exact Nat.le_of_eq (congrArg Prod.snd hn).symm
  | cons c s ih =>
    cases hspace : Text.isSpace c with
    | true =>
      rw [url?_space hspace, Option.map_eq_some_iff] at h
      obtain ⟨⟨good', n'⟩, hurl, heq⟩ := h
      obtain ⟨rfl, rfl⟩ := Prod.mk.inj heq
      exact Nat.succ_le_succ (ih hurl)
    | false =>
      rw [url?_of_ne hspace] at h
      split at h
      · cases h
      · have hn : (urlBody 0 (c :: s)).2 = n := congrArg Prod.snd (Option.some.inj h)
        exact hn ▸ urlBody_le 0 (c :: s)

theorem commentLength_le (s : Text) : Lexeme.commentLength s ≤ s.length := by
  induction s with
  | nil => exact Nat.le_refl 0
  | cons c s ih =>
    rw [commentLength_cons]
    split
    · cases s <;> simp_all
    · exact Nat.succ_le_succ ih

theorem digitsLength_le (s : Text) : Lexeme.digitsLength s ≤ s.length :=
  (List.takeWhile_prefix _).length_le

theorem fractionLength_le (s : Text) : Lexeme.fractionLength s ≤ s.length := by
  cases s with
  | nil => exact Nat.le_refl 0
  | cons c s =>
    rw [fractionLength_cons]
    split
    · exact Nat.succ_le_succ (digitsLength_le s)
    · exact Nat.zero_le _

theorem signLength_le (s : Text) : Lexeme.signLength s ≤ s.length := by
  cases s with
  | nil => exact Nat.le_refl 0
  | cons c s =>
    rw [signLength_cons]
    split <;> simp

theorem exponentLength_le (s : Text) : Lexeme.exponentLength s ≤ s.length := by
  cases s with
  | nil => exact Nat.le_refl 0
  | cons c s =>
    have hsign := signLength_le s
    have hdigits := digitsLength_le (s.drop (Lexeme.signLength s))
    rw [List.length_drop] at hdigits
    rw [Lexeme.exponentLength]
    simp only [List.length_cons]
    split
    · split <;> omega
    · exact Nat.zero_le _

theorem numberLength_le (s : Text) : numberLength s ≤ s.length := by
  have hsign := signLength_le s
  have hdigits := digitsLength_le (s.drop (Lexeme.signLength s))
  have hmantissa : mantissaLength s ≤ s.length := by
    unfold mantissaLength
    have hfraction := fractionLength_le
      (s.drop (Lexeme.signLength s + Lexeme.digitsLength (s.drop (Lexeme.signLength s))))
    rw [List.length_drop] at hdigits hfraction
    simp only
    omega
  have hexponent := exponentLength_le (s.drop (mantissaLength s))
  rw [List.length_drop] at hexponent
  unfold numberLength
  omega

namespace Lexeme

private theorem ite_le {p : Prop} [Decidable p] {a b : Token × Nat} {n : Nat} (ha : p → a.2 ≤ n)
    (hb : b.2 ≤ n) : (if p then a else b).2 ≤ n := by
  split
  · exact ha ‹p›
  · exact hb

theorem readNumber_le (s : Text) : (readNumber s).2 ≤ s.length := by
  have hn := numberLength_le s
  rw [readNumber_eq]
  refine ite_le (fun h => ?_) (ite_le (fun h => ?_) hn)
  · obtain ⟨t, ht⟩ := List.head?_eq_some_iff.mp h
    have := congrArg List.length ht
    simp only [List.length_drop, List.length_cons] at this
    simp only
    omega
  · have := nameFrom_le 0 (s.drop (numberLength s))
    rw [List.length_drop] at this
    simp only [name]
    omega

theorem readIdentLike_le (s : Text) : (readIdentLike s).2 ≤ s.length := by
  have hn := nameFrom_le 0 s
  rw [readIdentLike_eq]
  refine ite_le (fun h => ?_) hn
  obtain ⟨t, ht⟩ := List.head?_eq_some_iff.mp h
  have hparen := congrArg List.length ht
  simp only [List.length_drop, List.length_cons] at hparen
  have hone : (name s).2 + 1 ≤ s.length := by omega
  refine ite_le (fun _ => ?_) hone
  split
  · next good k hurl =>
    have := url?_le hurl
    rw [List.length_drop] at this
    simp only
    omega
  · exact hone

/-- No lexeme is longer than the text. -/
theorem read_le (c : Char) (r : Text) : (read c r).2 ≤ r.length + 1 := by
  have hone : 1 ≤ r.length + 1 := Nat.le_add_left 1 _
  have hname := nameFrom_le 0 r
  unfold read
  refine ite_le (fun _ => (List.takeWhile_prefix _).length_le) ?_
  refine ite_le (fun _ => ?_) (ite_le (fun _ => ?_) (ite_le (fun _ => ?_) ?_))
  · have := stringFrom_le c 0 r
    unfold readString
    split <;> simp_all
  · exact ite_le (fun _ => Nat.succ_le_succ hname)
      (ite_le (fun _ => Nat.succ_le_succ hname) hone)
  · exact ite_le (fun _ => Nat.succ_le_succ hname) hone
  iterate 9 refine ite_le (fun _ => hone) ?_
  refine ite_le (fun _ => ite_le (fun h => ?_) hone) (ite_le (fun h => ?_) ?_)
  · obtain ⟨t, rfl⟩ := List.head?_eq_some_iff.mp h
    simp
  · obtain ⟨t, rfl⟩ := List.head?_eq_some_iff.mp h.2
    exact Nat.succ_le_succ (Nat.succ_le_succ (commentLength_le t))
  refine ite_le (fun h => ?_) (ite_le (fun _ => readNumber_le _) ?_)
  · exact (List.isPrefixOf_iff_prefix.mp h).length_le
  refine ite_le (fun h => ?_) (ite_le (fun _ => readIdentLike_le _) hone)
  exact (List.isPrefixOf_iff_prefix.mp h).length_le

/-! ### Standing -/

/-- The lexeme is what is read if `r` is behind it. -/
def StandsBefore (l : Lexeme) (r : Text) : Prop :=
  ∃ c t, l.text = c :: t ∧ read c (t ++ r) = (l.token, t.length + 1)

/-- Each lexeme stands before those behind it. -/
def Standing : List Lexeme → Prop
  | [] => True
  | l :: ls => l.StandsBefore (ls.flatMap text) ∧ Standing ls

theorem scanFrom_cons (c : Char) (r : Text) :
    scanFrom 0 (c :: r) =
      ⟨(read c r).1, (c :: r).take (read c r).2⟩ :: scanFrom ((read c r).2 - 1) r := rfl

theorem standing_scanFrom (n : Nat) (s : Text) : Standing (scanFrom n s) := by
  induction s generalizing n with
  | nil => cases n <;> trivial
  | cons c r ih =>
    cases n with
    | succ n => exact ih n
    | zero =>
      obtain ⟨k, hk⟩ : ∃ k, (read c r).2 = k + 1 := ⟨_, (Nat.sub_add_cancel (read_pos c r)).symm⟩
      have hle : k ≤ r.length := by
        have := read_le c r
        omega
      rw [scanFrom_cons, hk, Nat.add_sub_cancel, List.take_succ_cons]
      refine ⟨⟨c, r.take k, rfl, ?_⟩, ih k⟩
      rw [flatMap_text_scanFrom, List.take_append_drop, List.length_take_of_le hle, ← hk]

/-- **The lexemes of a text stand** one before the other. -/
theorem standing_scan (s : Text) : Standing (scan s) := standing_scanFrom 0 s

theorem scanFrom_length (t r : Text) : scanFrom t.length (t ++ r) = scanFrom 0 r := by
  induction t with
  | nil => rfl
  | cons c t ih => exact ih

/-- **Lexemes that stand one before the other** are those of the text they spell. -/
theorem scan_flatMap_text {ls : List Lexeme} (h : Standing ls) : scan (ls.flatMap text) = ls := by
  induction ls with
  | nil => rfl
  | cons l ls ih =>
    obtain ⟨⟨c, t, htext, hread⟩, hrest⟩ := h
    rw [List.flatMap_cons, htext, List.cons_append, scan, scanFrom_cons, hread,
      Nat.add_sub_cancel, scanFrom_length, ← scan, ih hrest, List.take_succ_cons, List.take_left,
      ← htext]

end Lexeme
end TerseMarkup.Css
