import Mathlib.Data.List.Infix
import TerseMarkup.Text

/-! Occurrences of one text in another.

At the start of a text, another is found as it is (`after?_eq_some_iff`) or in any case
(`afterIgnoringCase?_eq_some_iff`). `cut?` finds an occurrence exactly where there is one
(`contains_iff`), and of several the first (`cut?_first`). A text occurs in itself with nothing
around it (`cut?_self`). -/
namespace TerseMarkup.Text

theorem after?_eq_some_iff (start t rest : Text) :
    after? start t = some rest ↔ t = start ++ rest := by
  rw [after?, List.isPrefixOf?_eq_some_iff_append_eq, eq_comm]

/-- What stands at the start is spelled like `start`, in whatever case. -/
theorem afterIgnoringCase?_eq_some_iff (start t rest : Text) :
    afterIgnoringCase? start t = some rest ↔
      ∃ spelled, t = spelled ++ rest ∧ lower spelled = start := by
  induction start generalizing t with
  | nil => simp [afterIgnoringCase?, lower, eq_comm]
  | cons s start ih =>
    cases t with
    | nil => simp [afterIgnoringCase?, lower]
    | cons c t =>
      rw [afterIgnoringCase?]
      by_cases hc : c.toLower = s
      · rw [if_pos (beq_iff_eq.mpr hc), ih]
        constructor
        · rintro ⟨spelled, rfl, rfl⟩
          exact ⟨c :: spelled, rfl, congrArg (· :: lower spelled) hc⟩
        · rintro ⟨spelled, hspelled, hlower⟩
          cases spelled with
          | nil => exact nomatch hlower
          | cons d spelled =>
            obtain ⟨rfl, rfl⟩ := List.cons.inj hspelled
            exact ⟨spelled, rfl, (List.cons.inj hlower).2⟩
      · rw [if_neg (mt beq_iff_eq.mp hc)]
        refine iff_of_false (fun h => nomatch h) ?_
        rintro ⟨spelled, hspelled, hlower⟩
        cases spelled with
        | nil => exact nomatch hlower
        | cons d spelled =>
          obtain ⟨rfl, rfl⟩ := List.cons.inj hspelled
          exact hc (List.cons.inj hlower).1

theorem after?_self (t : Text) : after? t t = some [] :=
  (after?_eq_some_iff t t []).mpr (List.append_nil t).symm

/-- What is cut puts the text together again. -/
theorem cut?_eq_some {part t before rest : Text} (h : cut? part t = some (before, rest)) :
    t = before ++ part ++ rest := by
  induction t generalizing before with
  | nil =>
    cases part with
    | nil =>
      obtain ⟨rfl, rfl⟩ : [] = before ∧ [] = rest := by simpa [cut?] using h
      rfl
    | cons p part => simp [cut?] at h
  | cons c r ih =>
    rw [cut?] at h
    cases ha : after? part (c :: r) with
    | some tail =>
      obtain ⟨rfl, rfl⟩ : [] = before ∧ tail = rest := by simpa [ha] using h
      rw [(after?_eq_some_iff _ _ _).mp ha]
      rfl
    | none =>
      simp only [ha, Option.map_eq_some_iff, Prod.exists, Prod.mk.injEq] at h
      obtain ⟨before', rest', hcut, rfl, rfl⟩ := h
      rw [ih hcut]
      rfl

/-- A text with an occurrence is cut, and not behind that occurrence. -/
theorem cut?_first (part before rest : Text) :
    ∃ before' rest', cut? part (before ++ part ++ rest) = some (before', rest') ∧
      before'.length ≤ before.length := by
  induction before with
  | nil =>
    refine ⟨[], rest, ?_, Nat.le_refl 0⟩
    show cut? part (part ++ rest) = _
    cases htext : part ++ rest with
    | nil =>
      obtain ⟨rfl, rfl⟩ := List.append_eq_nil_iff.mp htext
      rfl
    | cons c r => rw [cut?, (after?_eq_some_iff part (c :: r) rest).mpr htext.symm]
  | cons c before ih =>
    show ∃ before' rest', cut? part (c :: (before ++ part ++ rest)) = some (before', rest') ∧ _
    rw [cut?]
    cases ha : after? part (c :: (before ++ part ++ rest)) with
    | some tail => exact ⟨[], tail, rfl, Nat.zero_le _⟩
    | none =>
      obtain ⟨before', rest', hcut, hle⟩ := ih
      exact ⟨c :: before', rest', by rw [hcut]; rfl, Nat.succ_le_succ hle⟩

/-- Of all occurrences it is the first at which a text is cut. -/
theorem cut?_eq_some_iff {part t before rest : Text} :
    cut? part t = some (before, rest) ↔ t = before ++ part ++ rest ∧
      ∀ before' rest', t = before' ++ part ++ rest' → before.length ≤ before'.length := by
  constructor
  · intro h
    refine ⟨cut?_eq_some h, fun before' rest' ht => ?_⟩
    obtain ⟨x, y, hcut, hle⟩ := cut?_first part before' rest'
    rw [← ht, h] at hcut
    obtain ⟨rfl, rfl⟩ := Prod.mk.inj (Option.some.inj hcut)
    exact hle
  · rintro ⟨ht, hfirst⟩
    obtain ⟨x, y, hcut, hle⟩ := cut?_first part before rest
    rw [← ht] at hcut
    have hsame : before ++ (part ++ rest) = x ++ (part ++ y) := by
      rw [← List.append_assoc, ← List.append_assoc, ← ht, cut?_eq_some hcut]
    have hlength := Nat.le_antisymm (hfirst x y (cut?_eq_some hcut)) hle
    obtain ⟨rfl, hrest⟩ := List.append_inj hsame hlength
    rw [hcut, List.append_cancel_left hrest]

theorem cut?_self (t : Text) : cut? t t = some ([], []) := by
  cases t with
  | nil => rfl
  | cons c r => rw [cut?, after?_self]

theorem cut?_isSome_iff (part t : Text) : (cut? part t).isSome = true ↔ part <:+: t := by
  constructor
  · intro h
    obtain ⟨⟨before, rest⟩, hcut⟩ := Option.isSome_iff_exists.mp h
    exact ⟨before, rest, (cut?_eq_some hcut).symm⟩
  · rintro ⟨before, rest, rfl⟩
    obtain ⟨before', rest', hcut, _⟩ := cut?_first part before rest
    rw [hcut]
    rfl

theorem cut?_eq_none_iff (part t : Text) : cut? part t = none ↔ ¬ part <:+: t := by
  rw [← cut?_isSome_iff, Bool.not_eq_true, Option.isSome_eq_false_iff, Option.isNone_iff_eq_none]

theorem contains_iff (part t : Text) : contains part t = true ↔ part <:+: t :=
  cut?_isSome_iff part t

end TerseMarkup.Text
