import Mathlib.Data.List.Nodup
import TerseMarkup.Name.Codec

/-! Different counters have different codes.

A salt only reorders the letters (`shuffle_perm`), so no letter stands twice in the alphabet of a
codec that comes from a salt (`distinct_ofSalt`). Over such an alphabet the last letter of a code
tells the counter's remainder and the letters before it tell the rest (`encode_injective`). -/
namespace TerseMarkup.Codec

/-- No letter stands twice in the alphabet. -/
def Distinct (c : Codec) : Prop := c.alphabet.toList.Nodup

/-! ### The alphabet -/

theorem shuffleBelow_perm (salt : List UInt8) (i : Nat) (h : i < 26) (turn total : Nat)
    (a : Vector Char 26) : (shuffleBelow salt i h turn total a).toList.Perm a.toList := by
  induction i generalizing turn total a with
  | zero => exact List.Perm.refl _
  | succ i ih =>
    rw [shuffleBelow]
    refine (ih _ _ _ _).trans ?_
    exact Vector.perm_iff_toList_perm.mp (Vector.swap_perm _ _)

theorem shuffle_perm (salt : List UInt8) (a : Vector Char 26) :
    (shuffle salt a).toList.Perm a.toList := by
  rw [shuffle]
  split
  · exact List.Perm.refl _
  · exact shuffleBelow_perm salt 25 _ 0 0 a

theorem letters_nodup : letters.toList.Nodup := by decide

theorem distinct_ofBytes (salt : List UInt8) : (ofBytes salt).Distinct :=
  (shuffle_perm salt letters).nodup_iff.mpr letters_nodup

theorem distinct_ofSalt (salt : Text) : (ofSalt salt).Distinct := distinct_ofBytes salt.bytes

/-! ### Codes -/

theorem digit_lt (n : Nat) : n % 26 < 26 := Nat.mod_lt n (by decide)

/-- The letter that a counter's code ends in. -/
def lastLetter (c : Codec) (n : Nat) : Char :=
  have digit := digit_lt n
  c.alphabet[n % 26]

theorem encode_of_lt (c : Codec) {n : Nat} (h : n < 26) : c.encode n = [c.lastLetter n] := by
  rw [encode, if_pos h]
  rfl

theorem encode_of_ge (c : Codec) {n : Nat} (h : 26 ≤ n) :
    c.encode n = c.encode (n / 26 - 1) ++ [c.lastLetter n] := by
  rw [encode, if_neg (Nat.not_lt.mpr h)]
  rfl

theorem lastLetter_mem (c : Codec) (n : Nat) : c.lastLetter n ∈ c.alphabet.toList := by
  rw [Vector.mem_toList_iff]
  exact Vector.getElem_mem _

/-- A code is spelled with letters of the alphabet. -/
theorem mem_encode {c : Codec} {n : Nat} {a : Char} (h : a ∈ c.encode n) :
    a ∈ c.alphabet.toList := by
  induction n using Nat.strongRecOn with
  | ind n ih =>
    rcases Nat.lt_or_ge n 26 with hn | hn
    · rw [encode_of_lt c hn, List.mem_singleton] at h
      rw [h]
      exact lastLetter_mem c n
    · rw [encode_of_ge c hn, List.mem_append, List.mem_singleton] at h
      rcases h with hfront | rfl
      · exact ih (n / 26 - 1) (by omega) hfront
      · exact lastLetter_mem c n

theorem encode_ne_nil (c : Codec) (n : Nat) : c.encode n ≠ [] := by
  rcases Nat.lt_or_ge n 26 with h | h
  · rw [encode_of_lt c h]
    exact List.cons_ne_nil _ _
  · rw [encode_of_ge c h]
    exact List.append_ne_nil_of_right_ne_nil _ (List.cons_ne_nil _ _)

theorem length_encode_eq_one_iff (c : Codec) (n : Nat) : (c.encode n).length = 1 ↔ n < 26 := by
  rcases Nat.lt_or_ge n 26 with h | h
  · rw [encode_of_lt c h]
    exact iff_of_true rfl h
  · have hpos := List.length_pos_of_ne_nil (encode_ne_nil c (n / 26 - 1))
    rw [encode_of_ge c h, List.length_append, List.length_singleton]
    omega

theorem Distinct.mod_eq {c : Codec} (hc : c.Distinct) {m n : Nat}
    (h : c.lastLetter m = c.lastLetter n) : m % 26 = n % 26 := by
  have hm : m % 26 < c.alphabet.toList.length := by
    rw [Vector.length_toList]
    exact digit_lt m
  have hn : n % 26 < c.alphabet.toList.length := by
    rw [Vector.length_toList]
    exact digit_lt n
  have hlist : c.alphabet.toList[m % 26] = c.alphabet.toList[n % 26] := by
    rw [Vector.getElem_toList, Vector.getElem_toList]
    exact h
  exact (List.Nodup.getElem_inj_iff hc).mp hlist

/-- **Different counters have different codes.** -/
theorem encode_injective {c : Codec} (hc : c.Distinct) {m n : Nat} (h : c.encode m = c.encode n) :
    m = n := by
  induction m using Nat.strongRecOn generalizing n with
  | ind m ih =>
    have hshort : m < 26 ↔ n < 26 := by
      rw [← length_encode_eq_one_iff c, h, length_encode_eq_one_iff c]
    rcases Nat.lt_or_ge m 26 with hm | hm
    · have hn := hshort.mp hm
      rw [encode_of_lt c hm, encode_of_lt c hn] at h
      have hmod := hc.mod_eq (List.singleton_inj.mp h)
      omega
    · have hn : 26 ≤ n := by omega
      rw [encode_of_ge c hm, encode_of_ge c hn] at h
      obtain ⟨hfront, hlast⟩ := List.append_inj' h rfl
      have hmod := hc.mod_eq (List.singleton_inj.mp hlast)
      have hrest := ih (m / 26 - 1) (by omega) hfront
      omega

end TerseMarkup.Codec
