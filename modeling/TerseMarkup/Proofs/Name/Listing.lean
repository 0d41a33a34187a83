import Mathlib.Data.List.Induction
import Mathlib.Data.List.Shortlex
import Mathlib.Data.Set.Function
import TerseMarkup.Proofs.Name.Encoding

/-! The codes are all words over the small letters, in order.

Counting up, a codec lists every word but the empty one, the shorter ones first and those of one
length as a dictionary would, where the letters come in the order that the salt gives them
(`encode_lists`). Both directions go along the recursion of `encode`: one more letter behind the
code of `m` is the code of a counter of the next block of 26 (`encode_append`). -/
namespace TerseMarkup.Codec

/-- Whether a letter comes before another in the codec's alphabet. -/
def Before (c : Codec) (a b : Char) : Prop :=
  c.alphabet.toList.idxOf a < c.alphabet.toList.idxOf b

instance (c : Codec) : Std.Asymm c.Before := ⟨fun _ _ => Nat.lt_asymm⟩

/-! ### The letters -/

theorem mem_letters_iff (a : Char) : a ∈ letters.toList ↔ 'a' ≤ a ∧ a ≤ 'z' := by
  constructor
  · intro ha
    have hall : letters.toList.all (fun a => 'a' ≤ a && a ≤ 'z') = true := by decide
    simpa using List.all_eq_true.mp hall a ha
  · rintro ⟨hfirst, hlast⟩
    have hnumber : letters.toList.map Char.toNat = List.range' 97 26 := by decide
    have hlow : 97 ≤ a.toNat := hfirst
    have hhigh : a.toNat ≤ 122 := hlast
    have hmem : a.toNat ∈ letters.toList.map Char.toNat := by
      rw [hnumber, List.mem_range'_1]
      omega
    obtain ⟨b, hb, heq⟩ := List.mem_map.mp hmem
    rwa [← Char.toNat_inj.mp heq]

theorem mem_ofBytes_iff (salt : List UInt8) (a : Char) :
    a ∈ (ofBytes salt).alphabet.toList ↔ 'a' ≤ a ∧ a ≤ 'z' := by
  rw [← mem_letters_iff]
  exact (shuffle_perm salt letters).mem_iff

theorem idxOf_lastLetter {c : Codec} (hc : c.Distinct) (n : Nat) :
    c.alphabet.toList.idxOf (c.lastLetter n) = n % 26 := by
  have hn : n % 26 < c.alphabet.toList.length := by
    rw [Vector.length_toList]
    exact digit_lt n
  have hletter : c.lastLetter n = c.alphabet.toList[n % 26] := (Vector.getElem_toList _).symm
  rw [hletter, List.Nodup.idxOf_getElem hc]

theorem before_lastLetter_iff {c : Codec} (hc : c.Distinct) (m n : Nat) :
    c.Before (c.lastLetter m) (c.lastLetter n) ↔ m % 26 < n % 26 := by
  rw [Before, idxOf_lastLetter hc, idxOf_lastLetter hc]

/-- Every letter is the last one of some code, of the first 26 already. -/
theorem exists_lastLetter {c : Codec} {a : Char} (ha : a ∈ c.alphabet.toList) :
    ∃ d < 26, c.lastLetter d = a := by
  obtain ⟨d, hd, rfl⟩ := List.getElem_of_mem ha
  rw [Vector.length_toList] at hd
  refine ⟨d, hd, ?_⟩
  have hdigit : d % 26 = d := Nat.mod_eq_of_lt hd
  simp only [lastLetter, hdigit, Vector.getElem_toList]

/-! ### Every word is a code -/

/-- A letter behind a code makes a code again. -/
theorem encode_append (c : Codec) (m : Nat) {d : Nat} (hd : d < 26) :
    c.encode (26 * (m + 1) + d) = c.encode m ++ [c.lastLetter d] := by
  have hfront : (26 * (m + 1) + d) / 26 - 1 = m := by omega
  have hlast : (26 * (m + 1) + d) % 26 = d % 26 := by omega
  rw [encode_of_ge c (by omega), hfront, lastLetter, lastLetter]
  simp only [hlast]

theorem exists_encode {c : Codec} {t : Text} (hne : t ≠ [])
    (ht : ∀ a ∈ t, a ∈ c.alphabet.toList) : ∃ n, c.encode n = t := by
  induction t using List.reverseRecOn with
  | nil => exact absurd rfl hne
  | append_singleton front a ih =>
    obtain ⟨d, hd, rfl⟩ := exists_lastLetter (ht a (by simp))
    by_cases hfront : front = []
    · exact ⟨d, by rw [encode_of_lt c hd, hfront, List.nil_append]⟩
    · obtain ⟨m, rfl⟩ := ih hfront fun b hb => ht b (List.mem_append_left _ hb)
      exact ⟨26 * (m + 1) + d, encode_append c m hd⟩

/-! ### Codes come in order -/

theorem lex_append {r : Char → Char → Prop} {s t : Text} (hlength : s.length = t.length)
    (h : List.Lex r s t) (a b : Char) : List.Lex r (s ++ [a]) (t ++ [b]) := by
  induction h with
  | nil => cases hlength
  | cons _ ih => exact .cons (ih (Nat.succ.inj hlength))
  | rel hr => exact .rel hr

/-- A word keeps its place when both words get one more letter. -/
theorem shortlex_append {r : Char → Char → Prop} {s t : Text} (h : List.Shortlex r s t)
    (a b : Char) : List.Shortlex r (s ++ [a]) (t ++ [b]) := by
  rcases List.shortlex_def.mp h with hshorter | ⟨hlength, hlex⟩
  · refine .of_length_lt ?_
    rw [List.length_append, List.length_append]
    exact Nat.add_lt_add_right hshorter 1
  · refine .of_lex ?_ (lex_append hlength hlex a b)
    rw [List.length_append, List.length_append, hlength]
    rfl

theorem shortlex_encode {c : Codec} (hc : c.Distinct) {m n : Nat} (h : m < n) :
    List.Shortlex c.Before (c.encode m) (c.encode n) := by
  induction n using Nat.strongRecOn generalizing m with
  | ind n ih =>
    rcases Nat.lt_or_ge n 26 with hn | hn
    · have hm := Nat.lt_trans h hn
      rw [encode_of_lt c hm, encode_of_lt c hn, List.shortlex_singleton_iff,
        before_lastLetter_iff hc]
      omega
    rcases Nat.lt_or_ge m 26 with hm | hm
    · refine .of_length_lt ?_
      have hfront := List.length_pos_of_ne_nil (encode_ne_nil c (n / 26 - 1))
      rw [(length_encode_eq_one_iff c m).mpr hm, encode_of_ge c hn, List.length_append]
      exact Nat.lt_add_of_pos_left hfront
    · rw [encode_of_ge c hm, encode_of_ge c hn]
      rcases Nat.lt_or_ge (m / 26) (n / 26) with hblock | hblock
      · exact shortlex_append (ih (n / 26 - 1) (by omega) (by omega)) _ _
      · -- In one block of 26 the letters before the last one are the same.
        have hsame : m / 26 = n / 26 := by omega
        have hdigit : m % 26 < n % 26 := by omega
        rw [hsame]
        refine .append_left ?_ _
        rw [List.shortlex_singleton_iff]
        exact (before_lastLetter_iff hc m n).mpr hdigit

theorem shortlex_encode_iff {c : Codec} (hc : c.Distinct) (m n : Nat) :
    List.Shortlex c.Before (c.encode m) (c.encode n) ↔ m < n := by
  refine ⟨fun h => Nat.lt_of_not_le fun hle => ?_, shortlex_encode hc⟩
  rcases Nat.lt_or_eq_of_le hle with hlt | rfl
  · exact asymm (shortlex_encode hc hlt) h
  · exact irrefl _ h

/-- **A codec lists all words over the small letters in order.** Whatever the salt, its alphabet is a
permutation of `a` to `z`; every word but the empty one is the code of exactly one counter; and of
two counters the smaller one has the shorter code or, of two of one length, the one that comes first
by the order of its alphabet. -/
theorem encode_lists (salt : List UInt8) :
    (ofBytes salt).alphabet.toList.Perm letters.toList ∧
      Set.BijOn (ofBytes salt).encode Set.univ {t | t ≠ [] ∧ ∀ a ∈ t, 'a' ≤ a ∧ a ≤ 'z'} ∧
      ∀ m n, List.Shortlex (ofBytes salt).Before ((ofBytes salt).encode m) ((ofBytes salt).encode n) ↔
        m < n := by
  have hc : (ofBytes salt).Distinct := distinct_ofBytes salt
  refine ⟨shuffle_perm salt letters, ⟨?_, ?_, ?_⟩, shortlex_encode_iff hc⟩
  · intro n _
    exact ⟨encode_ne_nil _ n, fun a ha => (mem_ofBytes_iff salt a).mp (mem_encode ha)⟩
  · exact fun m _ n _ h => encode_injective hc h
  · rintro t ⟨hne, ht⟩
    obtain ⟨n, hn⟩ := exists_encode hne fun a ha => (mem_ofBytes_iff salt a).mpr (ht a ha)
    exact ⟨n, Set.mem_univ n, hn⟩

end TerseMarkup.Codec
