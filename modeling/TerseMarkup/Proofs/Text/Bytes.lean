import TerseMarkup.Text

/-! Texts as bytes.

The UTF-8 form of a text is that of its characters in turn (`bytes_eq`). An ASCII character is one
byte below 128; every byte of another character is at least 128, and 194 is none but the first of
two (`encoded`). -/
namespace TerseMarkup.Text

theorem toList_loop_eq (bs : ByteArray) (i : Nat) (r : List UInt8) :
    ByteArray.toList.loop bs i r = r.reverse ++ bs.data.toList.drop i := by
  fun_induction ByteArray.toList.loop bs i r with
  | case1 i r h ih =>
    have hi : i < bs.data.toList.length := h
    rw [ih, List.drop_eq_getElem_cons hi, List.reverse_cons, List.append_assoc]
    simp [ByteArray.get!, h]
  | case2 i r h =>
    rw [List.drop_eq_nil_of_le (Nat.le_of_not_lt h), List.append_nil]

/-- The UTF-8 form, character by character. -/
theorem bytes_eq (t : Text) : t.bytes = t.flatMap String.utf8EncodeChar := by
  rw [bytes, String.toUTF8, String.toByteArray_ofList, ByteArray.toList, toList_loop_eq,
    List.utf8Encode, List.toList_data_toByteArray]
  rfl

@[simp] theorem bytes_nil : bytes [] = [] := by rw [bytes_eq, List.flatMap_nil]

theorem bytes_cons (c : Char) (t : Text) : bytes (c :: t) = String.utf8EncodeChar c ++ bytes t := by
  rw [bytes_eq, bytes_eq, List.flatMap_cons]

@[simp] theorem bytes_append (s t : Text) : bytes (s ++ t) = bytes s ++ bytes t := by
  rw [bytes_eq, bytes_eq, bytes_eq, List.flatMap_append]

theorem bytes_eq_nil_iff (t : Text) : bytes t = [] ↔ t = [] := by
  cases t with
  | nil => exact iff_of_true bytes_nil rfl
  | cons c t =>
    rw [bytes_cons]
    refine iff_of_false (fun h => ?_) (List.cons_ne_nil c t)
    exact String.utf8EncodeChar_ne_nil (List.append_eq_nil_iff.mp h).1

theorem toByteArray_bytes (t : Text) : t.bytes.toByteArray = t.utf8Encode := by
  rw [bytes_eq]
  rfl

/-- What the bytes of a character are: one below 128, or a first one from 192 on and others below
192. The first is below 224 only if there are two. -/
inductive Encoded (c : Char) : List UInt8 → Prop
  | ascii (h : c.toNat < 128) : Encoded c [UInt8.ofNat c.toNat]
  | two {first second : UInt8} (h : 128 ≤ c.toNat) (hfirst : 192 ≤ first.toNat)
      (hsecond : 128 ≤ second.toNat ∧ second.toNat < 192)
      (hvalue : c.toNat = (first.toNat - 192) * 64 + (second.toNat - 128)) :
      Encoded c [first, second]
  | more {first : UInt8} {others : List UInt8} (h : 2048 ≤ c.toNat) (hfirst : 224 ≤ first.toNat)
      (hothers : ∀ b ∈ others, 128 ≤ b.toNat ∧ b.toNat < 192) : Encoded c (first :: others)

theorem encoded (c : Char) : Encoded c (bytes [c]) := by
  have hbound : c.val.toNat < 0x110000 := c.valid.elim (fun h => by omega) And.right
  have hcontinued (n : Nat) : 128 ≤ (UInt8.ofNat (n % 64 + 128)).toNat ∧
      (UInt8.ofNat (n % 64 + 128)).toNat < 192 := by
    rw [UInt8.toNat_ofNat']
    omega
  rw [bytes_cons, bytes_nil, List.append_nil, String.utf8EncodeChar]
  split
  · exact .ascii (by show c.val.toNat < 128; omega)
  · split
    · refine .two (by show 128 ≤ c.val.toNat; omega) ?_ (hcontinued _) ?_
      · rw [UInt8.toNat_ofNat']
        omega
      · show c.val.toNat = _
        rw [UInt8.toNat_ofNat', UInt8.toNat_ofNat']
        omega
    · split
      · refine .more (by show 2048 ≤ c.val.toNat; omega) ?_ ?_
        · rw [UInt8.toNat_ofNat']
          omega
        · simp only [List.forall_mem_cons]
          exact ⟨hcontinued _, hcontinued _, by simp⟩
      · refine .more (by show 2048 ≤ c.val.toNat; omega) ?_ ?_
        · rw [UInt8.toNat_ofNat']
          omega
        · simp only [List.forall_mem_cons]
          exact ⟨hcontinued _, hcontinued _, hcontinued _, by simp⟩

/-! ### ASCII characters -/

/-- The byte that an ASCII character is. -/
def asciiByte (c : Char) : UInt8 := UInt8.ofNat c.toNat

theorem toNat_asciiByte {c : Char} (h : c.toNat < 128) : (asciiByte c).toNat = c.toNat := by
  rw [asciiByte, UInt8.toNat_ofNat', Nat.mod_eq_of_lt (by omega)]

theorem asciiByte_inj {c d : Char} (hc : c.toNat < 128) (hd : d.toNat < 128) :
    asciiByte c = asciiByte d ↔ c = d := by
  rw [← UInt8.toNat_inj, toNat_asciiByte hc, toNat_asciiByte hd, Char.toNat_inj]

theorem asciiByte_beq {c d : Char} (hc : c.toNat < 128) (hd : d.toNat < 128) :
    (asciiByte c == asciiByte d) = (c == d) := by
  rw [Bool.eq_iff_iff, beq_iff_eq, beq_iff_eq, asciiByte_inj hc hd]

theorem asciiByte_ne {c : Char} {b : UInt8} (hc : c.toNat < 128) (hb : 128 ≤ b.toNat) :
    asciiByte c ≠ b := by
  rintro rfl
  rw [toNat_asciiByte hc] at hb
  omega

theorem bytes_ascii {c : Char} (h : c.toNat < 128) : bytes [c] = [asciiByte c] := by
  have hencoded := encoded c
  generalize bytes [c] = bs at hencoded ⊢
  cases hencoded with
  | ascii => rfl
  | two hhigh | more hhigh => omega

theorem bytes_cons_ascii {c : Char} (h : c.toNat < 128) (t : Text) :
    bytes (c :: t) = asciiByte c :: bytes t := by
  rw [← List.singleton_append, bytes_append, bytes_ascii h]
  rfl

theorem le_of_mem_bytes {c : Char} (h : 128 ≤ c.toNat) {b : UInt8} (hb : b ∈ bytes [c]) :
    128 ≤ b.toNat := by
  have hencoded := encoded c
  generalize bytes [c] = bs at hencoded hb
  cases hencoded with
  | ascii hlow => omega
  | two _ hfirst hsecond =>
    rcases List.mem_cons.mp hb with rfl | hb
    · omega
    · exact List.mem_singleton.mp hb ▸ hsecond.1
  | more _ hfirst hothers =>
    rcases List.mem_cons.mp hb with rfl | hb
    · omega
    · exact (hothers b hb).1

/-- The byte of an ASCII character stands for nothing else. -/
theorem count_bytes {c : Char} (h : c.toNat < 128) (t : Text) :
    t.bytes.count (asciiByte c) = t.count c := by
  induction t with
  | nil => rw [bytes_nil, List.count_nil, List.count_nil]
  | cons d t ih =>
    rw [← List.singleton_append, bytes_append, List.count_append, List.count_append, ih]
    congr 1
    by_cases hd : d.toNat < 128
    · rw [bytes_ascii hd, List.count_singleton, List.count_singleton, asciiByte_beq hd h]
    · have hnone : asciiByte c ∉ bytes [d] := fun hmem =>
        asciiByte_ne h (le_of_mem_bytes (Nat.le_of_not_lt hd) hmem) rfl
      have hne : c ∉ [d] := fun hmem => hd (List.mem_singleton.mp hmem ▸ h)
      rw [List.count_eq_zero.mpr hnone, List.count_eq_zero.mpr hne]

end TerseMarkup.Text
