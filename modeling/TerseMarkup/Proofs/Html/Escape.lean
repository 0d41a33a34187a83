import TerseMarkup.Html.CharacterReference
import TerseMarkup.Html.Markup.Escape
import TerseMarkup.Proofs.Text.Characters

/-! References that are read back.

What `writeText` and `writeValue` write for a text is read as that text. Every reference that they
write ends in a semicolon, so that it is read in the same way whatever follows (`IsReference`). -/
namespace TerseMarkup.Html

namespace CharacterNames

/-- The names that start with this character. -/
def startingWith (c : Char) : List (String × List Nat) := if c.isUpper then capital c else small c

/-- Whether one of two names goes on from the other. -/
def overlap (name other : Text) : Bool := name.isPrefixOf other || other.isPrefixOf name

/-- What follows a name that no other name goes on from does not matter. -/
theorem at?_append {c : Char} {name : Text} {entries : List (String × List Nat)}
    (hentries : (startingWith c).filter (overlap (c :: name) ·.1.toList) = entries)
    (hshort : ∀ entry ∈ entries, entry.1.toList.isPrefixOf (c :: name) = true) (r : Text) :
    at? (c :: name ++ r) = entries.foldl longer none := by
  have hsame : ∀ entry ∈ startingWith c, entry.1.toList.isPrefixOf (c :: name ++ r) =
      overlap (c :: name) entry.1.toList := by
    intro entry hentry
    rw [overlap, Bool.eq_iff_iff, Bool.or_eq_true, List.isPrefixOf_iff_prefix,
      List.isPrefixOf_iff_prefix, List.isPrefixOf_iff_prefix]
    refine ⟨fun h => (List.prefix_or_prefix_of_prefix h (List.prefix_append _ r)).symm, fun h => ?_⟩
    have hmem : entry ∈ entries := by
      rw [← hentries, List.mem_filter]
      exact ⟨hentry, by simpa [overlap] using h⟩
    exact (List.isPrefixOf_iff_prefix.mp (hshort entry hmem)).trans (List.prefix_append _ r)
  show ((startingWith c).filter _).foldl longer none = _
  rw [List.filter_congr hsame, hentries]

/-- The names that are written overlap with no names but those without the semicolon. -/
theorem filter_overlap :
    (startingWith 'a').filter (overlap "amp;".toList ·.1.toList) =
        [("amp", [0x26]), ("amp;", [0x26])] ∧
      (startingWith 'l').filter (overlap "lt;".toList ·.1.toList) =
        [("lt", [0x3C]), ("lt;", [0x3C])] ∧
      (startingWith 'g').filter (overlap "gt;".toList ·.1.toList) =
        [("gt", [0x3E]), ("gt;", [0x3E])] ∧
      (startingWith 'n').filter (overlap "nbsp;".toList ·.1.toList) =
        [("nbsp", [0xA0]), ("nbsp;", [0xA0])] := by decide +kernel

end CharacterNames

namespace CharacterReference

/-- Behind an ampersand this is a reference that means `c`, whatever follows. -/
def IsReference (spelled : Text) (c : Char) : Prop :=
  ∀ inAttribute r, read? inAttribute (spelled ++ r) = some { meaning := [c], length := spelled.length }

theorem isReference_of_name {first : Char} {name : Text} {entries : List (String × List Nat)}
    (hfirst : first ≠ '#')
    (hentries : (CharacterNames.startingWith first).filter
      (CharacterNames.overlap (first :: name) ·.1.toList) = entries)
    (hshort : entries.all (·.1.toList.isPrefixOf (first :: name)) = true) {spelled : String} {n : Nat}
    (hat : entries.foldl CharacterNames.longer none = some (spelled, [n]))
    (hname : spelled.toList = first :: name) (hclosed : (first :: name).getLast? = some ';') :
    IsReference (first :: name) (Char.ofNat n) := by
  intro inAttribute r
  rw [List.cons_append, read?, readName?, ← List.cons_append,
    CharacterNames.at?_append hentries (List.all_eq_true.mp hshort), hat]
  · simp [hname, hclosed]
  all_goals exact fun _ heq => hfirst (List.cons.inj heq).1

theorem isReference_of_number {first : Char} (digits : Text) {c : Char}
    (hfirst : first ≠ 'x' ∧ first ≠ 'X') (hdigits : (first :: digits).all Char.isDigit = true)
    (hnumber : numbered (Text.number 10 (first :: digits)) = c) :
    IsReference ('#' :: (first :: digits ++ [';'])) c := by
  intro inAttribute r
  have hrun : (first :: digits ++ ';' :: r).takeWhile Char.isDigit = first :: digits := by
    rw [List.takeWhile_append_of_pos (by simpa using hdigits), List.takeWhile_cons_of_neg (by decide),
      List.append_nil]
  have hread : '#' :: (first :: digits ++ [';']) ++ r = '#' :: (first :: digits ++ ';' :: r) := by
    simp
  rw [hread, read?, readNumber?, hrun]
  · simp [hnumber, Nat.add_comm]
  · exact fun _ heq => hfirst.1 (List.cons.inj heq).1
  · exact fun _ heq => hfirst.2 (List.cons.inj heq).1

theorem isReference_amp : IsReference "amp;".toList '&' :=
  isReference_of_name (by decide) CharacterNames.filter_overlap.1 (by decide) rfl rfl (by decide)

theorem isReference_lt : IsReference "lt;".toList '<' :=
  isReference_of_name (by decide) CharacterNames.filter_overlap.2.1 (by decide) rfl rfl (by decide)

theorem isReference_gt : IsReference "gt;".toList '>' :=
  isReference_of_name (by decide) CharacterNames.filter_overlap.2.2.1 (by decide) rfl rfl (by decide)

theorem isReference_nbsp : IsReference "nbsp;".toList Markup.noBreakSpace :=
  isReference_of_name (by decide) CharacterNames.filter_overlap.2.2.2 (by decide) rfl rfl (by decide)

theorem isReference_double : IsReference "#34;".toList '"' :=
  isReference_of_number ['4'] (by decide) (by decide) (by decide)

theorem isReference_single : IsReference "#39;".toList '\'' :=
  isReference_of_number ['9'] (by decide) (by decide) (by decide)

/-! ### Decoding -/

theorem decodeFrom_skip (inAttribute : Bool) (read r : Text) :
    decodeFrom inAttribute read.length (read ++ r) = decodeFrom inAttribute 0 r := by
  induction read with
  | nil => rfl
  | cons c read ih => exact ih

theorem decodeFrom_reference {spelled : Text} {c : Char} (h : IsReference spelled c)
    (inAttribute : Bool) (r : Text) :
    decodeFrom inAttribute 0 ('&' :: (spelled ++ r)) = c :: decodeFrom inAttribute 0 r := by
  rw [decodeFrom, if_pos rfl, h]
  exact congrArg (c :: ·) (decodeFrom_skip inAttribute spelled r)

theorem decodeFrom_char {c : Char} (h : c ≠ '&') (inAttribute : Bool) (r : Text) :
    decodeFrom inAttribute 0 (c :: r) = c :: decodeFrom inAttribute 0 r := by
  rw [decodeFrom, if_neg h]

end CharacterReference

namespace Markup
open CharacterReference

/-- What is written for a character is read as the character, whatever follows. -/
def Reads (write : Char → Text) : Prop :=
  ∀ inAttribute c r, decodeFrom inAttribute 0 (write c ++ r) = c :: decodeFrom inAttribute 0 r

theorem Reads.decode {write : Char → Text} (h : Reads write) (inAttribute : Bool) (t : Text) :
    decode inAttribute (t.flatMap write) = t := by
  induction t with
  | nil => rfl
  | cons c t ih =>
    show decodeFrom inAttribute 0 ((c :: t).flatMap write) = c :: t
    rw [List.flatMap_cons, h inAttribute c]
    exact congrArg (c :: ·) ih

theorem reads_textChar : Reads writeTextChar := by
  intro inAttribute c r
  rw [writeTextChar]
  split
  · next h => exact h ▸ decodeFrom_reference isReference_nbsp inAttribute r
  · split
    · next h => exact h ▸ decodeFrom_reference isReference_amp inAttribute r
    · split
      · next h => exact h ▸ decodeFrom_reference isReference_lt inAttribute r
      · split
        · next h => exact h ▸ decodeFrom_reference isReference_gt inAttribute r
        · next h _ _ => exact decodeFrom_char h inAttribute r

theorem Quote.decodeFrom_reference (q : Quote) (inAttribute : Bool) (r : Text) :
    decodeFrom inAttribute 0 (q.reference ++ r) = q.char :: decodeFrom inAttribute 0 r := by
  cases q with
  | double => exact CharacterReference.decodeFrom_reference isReference_double inAttribute r
  | single => exact CharacterReference.decodeFrom_reference isReference_single inAttribute r

theorem reads_valueChar (q : Quote) : Reads (writeValueChar q) := by
  intro inAttribute c r
  rw [writeValueChar]
  split
  · next h => exact h ▸ decodeFrom_reference isReference_nbsp inAttribute r
  · split
    · next h => exact h ▸ decodeFrom_reference isReference_amp inAttribute r
    · split
      · next h => exact h ▸ q.decodeFrom_reference inAttribute r
      · next h _ => exact decodeFrom_char h inAttribute r

/-- **Text is read back.** -/
theorem decode_writeText (inAttribute : Bool) (t : Text) : decode inAttribute (writeText t) = t :=
  reads_textChar.decode inAttribute t

/-- **A value is read back**, whichever quotes it is written in. -/
theorem decode_writeValue (inAttribute : Bool) (q : Quote) (t : Text) :
    decode inAttribute (t.flatMap (writeValueChar q)) = t :=
  (reads_valueChar q).decode inAttribute t

/-! ### The characters that are written -/

theorem mem_writeTextChar {c d : Char} (h : d ∈ writeTextChar c) :
    d ≠ '<' ∧ d ≠ '>' ∧ (d = c ∨ d ≠ '\x00') := by
  have hreference {spelled : Text} (hd : d ∈ spelled)
      (hall : spelled.all (fun d => decide (d ≠ '<' ∧ d ≠ '>' ∧ d ≠ '\x00')) = true) :
      d ≠ '<' ∧ d ≠ '>' ∧ (d = c ∨ d ≠ '\x00') :=
    (forall_of_all hall d hd).imp_right (And.imp_right .inr)
  rw [writeTextChar] at h
  split at h
  · exact hreference h (by decide)
  · split at h
    · exact hreference h (by decide)
    · split at h
      · exact hreference h (by decide)
      · next hlt =>
        split at h
        · exact hreference h (by decide)
        · next hgt =>
          obtain rfl := List.mem_singleton.mp h
          exact ⟨hlt, hgt, .inl rfl⟩

/-- No tag starts in text. -/
theorem mem_writeText {t : Text} (hnull : '\x00' ∉ t) {d : Char} (h : d ∈ writeText t) :
    d ≠ '<' ∧ d ≠ '\x00' := by
  obtain ⟨c, hc, hd⟩ := List.mem_flatMap.mp h
  obtain ⟨hlt, -, hsame⟩ := mem_writeTextChar hd
  refine ⟨hlt, hsame.elim (fun heq hd => hnull ?_) id⟩
  rwa [← hd, heq]

theorem writeText_ne_nil {t : Text} (h : t ≠ []) : writeText t ≠ [] := by
  obtain ⟨c, r, rfl⟩ := List.exists_cons_of_ne_nil h
  have hchar : writeTextChar c ≠ [] := by
    rw [writeTextChar]
    repeat' split
    all_goals simp
  exact List.append_ne_nil_of_left_ne_nil hchar _

/-- No quote of a value is the one that it stands in. -/
theorem char_not_mem_writeValue (q : Quote) (t : Text) : q.char ∉ t.flatMap (writeValueChar q) := by
  intro h
  obtain ⟨c, -, hd⟩ := List.mem_flatMap.mp h
  have hfixed : ∀ q : Quote, q.char ∉ "&nbsp;".toList ∧ q.char ∉ "&amp;".toList ∧
      q.char ∉ q.reference := by
    intro q
    cases q <;> decide
  rw [writeValueChar] at hd
  split at hd
  · exact (hfixed q).1 hd
  · split at hd
    · exact (hfixed q).2.1 hd
    · split at hd
      · exact (hfixed q).2.2 hd
      · next hne => exact hne (List.mem_singleton.mp hd).symm

/-- Text that is written starts with no reference that lacks its semicolon. -/
theorem startsUnclosed_writeText (t : Text) : startsUnclosed (writeText t) = false := by
  have hclosed {spelled : Text} {c : Char} (h : IsReference spelled c) (r : Text) :
      startsUnclosed ('&' :: (spelled ++ r)) = false := by
    rw [startsUnclosed, h]
    rfl
  cases t with
  | nil => rfl
  | cons c r =>
    rw [writeText, List.flatMap_cons, writeTextChar]
    split
    · exact hclosed isReference_nbsp _
    · split
      · exact hclosed isReference_amp _
      · split
        · exact hclosed isReference_lt _
        · split
          · exact hclosed isReference_gt _
          · next h _ _ =>
            rw [List.singleton_append, startsUnclosed]
            exact fun _ heq => h (List.cons.inj heq).1

end Markup
end TerseMarkup.Html
