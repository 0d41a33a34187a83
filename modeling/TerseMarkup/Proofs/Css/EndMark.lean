import Mathlib.Data.List.Infix
import TerseMarkup.Css.Escape
import TerseMarkup.Proofs.Text.Characters

/-! The mark that ends a style element.

The text of a style element is written as it is, so it must not hold `</style`, in letters of any
case (`EndsStyle`). A string keeps the mark wherever its value has it (`endsStyle_writeString`). A
name does not: its `<` and its `/` are both written behind backslashes, so that only its last
character or its first letters can belong to a mark (`endsStyle_writeIdent`,
`drop_prefix_writeIdent`). -/
namespace TerseMarkup.Css
open Text (lower replacement)

/-- The start of the end tag of a style element. -/
def endMark : Text := "</style".toList

/-- Whether the mark stands in a text, whatever the case of its letters. -/
def EndsStyle (t : Text) : Prop := endMark <:+: t.lower

instance : DecidablePred EndsStyle := fun t => inferInstanceAs (Decidable (endMark <:+: t.lower))

theorem EndsStyle.mono {part t : Text} (h : EndsStyle part) (hpart : part <:+: t) : EndsStyle t :=
  h.trans (hpart.map Char.toLower)

theorem lower_append (a b : Text) : lower (a ++ b) = lower a ++ lower b := List.map_append

theorem lower_cons (c : Char) (t : Text) : lower (c :: t) = c.toLower :: lower t := rfl

/-! ### Where a mark stands -/

theorem not_endsStyle_nil : ¬ EndsStyle [] := by decide

theorem endsStyle_cons (c : Char) (t : Text) :
    EndsStyle (c :: t) ↔ c = '<' ∧ endMark.drop 1 <+: t.lower ∨ EndsStyle t := by
  have hmark : endMark = '<' :: endMark.drop 1 := rfl
  show endMark <:+: c.toLower :: t.lower ↔ _
  rw [List.infix_cons_iff, hmark, List.cons_prefix_cons, eq_comm, toLower_eq_iff (by decide)]
  rfl

theorem endsStyle_cons_of_ne {c : Char} (h : c ≠ '<') (t : Text) :
    EndsStyle (c :: t) ↔ EndsStyle t := by
  simp [endsStyle_cons, h]

/-- No mark starts where no bracket does. -/
theorem endsStyle_append_of_forall_ne {x : Text} (h : ∀ c ∈ x, c ≠ '<') (t : Text) :
    EndsStyle (x ++ t) ↔ EndsStyle t := by
  induction x with
  | nil => rfl
  | cons c x ih =>
    rw [List.cons_append, endsStyle_cons_of_ne (h c (List.mem_cons_self ..))]
    exact ih fun d hd => h d (List.mem_cons_of_mem _ hd)

/-- A mark in two texts put together stands in one of them or across the seam. -/
theorem endsStyle_append (a b : Text) :
    EndsStyle (a ++ b) ↔ EndsStyle a ∨ EndsStyle b ∨
      ∃ n, 0 < n ∧ n < endMark.length ∧ endMark.take n <:+ a.lower ∧ endMark.drop n <+: b.lower := by
  rw [EndsStyle, lower_append, List.infix_append_iff]
  constructor
  · rintro (ha | hb | ⟨p, q, hpq, hp, hq⟩)
    · exact .inl ha
    · exact .inr (.inl hb)
    · cases p with
      | nil => exact .inr (.inl (show endMark <:+: lower b from hpq.symm ▸ hq.isInfix))
      | cons c p => cases q with
        | nil => exact .inl (by simpa [EndsStyle, hpq] using hp.isInfix)
        | cons d q =>
          refine .inr (.inr ⟨(c :: p).length, Nat.succ_pos _, ?_, ?_, ?_⟩)
          · rw [hpq, List.length_append, @List.length_cons _ d q]
            omega
          · rwa [hpq, List.take_left]
          · rwa [hpq, List.drop_left]
  · rintro (ha | hb | ⟨n, _, _, hp, hq⟩)
    · exact .inl ha
    · exact .inr (.inl hb)
    · exact .inr (.inr ⟨_, _, (List.take_append_drop n endMark).symm, hp, hq⟩)

/-- A character that no mark has keeps marks on its two sides apart. -/
theorem endsStyle_apart {c : Char} (hc : c.toLower ∉ endMark) (a b : Text) :
    EndsStyle (a ++ c :: b) ↔ EndsStyle a ∨ EndsStyle b := by
  have hne : c ≠ '<' := fun h => hc (by rw [h]; decide)
  have hseam : ¬ ∃ n, 0 < n ∧ n < endMark.length ∧ endMark.take n <:+ a.lower ∧
      endMark.drop n <+: lower (c :: b) := by
    rintro ⟨n, _, hn, _, hdrop⟩
    obtain ⟨d, rest, hd⟩ :=
      List.exists_cons_of_ne_nil (mt List.drop_eq_nil_iff.mp (Nat.not_le_of_lt hn))
    rw [hd] at hdrop
    have heq : d = c.toLower := (List.cons_prefix_cons.mp hdrop).1
    exact hc (heq ▸ List.mem_of_mem_drop (hd ▸ List.mem_cons_self ..))
  rw [endsStyle_append, endsStyle_cons_of_ne hne, or_iff_left hseam]

/-! ### Characters written out -/

theorem toNat_lt_of_isControl {c : Char} (h : isControl c = true) : c.toNat < 128 := by
  simp only [isControl, Bool.or_eq_true, Bool.and_eq_true, decide_eq_true_eq, beq_iff_eq] at h
  omega

theorem toNat_lt_of_isDigit {c : Char} (h : c.isDigit = true) : c.toNat < 128 := by
  have hle : c.val ≤ '9'.val := by simpa using (Bool.and_eq_true_iff.mp h).2
  exact Nat.lt_of_le_of_lt hle (by decide)

theorem hexEscape_ne {c : Char} (hc : c.toNat < 128) : ∀ d ∈ hexEscape c, d ≠ '<' :=
  forall_of_all (forall_ascii (P := fun c => (hexEscape c).all (· ≠ '<') = true) (by decide +kernel) hc)

theorem writeNameChar_ne {c : Char} (h : c ≠ '<') : ∀ d ∈ writeNameChar c, d ≠ '<' := by
  rw [writeNameChar]
  split
  · exact forall_of_all (by decide)
  · split
    · simpa using h
    · split
      · exact hexEscape_ne (toNat_lt_of_isControl ‹_›)
      · simpa using h

theorem writeNameChar_of_isAlpha {c : Char} (h : c.isAlpha = true) : writeNameChar c = [c] := by
  rw [writeNameChar, if_neg (by rintro rfl; exact absurd h (by decide)),
    if_pos (by simp [isNameChar, isNameStart, h])]

/-- What is written of a name starts with a letter only where the name does, and never with a
slash. -/
theorem writeNameChar_start {c : Char} (h : c.isAlpha = false) :
    ∃ d t, writeNameChar c = d :: t ∧ d.isAlpha = false ∧ d ≠ '/' := by
  rw [writeNameChar]
  split
  · exact ⟨_, _, rfl, by decide, by decide⟩
  · split
    · refine ⟨_, _, rfl, h, ?_⟩
      rintro rfl
      exact absurd ‹isNameChar '/' = true› (by decide)
    · split
      · exact ⟨_, _, rfl, by decide, by decide⟩
      · exact ⟨_, _, rfl, by decide, by decide⟩

/-! ### Names written out -/

theorem writeName_cons (c : Char) (r : Text) : writeName (c :: r) = writeNameChar c ++ writeName r :=
  rfl

theorem writeName_start {c : Char} (h : c.isAlpha = false) (r : Text) :
    ∃ d t, writeName (c :: r) = d :: t ∧ d.isAlpha = false ∧ d ≠ '/' := by
  obtain ⟨d, t, hd, hdalpha, hdslash⟩ := writeNameChar_start h
  exact ⟨d, t ++ writeName r, by rw [writeName_cons, hd]; rfl, hdalpha, hdslash⟩

/-- An identifier is a name but for a digit at its start, or behind a hyphen there, and for a hyphen
alone. -/
theorem writeIdent_cases (c : Char) (r : Text) :
    writeIdent (c :: r) = writeName (c :: r) ∨
      c.isDigit = true ∧ writeIdent (c :: r) = hexEscape c ++ writeName r ∨
      c = '-' ∧ r = [] ∧ writeIdent (c :: r) = ['\\', '-'] ∨
      c = '-' ∧ ∃ d s, r = d :: s ∧ d.isDigit = true ∧
        writeIdent (c :: r) = '-' :: (hexEscape d ++ writeName s) := by
  by_cases hc : c = '-'
  · subst hc
    cases r with
    | nil => exact .inr (.inr (.inl ⟨rfl, rfl, rfl⟩))
    | cons d s =>
      by_cases hd : d.isDigit = true
      · refine .inr (.inr (.inr ⟨rfl, d, s, rfl, hd, ?_⟩))
        have hne : d ≠ '-' := by rintro rfl; exact absurd hd (by decide)
        simp [writeIdent, writeStart, hd, hne]
      · refine .inl ?_
        by_cases hne : d = '-'
        · subst hne
          rfl
        · simp [writeIdent, writeStart, hd, hne, writeName_cons '-']
          rfl
  · have hstart : writeIdent (c :: r) = writeStart (c :: r) := by simp [writeIdent, hc]
    by_cases hd : c.isDigit = true
    · exact .inr (.inl ⟨hd, by rw [hstart, writeStart, if_pos hd]⟩)
    · exact .inl (by rw [hstart, writeStart, if_neg hd])

theorem writeIdent_of_isAlpha {c : Char} (h : c.isAlpha = true) (r : Text) :
    writeIdent (c :: r) = c :: writeName r := by
  have hname : writeName (c :: r) = c :: writeName r := by
    rw [writeName_cons, writeNameChar_of_isAlpha h]
    rfl
  have hne : c ≠ '-' := by rintro rfl; exact absurd h (by decide)
  rcases writeIdent_cases c r with hw | ⟨hd, _⟩ | ⟨rfl, _⟩ | ⟨rfl, _⟩
  · rw [hw, hname]
  · have hascii := toNat_lt_of_isDigit hd
    exact absurd ⟨h, hd⟩ (forall_ascii (P := fun c => ¬ (c.isAlpha = true ∧ c.isDigit = true))
      (by decide +kernel) hascii)
  · exact absurd rfl hne
  · exact absurd rfl hne

theorem writeIdent_start {c : Char} (h : c.isAlpha = false) (r : Text) :
    ∃ d t, writeIdent (c :: r) = d :: t ∧ d.isAlpha = false ∧ d ≠ '/' := by
  rcases writeIdent_cases c r with hw | ⟨_, hw⟩ | ⟨_, _, hw⟩ | ⟨_, d, s, _, _, hw⟩
  · rw [hw]
    exact writeName_start h r
  · exact ⟨_, _, hw, by decide, by decide⟩
  · exact ⟨_, _, hw, by decide, by decide⟩
  · exact ⟨_, _, hw, by decide, by decide⟩

theorem not_prefix_of_start {a d : Char} (ha : a.isAlpha = true) (hd : d.isAlpha = false)
    (p t : Text) : ¬ a :: p <+: lower (d :: t) := by
  intro h
  have hlower : d.toLower = d := (toLower_eq_iff hd).mpr rfl
  have had : a = d := (List.cons_prefix_cons.mp h).1.trans hlower
  rw [had, hd] at ha
  cases ha

/-- Letters at the start of what is written are letters at the start of the name. -/
theorem prefix_writeName {p : Text} (hp : ∀ a ∈ p, a.isAlpha = true) (name after : Text) :
    p <+: lower (writeName name ++ after) ↔ p <+: lower (name ++ after) := by
  induction name generalizing p with
  | nil => rfl
  | cons c r ih =>
    cases p with
    | nil => simp
    | cons a p =>
      have ha : a.isAlpha = true := hp a (List.mem_cons_self ..)
      cases hc : c.isAlpha with
      | true =>
        rw [writeName_cons, writeNameChar_of_isAlpha hc]
        simp only [List.cons_append, List.nil_append, lower_cons, List.cons_prefix_cons]
        exact and_congr_right fun _ => ih fun b hb => hp b (List.mem_cons_of_mem _ hb)
      | false =>
        obtain ⟨d, t, hd, hdalpha, _⟩ := writeName_start hc r
        rw [hd]
        exact iff_of_false (not_prefix_of_start ha hdalpha _ _) (not_prefix_of_start ha hc _ _)

theorem isAlpha_of_mem_drop {n : Nat} (h : 2 ≤ n) : ∀ a ∈ endMark.drop n, a.isAlpha = true := by
  intro a ha
  have hletters : ∀ a ∈ endMark.drop 2, a.isAlpha = true := forall_of_all (by decide)
  rw [← Nat.add_sub_cancel' h, ← List.drop_drop] at ha
  exact hletters a (List.mem_of_mem_drop ha)

theorem eq_slash_of_prefix_drop {d : Char} {t : Text} (h : endMark.drop 1 <+: lower (d :: t)) :
    d = '/' :=
  (toLower_eq_iff (by decide)).mp (List.cons_prefix_cons.mp h).1.symm

/-- What is written of a name never goes on with the slash of a mark. -/
theorem not_drop_prefix_writeName (c : Char) (r after : Text) :
    ¬ endMark.drop 1 <+: lower (writeName (c :: r) ++ after) := by
  intro h
  cases hc : c.isAlpha with
  | true =>
    rw [writeName_cons, writeNameChar_of_isAlpha hc] at h
    rw [eq_slash_of_prefix_drop h] at hc
    exact absurd hc (by decide)
  | false =>
    obtain ⟨d, t, hd, _, hne⟩ := writeName_start hc r
    rw [hd] at h
    exact hne (eq_slash_of_prefix_drop h)

/-- **A mark that begins before a name goes on in it** exactly if the name goes on with its letters.
A slash there would be written behind a backslash. -/
theorem drop_prefix_writeIdent {n : Nat} (hpos : 0 < n) (hn : n < endMark.length)
    (name after : Text) :
    endMark.drop n <+: lower (writeIdent name ++ after) ↔
      name.head? ≠ some '/' ∧ endMark.drop n <+: lower (name ++ after) := by
  cases name with
  | nil => simp [writeIdent, writeStart]
  | cons c r =>
    obtain rfl | htwo : n = 1 ∨ 2 ≤ n := by omega
    · refine iff_of_false (fun h => ?_) fun h => h.1 (by rw [eq_slash_of_prefix_drop h.2]; rfl)
      cases hc : c.isAlpha with
      | true =>
        rw [writeIdent_of_isAlpha hc] at h
        rw [eq_slash_of_prefix_drop h] at hc
        exact absurd hc (by decide)
      | false =>
        obtain ⟨d, t, hd, _, hne⟩ := writeIdent_start hc r
        rw [hd] at h
        exact hne (eq_slash_of_prefix_drop h)
    · have hletters := isAlpha_of_mem_drop htwo
      obtain ⟨a, p, hp⟩ :=
        List.exists_cons_of_ne_nil (mt List.drop_eq_nil_iff.mp (Nat.not_le_of_lt hn))
      rw [hp] at hletters ⊢
      have ha : a.isAlpha = true := hletters a (List.mem_cons_self ..)
      cases hc : c.isAlpha with
      | true =>
        have hne : (c :: r).head? ≠ some '/' := by
          rintro ⟨⟩
          exact absurd hc (by decide)
        rw [writeIdent_of_isAlpha hc, and_iff_right hne]
        simp only [List.cons_append, lower_cons, List.cons_prefix_cons]
        exact and_congr_right fun _ =>
          prefix_writeName (fun b hb => hletters b (List.mem_cons_of_mem _ hb)) r after
      | false =>
        obtain ⟨d, t, hd, hdalpha, _⟩ := writeIdent_start hc r
        rw [hd]
        exact iff_of_false (not_prefix_of_start ha hdalpha _ _)
          fun h => not_prefix_of_start ha hc _ _ h.2

theorem getLast?_cons_of_ne {c : Char} (h : c ≠ '<') (r : Text) :
    (c :: r).getLast? = some '<' ↔ r.getLast? = some '<' := by
  cases r with
  | nil => simp [h]
  | cons d s => rw [List.getLast?_cons_cons]

/-- A bracket at the end of a name is the one place where a mark can begin in it. -/
theorem endsStyle_writeName (name after : Text) :
    EndsStyle (writeName name ++ after) ↔
      name.getLast? = some '<' ∧ endMark.drop 1 <+: lower after ∨ EndsStyle after := by
  induction name with
  | nil => simp [writeName]
  | cons c r ih =>
    rw [writeName_cons, List.append_assoc]
    by_cases hc : c = '<'
    · subst hc
      show EndsStyle ('\\' :: '<' :: (writeName r ++ after)) ↔ _
      rw [endsStyle_cons_of_ne (by decide), endsStyle_cons, and_iff_right rfl, ih]
      cases r with
      | nil => simp [writeName]
      | cons d s =>
        rw [or_iff_right (not_drop_prefix_writeName d s after), List.getLast?_cons_cons]
    · rw [endsStyle_append_of_forall_ne (writeNameChar_ne hc), ih, getLast?_cons_of_ne hc]

/-- The same of an identifier: what is written in its own way at the start has no bracket. -/
theorem endsStyle_writeIdent (name after : Text) :
    EndsStyle (writeIdent name ++ after) ↔
      name.getLast? = some '<' ∧ endMark.drop 1 <+: lower after ∨ EndsStyle after := by
  have digit {d : Char} (h : d.isDigit = true) (s : Text) :
      EndsStyle (hexEscape d ++ (writeName s ++ after)) ↔
        (d :: s).getLast? = some '<' ∧ endMark.drop 1 <+: lower after ∨ EndsStyle after := by
    have hne : d ≠ '<' := by rintro rfl; exact absurd h (by decide)
    rw [endsStyle_append_of_forall_ne (hexEscape_ne (toNat_lt_of_isDigit h)), endsStyle_writeName,
      getLast?_cons_of_ne hne]
  cases name with
  | nil => simp [writeIdent, writeStart]
  | cons c r =>
    rcases writeIdent_cases c r with hw | ⟨hd, hw⟩ | ⟨rfl, rfl, hw⟩ | ⟨rfl, d, s, rfl, hd, hw⟩
    · rw [hw]
      exact endsStyle_writeName (c :: r) after
    · rw [hw, List.append_assoc]
      exact digit hd r
    · rw [hw, endsStyle_append_of_forall_ne (forall_of_all (by decide))]
      simp
    · rw [hw, List.cons_append, endsStyle_cons_of_ne (by decide), List.append_assoc, digit hd,
        getLast?_cons_of_ne (c := '-') (by decide)]

/-! ### Strings written out -/

/-- A character that a mark may have is written in a string as it is, and no other is written so
that it starts with one. -/
theorem writeStringChar_cases (c : Char) :
    writeStringChar c = [c] ∨
      c.toLower ∉ endMark ∧ (∀ d ∈ writeStringChar c, d ≠ '<') ∧
        ∃ d t, writeStringChar c = d :: t ∧ d.toLower ∉ endMark := by
  rw [writeStringChar]
  split
  · rename_i h
    rcases h with rfl | rfl
    · exact .inr ⟨by decide, forall_of_all (by decide), _, _, rfl, by decide⟩
    · exact .inr ⟨by decide, forall_of_all (by decide), _, _, rfl, by decide⟩
  · split
    · rename_i h
      subst h
      exact .inr ⟨by decide, forall_of_all (by decide), _, _, rfl, by decide⟩
    · split
      · rename_i h
        have hascii := toNat_lt_of_isControl h
        refine .inr ⟨?_, hexEscape_ne hascii, _, _, rfl, by decide⟩
        exact forall_ascii (P := fun c => isControl c = true → c.toLower ∉ endMark)
          (by decide +kernel) hascii h
      · exact .inl rfl

/-- Characters of the mark at the start of a string are such at the start of its value. -/
theorem prefix_writeString {p : Text} (hp : p ⊆ endMark) (value : Text) :
    p <+: lower (value.flatMap writeStringChar) ↔ p <+: lower value := by
  induction value generalizing p with
  | nil => rfl
  | cons c r ih =>
    cases p with
    | nil => simp
    | cons a p =>
      obtain ⟨ha, hrest⟩ := List.cons_subset.mp hp
      rw [List.flatMap_cons]
      rcases writeStringChar_cases c with hw | ⟨hc, _, d, t, hw, hd⟩
      · rw [hw]
        simp only [List.cons_append, List.nil_append, lower_cons, List.cons_prefix_cons]
        exact and_congr_right fun _ => ih hrest
      · rw [hw]
        simp only [List.cons_append, lower_cons, List.cons_prefix_cons]
        exact iff_of_false (fun h => hd (h.1 ▸ ha)) fun h => hc (h.1 ▸ ha)

/-- **A string has the mark where its value has it.** -/
theorem endsStyle_flatMap_writeStringChar (value : Text) :
    EndsStyle (value.flatMap writeStringChar) ↔ EndsStyle value := by
  induction value with
  | nil => rfl
  | cons c r ih =>
    rw [List.flatMap_cons]
    rcases writeStringChar_cases c with hw | ⟨hc, hne, _⟩
    · rw [hw, List.singleton_append, endsStyle_cons, endsStyle_cons, ih,
        prefix_writeString (List.drop_subset 1 endMark)]
    · have hbracket : c ≠ '<' := by rintro rfl; exact hc (by decide)
      rw [endsStyle_append_of_forall_ne hne, ih, endsStyle_cons_of_ne hbracket]

/-- A string's quotes keep marks around it apart from those in it. -/
theorem endsStyle_writeString (before value after : Text) :
    EndsStyle (before ++ (writeString value ++ after)) ↔
      EndsStyle before ∨ EndsStyle value ∨ EndsStyle after := by
  have hquote : '"'.toLower ∉ endMark := by decide
  rw [writeString, List.cons_append, endsStyle_apart hquote, List.append_assoc,
    List.singleton_append, endsStyle_apart hquote, endsStyle_flatMap_writeStringChar]

end TerseMarkup.Css
