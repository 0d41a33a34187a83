import TerseMarkup.Proofs.Css.Lexeme.Standing

/-! Names and strings that are read as they were written.

A name written as an identifier is read as that name, and a value written as a string as that value,
whatever their characters are but NUL (`read_writeIdent`, `read_writeString`). What follows a name
must not go on with it, and must not make the mark `-->` of two hyphens; what follows a string is
free. -/
namespace TerseMarkup.Css

/-! ### Characters -/

theorem nameFrom_passed (t r : Text) :
    nameFrom t.length (t ++ r) = ((nameFrom 0 r).1, t.length + (nameFrom 0 r).2) := by
  induction t with
  | nil => simp
  | cons c t ih =>
    simp only [List.length_cons, List.cons_append, nameFrom, ih, Prod.mk.injEq, true_and]
    omega

theorem stringFrom_passed (quote : Char) (t r : Text) :
    stringFrom quote t.length (t ++ r) =
      ((stringFrom quote 0 r).1, t.length + (stringFrom quote 0 r).2) := by
  induction t with
  | nil => simp
  | cons c t ih =>
    simp only [List.length_cons, List.cons_append, stringFrom, ih, Prod.mk.injEq, true_and]
    omega

/-- Two digits at most number a control character or a digit, and nothing else does. -/
theorem toDigits_ascii {c : Char} (hc : isControl c = true ∨ c.isDigit = true) :
    (∀ d ∈ Nat.toDigits 16 c.toNat, Text.isHexDigit d = true) ∧
      (Nat.toDigits 16 c.toNat).length ≤ 2 ∧ Nat.toDigits 16 c.toNat ≠ [] ∧
      Text.charOfNumber (Text.number 16 (Nat.toDigits 16 c.toNat)) = c := by
  have hdigits := forall_ascii (P := fun c => isControl c = true ∨ c.isDigit = true →
      (Nat.toDigits 16 c.toNat).all Text.isHexDigit = true ∧
        (Nat.toDigits 16 c.toNat).length ≤ 2 ∧ Nat.toDigits 16 c.toNat ≠ [] ∧
        Text.charOfNumber (Text.number 16 (Nat.toDigits 16 c.toNat)) = c)
    (by decide +kernel) (hc.elim toNat_lt_of_isControl toNat_lt_of_isDigit) hc
  exact hdigits.imp_left List.all_eq_true.mp

/-- The space behind the digits belongs to the escape. -/
theorem escape_hexEscape {c : Char} (hc : isControl c = true ∨ c.isDigit = true) (r : Text) :
    escape (Nat.toDigits 16 c.toNat ++ ' ' :: r) = (c, (Nat.toDigits 16 c.toNat).length + 1) := by
  obtain ⟨hhex, hlength, hne, hchar⟩ := toDigits_ascii hc
  generalize Nat.toDigits 16 c.toNat = digits at *
  obtain ⟨d, t, rfl⟩ := List.exists_cons_of_ne_nil hne
  have htake : (((d :: t) ++ ' ' :: r).take 6).takeWhile Text.isHexDigit = d :: t := by
    rw [List.take_append, List.take_of_length_le (by omega), List.takeWhile_append_of_pos hhex]
    obtain ⟨k, hk⟩ : ∃ k, 6 - (d :: t).length = k + 1 := ⟨5 - (d :: t).length, by omega⟩
    rw [hk, List.take_succ_cons, List.takeWhile_cons_of_neg (by decide), List.append_nil]
  rw [List.cons_append, escape, if_pos (hhex d (List.mem_cons_self ..)), ← List.cons_append, htake]
  simp only [hchar, List.drop_left]
  rfl

theorem not_isHexDigit_of_not_isNameChar {c : Char} (h : isNameChar c = false) :
    Text.isHexDigit c = false := by
  cases hc : Text.isHexDigit c with
  | false => rfl
  | true =>
    have hascii : c.toNat < 128 := by
      simp only [Text.isHexDigit, Bool.or_eq_true, Bool.and_eq_true, decide_eq_true_eq] at hc
      obtain (hdigit | hsmall) | hcapital := hc
      · exact toNat_lt_of_isDigit hdigit
      · exact Nat.lt_of_le_of_lt hsmall.2 (by decide)
      · exact Nat.lt_of_le_of_lt hcapital.2 (by decide)
    exact absurd h (by
      simpa [hc] using forall_ascii (P := fun c => Text.isHexDigit c = true → isNameChar c = true)
        (by decide +kernel) hascii)

theorem isControl_of_isNewline {c : Char} (h : isNewline c = true) : isControl c = true := by
  simp only [isNewline, Bool.or_eq_true, beq_iff_eq] at h
  rcases h with (rfl | rfl) | rfl <;> decide

/-- A character behind a backslash, which stands for itself. -/
theorem nameFrom_backslash {c : Char} (hnull : c ≠ '\x00') (hnewline : isNewline c = false)
    (hhex : Text.isHexDigit c = false) (r : Text) :
    nameFrom 0 ('\\' :: c :: r) = (c :: (nameFrom 0 r).1, 2 + (nameFrom 0 r).2) := by
  have hescape : escape (c :: r) = (c, 1) := by simp [escape, hhex, hnull]
  rw [nameFrom, if_pos rfl, if_neg (by simp [startsWithNewline, hnewline]), hescape]
  simp only [nameFrom, Prod.mk.injEq, true_and]
  omega

theorem startsWithNewline_toDigits {c : Char} (hc : isControl c = true ∨ c.isDigit = true)
    (r : Text) : startsWithNewline (Nat.toDigits 16 c.toNat ++ r) = false := by
  obtain ⟨hhex, -, hne, -⟩ := toDigits_ascii hc
  obtain ⟨d, t, hdigits⟩ := List.exists_cons_of_ne_nil hne
  have hdigit : Text.isHexDigit d = true := hhex d (hdigits ▸ List.mem_cons_self ..)
  rw [hdigits]
  show isNewline d = false
  cases hd : isNewline d with
  | false => rfl
  | true =>
    simp only [isNewline, Bool.or_eq_true, beq_iff_eq] at hd
    rcases hd with (rfl | rfl) | rfl <;> exact absurd hdigit (by decide)

theorem nameFrom_hexEscape {c : Char} (hc : isControl c = true ∨ c.isDigit = true) (r : Text) :
    nameFrom 0 (hexEscape c ++ r) =
      (c :: (nameFrom 0 r).1, (hexEscape c).length + (nameFrom 0 r).2) := by
  have hescape := escape_hexEscape hc r
  have hnewline := startsWithNewline_toDigits hc (' ' :: r)
  have hpassed : nameFrom ((Nat.toDigits 16 c.toNat).length + 1)
      (Nat.toDigits 16 c.toNat ++ ' ' :: r) =
        ((nameFrom 0 r).1, (Nat.toDigits 16 c.toNat).length + 1 + (nameFrom 0 r).2) := by
    simpa using nameFrom_passed (Nat.toDigits 16 c.toNat ++ [' ']) r
  rw [hexEscape, List.cons_append, List.append_assoc, List.singleton_append, nameFrom, if_pos rfl,
    hnewline, if_neg Bool.false_ne_true, hescape]
  simp only [hpassed]
  simp only [List.length_cons, List.length_append, List.length_nil, Prod.mk.injEq, true_and]
  omega

/-- What is written of one character is read as that character. -/
theorem nameFrom_writeNameChar {c : Char} (hnull : c ≠ '\x00') (r : Text) :
    nameFrom 0 (writeNameChar c ++ r) =
      (c :: (nameFrom 0 r).1, (writeNameChar c).length + (nameFrom 0 r).2) := by
  rw [writeNameChar, if_neg hnull]
  cases hname : isNameChar c with
  | true =>
    have hbackslash : c ≠ '\\' := by rintro rfl; exact absurd hname (by decide)
    simp only [if_true, List.singleton_append, nameFrom, if_neg hbackslash, hname, if_neg hnull,
      List.length_singleton, Prod.mk.injEq, true_and]
    omega
  | false =>
    rw [if_neg Bool.false_ne_true]
    cases hcontrol : isControl c with
    | true => exact nameFrom_hexEscape (.inl hcontrol) r
    | false =>
      have hnewline : isNewline c = false := by
        cases hc : isNewline c with
        | false => rfl
        | true => rw [isControl_of_isNewline hc] at hcontrol; cases hcontrol
      exact nameFrom_backslash hnull hnewline (not_isHexDigit_of_not_isNameChar hname) r

/-! ### Names -/

theorem nameFrom_writeName {name : Text} (hnull : '\x00' ∉ name) (r : Text) :
    nameFrom 0 (writeName name ++ r) =
      (name ++ (nameFrom 0 r).1, (writeName name).length + (nameFrom 0 r).2) := by
  induction name with
  | nil => simp [writeName]
  | cons c name ih =>
    have hc : c ≠ '\x00' := (List.ne_of_not_mem_cons hnull).symm
    rw [writeName_cons, List.append_assoc, nameFrom_writeNameChar hc,
      ih (List.not_mem_of_not_mem_cons hnull)]
    simp only [List.cons_append, List.length_append, Prod.mk.injEq, true_and]
    omega

/-- **A name written as an identifier** is read as that name. -/
theorem nameFrom_writeIdent {name : Text} (hnull : '\x00' ∉ name) (r : Text) :
    nameFrom 0 (writeIdent name ++ r) =
      (name ++ (nameFrom 0 r).1, (writeIdent name).length + (nameFrom 0 r).2) := by
  cases name with
  | nil => simp [writeIdent, writeStart]
  | cons c name =>
    rcases writeIdent_cases c name with hw | ⟨hd, hw⟩ | ⟨rfl, rfl, hw⟩ | ⟨rfl, d, s, rfl, hd, hw⟩
    · rw [hw]
      exact nameFrom_writeName hnull r
    · have hrest : '\x00' ∉ name := List.not_mem_of_not_mem_cons hnull
      rw [hw, List.append_assoc, nameFrom_hexEscape (.inr hd), nameFrom_writeName hrest]
      simp only [List.cons_append, List.length_append, Prod.mk.injEq, true_and]
      omega
    · rw [hw]
      exact nameFrom_backslash (by decide) (by decide) (by decide) r
    · have hrest : '\x00' ∉ s :=
        List.not_mem_of_not_mem_cons (List.not_mem_of_not_mem_cons hnull)
      have hhyphen : isNameChar '-' = true := by decide
      rw [hw, List.cons_append, nameFrom, if_neg (by decide), if_pos hhyphen, List.append_assoc,
        nameFrom_hexEscape (.inr hd), nameFrom_writeName hrest]
      simp only [List.cons_append, List.length_append, List.length_cons, Prod.mk.injEq]
      refine ⟨rfl, by omega⟩

theorem startsIdent_hexEscape {c : Char} (hc : isControl c = true ∨ c.isDigit = true) (r : Text) :
    startsIdent (hexEscape c ++ r) = true := by
  rw [hexEscape, List.cons_append, startsIdent_backslash, List.append_assoc,
    startsWithNewline_toDigits hc]
  rfl

/-- What is written of a character but a hyphen or a digit starts an identifier. -/
theorem startsIdent_writeNameChar {c : Char} (hhyphen : c ≠ '-') (hdigit : c.isDigit = false)
    (r : Text) : startsIdent (writeNameChar c ++ r) = true := by
  rw [writeNameChar]
  split
  · exact startsIdent_of_ne (by decide) (by decide) r
  · split
    · have hstart : isNameStart c = true := by simp_all [isNameChar]
      rw [List.singleton_append, startsIdent_of_ne hhyphen (by rintro rfl; cases hstart), hstart]
    · split
      · exact startsIdent_hexEscape (.inl ‹_›) r
      · have hnewline : isNewline c = false := by
          cases hc : isNewline c with
          | false => rfl
          | true => exact absurd (isControl_of_isNewline hc) ‹_›
        show startsIdent ('\\' :: c :: r) = true
        rw [startsIdent_backslash]
        simp [startsWithNewline, hnewline]

theorem startsIdent_writeStart {c : Char} (hhyphen : c ≠ '-') (s r : Text) :
    startsIdent (writeStart (c :: s) ++ r) = true := by
  rw [writeStart]
  split
  · rw [List.append_assoc]
    exact startsIdent_hexEscape (.inr ‹_›) _
  · rw [writeName_cons, List.append_assoc]
    exact startsIdent_writeNameChar hhyphen (Bool.eq_false_iff.mpr ‹_›) _

theorem head_writeNameChar (c : Char) :
    ∃ d t, writeNameChar c = d :: t ∧ d ≠ '>' ∧ (d = '-' → c = '-') := by
  rw [writeNameChar]
  split
  · exact ⟨_, _, rfl, by decide, fun h => absurd h (by decide)⟩
  · split
    · refine ⟨_, _, rfl, ?_, id⟩
      rintro rfl
      exact absurd ‹isNameChar '>' = true› (by decide)
    · split <;> exact ⟨_, _, rfl, by decide, fun h => absurd h (by decide)⟩

theorem head_writeStart {c : Char} (hhyphen : c ≠ '-') (s : Text) :
    ∃ d t, writeStart (c :: s) = d :: t ∧ d ≠ '-' := by
  rw [writeStart]
  split
  · exact ⟨_, _, rfl, by decide⟩
  · obtain ⟨d, t, hd, -, himp⟩ := head_writeNameChar c
    exact ⟨d, t ++ writeName s, by rw [writeName_cons, hd]; rfl, fun h => hhyphen (himp h)⟩

/-- The forms of a name written as an identifier. -/
theorem writeIdent_forms {P : Text → Text → Prop} (hsingle : P ['-'] ['\\', '-'])
    (hdouble : ∀ s, P ('-' :: '-' :: s) ('-' :: '-' :: writeName s))
    (hhyphen : ∀ c s, c ≠ '-' → P ('-' :: c :: s) ('-' :: writeStart (c :: s)))
    (hstart : ∀ c s, c ≠ '-' → P (c :: s) (writeStart (c :: s))) {name : Text} (hne : name ≠ []) :
    P name (writeIdent name) := by
  obtain ⟨c, s, rfl⟩ := List.exists_cons_of_ne_nil hne
  by_cases hc : c = '-'
  · subst hc
    cases s with
    | nil => exact hsingle
    | cons d s =>
      by_cases hd : d = '-'
      · subst hd
        exact hdouble s
      · simpa [writeIdent, hd] using hhyphen d s hd
  · simpa [writeIdent, hc] using hstart c s hc

/-- **A name written as an identifier** starts one. -/
theorem startsIdent_writeIdent {name : Text} (hne : name ≠ []) (r : Text) :
    startsIdent (writeIdent name ++ r) = true := by
  refine writeIdent_forms (P := fun _ w => startsIdent (w ++ r) = true) ?_ ?_ ?_ ?_ hne
  · exact startsIdent_backslash ('-' :: r)
  · intro s
    exact startsIdent_hyphen ('-' :: (writeName s ++ r))
  · intro c s hc
    have hstart := startsIdent_writeStart hc s r
    obtain ⟨d, t, hd, -⟩ := head_writeStart hc s
    rw [hd] at hstart ⊢
    rw [List.cons_append, startsIdent_hyphen]
    exact isIdentHead_of_startsIdent hstart
  · intro c s hc
    exact startsIdent_writeStart hc s r

/-- Two hyphens are the one name that makes the mark `-->` of a bracket behind it. -/
theorem eq_of_isPrefixOf_close {name r : Text} (hne : name ≠ [])
    (h : "-->".toList.isPrefixOf (writeIdent name ++ r) = true) :
    name = ['-', '-'] ∧ r.head? = some '>' := by
  revert h
  refine writeIdent_forms (P := fun name w => "-->".toList.isPrefixOf (w ++ r) = true →
    name = ['-', '-'] ∧ r.head? = some '>') ?_ ?_ ?_ ?_ hne
  · intro h
    cases h
  · intro s h
    obtain ⟨t, ht⟩ := List.isPrefixOf_iff_prefix.mp h
    have hrest : '>' :: t = writeName s ++ r := (List.cons.inj (List.cons.inj ht).2).2
    cases s with
    | nil => exact ⟨rfl, by rw [show r = '>' :: t from hrest.symm]; rfl⟩
    | cons c s =>
      obtain ⟨d, u, hd, hne, -⟩ := head_writeNameChar c
      rw [writeName_cons, hd] at hrest
      exact absurd (List.cons.inj hrest).1.symm hne
  · intro c s hc h
    obtain ⟨d, u, hd, hne⟩ := head_writeStart hc s
    obtain ⟨t, ht⟩ := List.isPrefixOf_iff_prefix.mp h
    rw [hd] at ht
    exact absurd (List.cons.inj (List.cons.inj ht).2).1.symm hne
  · intro c s hc h
    obtain ⟨d, u, hd, hne⟩ := head_writeStart hc s
    obtain ⟨t, ht⟩ := List.isPrefixOf_iff_prefix.mp h
    rw [hd] at ht
    exact absurd (List.cons.inj ht).1.symm hne

/-- Hyphens at the start of what is written are hyphens of the name. -/
theorem prefix_of_prefix_writeIdent {name r : Text} (hne : name ≠ [])
    (h : ['-', '-'] <+: writeIdent name ++ r) : ['-', '-'] <+: name := by
  revert h
  refine writeIdent_forms (P := fun name w => ['-', '-'] <+: w ++ r → ['-', '-'] <+: name)
    ?_ ?_ ?_ ?_ hne
  · intro h
    exact absurd (List.cons_prefix_cons.mp h).1 (by decide)
  · intro s _
    exact ⟨s, rfl⟩
  · intro c s hc h
    obtain ⟨d, u, hd, hne⟩ := head_writeStart hc s
    rw [hd] at h
    exact absurd (List.cons_prefix_cons.mp (List.cons_prefix_cons.mp h).2).1.symm hne
  · intro c s hc h
    obtain ⟨d, u, hd, hne⟩ := head_writeStart hc s
    rw [hd] at h
    exact absurd (List.cons_prefix_cons.mp h).1.symm hne

/-! ### Strings -/

theorem stringFrom_escape {s r : Text} {c : Char} (hs : s ≠ [])
    (hnewline : startsWithNewline (s ++ r) = false) (hescape : escape (s ++ r) = (c, s.length)) :
    stringFrom '"' 0 ('\\' :: (s ++ r)) =
      ((stringFrom '"' 0 r).1.map (c :: ·), s.length + 1 + (stringFrom '"' 0 r).2) := by
  have hempty : (s ++ r).isEmpty = false := by simp [hs]
  rw [stringFrom, if_neg (by decide), if_neg (by decide), if_pos rfl, hempty, hnewline,
    Bool.or_false, if_neg Bool.false_ne_true, hescape]
  simp only [stringFrom_passed, Prod.mk.injEq, true_and]
  omega

theorem stringFrom_writeStringChar {c : Char} (hnull : c ≠ '\x00') (r : Text) :
    stringFrom '"' 0 (writeStringChar c ++ r) =
      ((stringFrom '"' 0 r).1.map (c :: ·),
        (writeStringChar c).length + (stringFrom '"' 0 r).2) := by
  rw [writeStringChar]
  split
  · rename_i hc
    have hescape : escape ([c] ++ r) = (c, 1) := by
      rcases hc with rfl | rfl <;> rfl
    have hnewline : startsWithNewline ([c] ++ r) = false := by
      rcases hc with rfl | rfl <;> rfl
    exact stringFrom_escape (List.cons_ne_nil _ _) hnewline hescape
  · rename_i hc
    split
    · rename_i hcontrol
      have hescape : escape (Nat.toDigits 16 c.toNat ++ [' '] ++ r) =
          (c, (Nat.toDigits 16 c.toNat ++ [' ']).length) := by
        simpa using escape_hexEscape (.inl hcontrol) r
      have hnewline : startsWithNewline (Nat.toDigits 16 c.toNat ++ [' '] ++ r) = false := by
        simpa using startsWithNewline_toDigits (.inl hcontrol) (' ' :: r)
      exact stringFrom_escape (by simp) hnewline hescape
    · rename_i hcontrol
      have hnewline : isNewline c = false := by
        cases hc : isNewline c with
        | false => rfl
        | true => exact absurd (isControl_of_isNewline hc) hcontrol
      obtain ⟨hquote, hbackslash⟩ := not_or.mp hc
      simp only [List.singleton_append, stringFrom, if_neg hquote, hnewline,
        if_neg Bool.false_ne_true, if_neg hbackslash, if_neg hnull, List.length_singleton,
        Prod.mk.injEq, true_and]
      omega

/-- **A value written as a string** is read as that value. -/
theorem stringFrom_writeString {value : Text} (hnull : '\x00' ∉ value) (r : Text) :
    stringFrom '"' 0 (value.flatMap writeStringChar ++ '"' :: r) =
      (some value, (value.flatMap writeStringChar).length + 1) := by
  induction value with
  | nil => simp [stringFrom]
  | cons c value ih =>
    have hc : c ≠ '\x00' := (List.ne_of_not_mem_cons hnull).symm
    rw [List.flatMap_cons, List.append_assoc, stringFrom_writeStringChar hc,
      ih (List.not_mem_of_not_mem_cons hnull)]
    simp only [Option.map_some, List.length_append, Prod.mk.injEq, true_and]
    omega

/-! ### Lexemes -/

namespace Lexeme

/-- A token of which no name and no value is kept that may be exchanged. -/
def Inert (t : Token) : Prop :=
  (∀ v, t ≠ .ident v) ∧ (∀ v, t ≠ .idHash v) ∧ ∀ v, t ≠ .string v

private theorem inert_ite {p : Prop} [Decidable p] {a b : Token × Nat} {P : Token × Nat → Prop}
    (ha : p → P a ∨ Inert a.1) (hb : ¬ p → P b ∨ Inert b.1) :
    P (if p then a else b) ∨ Inert (if p then a else b).1 := by
  by_cases hp : p
  · rw [if_pos hp]
    exact ha hp
  · rw [if_neg hp]
    exact hb hp

theorem inert_readMatch (c : Char) (r : Text) : Inert (readMatch c r).1 := by
  unfold readMatch
  split <;> simp [Inert]

theorem inert_readAt (r : Text) : Inert (readAt r).1 := by
  unfold readAt
  split <;> simp [Inert]

theorem inert_readNumber (s : Text) : Inert (readNumber s).1 := by
  rw [readNumber_eq]
  simp only
  split
  · simp [Inert]
  · split <;> simp [Inert]

/-- Where a string, an id or an identifier can come from. -/
theorem read_cases (c : Char) (r : Text) :
    (isQuote c = true ∧ read c r = readString c r ∨ c = '#' ∧ read c r = readHash r ∨
      Begins (c :: r) ∧ read c r = readIdentLike (c :: r)) ∨ Inert (read c r).1 := by
  let P (p : Token × Nat) : Prop :=
    isQuote c = true ∧ p = readString c r ∨ c = '#' ∧ p = readHash r ∨
      Begins (c :: r) ∧ p = readIdentLike (c :: r)
  show P (read c r) ∨ _
  have inert {p : Token × Nat} (h : Inert p.1) : P p ∨ Inert p.1 := .inr h
  unfold read
  refine inert_ite (fun _ => inert (by simp [Inert])) fun _ => ?_
  refine inert_ite (fun h => .inl (.inl ⟨isQuote_iff.mpr h, rfl⟩)) fun _ => ?_
  refine inert_ite (fun h => .inl (.inr (.inl ⟨h, rfl⟩))) fun _ => ?_
  refine inert_ite (fun _ => inert (inert_readAt r)) fun _ => ?_
  iterate 9 refine inert_ite (fun _ => inert (by simp [Inert])) fun _ => ?_
  refine inert_ite (fun _ => inert (inert_readMatch c r)) fun _ => ?_
  iterate 2 refine inert_ite (fun _ => inert (by simp [Inert])) fun _ => ?_
  refine inert_ite (fun _ => inert (inert_readNumber _)) fun _ => ?_
  refine inert_ite (fun _ => inert (by simp [Inert])) fun hclose => ?_
  exact inert_ite (fun h => .inl (.inr (.inr ⟨⟨h, Bool.eq_false_iff.mpr hclose⟩, rfl⟩)))
    fun _ => inert (by simp [Inert])

/-- An identifier is read where one begins. -/
theorem read_of_begins {c : Char} {r : Text} (h : Begins (c :: r)) :
    read c r = readIdentLike (c :: r) := by
  have hc := isIdentHead_of_startsIdent h.1
  have hne {d : Char} (hd : isIdentHead d = false) : c ≠ d := by
    rintro rfl
    rw [hc] at hd
    cases hd
  have hmatch : c ∉ ['~', '|', '^', '$', '*'] := by
    intro hmem
    have hall : ∀ d ∈ ['~', '|', '^', '$', '*'], isIdentHead d = false :=
      forall_of_all (by decide)
    exact hne (hall c hmem) rfl
  have hopen : "<!--".toList.isPrefixOf (c :: r) = false := by
    rw [Bool.eq_false_iff]
    intro hopen
    obtain ⟨t, ht⟩ := List.isPrefixOf_iff_prefix.mp hopen
    exact hne (d := '<') (by decide) (List.cons.inj ht).1.symm
  unfold read
  rw [if_neg (by simp [not_isSpace_of_isIdentHead hc]),
    if_neg (not_or.mpr ⟨hne (by decide), hne (by decide)⟩)]
  iterate 11 rw [if_neg (hne (by decide))]
  rw [if_neg hmatch, if_neg (fun h => hne (by decide) h.1), hopen, if_neg Bool.false_ne_true,
    not_startsNumber_of_startsIdent h.1, if_neg Bool.false_ne_true, h.2,
    if_neg Bool.false_ne_true, if_pos h.1]

theorem read_quote {q : Char} (hq : isQuote q = true) (r : Text) :
    read q r = readString q r := by
  rcases isQuote_iff.mp hq with rfl | rfl <;> rfl

theorem read_hash (r : Text) : read '#' r = readHash r := rfl

theorem readString_ne {q : Char} {r : Text} {t : Token} {n : Nat} (h : (t, n) = readString q r) :
    (∃ v, t = .string v) ∨ t = .badString := by
  unfold readString at h
  split at h <;> cases h
  · exact .inl ⟨_, rfl⟩
  · exact .inr rfl

theorem readHash_ne {r : Text} {t : Token} {n : Nat} (h : (t, n) = readHash r) :
    (startsIdent r = true ∧ t = .idHash (name r).1 ∧ n = (name r).2 + 1) ∨ Inert t := by
  unfold readHash at h
  split at h
  · cases h
    exact .inl ⟨‹_›, rfl, rfl⟩
  · split at h <;> cases h <;> simp [Inert]

theorem readIdentLike_ne {s : Text} {t : Token} {n : Nat} (h : (t, n) = readIdentLike s) :
    ((s.drop (name s).2).head? ≠ some '(' ∧ t = .ident (name s).1 ∧ n = (name s).2) ∨ Inert t := by
  rw [readIdentLike_eq] at h
  split at h
  · split at h
    · split at h
      · next good k hurl => cases good <;> cases h <;> simp [Inert]
      · cases h
        simp [Inert]
    · cases h
      simp [Inert]
  · cases h
    exact .inl ⟨‹_›, rfl, rfl⟩

/-- An identifier ends where no name goes on and no parenthesis opens. -/
theorem StandsBefore.ident {l : Lexeme} {r v : Text} (h : l.StandsBefore r)
    (hl : l.token = .ident v) :
    Begins (l.text ++ r) ∧ (nameFrom 0 r).2 = 0 ∧ r.head? ≠ some '(' := by
  obtain ⟨c, t, htext, hread⟩ := h
  rw [hl] at hread
  rw [htext, List.cons_append]
  obtain (⟨hq, heq⟩ | ⟨rfl, heq⟩ | ⟨hbegins, heq⟩) | hinert := read_cases c (t ++ r)
  · rw [hread] at heq
    rcases readString_ne heq with ⟨_, h⟩ | h <;> cases h
  · rw [hread] at heq
    rcases readHash_ne heq with ⟨_, h, _⟩ | h
    · cases h
    · exact absurd rfl (h.1 v)
  · rw [hread] at heq
    obtain ⟨hparen, -, hlength⟩ | h := readIdentLike_ne heq
    · rw [← hlength] at hparen
      refine ⟨hbegins, nameFrom_stop (t := c :: t) hlength.symm, ?_⟩
      simpa using hparen
    · exact absurd rfl (h.1 v)
  · rw [hread] at hinert
    exact absurd rfl (hinert.1 v)

/-- An id is a hash with a name behind it, which ends where no name goes on. -/
theorem StandsBefore.idHash {l : Lexeme} {r v : Text} (h : l.StandsBefore r)
    (hl : l.token = .idHash v) : (∃ t, l.text = '#' :: t) ∧ (nameFrom 0 r).2 = 0 := by
  obtain ⟨c, t, htext, hread⟩ := h
  rw [hl] at hread
  obtain (⟨hq, heq⟩ | ⟨rfl, heq⟩ | ⟨hbegins, heq⟩) | hinert := read_cases c (t ++ r)
  · rw [hread] at heq
    rcases readString_ne heq with ⟨_, h⟩ | h <;> cases h
  · rw [hread] at heq
    rcases readHash_ne heq with ⟨_, -, hlength⟩ | h
    · exact ⟨⟨t, htext⟩, nameFrom_stop (Nat.succ.inj hlength).symm⟩
    · exact absurd rfl (h.2.1 v)
  · rw [hread] at heq
    rcases readIdentLike_ne heq with ⟨_, h, _⟩ | h
    · cases h
    · exact absurd rfl (h.2.1 v)
  · rw [hread] at hinert
    exact absurd rfl (hinert.2.1 v)

theorem StandsBefore.string {l : Lexeme} {r v : Text} (h : l.StandsBefore r)
    (hl : l.token = .string v) : ∃ q t, l.text = q :: t ∧ isQuote q = true := by
  obtain ⟨c, t, htext, hread⟩ := h
  rw [hl] at hread
  obtain (⟨hq, heq⟩ | ⟨rfl, heq⟩ | ⟨hbegins, heq⟩) | hinert := read_cases c (t ++ r)
  · exact ⟨c, t, htext, hq⟩
  · rw [hread] at heq
    rcases readHash_ne heq with ⟨_, h, _⟩ | h
    · cases h
    · exact absurd rfl (h.2.2 v)
  · rw [hread] at heq
    rcases readIdentLike_ne heq with ⟨_, h, _⟩ | h
    · cases h
    · exact absurd rfl (h.2.2 v)
  · rw [hread] at hinert
    exact absurd rfl (hinert.2.2 v)

/-- What comes behind a name does not go on with it. -/
theorem nameFrom_of_stop {r : Text} (h : (nameFrom 0 r).2 = 0) : nameFrom 0 r = ([], 0) := by
  cases r with
  | nil => rfl
  | cons c r =>
    rw [nameFrom] at h ⊢
    split
    · rw [if_pos ‹_›] at h
      split
      · rfl
      · rw [if_neg ‹_›] at h; cases h
    · rw [if_neg ‹_›] at h
      split
      · rw [if_pos ‹_›] at h; cases h
      · rfl

/-- **A name written as an identifier stands** before what does not go on with it. -/
theorem standsBefore_writeIdent {name r : Text} (hne : name ≠ []) (hnull : '\x00' ∉ name)
    (hstop : (nameFrom 0 r).2 = 0) (hparen : r.head? ≠ some '(')
    (hclose : name = ['-', '-'] → r.head? ≠ some '>') :
    StandsBefore ⟨.ident name, writeIdent name⟩ r := by
  have hbegins : Begins (writeIdent name ++ r) := by
    refine ⟨startsIdent_writeIdent hne r, Bool.eq_false_iff.mpr fun h => ?_⟩
    obtain ⟨hname, hr⟩ := eq_of_isPrefixOf_close hne h
    exact hclose hname hr
  have hname : nameFrom 0 (writeIdent name ++ r) = (name, (writeIdent name).length) := by
    rw [nameFrom_writeIdent hnull, nameFrom_of_stop hstop, List.append_nil, Nat.add_zero]
  cases hwritten : writeIdent name with
  | nil =>
    have := startsIdent_writeIdent hne []
    rw [hwritten] at this
    cases this
  | cons c t =>
    refine ⟨c, t, rfl, ?_⟩
    rw [hwritten] at hbegins hname
    have hread : read c (t ++ r) = readIdentLike (c :: t ++ r) := read_of_begins hbegins
    rw [hread, readIdentLike_eq, Css.name, hname]
    simp only [List.drop_left, if_neg hparen]
    rfl

/-- An id with its name written as an identifier. -/
theorem standsBefore_hash {name r : Text} (hne : name ≠ []) (hnull : '\x00' ∉ name)
    (hstop : (nameFrom 0 r).2 = 0) :
    StandsBefore ⟨.idHash name, '#' :: writeIdent name⟩ r := by
  have hname : nameFrom 0 (writeIdent name ++ r) = (name, (writeIdent name).length) := by
    rw [nameFrom_writeIdent hnull, nameFrom_of_stop hstop, List.append_nil, Nat.add_zero]
  refine ⟨'#', writeIdent name, rfl, ?_⟩
  rw [read_hash, readHash, if_pos (startsIdent_writeIdent hne r), Css.name, hname]

/-- **A value written as a string stands** before anything. -/
theorem standsBefore_writeString {value : Text} (hnull : '\x00' ∉ value) (r : Text) :
    StandsBefore ⟨.string value, writeString value⟩ r := by
  refine ⟨'"', _, rfl, ?_⟩
  have hstring := stringFrom_writeString hnull r
  rw [List.append_assoc, List.singleton_append, read_quote rfl, readString, hstring]
  simp

end Lexeme

end TerseMarkup.Css
