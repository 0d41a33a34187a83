import TerseMarkup.Css.Lexeme
import TerseMarkup.Proofs.Css.EndMark

/-! Texts that look alike to a reader that stops before them.

A reader stops at a character that does not belong to its lexeme, and may look a little further to
decide. What it sees there is little: `Alike` puts one identifier or one string for another, and the
end of the text for a hash or a curly bracket. What readers ask of the start of a text has the same
answer for both. -/
namespace TerseMarkup.Css

/-- The characters an identifier can start with. -/
def isIdentHead (c : Char) : Bool := isNameStart c || c == '-' || c == '\\'

def isQuote (c : Char) : Bool := c == '"' || c == '\''

theorem isQuote_iff {c : Char} : isQuote c = true ↔ c = '"' ∨ c = '\'' := by simp [isQuote]

/-- An identifier starts here, and not the mark `-->`. -/
def Begins (r : Text) : Prop := startsIdent r = true ∧ "-->".toList.isPrefixOf r = false

/-- A hash and curly brackets end what stands before them, as the end of the text does. -/
def isStop (c : Char) : Bool := c == '#' || c == '{' || c == '}'

/-- Nothing that stands before goes on here. -/
def Stops (r : Text) : Prop := ∀ c ∈ r.head?, isStop c = true

theorem stops_nil : Stops [] := by simp [Stops]

theorem stops_cons {c : Char} (h : isStop c = true) (r : Text) : Stops (c :: r) := by
  simpa [Stops] using h

/-- What goes on nowhere shows nothing at its head. -/
theorem Stops.any_head {r : Text} (h : Stops r) {p : Char → Bool}
    (hp : (p '#' || p '{' || p '}') = false) : r.head?.any p = false := by
  cases r with
  | nil => rfl
  | cons c r =>
    have hc : isStop c = true := h c rfl
    simp only [isStop, Bool.or_eq_true, beq_iff_eq] at hc
    simp only [Bool.or_eq_false_iff] at hp
    rcases hc with (rfl | rfl) | rfl
    · exact hp.1.1
    · exact hp.1.2
    · exact hp.2

/-- Texts that are the same up to where an identifier begins in both, a string in both, or nothing
goes on in either. -/
inductive Alike : Text → Text → Prop
  | cons (c : Char) {r r' : Text} : Alike r r' → Alike (c :: r) (c :: r')
  | stop {r r' : Text} : Stops r → Stops r' → Alike r r'
  | ident {r r' : Text} : Begins r → Begins r' → Alike r r'
  | string {q q' : Char} (r r' : Text) : isQuote q = true → isQuote q' = true →
    Alike (q :: r) (q' :: r')

namespace Alike

theorem refl : (r : Text) → Alike r r
  | [] => stop stops_nil stops_nil
  | c :: r => cons c (refl r)

theorem append (t : Text) {r r' : Text} (h : Alike r r') : Alike (t ++ r) (t ++ r') := by
  induction t with
  | nil => exact h
  | cons c t ih => exact cons c ih

end Alike

theorem isIdentHead_of_startsIdent {c : Char} {r : Text} (h : startsIdent (c :: r) = true) :
    isIdentHead c = true := by
  unfold startsIdent at h
  split at h <;> simp_all [isIdentHead]

theorem Begins.head {r : Text} (h : Begins r) : ∃ c t, r = c :: t ∧ isIdentHead c = true := by
  cases r with
  | nil => exact absurd h.1 (by decide)
  | cons c t => exact ⟨c, t, rfl, isIdentHead_of_startsIdent h.1⟩

/-- A hyphen starts an identifier before the head of one. -/
theorem startsIdent_hyphen (r : Text) : startsIdent ('-' :: r) = r.head?.any isIdentHead := by
  cases r with
  | nil => decide
  | cons c r => simp [startsIdent, isIdentHead]

theorem startsIdent_backslash (r : Text) : startsIdent ('\\' :: r) = !startsWithNewline r := by
  cases r <;> simp [startsIdent]

theorem startsIdent_of_ne {c : Char} (hhyphen : c ≠ '-') (hbackslash : c ≠ '\\') (r : Text) :
    startsIdent (c :: r) = isNameStart c := by
  cases r <;> simp [startsIdent, hhyphen]

section Alike

variable {r r' : Text}

/-- What no identifier starts with, nothing stops, and no quote or either, shows at the head of
both texts. -/
theorem Alike.any_head (h : Alike r r') {p : Char → Bool}
    (hident : ∀ c, isIdentHead c = true → p c = false) (hquote : p '"' = p '\'')
    (hstop : (p '#' || p '{' || p '}') = false) : r.head?.any p = r'.head?.any p := by
  cases h with
  | cons c h => rfl
  | stop hr hr' => rw [hr.any_head hstop, hr'.any_head hstop]
  | ident hr hr' =>
    obtain ⟨c, t, rfl, hc⟩ := hr.head
    obtain ⟨c', t', rfl, hc'⟩ := hr'.head
    exact (hident c hc).trans (hident c' hc').symm
  | string r r' hq hq' =>
    rcases isQuote_iff.mp hq with rfl | rfl <;> rcases isQuote_iff.mp hq' with rfl | rfl <;>
      simp [hquote]

theorem Alike.head?_eq_some (h : Alike r r') {d : Char} (hd : isIdentHead d = false)
    (hquote : isQuote d = false) (hstop : isStop d = false) :
    r.head? = some d ↔ r'.head? = some d := by
  have hany := h.any_head (p := (· == d)) (fun c hc => by
    rw [beq_eq_false_iff_ne]
    rintro rfl
    rw [hc] at hd
    cases hd) (by simp [isQuote] at hquote; simp [hquote, Ne.symm])
    (by simp [isStop] at hstop; simp [hstop, Ne.symm])
  cases r <;> cases r' <;> simp_all

theorem not_isDigit_of_isIdentHead {c : Char} (h : isIdentHead c = true) : c.isDigit = false := by
  cases hc : c.isDigit with
  | false => rfl
  | true =>
    exact absurd h (by
      simpa [hc] using forall_ascii (P := fun c => c.isDigit = true → ¬ isIdentHead c = true)
        (by decide +kernel) (toNat_lt_of_isDigit hc))

theorem not_isNewline_of_isIdentHead {c : Char} (h : isIdentHead c = true) :
    isNewline c = false := by
  cases hc : isNewline c with
  | false => rfl
  | true =>
    simp only [isNewline, Bool.or_eq_true, beq_iff_eq] at hc
    rcases hc with (rfl | rfl) | rfl <;> exact absurd h (by decide)

theorem not_isSpace_of_isIdentHead {c : Char} (h : isIdentHead c = true) :
    Text.isSpace c = false := by
  cases hc : Text.isSpace c with
  | false => rfl
  | true =>
    simp only [Text.isSpace, Bool.or_eq_true, beq_iff_eq] at hc
    rcases hc with (((rfl | rfl) | rfl) | rfl) | rfl <;> exact absurd h (by decide)

theorem Alike.startsWithNewline_eq (h : Alike r r') : startsWithNewline r = startsWithNewline r' :=
  h.any_head (fun _ => not_isNewline_of_isIdentHead) rfl rfl

theorem Alike.startsWithDigit_eq (h : Alike r r') :
    Lexeme.startsWithDigit r = Lexeme.startsWithDigit r' :=
  h.any_head (fun _ => not_isDigit_of_isIdentHead) rfl rfl

theorem startsUnsigned_cons (c : Char) (r : Text) :
    Lexeme.startsUnsigned (c :: r) = if c = '.' then Lexeme.startsWithDigit r else c.isDigit := by
  unfold Lexeme.startsUnsigned
  split <;> simp_all [Lexeme.startsWithDigit]

theorem not_startsUnsigned_of_isIdentHead {c : Char} (h : isIdentHead c = true) (r : Text) :
    Lexeme.startsUnsigned (c :: r) = false := by
  rw [startsUnsigned_cons, not_isDigit_of_isIdentHead h, if_neg]
  rintro rfl
  exact absurd h (by decide)

theorem Stops.startsUnsigned_eq (h : Stops r) : Lexeme.startsUnsigned r = false := by
  cases r with
  | nil => rfl
  | cons c r =>
    have hdigit : c.isDigit = false := h.any_head (p := Char.isDigit) rfl
    rw [startsUnsigned_cons, hdigit, if_neg]
    rintro rfl
    exact absurd (h.any_head (p := (· == '.')) rfl) (by simp)

theorem Alike.startsUnsigned_eq (h : Alike r r') :
    Lexeme.startsUnsigned r = Lexeme.startsUnsigned r' := by
  cases h with
  | stop hr hr' => rw [hr.startsUnsigned_eq, hr'.startsUnsigned_eq]
  | cons c h => rw [startsUnsigned_cons, startsUnsigned_cons, h.startsWithDigit_eq]
  | ident hr hr' =>
    obtain ⟨c, t, rfl, hc⟩ := hr.head
    obtain ⟨c', t', rfl, hc'⟩ := hr'.head
    rw [not_startsUnsigned_of_isIdentHead hc, not_startsUnsigned_of_isIdentHead hc']
  | string r r' hq hq' =>
    rcases isQuote_iff.mp hq with rfl | rfl <;> rcases isQuote_iff.mp hq' with rfl | rfl <;> rfl

theorem Alike.isIdentHead_head? (h : Alike r r') :
    r.head?.any isIdentHead = r'.head?.any isIdentHead := by
  cases h with
  | cons => rfl
  | stop hr hr' => rw [hr.any_head rfl, hr'.any_head rfl]
  | ident hr hr' =>
    obtain ⟨c, t, rfl, hc⟩ := hr.head
    obtain ⟨c', t', rfl, hc'⟩ := hr'.head
    exact hc.trans hc'.symm
  | string r r' hq hq' =>
    rcases isQuote_iff.mp hq with rfl | rfl <;> rcases isQuote_iff.mp hq' with rfl | rfl <;> rfl

theorem Stops.startsIdent_eq (h : Stops r) : startsIdent r = false := by
  rw [Bool.eq_false_iff]
  intro hr
  cases r with
  | nil => cases hr
  | cons c r =>
    have hc : isIdentHead c = false := h.any_head (p := isIdentHead) rfl
    rw [isIdentHead_of_startsIdent hr] at hc
    cases hc

theorem Alike.startsIdent_eq (h : Alike r r') : startsIdent r = startsIdent r' := by
  cases h with
  | stop hr hr' => rw [hr.startsIdent_eq, hr'.startsIdent_eq]
  | @cons c r r' h =>
    by_cases hhyphen : c = '-'
    · subst hhyphen
      rw [startsIdent_hyphen, startsIdent_hyphen, h.isIdentHead_head?]
    · by_cases hbackslash : c = '\\'
      · subst hbackslash
        rw [startsIdent_backslash, startsIdent_backslash, h.startsWithNewline_eq]
      · rw [startsIdent_of_ne hhyphen hbackslash, startsIdent_of_ne hhyphen hbackslash]
  | ident hr hr' => rw [hr.1, hr'.1]
  | string r r' hq hq' =>
    rcases isQuote_iff.mp hq with rfl | rfl <;> rcases isQuote_iff.mp hq' with rfl | rfl <;> rfl

theorem startsNumber_of_ne {c : Char} (hplus : c ≠ '+') (hhyphen : c ≠ '-') (r : Text) :
    Lexeme.startsNumber (c :: r) = Lexeme.startsUnsigned (c :: r) := by
  simp [Lexeme.startsNumber, hplus, hhyphen]

theorem not_startsNumber_of_startsIdent (h : startsIdent r = true) :
    Lexeme.startsNumber r = false := by
  cases r with
  | nil => rfl
  | cons c t =>
    by_cases hhyphen : c = '-'
    · subst hhyphen
      rw [startsIdent_hyphen] at h
      cases t with
      | nil => rfl
      | cons d t => exact not_startsUnsigned_of_isIdentHead (by simpa using h) t
    · have hc := isIdentHead_of_startsIdent h
      rw [startsNumber_of_ne (by rintro rfl; exact absurd hc (by decide)) hhyphen,
        not_startsUnsigned_of_isIdentHead hc]

/-- Where an identifier starts, the rest of the mark `-->` does not. -/
theorem not_isPrefixOf_of_startsIdent (h : startsIdent r = true) :
    "->".toList.isPrefixOf r = false := by
  rw [Bool.eq_false_iff]
  intro hprefix
  obtain ⟨t, rfl⟩ := List.isPrefixOf_iff_prefix.mp hprefix
  have hhead : startsIdent ('-' :: '>' :: t) = true := h
  rw [startsIdent_hyphen] at hhead
  cases hhead

theorem Stops.startsNumber_eq (h : Stops r) : Lexeme.startsNumber r = false := by
  cases r with
  | nil => rfl
  | cons c r =>
    have hsign : (c == '+' || c == '-') = false := h.any_head (p := fun c => c == '+' || c == '-') rfl
    simp only [Bool.or_eq_false_iff, beq_eq_false_iff_ne] at hsign
    rw [startsNumber_of_ne hsign.1 hsign.2, h.startsUnsigned_eq]

theorem Alike.startsNumber_eq (h : Alike r r') :
    Lexeme.startsNumber r = Lexeme.startsNumber r' := by
  cases h with
  | stop hr hr' => rw [hr.startsNumber_eq, hr'.startsNumber_eq]
  | cons c h =>
    by_cases hplus : c = '+'
    · subst hplus
      exact h.startsUnsigned_eq
    · by_cases hhyphen : c = '-'
      · subst hhyphen
        exact h.startsUnsigned_eq
      · rw [startsNumber_of_ne hplus hhyphen, startsNumber_of_ne hplus hhyphen]
        exact (h.cons c).startsUnsigned_eq
  | ident hr hr' =>
    rw [not_startsNumber_of_startsIdent hr.1, not_startsNumber_of_startsIdent hr'.1]
  | string r r' hq hq' =>
    rcases isQuote_iff.mp hq with rfl | rfl <;> rcases isQuote_iff.mp hq' with rfl | rfl <;> rfl

theorem Alike.isPrefixOf_bracket (h : Alike r r') :
    ['>'].isPrefixOf r = ['>'].isPrefixOf r' := by
  have hhead (s : Text) : ['>'].isPrefixOf s = s.head?.any ('>' == ·) := by
    cases s <;> simp [List.isPrefixOf]
  rw [hhead, hhead]
  exact h.any_head (fun c hc => by
    rw [beq_eq_false_iff_ne]
    rintro rfl
    cases hc) rfl rfl

/-- No mark stands where nothing goes on. -/
theorem Stops.isPrefixOf_eq (h : Stops r) {c : Char} (hc : isStop c = false) (mark : Text) :
    (c :: mark).isPrefixOf r = false := by
  rw [Bool.eq_false_iff]
  intro hprefix
  obtain ⟨t, rfl⟩ := List.isPrefixOf_iff_prefix.mp hprefix
  rw [h c rfl] at hc
  cases hc

theorem Alike.isPrefixOf_arrow (h : Alike r r') :
    "->".toList.isPrefixOf r = "->".toList.isPrefixOf r' := by
  cases h with
  | stop hr hr' =>
    exact (hr.isPrefixOf_eq (by decide) ['>']).trans (hr'.isPrefixOf_eq (by decide) ['>']).symm
  | cons c h => exact congrArg (('-' == c) && ·) h.isPrefixOf_bracket
  | ident hr hr' =>
    rw [not_isPrefixOf_of_startsIdent hr.1, not_isPrefixOf_of_startsIdent hr'.1]
  | string r r' hq hq' =>
    rcases isQuote_iff.mp hq with rfl | rfl <;> rcases isQuote_iff.mp hq' with rfl | rfl <;> rfl

theorem Alike.isPrefixOf_close (h : Alike r r') :
    "-->".toList.isPrefixOf r = "-->".toList.isPrefixOf r' := by
  cases h with
  | stop hr hr' =>
    exact (hr.isPrefixOf_eq (by decide) "->".toList).trans
      (hr'.isPrefixOf_eq (by decide) "->".toList).symm
  | ident hr hr' => rw [hr.2, hr'.2]
  | string r r' hq hq' =>
    rcases isQuote_iff.mp hq with rfl | rfl <;> rcases isQuote_iff.mp hq' with rfl | rfl <;> rfl
  | cons c h => exact congrArg (('-' == c) && ·) h.isPrefixOf_arrow

end Alike

end TerseMarkup.Css
