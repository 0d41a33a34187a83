import TerseMarkup.Proofs.Html.Token.Closing

/-! Tags before the end tag.

The bracket of the end tag stops neither a name nor a value, so a tag that has not ended before it
takes some of it for an attribute and ends with it, or goes on in quotes to the end of the text. -/
namespace TerseMarkup.Html

namespace Tag

theorem quoted_closing {quote : Char} (hquote : quote = '"' ∨ quote = '\'') (r : Text) :
    readValue?.quoted quote (r ++ closing) = none ∨
      ∃ value rest, readValue?.quoted quote (r ++ closing) = some (value, rest ++ closing) ∧
        readValue?.quoted quote r = some (value, rest) := by
  by_cases h : r.dropWhile (· ≠ quote) = []
  · have hclosing : closing.span (· ≠ quote) = (closing, []) := by
      rcases hquote with rfl | rfl <;> rfl
    refine .inl ?_
    rw [readValue?.quoted, span_of_all h, hclosing]
  · refine .inr ?_
    obtain ⟨c, rest, hrest⟩ := List.exists_cons_of_ne_nil h
    have hspan : r.span (· ≠ quote) = (r.takeWhile (· ≠ quote), c :: rest) := by
      rw [List.span_eq_takeWhile_dropWhile, hrest]
    refine ⟨valueOf (r.takeWhile (· ≠ quote)), rest, ?_, ?_⟩
    · rw [readValue?.quoted, span_of_stop h, hspan]
      rfl
    · rw [readValue?.quoted, hspan]

/-- The part of `readValue?` for a value without quotes. -/
def readUnquoted (s : Text) : Text × Text :=
  let (spelled, rest) := s.span fun c => !(Text.isSpace c || c == '>')
  (valueOf spelled, rest)

theorem readUnquoted_closing (s : Text) :
    (∃ value, readUnquoted (s ++ closing) = (value, ['>'])) ∨
      readUnquoted (s ++ closing) = ((readUnquoted s).1, (readUnquoted s).2 ++ closing) := by
  rw [readUnquoted, readUnquoted]
  by_cases h : s.dropWhile (fun c => !(Text.isSpace c || c == '>')) = []
  · rw [span_of_all h]
    exact .inl ⟨_, rfl⟩
  · rw [span_of_stop h]
    exact .inr rfl

theorem readValue?_of_cons {c : Char} {s r : Text} (h : s.dropWhile Text.isSpace = c :: r) :
    readValue? s =
      if c = '"' ∨ c = '\'' then readValue?.quoted c r else some (readUnquoted (c :: r)) := by
  rw [readValue?, h]
  split
  next heq => exact absurd heq (by simp)
  next heq =>
    obtain ⟨rfl, rfl⟩ := List.cons.inj heq
    rw [if_pos (.inl rfl)]
  next heq =>
    obtain ⟨rfl, rfl⟩ := List.cons.inj heq
    rw [if_pos (.inr rfl)]
  next h1 h2 =>
    rw [if_neg]
    · rfl
    · rintro (rfl | rfl)
      · exact h1 r rfl
      · exact h2 r rfl

/-- A value ends before the tag, or it goes on to the tag's end or further. -/
theorem readValue?_closing (s : Text) :
    readValue? (s ++ closing) = none ∨ (∃ value, readValue? (s ++ closing) = some (value, ['>'])) ∨
      ∃ value rest, readValue? (s ++ closing) = some (value, rest ++ closing) ∧
        readValue? s = some (value, rest) := by
  have hspace := dropWhile_closing (p := Text.isSpace) (by decide) s
  cases hs : s.dropWhile Text.isSpace with
  | nil =>
    rw [hs] at hspace
    rw [readValue?_of_cons hspace]
    exact .inr (.inl ⟨_, rfl⟩)
  | cons c r =>
    rw [hs, List.cons_append] at hspace
    rw [readValue?_of_cons hspace, readValue?_of_cons hs]
    split
    next hquote => exact (quoted_closing hquote r).imp_right .inr
    · refine .inr ((readUnquoted_closing (c :: r)).imp ?_ ?_)
      · rintro ⟨value, h⟩
        exact ⟨value, congrArg some h⟩
      · exact fun h => ⟨_, _, congrArg some h, rfl⟩

/-! The rest of a tag that a name or a value has gone into. -/

theorem attributesFrom_bracket {fuel : Nat} {found attributes : List Attribute} {closed : Bool}
    {rest : Text} (h : attributesFrom fuel found ['>'] = some (attributes, closed, rest)) :
    rest = [] := by
  cases fuel with
  | zero => exact nomatch h
  | succ fuel =>
    obtain ⟨-, -, rfl⟩ : found = attributes ∧ false = closed ∧ [] = rest := by
      simpa [attributesFrom, Text.isSpace] using h
    rfl

theorem attributesFrom_slash {fuel : Nat} {found attributes : List Attribute} {closed : Bool}
    {rest : Text}
    (h : attributesFrom fuel found ('/' :: "template>".toList) = some (attributes, closed, rest)) :
    rest = [] := by
  cases fuel with
  | zero => exact nomatch h
  | succ fuel =>
    have hslash : attributesFrom fuel found "template>".toList = some (attributes, closed, rest) := h
    cases fuel with
    | zero => exact nomatch hslash
    | succ fuel =>
      have hbracket : attributesFrom fuel (addAttribute found "template".toList []) ['>'] =
          some (attributes, closed, rest) := hslash
      exact attributesFrom_bracket hbracket

/-- The part of `attributesFrom` behind an attribute's name. -/
def behindName (fuel : Nat) (found : List Attribute) (name rest : Text) :
    Option (List Attribute × Bool × Text) :=
  match rest.dropWhile Text.isSpace with
  | '=' :: rest =>
    (readValue? rest).bind fun (value, rest) =>
      attributesFrom fuel (addAttribute found name value) rest
  | rest => attributesFrom fuel (addAttribute found name []) rest

/-- Whether a character belongs to an attribute's name. -/
def isInName (c : Char) : Bool := !(endsName c || c == '=')

theorem attributesFrom_name (fuel : Nat) (found : List Attribute) {c : Char} {s r : Text}
    (h : s.dropWhile Text.isSpace = c :: r) (hend : c ≠ '>') (hslash : c ≠ '/') :
    attributesFrom (fuel + 1) found s =
      behindName fuel found (c :: (r.span isInName).1) (r.span isInName).2 := by
  rw [attributesFrom, h]
  split
  next heq => exact absurd heq (by simp)
  next heq => exact absurd (List.cons.inj heq).1 hend
  next heq => exact absurd (List.cons.inj heq).1 hslash
  next heq => exact absurd (List.cons.inj heq).1 hslash
  next heq =>
    obtain ⟨rfl, rfl⟩ := List.cons.inj heq
    rfl

theorem attributesFrom_end (fuel : Nat) (found : List Attribute) {s r : Text}
    (h : s.dropWhile Text.isSpace = '>' :: r) :
    attributesFrom (fuel + 1) found s = some (found, false, r) := by
  rw [attributesFrom, h]
  rfl

theorem attributesFrom_selfClosing (fuel : Nat) (found : List Attribute) {s r : Text}
    (h : s.dropWhile Text.isSpace = '/' :: '>' :: r) :
    attributesFrom (fuel + 1) found s = some (found, true, r) := by
  rw [attributesFrom, h]
  rfl

theorem attributesFrom_skip (fuel : Nat) (found : List Attribute) {s r : Text}
    (h : s.dropWhile Text.isSpace = '/' :: r) (hend : r.head? ≠ some '>') :
    attributesFrom (fuel + 1) found s = attributesFrom fuel found r := by
  rw [attributesFrom, h]
  split
  next heq => exact absurd heq (by simp)
  next heq => exact absurd (List.cons.inj heq).1 (by decide)
  next heq => exact absurd (congrArg List.head? (List.cons.inj heq).2) hend
  next heq =>
    obtain ⟨-, rfl⟩ := List.cons.inj heq
    rfl
  next hslash heq => exact absurd (List.cons.inj heq).1.symm hslash

theorem behindName_equals (fuel : Nat) (found : List Attribute) (name : Text) {rest r : Text}
    (h : rest.dropWhile Text.isSpace = '=' :: r) :
    behindName fuel found name rest = (readValue? r).bind fun (value, rest) =>
      attributesFrom fuel (addAttribute found name value) rest := by
  rw [behindName, h]
  rfl

theorem behindName_other (fuel : Nat) (found : List Attribute) (name : Text) {rest : Text}
    (h : (rest.dropWhile Text.isSpace).head? ≠ some '=') :
    behindName fuel found name rest =
      attributesFrom fuel (addAttribute found name []) (rest.dropWhile Text.isSpace) := by
  rw [behindName]
  split
  next heq => exact absurd (congrArg List.head? heq) h
  · rfl

/-- A result that leaves nothing, or that of the part before the tag. -/
def SparesTag (whole part : Option (List Attribute × Bool × Text)) : Prop :=
  ∀ attributes closed rest, whole = some (attributes, closed, rest) →
    rest = [] ∨ ∃ r, rest = r ++ closing ∧ part = some (attributes, closed, r)

theorem SparesTag.some (attributes : List Attribute) (closed : Bool) (r : Text) :
    SparesTag (some (attributes, closed, r ++ closing)) (some (attributes, closed, r)) := by
  rintro _ _ _ ⟨⟩
  exact .inr ⟨r, rfl, rfl⟩

section Step

variable {fuel fuel' : Nat} (ih : ∀ (found : List Attribute) {s : Text}, s.length < fuel →
  SparesTag (attributesFrom fuel' found (s ++ closing)) (attributesFrom fuel found s))

include ih

theorem behindName_closing (found : List Attribute) (name : Text) {rest : Text}
    (hfuel : rest.length < fuel) :
    SparesTag (behindName fuel' found name (rest ++ closing)) (behindName fuel found name rest) := by
  have hspace := dropWhile_closing (p := Text.isSpace) (by decide) rest
  have hlength := (List.dropWhile_suffix Text.isSpace (l := rest)).length_le
  by_cases hequals : (rest.dropWhile Text.isSpace).head? = Option.some '='
  · obtain ⟨r, hr⟩ := List.head?_eq_some_iff.mp hequals
    rw [hr, List.cons_append] at hspace
    rw [hr, List.length_cons] at hlength
    rw [behindName_equals _ _ _ hspace, behindName_equals _ _ _ hr]
    rcases readValue?_closing r with h | ⟨value, h⟩ | ⟨value, rest, h, hpart⟩
    · rw [h]
      exact fun _ _ _ h => nomatch h
    · rw [h]
      exact fun _ _ _ h => .inl (attributesFrom_bracket h)
    · rw [h, hpart]
      refine ih _ ?_
      have hvalue := (readValue?_suffix hpart).length_le
      omega
  · have hother : (rest.dropWhile Text.isSpace ++ closing).head? ≠ Option.some '=' := by
      cases h : rest.dropWhile Text.isSpace with
      | nil => decide
      | cons c r =>
        rw [h] at hequals
        exact hequals
    rw [behindName_other _ _ _ (hspace ▸ hother), behindName_other _ _ _ hequals, hspace]
    exact ih _ (Nat.lt_of_le_of_lt hlength hfuel)

end Step

theorem attributesFrom_closing {fuel fuel' : Nat} (found : List Attribute) {s : Text}
    (hfuel : s.length < fuel) :
    SparesTag (attributesFrom fuel' found (s ++ closing)) (attributesFrom fuel found s) := by
  induction fuel generalizing fuel' found s with
  | zero => omega
  | succ fuel ih =>
    cases fuel' with
    | zero => exact fun a closed rest h => nomatch h
    | succ fuel' =>
    have hspace := dropWhile_closing (p := Text.isSpace) (by decide) s
    have hlength := (List.dropWhile_suffix Text.isSpace (l := s)).length_le
    cases hs : s.dropWhile Text.isSpace with
    | nil =>
      rw [hs] at hspace
      rw [attributesFrom_name _ _ hspace (by decide) (by decide)]
      exact fun _ _ _ h => .inl (attributesFrom_slash h)
    | cons c r =>
      rw [hs] at hspace hlength
      rw [List.cons_append] at hspace
      rw [List.length_cons] at hlength
      by_cases hend : c = '>'
      · subst hend
        rw [attributesFrom_end _ _ hspace, attributesFrom_end _ _ hs]
        exact .some _ _ _
      by_cases hslash : c = '/'
      · subst hslash
        by_cases hend : r.head? = Option.some '>'
        · obtain ⟨r, rfl⟩ := List.head?_eq_some_iff.mp hend
          rw [attributesFrom_selfClosing _ _ hspace, attributesFrom_selfClosing _ _ hs]
          exact .some _ _ _
        · have hwhole : (r ++ closing).head? ≠ Option.some '>' := by
            cases r with
            | nil => decide
            | cons d r => exact hend
          rw [attributesFrom_skip _ _ hspace hwhole, attributesFrom_skip _ _ hs hend]
          exact ih _ (by omega)
      rw [attributesFrom_name _ _ hspace hend hslash, attributesFrom_name _ _ hs hend hslash]
      by_cases hname : r.dropWhile isInName = []
      · rw [span_of_all hname]
        exact fun _ _ _ h => .inl (attributesFrom_slash h)
      · rw [span_of_stop hname]
        have hrest := (Text.span_suffix isInName r).length_le
        exact behindName_closing (fun found _ hfuel => ih found hfuel) _ _ (by omega)

theorem read?_closing {s : Text} {tag : Tag} {rest : Text}
    (h : read? (s ++ closing) = some (tag, rest)) :
    rest = [] ∨ ∃ r, rest = r ++ closing ∧ read? s = some (tag, r) := by
  simp only [read?, Option.bind_eq_bind, Option.bind_eq_some_iff] at h ⊢
  obtain ⟨⟨attributes, closed, behind⟩, hattributes, h⟩ := h
  obtain ⟨rfl, rfl⟩ := Prod.mk.inj (Option.some.inj h)
  by_cases hname : s.dropWhile (!endsName ·) = []
  · rw [span_of_all hname] at hattributes
    exact .inl (attributesFrom_slash hattributes)
  · rw [span_of_stop hname] at hattributes ⊢
    refine (attributesFrom_closing [] (Nat.lt_succ_self _) _ _ _ hattributes).imp_right ?_
    rintro ⟨r, rfl, hpart⟩
    exact ⟨r, rfl, (attributes, closed, r), hpart, rfl⟩

end Tag

end TerseMarkup.Html
