import TerseMarkup.Proofs.Html.Token.Closing

/-! Doctypes before the end tag.

A doctype ends at a `>`, so one that has not ended before the tag ends with it. What its readers do
between two characters that they look at is named here, so that each is compared on its own. -/
namespace TerseMarkup.Html

namespace Doctype

theorem skip_spares {α : Type} (a : α) (s : Text) : Spares (a, skip (s ++ closing)) (a, skip s) :=
  (skip_closing s).imp id (congrArg (a, ·))

/-- An identifier without its quote goes on to the end of the tag. -/
theorem identifier_closing {quote : Char} (hquote : quote = '"' ∨ quote = '\'') (s : Text) :
    (∃ value, identifier quote (s ++ closing) = (value, false, ['>'])) ∨
      identifier quote (s ++ closing) =
        ((identifier quote s).1, (identifier quote s).2.1, (identifier quote s).2.2 ++ closing) := by
  set p : Char → Bool := fun c => c ≠ quote && c ≠ '>' with hp
  by_cases h : s.dropWhile p = []
  · have hclosing : closing.span p = ("</template".toList, ['>']) := by
      rcases hquote with rfl | rfl <;> rfl
    have hne : '>' ≠ quote := by
      rcases hquote with rfl | rfl <;> decide
    refine .inl ⟨Text.withoutNull (s ++ "</template".toList), ?_⟩
    rw [identifier, span_of_all h, hclosing]
    exact if_neg hne
  · refine .inr ?_
    rw [identifier, identifier, span_of_stop h]
    obtain ⟨c, r, hrest⟩ := List.exists_cons_of_ne_nil h
    have hspan : (s.span p).2 = c :: r := by
      rw [List.span_eq_takeWhile_dropWhile]
      exact hrest
    rcases hs : s.span p with ⟨spelled, rest⟩
    rw [hs] at hspan
    obtain rfl : rest = c :: r := hspan
    by_cases hc : c = quote <;> simp [hc]

theorem readEnd_closing (d : Doctype) (s : Text) :
    Spares (readEnd d (s ++ closing)) (readEnd d s) := by
  rw [readEnd, readEnd, skipSpace_closing]
  cases hs : skipSpace s with
  | nil => exact .inl rfl
  | cons c r => exact skip_spares d (c :: r)

theorem readSystem_closing (d : Doctype) {quote : Char} (hquote : quote = '"' ∨ quote = '\'')
    (s : Text) : Spares (readSystem d quote (s ++ closing)) (readSystem d quote s) := by
  rw [readSystem, readSystem]
  rcases identifier_closing hquote s with ⟨value, h⟩ | h
  · rw [h]
    exact .inl rfl
  · rw [h]
    dsimp only
    split
    · exact readEnd_closing _ _
    · exact skip_spares _ _

theorem readBetween_closing (d : Doctype) (s : Text) :
    Spares (readBetween d (s ++ closing)) (readBetween d s) := by
  rw [readBetween, readBetween, skipSpace_closing]
  cases skipSpace s with
  | nil => exact .inl rfl
  | cons c r =>
    rw [List.cons_append]
    split
    next heq =>
      obtain ⟨rfl, rfl⟩ := List.cons.inj heq
      exact .inr rfl
    next heq =>
      obtain ⟨rfl, rfl⟩ := List.cons.inj heq
      exact readSystem_closing d (.inl rfl) r
    next heq =>
      obtain ⟨rfl, rfl⟩ := List.cons.inj heq
      exact readSystem_closing d (.inr rfl) r
    next h1 h2 h3 =>
      split
      next heq => exact absurd (congrArg (· ++ closing) heq) (h1 _)
      next heq => exact absurd (congrArg (· ++ closing) heq) (h2 _)
      next heq => exact absurd (congrArg (· ++ closing) heq) (h3 _)
      · exact skip_spares _ (c :: r)

theorem readPublic_closing (d : Doctype) {quote : Char} (hquote : quote = '"' ∨ quote = '\'')
    (s : Text) : Spares (readPublic d quote (s ++ closing)) (readPublic d quote s) := by
  rw [readPublic, readPublic]
  rcases identifier_closing hquote s with ⟨value, h⟩ | h
  · rw [h]
    exact .inl rfl
  · rw [h]
    dsimp only
    split
    · exact readBetween_closing _ _
    · exact skip_spares _ _

/-- A quote, or what spoils the doctype, stands before the tag, or the tag spoils it. -/
theorem quoted_closing {read : Doctype → Char → Text → Doctype × Text}
    (hread : ∀ d quote, (quote = '"' ∨ quote = '\'') → ∀ s,
      Spares (read d quote (s ++ closing)) (read d quote s)) (d : Doctype) (s : Text) :
    Spares (readQuoted read d (s ++ closing)) (readQuoted read d s) := by
  cases s with
  | nil => exact .inl rfl
  | cons c r =>
    rw [List.cons_append]
    unfold readQuoted
    split
    next heq =>
      obtain ⟨rfl, rfl⟩ := List.cons.inj heq
      exact hread d '"' (.inl rfl) r
    next heq =>
      obtain ⟨rfl, rfl⟩ := List.cons.inj heq
      exact hread d '\'' (.inr rfl) r
    next h1 h2 =>
      split
      next heq => exact absurd (congrArg (· ++ closing) heq) (h1 _)
      next heq => exact absurd (congrArg (· ++ closing) heq) (h2 _)
      · exact skip_spares _ (c :: r)

/-- The part of `readIdentifiers` for a doctype that does not end behind its name. -/
def readKeyword (d : Doctype) (s : Text) : Doctype × Text :=
  match Text.afterIgnoringCase? "public".toList s with
  | some rest => readQuoted readPublic d (skipSpace rest)
  | none =>
    match Text.afterIgnoringCase? "system".toList s with
    | some rest => readQuoted readSystem d (skipSpace rest)
    | none => spoiled d s

theorem readKeyword_closing (d : Doctype) (s : Text) :
    Spares (readKeyword d (s ++ closing)) (readKeyword d s) := by
  rw [readKeyword, readKeyword, afterIgnoringCase?_closing (by decide),
    afterIgnoringCase?_closing (by decide)]
  cases Text.afterIgnoringCase? "public".toList s with
  | some rest =>
    dsimp only [Option.map_some]
    rw [skipSpace_closing]
    exact quoted_closing readPublic_closing d _
  | none =>
    dsimp only [Option.map_none]
    cases Text.afterIgnoringCase? "system".toList s with
    | some rest =>
      dsimp only [Option.map_some]
      rw [skipSpace_closing]
      exact quoted_closing readSystem_closing d _
    | none => exact skip_spares _ _

/-- A doctype that may end at once. -/
def readUnlessEnded (d : Doctype) (read : Text → Doctype × Text) : Text → Doctype × Text
  | '>' :: r => (d, r)
  | rest => read rest

/-- What ends at once ends before the tag. -/
theorem readUnlessEnded_closing (d : Doctype) {read : Text → Doctype × Text}
    (hread : ∀ s, Spares (read (s ++ closing)) (read s)) (s : Text) :
    Spares (readUnlessEnded d read (s ++ closing)) (readUnlessEnded d read s) := by
  cases s with
  | nil => exact hread []
  | cons c r =>
    rw [List.cons_append]
    unfold readUnlessEnded
    split
    next heq =>
      obtain ⟨rfl, rfl⟩ := List.cons.inj heq
      exact .inr rfl
    next h =>
      split
      next heq => exact absurd (congrArg (· ++ closing) heq) (h _)
      · exact hread (c :: r)

theorem readIdentifiers_eq (d : Doctype) (s : Text) :
    readIdentifiers d s = readUnlessEnded d (readKeyword d) (skipSpace s) := by
  rw [readIdentifiers]
  generalize skipSpace s = s
  split
  · rfl
  next h =>
    rw [readUnlessEnded.eq_2 _ _ _ h]
    rfl

theorem readIdentifiers_closing (d : Doctype) (s : Text) :
    Spares (readIdentifiers d (s ++ closing)) (readIdentifiers d s) := by
  rw [readIdentifiers_eq, readIdentifiers_eq, skipSpace_closing]
  exact readUnlessEnded_closing d (readKeyword_closing d) _

/-- The part of `read` behind the spaces. -/
def readNamed (s : Text) : Doctype × Text :=
  let (spelled, rest) := s.span fun c => !(Text.isSpace c || c == '>')
  readIdentifiers { name := some (Text.lower spelled).withoutNull } rest

theorem readNamed_closing (s : Text) : Spares (readNamed (s ++ closing)) (readNamed s) := by
  rw [readNamed, readNamed]
  by_cases h : s.dropWhile (fun c => !(Text.isSpace c || c == '>')) = []
  · rw [span_of_all h]
    exact .inl rfl
  · rw [span_of_stop h]
    exact readIdentifiers_closing _ _

theorem read_of_cons {c : Char} {s r : Text} (h : skipSpace s = c :: r) :
    read s = readUnlessEnded { damaged := true } readNamed (c :: r) := by
  rw [read, h]
  split
  next h => exact absurd h (by simp)
  next h =>
    obtain ⟨rfl, rfl⟩ := List.cons.inj h
    rfl
  next h h' => rw [readUnlessEnded.eq_2 _ _ _ h', readNamed]

theorem read_closing (s : Text) : Spares (read (s ++ closing)) (read s) := by
  cases hs : skipSpace s with
  | nil =>
    have hwhole : skipSpace (s ++ closing) = closing := by
      rw [skipSpace_closing, hs, List.nil_append]
    rw [read_of_cons hwhole]
    exact .inl rfl
  | cons c r =>
    have hwhole : skipSpace (s ++ closing) = c :: (r ++ closing) := by
      rw [skipSpace_closing, hs, List.cons_append]
    rw [read_of_cons hwhole, read_of_cons hs]
    exact readUnlessEnded_closing _ readNamed_closing (c :: r)

end Doctype

end TerseMarkup.Html
