import Mathlib.Data.List.TakeWhile
import TerseMarkup.Proofs.Html.Token.Progress

/-! The end tag behind a fragment.

A fragment is read with `</template>` behind it. Each reader stops at a character or a mark that the
tag does not begin with, so it has stopped before, or goes through to the end (`Spares`). Here are
characters, marks and comments; the other readers follow, and their readings put together in
`Closing.Reading`. -/
namespace TerseMarkup.Html

/-- The end tag that stands behind a fragment. -/
def closing : Text := "</template>".toList

theorem closing_eq : closing = '<' :: '/' :: "template>".toList := rfl

/-- Reading the whole either takes the end tag too, or takes what the part alone is read as. -/
def Spares {α : Type} (whole part : α × Text) : Prop :=
  whole.2 = [] ∨ whole = (part.1, part.2 ++ closing)

theorem Spares.map {α β : Type} {whole part : α × Text} (h : Spares whole part) (f : α → β) :
    Spares (f whole.1, whole.2) (f part.1, part.2) := by
  rcases h with h | h
  · exact .inl h
  · exact .inr (by rw [h])

/-! ### Characters that are passed over -/

theorem span_of_stop {p : Char → Bool} {s : Text} (h : s.dropWhile p ≠ []) :
    (s ++ closing).span p = ((s.span p).1, (s.span p).2 ++ closing) := by
  have hstop : (s.dropWhile p).isEmpty = false := by simpa using h
  have htake : (s ++ closing).takeWhile p = s.takeWhile p := by
    rw [List.takeWhile_append, if_neg]
    intro hlength
    refine h (List.length_eq_zero_iff.mp ?_)
    have hall := congrArg List.length (List.takeWhile_append_dropWhile (p := p) (l := s))
    rw [List.length_append] at hall
    omega
  rw [List.span_eq_takeWhile_dropWhile, List.span_eq_takeWhile_dropWhile, htake,
    List.dropWhile_append, hstop]
  rfl

theorem span_of_all {p : Char → Bool} {s : Text} (h : s.dropWhile p = []) :
    (s ++ closing).span p = (s ++ (closing.span p).1, (closing.span p).2) := by
  have hall : ∀ c ∈ s, p c := List.dropWhile_eq_nil_iff.mp h
  rw [List.span_eq_takeWhile_dropWhile, List.span_eq_takeWhile_dropWhile,
    List.takeWhile_append_of_pos hall, List.dropWhile_append_of_pos hall]

theorem dropWhile_closing {p : Char → Bool} (hp : p '<' = false) (s : Text) :
    (s ++ closing).dropWhile p = s.dropWhile p ++ closing := by
  have hnone : closing.dropWhile p = closing := by
    rw [closing_eq, List.dropWhile_cons, hp]
    rfl
  rw [List.dropWhile_append]
  split
  next h => rw [List.isEmpty_iff.mp h, hnone, List.nil_append]
  · rfl

theorem span_closing {p : Char → Bool} (hp : p '<' = false) (s : Text) :
    (s ++ closing).span p = ((s.span p).1, (s.span p).2 ++ closing) := by
  by_cases h : s.dropWhile p = []
  · have hall : s.takeWhile p = s := List.takeWhile_eq_self_iff.mpr (List.dropWhile_eq_nil_iff.mp h)
    have hclosing : closing.span p = ([], closing) := by
      rw [List.span_eq_takeWhile_dropWhile, closing_eq, List.takeWhile_cons, List.dropWhile_cons, hp]
      rfl
    rw [span_of_all h, hclosing, List.span_eq_takeWhile_dropWhile, hall, h, List.append_nil,
      List.nil_append]
  · exact span_of_stop h

theorem skipSpace_closing (s : Text) :
    Doctype.skipSpace (s ++ closing) = Doctype.skipSpace s ++ closing :=
  dropWhile_closing (by decide) s

/-- What does not end at a character before the tag goes on to the tag's own end. -/
theorem skip_closing (s : Text) :
    Doctype.skip (s ++ closing) = [] ∨ Doctype.skip (s ++ closing) = Doctype.skip s ++ closing := by
  have hspan : ∀ t : Text, t.dropWhile (· ≠ '>') = (t.span (· ≠ '>')).2 := fun t => by
    rw [List.span_eq_takeWhile_dropWhile]
  rw [Doctype.skip, Doctype.skip, hspan, hspan]
  by_cases h : s.dropWhile (· ≠ '>') = []
  · rw [span_of_all h]
    exact .inl rfl
  · rw [span_of_stop h]
    refine .inr (List.drop_append_of_le_length ?_)
    rw [← hspan]
    exact List.length_pos_iff.mpr h

/-! ### Marks -/

theorem after?_closing {start : Text} (h : '<' ∉ start) (s : Text) :
    Text.after? start (s ++ closing) = (Text.after? start s).map (· ++ closing) := by
  rw [Text.after?, Text.after?]
  induction start generalizing s with
  | nil => rfl
  | cons a start ih =>
    rw [List.mem_cons, not_or] at h
    cases s with
    | nil =>
      have hne : (a == '<') = false := beq_eq_false_iff_ne.mpr (Ne.symm h.1)
      simp [closing_eq, List.isPrefixOf?, hne]
    | cons c s =>
      rw [List.cons_append, List.isPrefixOf?, List.isPrefixOf?]
      split
      · exact ih h.2 s
      · rfl

/-- A mark without `<` is found before a `<`, or not at all. -/
theorem afterIgnoringCase?_append {start : Text} (h : '<' ∉ start) (s r : Text) :
    Text.afterIgnoringCase? start (s ++ '<' :: r) =
      (Text.afterIgnoringCase? start s).map (· ++ '<' :: r) := by
  induction start generalizing s with
  | nil => rfl
  | cons a start ih =>
    rw [List.mem_cons, not_or] at h
    cases s with
    | nil =>
      have hne : ('<'.toLower == a) = false := beq_eq_false_iff_ne.mpr h.1
      rw [List.nil_append, Text.afterIgnoringCase?.eq_3, hne, if_neg Bool.false_ne_true]
      rfl
    | cons c s =>
      rw [List.cons_append, Text.afterIgnoringCase?, Text.afterIgnoringCase?]
      split
      · exact ih h.2 s
      · rfl

theorem afterIgnoringCase?_closing {start : Text} (h : '<' ∉ start) (s : Text) :
    Text.afterIgnoringCase? start (s ++ closing) =
      (Text.afterIgnoringCase? start s).map (· ++ closing) :=
  afterIgnoringCase?_append h s _

/-- A mark that the tag does not begin with stands in the text before it. -/
theorem exists_of_append_closing (start : Text) {s r : Text} (h : '<' ∉ start)
    (heq : s ++ closing = start ++ r) : ∃ r', s = start ++ r' := by
  have hafter : Text.after? start (s ++ closing) = some r := by
    rw [Text.after?, List.isPrefixOf?_eq_some_iff_append_eq, heq]
  rw [after?_closing h, Option.map_eq_some_iff] at hafter
  obtain ⟨r', hr', -⟩ := hafter
  rw [Text.after?, List.isPrefixOf?_eq_some_iff_append_eq] at hr'
  exact ⟨r', hr'.symm⟩

theorem lt_mem_append_closing (s : Text) : '<' ∈ s ++ closing :=
  List.mem_append_right _ List.mem_cons_self

/-! ### Comments -/

theorem Comment.body_closing (s : Text) : Spares (Comment.body (s ++ closing)) (Comment.body s) := by
  fun_induction Comment.body s with
  | case1 | case2 | case3 | case4 => exact .inl rfl
  | case5 r => exact .inr rfl
  | case6 r => exact .inr rfl
  | case7 c r h1 h2 h3 hend hend' contents rest heq ih =>
    have hcons : Comment.body (c :: (r ++ closing)) =
        (c :: (Comment.body (r ++ closing)).1, (Comment.body (r ++ closing)).2) := by
      refine Comment.body.eq_7 c (r ++ closing) ?_ ?_ ?_ (fun r' hc h => ?_) fun r' hc h => ?_
      · exact fun _ h => absurd (h ▸ lt_mem_append_closing r) (by decide)
      · exact fun _ h => absurd (h ▸ lt_mem_append_closing r) (by decide)
      · exact fun _ h => absurd (h ▸ lt_mem_append_closing r) (by decide)
      · obtain ⟨r', hr'⟩ := exists_of_append_closing ['-', '>'] (by decide) h
        exact hend r' hc hr'
      · obtain ⟨r', hr'⟩ := exists_of_append_closing ['-', '!', '>'] (by decide) h
        exact hend' r' hc hr'
    rw [heq] at ih
    rw [List.cons_append, hcons]
    exact ih.map (c :: ·)

theorem Comment.read_closing (s : Text) : Spares (Comment.read (s ++ closing)) (Comment.read s) := by
  rw [Comment.read.eq_def s]
  split
  · exact .inr rfl
  · exact .inr rfl
  next h h' =>
    have hbody : Comment.read (s ++ closing) =
        ((Comment.body (s ++ closing)).1.withoutNull, (Comment.body (s ++ closing)).2) := by
      refine Comment.read.eq_3 _ (fun r heq => ?_) fun r heq => ?_
      · obtain ⟨r', hr'⟩ := exists_of_append_closing ['>'] (by decide) heq
        exact h r' hr'
      · obtain ⟨r', hr'⟩ := exists_of_append_closing ['-', '>'] (by decide) heq
        exact h' r' hr'
    rw [hbody]
    exact (Comment.body_closing s).map Text.withoutNull

theorem Comment.readOther_closing (s : Text) :
    Spares (Comment.readOther (s ++ closing)) (Comment.readOther s) := by
  rw [Comment.readOther, Comment.readOther]
  by_cases h : s.dropWhile (· ≠ '>') = []
  · rw [span_of_all h]
    exact .inl rfl
  · rw [span_of_stop h]
    refine .inr (Prod.ext rfl (List.drop_append_of_le_length ?_))
    rw [List.span_eq_takeWhile_dropWhile]
    exact List.length_pos_iff.mpr h

end TerseMarkup.Html
