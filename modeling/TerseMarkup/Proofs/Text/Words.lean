import TerseMarkup.Proofs.Text.Occurrence
import TerseMarkup.Text.Blank

/-! Words between spaces.

`words` takes a text apart at its spaces, and `spaced` puts words together with one space between
each two; the words come back (`words_spaced`). What has no space itself occurs in such a text only
within a word, so exchanging it there changes one word and leaves the others
(`replaceFirst?_spaced`). -/
namespace TerseMarkup.Text

/-- Not empty, and without spaces. -/
structure IsWord (t : Text) : Prop where
  ne_nil : t ≠ []
  solid : ∀ c ∈ t, isSpace c = false

/-- Words with one space between each two. -/
def spaced (ws : List Text) : Text := [' '].intercalate ws

/-! ### Taking apart -/

theorem words_nil : words [] = [] := by
  rw [words, List.splitOnP_nil]
  rfl

theorem words_of_isWord {w : Text} (h : w.IsWord) : words w = [w] := by
  rw [words, List.splitOnP_eq_singleton h.solid, List.filter_cons_of_pos]
  · rfl
  · simpa using h.ne_nil

theorem words_append_space (x y : Text) : words (x ++ ' ' :: y) = words x ++ words y := by
  rw [words, List.splitOnP_append_cons x y (by decide), List.filter_append]
  rfl

theorem solid_of_mem_splitOnP {t w : Text} (h : w ∈ t.splitOnP isSpace) :
    ∀ c ∈ w, isSpace c = false := by
  induction t generalizing w with
  | nil =>
    rw [List.splitOnP_nil, List.mem_singleton] at h
    simp [h]
  | cons a rest ih =>
    rw [List.splitOnP_cons_eq_if_modifyHead] at h
    split at h
    · rcases List.mem_cons.mp h with rfl | hmem
      · simp
      · exact ih hmem
    · next hsolid =>
      obtain ⟨first, others, hsplit⟩ := List.exists_cons_of_ne_nil (List.splitOnP_ne_nil isSpace rest)
      rw [hsplit] at h ih
      rcases List.mem_cons.mp h with rfl | hmem
      · intro c hc
        rcases List.mem_cons.mp hc with rfl | hc
        · exact Bool.eq_false_iff.mpr hsolid
        · exact ih (List.mem_cons_self ..) c hc
      · exact ih (List.mem_cons_of_mem _ hmem)

theorem isWord_of_mem_words {t w : Text} (h : w ∈ words t) : w.IsWord := by
  obtain ⟨hmem, hne⟩ := List.mem_filter.mp h
  exact ⟨by simpa using hne, solid_of_mem_splitOnP hmem⟩

/-! ### Putting together -/

theorem spaced_singleton (w : Text) : spaced [w] = w := List.intercalate_singleton

theorem spaced_cons_cons (w w' : Text) (ws : List Text) :
    spaced (w :: w' :: ws) = w ++ ' ' :: spaced (w' :: ws) := by
  rw [spaced, List.intercalate_cons_cons, List.append_assoc]
  rfl

theorem spaced_cons_of_ne_nil (w : Text) {ws : List Text} (h : ws ≠ []) :
    spaced (w :: ws) = w ++ ' ' :: spaced ws := by
  obtain ⟨w', ws, rfl⟩ := List.exists_cons_of_ne_nil h
  exact spaced_cons_cons w w' ws

/-- Behind its first word a text goes on with a space before each word. -/
theorem spaced_cons (w : Text) (ws : List Text) :
    spaced (w :: ws) = w ++ ws.flatMap (' ' :: ·) := by
  induction ws generalizing w with
  | nil => rw [spaced_singleton, List.flatMap_nil, List.append_nil]
  | cons w' ws ih => rw [spaced_cons_cons, ih, List.flatMap_cons, List.cons_append]

/-- **Words that are put together come apart again.** -/
theorem words_spaced {ws : List Text} (h : ∀ w ∈ ws, w.IsWord) : words (spaced ws) = ws := by
  induction ws with
  | nil => exact words_nil
  | cons w rest ih =>
    have hfirst := words_of_isWord (h w (List.mem_cons_self ..))
    cases rest with
    | nil => rw [spaced_singleton, hfirst]
    | cons w' rest =>
      rw [spaced_cons_cons, words_append_space, hfirst,
        ih fun u hu => h u (List.mem_cons_of_mem _ hu)]
      rfl

theorem spaced_inj {ws ws' : List Text} (h : ∀ w ∈ ws, w.IsWord) (h' : ∀ w ∈ ws', w.IsWord) :
    spaced ws = spaced ws' ↔ ws = ws' := by
  refine ⟨fun heq => ?_, congrArg spaced⟩
  rw [← words_spaced h, heq, words_spaced h']

theorem spaced_ne_nil {ws : List Text} (hne : ws ≠ []) (h : ∀ w ∈ ws, w.IsWord) :
    spaced ws ≠ [] := by
  obtain ⟨w, rest, rfl⟩ := List.exists_cons_of_ne_nil hne
  rw [spaced_cons]
  exact List.append_ne_nil_of_left_ne_nil (h w (List.mem_cons_self ..)).ne_nil _

theorem mem_spaced {ws : List Text} {c : Char} (h : c ∈ spaced ws) : c = ' ' ∨ ∃ w ∈ ws, c ∈ w := by
  cases ws with
  | nil => exact absurd h List.not_mem_nil
  | cons w rest =>
    rw [spaced_cons, List.mem_append, List.mem_flatMap] at h
    rcases h with hfirst | ⟨u, hu, hc⟩
    · exact .inr ⟨w, List.mem_cons_self .., hfirst⟩
    · exact (List.mem_cons.mp hc).imp id fun hc => ⟨u, List.mem_cons_of_mem w hu, hc⟩

theorem IsWord.count_space {w : Text} (h : w.IsWord) : w.count ' ' = 0 := by
  rw [List.count_eq_zero]
  intro hmem
  exact absurd (h.solid ' ' hmem) (by decide)

theorem count_spaced {ws : List Text} (h : ∀ w ∈ ws, w.IsWord) :
    (spaced ws).count ' ' = ws.length - 1 := by
  cases ws with
  | nil => rfl
  | cons w rest =>
    have hrest : (rest.flatMap (' ' :: ·)).count ' ' = rest.length := by
      rw [List.count_flatMap]
      have hone : ∀ u ∈ rest, (List.count ' ' ∘ fun u => ' ' :: u) u = 1 := by
        intro u hu
        rw [Function.comp_apply, List.count_cons_self,
          (h u (List.mem_cons_of_mem _ hu)).count_space]
      rw [List.map_congr_left hone]
      simp
    rw [spaced_cons, List.count_append, (h w (List.mem_cons_self ..)).count_space, hrest]
    simp

/-! ### Occurrences within words -/

/-- What has no space occurs before a space or behind it. -/
theorem append_eq_append_space {part before rest u t : Text} (hpart : part.IsWord)
    (h : before ++ part ++ rest = u ++ ' ' :: t) :
    (∃ x, u = before ++ part ++ x ∧ rest = x ++ ' ' :: t) ∨
      ∃ y, before = u ++ ' ' :: y ∧ t = y ++ part ++ rest := by
  have hspace : ' ' ∉ part := fun hmem => absurd (hpart.solid ' ' hmem) (by decide)
  rcases List.append_eq_append_iff.mp h with ⟨x, hu, hrest⟩ | ⟨x, hfront, hx⟩
  · exact .inl ⟨x, hu, hrest⟩
  cases x with
  | nil => exact .inl ⟨[], by simpa using hfront.symm, hx.symm⟩
  | cons c x =>
    obtain ⟨rfl, rfl⟩ := List.cons.inj hx
    rcases List.append_eq_append_iff.mp hfront with ⟨y, -, hpart'⟩ | ⟨y, hbefore, hy⟩
    · exact absurd (by simp [hpart']) hspace
    · cases y with
      | nil => exact absurd (by simp [show part = _ from hy.symm]) hspace
      | cons c y =>
        obtain ⟨rfl, rfl⟩ := List.cons.inj hy
        exact .inr ⟨y, hbefore, rfl⟩

theorem infix_append_space_iff {part u t : Text} (hpart : part.IsWord) :
    part <:+: u ++ ' ' :: t ↔ part <:+: u ∨ part <:+: t := by
  constructor
  · rintro ⟨before, rest, h⟩
    rcases append_eq_append_space hpart h with ⟨x, hu, -⟩ | ⟨y, -, ht⟩
    · exact .inl ⟨before, x, hu.symm⟩
    · exact .inr ⟨y, rest, ht.symm⟩
  · rintro (h | h)
    · exact h.trans (List.infix_append' [] u _)
    · exact h.trans ((List.suffix_cons ' ' t).isInfix.trans (List.suffix_append u _).isInfix)

/-- **What has no space occurs in words with spaces between only within a word.** -/
theorem infix_spaced_iff {part : Text} {ws : List Text} (hpart : part.IsWord) :
    part <:+: spaced ws ↔ ∃ w ∈ ws, part <:+: w := by
  induction ws with
  | nil =>
    show part <:+: [] ↔ _
    simp [hpart.ne_nil]
  | cons w rest ih =>
    rw [List.exists_mem_cons_iff, ← ih]
    cases rest with
    | nil =>
      have hnone : ¬ part <:+: spaced [] := by
        show ¬ part <:+: []
        simp [hpart.ne_nil]
      rw [spaced_singleton, or_iff_left hnone]
    | cons w' rest => rw [spaced_cons_cons, infix_append_space_iff hpart]

/-! ### Exchanging within words -/

/-- A first occurrence stays the first whatever follows. -/
theorem replaceFirst?_append {part t : Text} (h : part <:+: t) (new more : Text) :
    replaceFirst? part new (t ++ more) = (replaceFirst? part new t).map (· ++ more) := by
  obtain ⟨⟨before, rest⟩, hcut⟩ := Option.isSome_iff_exists.mp ((cut?_isSome_iff part t).mpr h)
  have ht := cut?_eq_some hcut
  have hmore : cut? part (t ++ more) = some (before, rest ++ more) := by
    rw [cut?_eq_some_iff, ht]
    refine ⟨by simp only [List.append_assoc], fun before' rest' heq => ?_⟩
    by_contra hlt
    -- An earlier occurrence would end before the end of `t`.
    have hlength : (before' ++ part).length ≤ t.length := by
      rw [ht]
      simp only [List.length_append] at hlt ⊢
      omega
    have hprefix : before' ++ part <+: t := by
      refine List.prefix_of_prefix_length_le ⟨rest', heq.symm⟩ ?_ hlength
      rw [← ht]
      exact List.prefix_append t more
    obtain ⟨rest'', hrest''⟩ := hprefix
    exact hlt ((cut?_eq_some_iff.mp hcut).2 before' rest'' hrest''.symm)
  rw [replaceFirst?, replaceFirst?, hcut, hmore]
  simp only [Option.map_some, List.append_assoc]

theorem replaceFirst?_append_space {part u : Text} (hpart : part.IsWord) (hu : ¬ part <:+: u)
    (new t : Text) :
    replaceFirst? part new (u ++ ' ' :: t) =
      (replaceFirst? part new t).map fun t => u ++ ' ' :: t := by
  rw [replaceFirst?, replaceFirst?]
  cases hcut : cut? part t with
  | none =>
    have hnone : cut? part (u ++ ' ' :: t) = none := by
      rw [cut?_eq_none_iff] at hcut ⊢
      rw [infix_append_space_iff hpart]
      exact not_or_intro hu hcut
    rw [hnone]
    rfl
  | some cut =>
    obtain ⟨before, rest⟩ := cut
    obtain ⟨ht, hfirst⟩ := cut?_eq_some_iff.mp hcut
    have hsome : cut? part (u ++ ' ' :: t) = some (u ++ ' ' :: before, rest) := by
      rw [cut?_eq_some_iff]
      refine ⟨by rw [ht]; simp, fun before' rest' heq => ?_⟩
      rcases append_eq_append_space hpart heq.symm with ⟨x, hx, -⟩ | ⟨y, rfl, hy⟩
      · exact absurd ⟨before', x, hx.symm⟩ hu
      · have := hfirst y rest' hy
        simp only [List.length_append, List.length_cons]
        omega
    rw [hsome]
    simp

/-- **Exchanging what has no space changes the first word that holds it**, and no other. -/
theorem replaceFirst?_spaced {part : Text} (hpart : part.IsWord) {before : List Text} {word : Text}
    (hbefore : ∀ u ∈ before, ¬ part <:+: u) (hword : part <:+: word) (after : List Text)
    (new : Text) :
    replaceFirst? part new (spaced (before ++ word :: after)) =
      (replaceFirst? part new word).map fun word => spaced (before ++ word :: after) := by
  induction before with
  | nil =>
    simp only [List.nil_append, spaced_cons]
    exact replaceFirst?_append hword new _
  | cons u before ih =>
    have hspaced (w : Text) : spaced (u :: before ++ w :: after) =
        u ++ ' ' :: spaced (before ++ w :: after) :=
      spaced_cons_of_ne_nil u (List.append_ne_nil_of_right_ne_nil _ (List.cons_ne_nil _ _))
    simp only [hspaced]
    rw [replaceFirst?_append_space hpart (hbefore u (List.mem_cons_self ..)),
      ih fun v hv => hbefore v (List.mem_cons_of_mem _ hv), Option.map_map]
    rfl

end TerseMarkup.Text
