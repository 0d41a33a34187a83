import TerseMarkup.Proofs.Css.Lexeme.NameEnd
import TerseMarkup.Proofs.Text.Occurrence

/-! Where addresses and comments end.

An address ends with its parenthesis and a comment with its mark unless the text ends first, so they
see nothing of what is behind them (`url?_append`, `commentLength_append`). -/
namespace TerseMarkup.Css

section Alike

variable {r r' : Text}

/-! ### Addresses -/

theorem badUrlLength_cons (c d : Char) (s : Text) :
    badUrlLength (c :: d :: s) =
      if c = ')' then 1
      else if c = '\\' ∧ (d = ')' ∨ d = '\\') then badUrlLength s + 2
      else badUrlLength (d :: s) + 1 := by
  by_cases hc : c = ')'
  · subst hc
    simp [badUrlLength]
  · rw [if_neg hc]
    by_cases hescape : c = '\\' ∧ (d = ')' ∨ d = '\\')
    · rw [if_pos hescape]
      obtain ⟨rfl, rfl | rfl⟩ := hescape <;> simp [badUrlLength]
    · rw [if_neg hescape]
      rw [badUrlLength]
      · simpa using hc
      · rintro t rfl h
        exact hescape ⟨rfl, .inl (List.cons.inj h).1⟩
      · rintro t rfl h
        exact hescape ⟨rfl, .inr (List.cons.inj h).1⟩

theorem badUrlLength_pos (c : Char) (s : Text) : 1 ≤ badUrlLength (c :: s) := by
  cases s with
  | nil => unfold badUrlLength; split <;> simp_all
  | cons d s =>
    rw [badUrlLength_cons]
    split
    · exact Nat.le_refl 1
    · split <;> omega

theorem badUrlLength_append (hr : r ≠ []) (r' : Text) :
    (t : Text) → badUrlLength (t ++ r) = t.length → badUrlLength (t ++ r') = t.length
  | [], h => by
    obtain ⟨c, s, rfl⟩ := List.exists_cons_of_ne_nil hr
    exact absurd h (Nat.ne_of_gt (badUrlLength_pos c s))
  | [c], h => by
    obtain ⟨d, s, rfl⟩ := List.exists_cons_of_ne_nil hr
    have hc : c = ')' := by
      by_contra hc
      rw [List.singleton_append, badUrlLength_cons, if_neg hc] at h
      have := badUrlLength_pos d s
      split at h <;> simp at h
      omega
    subst hc
    simp [badUrlLength]
  | c :: d :: t, h => by
    rw [List.cons_append, List.cons_append, badUrlLength_cons] at h ⊢
    split
    · rwa [if_pos ‹_›] at h
    · rw [if_neg ‹_›] at h
      split
      · rw [if_pos ‹_›] at h
        have := badUrlLength_append hr r' t (by simpa using h)
        simp [this]
      · rw [if_neg ‹_›] at h
        have := badUrlLength_append hr r' (d :: t) (by simpa using h)
        rw [List.cons_append] at this
        simp [this]

theorem urlEnd_pos (c : Char) (s : Text) : 1 ≤ (urlEnd (c :: s)).2 := by
  unfold urlEnd
  split
  · simp_all
  · exact Nat.le_refl 1
  · split <;> exact Nat.le_add_left 1 _

theorem urlEnd_append (hr : r ≠ []) (r' : Text) {t : Text} (h : (urlEnd (t ++ r)).2 = t.length) :
    urlEnd (t ++ r') = urlEnd (t ++ r) := by
  induction t with
  | nil =>
    obtain ⟨c, s, rfl⟩ := List.exists_cons_of_ne_nil hr
    exact absurd h (Nat.ne_of_gt (urlEnd_pos c s))
  | cons c t ih =>
    rw [List.cons_append] at h ⊢
    by_cases hc : c = ')'
    · subst hc
      rfl
    · by_cases hspace : Text.isSpace c = true
      · simp only [urlEnd, hspace, if_true, List.length_cons, Nat.add_right_cancel_iff] at h ⊢
        simp [urlEnd, hspace, ih h]
      · simp [urlEnd, hspace] at h
        simp [urlEnd, hspace, badUrlLength_append hr r' t h, h]

theorem urlBody_pos (c : Char) (skip : Nat) (s : Text) : 1 ≤ (urlBody skip (c :: s)).2 := by
  cases skip with
  | succ skip => simp [urlBody]
  | zero =>
    rw [urlBody]
    split
    · exact urlEnd_pos c s
    · split
      · exact Nat.le_refl 1
      · split
        · exact Nat.le_add_left 1 _
        · split
          · split <;> exact Nat.le_add_left 1 _
          · exact Nat.le_add_left 1 _

theorem le_urlBody (skip : Nat) (s : Text) : min skip s.length ≤ (urlBody skip s).2 := by
  induction s generalizing skip with
  | nil => simp
  | cons c r ih =>
    cases skip with
    | zero => simp
    | succ skip =>
      have := ih skip
      simp only [urlBody, List.length_cons]
      omega

theorem urlBody_length (t r : Text) :
    (urlBody t.length (t ++ r)).2 = t.length + (urlBody 0 r).2 := by
  induction t with
  | nil => simp
  | cons c t ih =>
    simp only [List.length_cons, List.cons_append, urlBody, ih]
    omega

theorem urlBody_append (hr : r ≠ []) (r' : Text) {t : Text} {skip : Nat}
    (h : (urlBody skip (t ++ r)).2 = t.length) :
    urlBody skip (t ++ r') = urlBody skip (t ++ r) := by
  induction t generalizing skip with
  | nil =>
    obtain ⟨c, s, rfl⟩ := List.exists_cons_of_ne_nil hr
    exact absurd h (Nat.ne_of_gt (urlBody_pos c skip s))
  | cons c t ih =>
    rw [List.cons_append] at h ⊢
    cases skip with
    | succ skip => rw [List.cons_append, urlBody, urlBody, ih (by simpa [urlBody] using h)]
    | zero =>
      rw [urlBody] at h
      rw [List.cons_append, urlBody, urlBody]
      split
      · rw [if_pos ‹_›] at h
        exact urlEnd_append hr r' (t := c :: t) h
      · rw [if_neg ‹_›] at h
        split
        · rfl
        · rw [if_neg ‹_›] at h
          split
          · rw [if_pos ‹_›] at h
            have hbad : badUrlLength (t ++ r) = t.length := by simpa using h
            rw [badUrlLength_append hr r' t hbad, hbad]
          · rw [if_neg ‹_›] at h
            split
            · rw [if_pos ‹_›] at h
              -- What follows the backslash belongs to the address, so the line break would too.
              have hnewline : startsWithNewline (t ++ r') = startsWithNewline (t ++ r) := by
                cases t with
                | nil =>
                  obtain ⟨d, s, rfl⟩ := List.exists_cons_of_ne_nil hr
                  have := badUrlLength_pos d s
                  have := urlBody_pos d (escape (d :: s)).2 s
                  split at h <;> simp at h <;> omega
                | cons d t => rfl
              rw [hnewline]
              split
              · rw [if_pos ‹_›] at h
                have hbad : badUrlLength (t ++ r) = t.length := by simpa using h
                rw [badUrlLength_append hr r' t hbad, hbad]
              · rw [if_neg ‹_›] at h
                have hskip : (urlBody (escape (t ++ r)).2 (t ++ r)).2 = t.length := by
                  simpa using h
                have hlt : (escape (t ++ r)).2 < t.length := by
                  have hle := le_urlBody (escape (t ++ r)).2 (t ++ r)
                  rw [Nat.min_eq_left (escape_le _), hskip] at hle
                  refine Nat.lt_of_le_of_ne hle fun heq => ?_
                  rw [heq, urlBody_length] at hskip
                  obtain ⟨d, s, rfl⟩ := List.exists_cons_of_ne_nil hr
                  have := urlBody_pos d 0 s
                  omega
                rw [escape_append t hlt.le (.inl hlt) fun hnil => absurd hnil hr]
                simp only [ih hskip]
            · rw [if_neg ‹_›] at h
              rw [ih (by simpa using h)]

theorem url?_space {c : Char} (hc : Text.isSpace c = true) (s : Text) :
    url? (c :: s) = (url? s).map fun (good, n) => (good, n + 1) := by
  rw [url?, url?]
  simp only [List.takeWhile_cons_of_pos hc, List.length_cons, List.drop_succ_cons]
  split <;> simp [*]
  omega

theorem url?_of_ne {c : Char} (hspace : Text.isSpace c = false) (s : Text) :
    url? (c :: s) = if isQuote c then none else some (urlBody 0 (c :: s)) := by
  rw [url?]
  simp only [List.takeWhile_cons_of_neg (by simp [hspace] : ¬ Text.isSpace c = true),
    List.length_nil, List.drop_zero, Nat.zero_add]
  split
  · simp_all [isQuote]
  · simp_all [isQuote]
  · next rest hdouble hsingle =>
    rw [if_neg]
    intro hquote
    rcases isQuote_iff.mp hquote with rfl | rfl
    · exact hdouble s rfl
    · exact hsingle s rfl

theorem url?_pos (c : Char) (s : Text) {good : Bool} {n : Nat}
    (h : url? (c :: s) = some (good, n)) : 1 ≤ n := by
  cases hspace : Text.isSpace c with
  | true =>
    rw [url?_space hspace, Option.map_eq_some_iff] at h
    obtain ⟨⟨good', n'⟩, -, heq⟩ := h
    have hn : n' + 1 = n := congrArg Prod.snd heq
    omega
  | false =>
    rw [url?_of_ne hspace] at h
    split at h
    · cases h
    · have hn : (urlBody 0 (c :: s)).2 = n := congrArg Prod.snd (Option.some.inj h)
      exact hn ▸ urlBody_pos c 0 s

theorem url?_append (hr : r ≠ []) (r' : Text) {t : Text} {good : Bool}
    (h : url? (t ++ r) = some (good, t.length)) : url? (t ++ r') = some (good, t.length) := by
  induction t with
  | nil =>
    obtain ⟨c, s, rfl⟩ := List.exists_cons_of_ne_nil hr
    exact absurd (url?_pos c s h) (Nat.not_succ_le_zero 0)
  | cons c t ih =>
    rw [List.cons_append] at h ⊢
    cases hspace : Text.isSpace c with
    | true =>
      rw [url?_space hspace, Option.map_eq_some_iff] at h
      obtain ⟨⟨good', n⟩, hurl, heq⟩ := h
      obtain ⟨rfl, hn⟩ := Prod.mk.inj heq
      obtain rfl : n = t.length := Nat.succ.inj hn
      rw [url?_space hspace, ih hurl]
      rfl
    | false =>
      rw [url?_of_ne hspace] at h ⊢
      split
      · rw [if_pos ‹_›] at h
        cases h
      · rw [if_neg ‹_›] at h
        have hbody : urlBody 0 (c :: (t ++ r)) = (good, t.length + 1) := Option.some.inj h
        exact congrArg some ((urlBody_append hr r' (t := c :: t)
          (congrArg Prod.snd hbody)).trans hbody)

theorem Alike.url?_eq_none (h : Alike r r') (hr : url? r = none) : url? r' = none := by
  induction h with
  | @stop r r' hstop =>
    cases r with
    | nil => cases hr
    | cons c r =>
      have hspace : Text.isSpace c = false := hstop.any_head (p := Text.isSpace) rfl
      have hquote : isQuote c = false := hstop.any_head (p := isQuote) rfl
      rw [url?_of_ne hspace, hquote] at hr
      cases hr
  | cons c h ih =>
    cases hspace : Text.isSpace c with
    | true =>
      rw [url?_space hspace, Option.map_eq_none_iff] at hr ⊢
      exact ih hr
    | false =>
      rw [url?_of_ne hspace] at hr ⊢
      split
      · rfl
      · rw [if_neg ‹_›] at hr
        cases hr
  | ident hr' =>
    obtain ⟨c, t, rfl, hc⟩ := hr'.head
    rw [url?_of_ne (not_isSpace_of_isIdentHead hc), if_neg] at hr
    · cases hr
    · intro hquote
      rcases isQuote_iff.mp hquote with rfl | rfl <;> exact absurd hc (by decide)
  | string r r' hq hq' =>
    rcases isQuote_iff.mp hq' with rfl | rfl <;> rfl

/-! ### Comments -/

theorem commentLength_cons (c : Char) (s : Text) :
    Lexeme.commentLength (c :: s) =
      if c = '*' ∧ s.head? = some '/' then 2 else Lexeme.commentLength s + 1 := by
  rw [Lexeme.commentLength, Text.cut?]
  by_cases h : c = '*' ∧ s.head? = some '/'
  · obtain ⟨rfl, hs⟩ := h
    obtain ⟨s, rfl⟩ := List.head?_eq_some_iff.mp hs
    rfl
  · have hafter : Text.after? "*/".toList (c :: s) = none := by
      cases hrest : Text.after? "*/".toList (c :: s) with
      | none => rfl
      | some rest =>
        have heq : c :: s = '*' :: '/' :: rest := (Text.after?_eq_some_iff _ _ _).mp hrest
        obtain ⟨rfl, rfl⟩ := List.cons.inj heq
        exact absurd ⟨rfl, rfl⟩ h
    rw [hafter, if_neg h, Lexeme.commentLength]
    cases Text.cut? "*/".toList s with
    | none => rfl
    | some cut => exact Nat.add_right_comm _ 1 2

theorem commentLength_pos (c : Char) (s : Text) : 1 ≤ Lexeme.commentLength (c :: s) := by
  rw [commentLength_cons]
  split <;> omega

theorem commentLength_append (hr : r ≠ []) (r' : Text) {t : Text}
    (h : Lexeme.commentLength (t ++ r) = t.length) : Lexeme.commentLength (t ++ r') = t.length := by
  induction t with
  | nil =>
    obtain ⟨c, s, rfl⟩ := List.exists_cons_of_ne_nil hr
    exact absurd h (Nat.ne_of_gt (commentLength_pos c s))
  | cons c t ih =>
    rw [List.cons_append, commentLength_cons] at h ⊢
    cases t with
    | nil =>
      obtain ⟨d, s, rfl⟩ := List.exists_cons_of_ne_nil hr
      have := commentLength_pos d s
      split at h <;> simp at h
      omega
    | cons d t =>
      split
      · rwa [if_pos ‹_›] at h
      · rw [if_neg ‹_›] at h
        rw [ih (by simpa using h)]
        rfl

end Alike

end TerseMarkup.Css
