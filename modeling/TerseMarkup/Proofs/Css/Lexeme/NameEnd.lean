import TerseMarkup.Proofs.Css.Lexeme.Alike

/-! Where names and strings end.

A name or a string that has been read up to its end reads the same before like texts
(`Alike.nameFrom_append`, `Alike.stringFrom_append`). What is delicate are escapes: up to six digits
and one space belong to them, so that an escape at the end of a name sees the next character. -/
namespace TerseMarkup.Css

section Alike

variable {r r' : Text}

/-! ### Escapes

An escape that ends inside a text does not see what is behind; one that ends with the text sees the
next character. -/

/-- The texts show the same at their heads, unless it is two quotes or nothing goes on there. -/
def SameHead (r r' : Text) : Prop :=
  ∀ p : Char → Bool, p '"' = p '\'' → (p '#' || p '{' || p '}') = false →
    r.head?.any p = r'.head?.any p

theorem Alike.sameHead (h : Alike r r') (hr : startsIdent r = false) : SameHead r r' := by
  intro p hp hstop
  cases h with
  | cons => rfl
  | stop hr hr' => rw [hr.any_head hstop, hr'.any_head hstop]
  | ident hr' => rw [hr'.1] at hr; cases hr
  | string r r' hq hq' =>
    rcases isQuote_iff.mp hq with rfl | rfl <;> rcases isQuote_iff.mp hq' with rfl | rfl <;>
      simp [hp]

theorem takeWhile_take_append {p : Char → Bool} (hp : p '"' = p '\'')
    (hstop : (p '#' || p '{' || p '}') = false) (m : Nat) (t : Text)
    (hlength : (((t ++ r).take m).takeWhile p).length ≤ t.length)
    (h : (((t ++ r).take m).takeWhile p).length < t.length ∨ SameHead r r') :
    ((t ++ r').take m).takeWhile p = ((t ++ r).take m).takeWhile p := by
  induction t generalizing m with
  | nil =>
    cases m with
    | zero => rfl
    | succ m =>
      have hnone : ((r.take (m + 1)).takeWhile p) = [] := by simpa using hlength
      rw [List.nil_append, List.nil_append, hnone]
      obtain h | h := h
      · exact absurd h (Nat.not_lt_zero _)
      · have hhead := h p hp hstop
        cases r' with
        | nil => rfl
        | cons c' r' =>
          cases r with
          | nil =>
            have hc' : p c' = false := by simpa using hhead.symm
            simp [hc']
          | cons c r =>
            have hc : p c = false := by simpa [List.takeWhile_cons] using hnone
            have hc' : p c' = false := by simpa [hc] using hhead.symm
            simp [hc']
  | cons c t ih =>
    cases m with
    | zero => rfl
    | succ m =>
      by_cases hc : p c = true
      · simp only [List.cons_append, List.take_succ_cons, List.takeWhile_cons_of_pos hc,
          List.length_cons, Nat.add_le_add_iff_right, Nat.add_lt_add_iff_right] at hlength h ⊢
        rw [ih m hlength h]
      · simp [hc]

theorem newlineLength_cons (c : Char) (r : Text) :
    newlineLength (c :: r) =
      if c = '\r' ∧ r.head? = some '\n' then 2 else if isNewline c then 1 else 0 := by
  by_cases h : c = '\r' ∧ r.head? = some '\n'
  · obtain ⟨rfl, hr⟩ := h
    obtain ⟨t, rfl⟩ := List.head?_eq_some_iff.mp hr
    rfl
  · rw [if_neg h, newlineLength.eq_2]
    rintro t rfl rfl
    exact h ⟨rfl, rfl⟩

theorem newlineLength_eq_zero : newlineLength r = 0 ↔ r.head?.any isNewline = false := by
  cases r with
  | nil => simp [newlineLength]
  | cons c r =>
    rw [newlineLength_cons]
    cases hc : isNewline c with
    | true => split <;> simp [hc]
    | false =>
      rw [if_neg (by rintro ⟨rfl, -⟩; cases hc)]
      simp [hc]

theorem SameHead.head?_eq_some (h : SameHead r r') {d : Char}
    (hquote : isQuote d = false) (hstop : isStop d = false) :
    r.head? = some d ↔ r'.head? = some d := by
  have hany := h (· == d) (by simp [isQuote] at hquote; simp [hquote, Ne.symm])
    (by simp [isStop] at hstop; simp [hstop, Ne.symm])
  cases r <;> cases r' <;> simp_all

theorem newlineLength_append (t : Text) (hlength : newlineLength (t ++ r) ≤ t.length)
    (h : newlineLength (t ++ r) < t.length ∨ SameHead r r') :
    newlineLength (t ++ r') = newlineLength (t ++ r) := by
  match t with
  | [] =>
    have hzero : newlineLength r = 0 := Nat.le_zero.mp hlength
    have hhead := (h.resolve_left (Nat.not_lt_zero _)) isNewline rfl rfl
    rw [newlineLength_eq_zero, hhead, ← newlineLength_eq_zero] at hzero
    exact hzero.trans (Nat.le_zero.mp hlength).symm
  | [c] =>
    have hsame : c = '\r' → (r.head? = some '\n' ↔ r'.head? = some '\n') := by
      rintro rfl
      obtain h | h := h
      · rw [List.singleton_append, newlineLength_cons] at h
        split at h <;> simp [isNewline] at h
      · exact h.head?_eq_some rfl rfl
    simp only [List.singleton_append, newlineLength_cons, and_congr_right hsame]
  | c :: d :: t => simp [newlineLength_cons]

theorem escapeEndLength_append (t : Text) (hlength : escapeEndLength (t ++ r) ≤ t.length)
    (h : escapeEndLength (t ++ r) < t.length ∨ SameHead r r') :
    escapeEndLength (t ++ r') = escapeEndLength (t ++ r) := by
  have hsame : (t ++ r).head?.any (fun c => c == ' ' || c == '\t') =
      (t ++ r').head?.any (fun c => c == ' ' || c == '\t') := by
    cases t with
    | nil => exact (h.resolve_left (Nat.not_lt_zero _)) _ rfl rfl
    | cons c t => rfl
  unfold escapeEndLength at *
  rw [← hsame]
  split
  · rfl
  · rw [if_neg ‹_›] at hlength h
    exact newlineLength_append t hlength h

theorem escape_pos (c : Char) (r : Text) : 1 ≤ (escape (c :: r)).2 := by
  by_cases hc : Text.isHexDigit c = true
  · simp [escape, hc]
    omega
  · simp [escape, hc]

theorem newlineLength_le (s : Text) : newlineLength s ≤ s.length := by
  match s with
  | [] => exact Nat.le_refl 0
  | [c] =>
    rw [newlineLength_cons]
    cases isNewline c <;> simp
  | c :: d :: s =>
    rw [newlineLength_cons]
    split
    · exact Nat.le_add_left 2 _
    · cases isNewline c <;> simp

theorem escapeEndLength_le (s : Text) : escapeEndLength s ≤ s.length := by
  unfold escapeEndLength
  split
  · cases s <;> simp_all
  · exact newlineLength_le s

theorem escape_le (s : Text) : (escape s).2 ≤ s.length := by
  cases s with
  | nil => exact Nat.le_refl 0
  | cons c r =>
    by_cases hc : Text.isHexDigit c = true
    · rw [escape, if_pos hc]
      have hdigits : (((c :: r).take 6).takeWhile Text.isHexDigit).length ≤ (c :: r).length :=
        (List.takeWhile_prefix _).length_le.trans (List.length_take_le' 6 (c :: r))
      have hend := escapeEndLength_le
        ((c :: r).drop (((c :: r).take 6).takeWhile Text.isHexDigit).length)
      rw [List.length_drop] at hend
      simp only
      omega
    · simp [escape, hc]

theorem escape_append (t : Text) (hlength : (escape (t ++ r)).2 ≤ t.length)
    (h : (escape (t ++ r)).2 < t.length ∨ SameHead r r') (hnil : r = [] → r' = []) :
    escape (t ++ r') = escape (t ++ r) := by
  cases t with
  | nil =>
    cases r with
    | nil => rw [hnil rfl]
    | cons c r => exact absurd hlength (Nat.not_le_of_lt (escape_pos c r))
  | cons c t =>
    by_cases hc : Text.isHexDigit c = true
    · have hescape (s : Text) : escape (c :: t ++ s) =
          let digits := ((c :: t ++ s).take 6).takeWhile Text.isHexDigit
          (Text.charOfNumber (Text.number 16 digits),
            digits.length + escapeEndLength ((c :: t ++ s).drop digits.length)) := by
        rw [List.cons_append, escape, if_pos hc]
      rw [hescape] at hlength h ⊢
      rw [hescape]
      generalize hdigits : ((c :: t ++ r).take 6).takeWhile Text.isHexDigit = digits at *
      have hle : digits.length ≤ (c :: t).length := by simp only at hlength; omega
      simp only [List.drop_append_of_le_length hle] at hlength h ⊢
      have hsame : ((c :: t ++ r').take 6).takeWhile Text.isHexDigit = digits := by
        rw [takeWhile_take_append rfl rfl 6 (c :: t) (by rwa [hdigits]), hdigits]
        exact h.imp (fun h => by rw [hdigits]; omega) id
      have hend : escapeEndLength ((c :: t).drop digits.length ++ r') =
          escapeEndLength ((c :: t).drop digits.length ++ r) := by
        refine escapeEndLength_append _ ?_ (h.imp (fun h => ?_) id) <;>
          rw [List.length_drop] <;> omega
      rw [hsame, List.drop_append_of_le_length hle, hend]
    · simp [escape, hc]

/-! ### Names and strings -/

theorem le_nameFrom (skip : Nat) (s : Text) : min skip s.length ≤ (nameFrom skip s).2 := by
  induction s generalizing skip with
  | nil => simp
  | cons c r ih =>
    cases skip with
    | zero => simp
    | succ skip =>
      have := ih skip
      simp only [nameFrom, List.length_cons]
      omega

/-- Where a name has been read up to the end of `t`, none goes on behind it. -/
theorem nameFrom_stop {t : Text} {skip : Nat} (h : (nameFrom skip (t ++ r)).2 = t.length) :
    (nameFrom 0 r).2 = 0 := by
  induction t generalizing skip with
  | nil =>
    cases skip with
    | zero => exact h
    | succ skip => cases r <;> simp [nameFrom] at h ⊢
  | cons c t ih =>
    rw [List.cons_append] at h
    cases skip with
    | succ skip => exact ih (by simpa [nameFrom] using h)
    | zero =>
      rw [nameFrom] at h
      split at h
      · split at h
        · cases h
        · exact ih (by simpa using h)
      · split at h
        · exact ih (by simpa using h)
        · cases h

theorem Stops.nameFrom_eq (h : Stops r) : nameFrom 0 r = ([], 0) := by
  cases r with
  | nil => rfl
  | cons c r =>
    have hc : (c == '\\' || isNameChar c) = false :=
      h.any_head (p := fun c => c == '\\' || isNameChar c) rfl
    simp only [Bool.or_eq_false_iff, beq_eq_false_iff_ne] at hc
    simp [nameFrom, hc]

theorem Alike.nameFrom_zero (h : Alike r r') (hr : (nameFrom 0 r).2 = 0) :
    nameFrom 0 r' = nameFrom 0 r := by
  cases h with
  | stop hstop hstop' => rw [hstop.nameFrom_eq, hstop'.nameFrom_eq]
  | cons c h =>
    rw [nameFrom] at hr ⊢
    rw [nameFrom, ← h.startsWithNewline_eq]
    by_cases hc : c = '\\'
    · rw [if_pos hc] at hr ⊢
      rw [if_pos hc]
      cases hnewline : startsWithNewline _ <;> simp_all
    · rw [if_neg hc] at hr ⊢
      rw [if_neg hc]
      cases hname : isNameChar c <;> simp_all
  | ident hr' =>
    obtain ⟨c, t, rfl, -⟩ := hr'.head
    exact absurd hr (Nat.ne_of_gt (nameFrom_pos t hr'.1))
  | string r r' hq hq' =>
    rcases isQuote_iff.mp hq with rfl | rfl <;> rcases isQuote_iff.mp hq' with rfl | rfl <;> rfl

/-- **A name that has been read up to its end** reads the same before like texts. -/
theorem Alike.nameFrom_append (h : Alike r r') (hnil : r = [] → r' = []) {t : Text} {skip : Nat}
    (hlength : (nameFrom skip (t ++ r)).2 = t.length) :
    nameFrom skip (t ++ r') = nameFrom skip (t ++ r) := by
  have hstop := nameFrom_stop hlength
  have hhead : SameHead r r' := h.sameHead (by
    rw [Bool.eq_false_iff]
    intro hr
    cases r with
    | nil => cases hr
    | cons c r => exact absurd hstop (Nat.ne_of_gt (nameFrom_pos r hr)))
  induction t generalizing skip with
  | nil =>
    cases skip with
    | zero => exact h.nameFrom_zero hstop
    | succ skip =>
      have hr : r = [] := by cases r <;> simp [nameFrom] at hlength ⊢
      rw [hr, hnil hr]
  | cons c t ih =>
    rw [List.cons_append] at hlength ⊢
    cases skip with
    | succ skip =>
      rw [List.cons_append, nameFrom, nameFrom, ih (by simpa [nameFrom] using hlength)]
    | zero =>
      rw [nameFrom] at hlength
      rw [List.cons_append, nameFrom, nameFrom, ← (h.append t).startsWithNewline_eq]
      by_cases hc : c = '\\'
      · simp only [if_pos hc] at hlength ⊢
        split
        · rfl
        · rw [if_neg ‹_›] at hlength
          have hskip : (nameFrom (escape (t ++ r)).2 (t ++ r)).2 = t.length := by
            simpa using hlength
          have hescape : escape (t ++ r') = escape (t ++ r) := by
            refine escape_append t ?_ (.inr hhead) hnil
            have hle := le_nameFrom (escape (t ++ r)).2 (t ++ r)
            rwa [Nat.min_eq_left (escape_le _), hskip] at hle
          rw [hescape, ih hskip]
      · simp only [if_neg hc] at hlength ⊢
        split
        · rw [if_pos ‹_›] at hlength
          rw [ih (by simpa using hlength)]
        · rfl

theorem le_stringFrom (quote : Char) (skip : Nat) (s : Text) :
    min skip s.length ≤ (stringFrom quote skip s).2 := by
  induction s generalizing skip with
  | nil => simp
  | cons c r ih =>
    cases skip with
    | zero => simp
    | succ skip =>
      have := ih skip
      simp only [stringFrom, List.length_cons]
      omega

theorem stringFrom_length (quote : Char) (t r : Text) :
    (stringFrom quote t.length (t ++ r)).2 = t.length + (stringFrom quote 0 r).2 := by
  induction t with
  | nil => simp
  | cons c t ih =>
    simp only [List.length_cons, List.cons_append, stringFrom, ih]
    omega

/-- A string that is not closed stops at a line break or at the end. -/
theorem stringFrom_stop {quote : Char} (h : (stringFrom quote 0 r).2 = 0) :
    r = [] ∨ ∃ c t, r = c :: t ∧ c ≠ quote ∧ isNewline c = true := by
  cases r with
  | nil => exact .inl rfl
  | cons c r =>
    refine .inr ⟨c, r, rfl, ?_⟩
    rw [stringFrom] at h
    split at h
    · cases h
    · split at h
      · exact ⟨‹_›, ‹_›⟩
      · split at h
        · split at h <;> cases h
        · cases h

theorem startsIdent_of_stringFrom_stop {quote : Char} (h : (stringFrom quote 0 r).2 = 0) :
    startsIdent r = false := by
  obtain rfl | ⟨c, t, rfl, -, hc⟩ := stringFrom_stop h
  · rfl
  · rw [Bool.eq_false_iff]
    intro hident
    rw [not_isNewline_of_isIdentHead (isIdentHead_of_startsIdent hident)] at hc
    cases hc

/-- What stands behind a backslash in a string belongs to the string. -/
theorem stringFrom_escaped (hr : r ≠ []) {quote : Char} :
    1 < (if r.isEmpty || startsWithNewline r then
        let (value, n) := stringFrom quote (newlineLength r) r
        (value, n + 1)
      else
        let (char, k) := escape r
        let (value, n) := stringFrom quote k r
        (value.map (char :: ·), n + 1)).2 := by
  obtain ⟨c, s, rfl⟩ := List.exists_cons_of_ne_nil hr
  have htaken {k : Nat} (hk : k ≠ 0) : 1 ≤ (stringFrom quote k (c :: s)).2 :=
    (le_min (Nat.pos_of_ne_zero hk) (Nat.le_add_left 1 _)).trans (le_stringFrom quote k (c :: s))
  split
  · next hnewline =>
    have hk : newlineLength (c :: s) ≠ 0 := by
      rw [Ne, newlineLength_eq_zero, Bool.not_eq_false]
      exact hnewline
    exact Nat.succ_lt_succ (htaken hk)
  · exact Nat.succ_lt_succ (htaken (Nat.ne_of_gt (escape_pos c s)))

/-- Inside a string that ends with `t`, what is passed over does not see what is behind. -/
theorem Alike.passed (h : Alike r r') {quote : Char} {t : Text} {k : Nat} (hk : k ≤ (t ++ r).length)
    (hlength : (stringFrom quote k (t ++ r)).2 = t.length) :
    k ≤ t.length ∧ (k < t.length ∨ SameHead r r') := by
  have hle : k ≤ t.length := by
    have := le_stringFrom quote k (t ++ r)
    rwa [Nat.min_eq_left hk, hlength] at this
  refine ⟨hle, (Nat.lt_or_eq_of_le hle).imp id fun heq => ?_⟩
  rw [heq, stringFrom_length] at hlength
  have hstop : (stringFrom quote 0 r).2 = 0 := by omega
  exact h.sameHead (startsIdent_of_stringFrom_stop hstop)

theorem Alike.stringFrom_zero (h : Alike r r') (hnil : r = [] → r' = []) {quote : Char}
    (hr : (stringFrom quote 0 r).2 = 0) : stringFrom quote 0 r' = stringFrom quote 0 r := by
  obtain rfl | ⟨c, t, rfl, hquote, hc⟩ := stringFrom_stop hr
  · rw [hnil rfl]
  · cases h with
    | cons c h => simp [stringFrom, hquote, hc]
    | stop hstop =>
      have hnewline : isNewline c = false := hstop.any_head (p := isNewline) rfl
      rw [hnewline] at hc
      cases hc
    | ident hr' =>
      rw [not_isNewline_of_isIdentHead (isIdentHead_of_startsIdent hr'.1)] at hc
      cases hc
    | string _ _ hq => rcases isQuote_iff.mp hq with rfl | rfl <;> cases hc

/-- **A string that has been read up to its end** reads the same before like texts. -/
theorem Alike.stringFrom_append (h : Alike r r') (hnil : r = [] → r' = []) {quote : Char} {t : Text} {skip : Nat}
    (hlength : (stringFrom quote skip (t ++ r)).2 = t.length) :
    stringFrom quote skip (t ++ r') = stringFrom quote skip (t ++ r) := by
  induction t generalizing skip with
  | nil =>
    cases skip with
    | zero => exact h.stringFrom_zero hnil hlength
    | succ skip =>
      have hr : r = [] := by cases r <;> simp [stringFrom] at hlength ⊢
      rw [hr, hnil hr]
  | cons c t ih =>
    rw [List.cons_append] at hlength ⊢
    cases skip with
    | succ skip =>
      rw [List.cons_append, stringFrom, stringFrom, ih (by simpa [stringFrom] using hlength)]
    | zero =>
      rw [stringFrom] at hlength
      rw [List.cons_append, stringFrom, stringFrom, ← (h.append t).startsWithNewline_eq]
      split
      · rfl
      · rw [if_neg ‹_›] at hlength
        split
        · rfl
        · rw [if_neg ‹_›] at hlength
          split
          · rw [if_pos ‹_›] at hlength
            have hempty : (t ++ r').isEmpty = (t ++ r).isEmpty := by
              cases t with
              | cons d t => rfl
              | nil =>
                by_cases hr : r = []
                · rw [hr, hnil hr]
                · exact absurd hlength (Nat.ne_of_gt (stringFrom_escaped hr))
            rw [hempty]
            split
            · rw [if_pos ‹_›] at hlength
              have hskip : (stringFrom quote (newlineLength (t ++ r)) (t ++ r)).2 = t.length := by
                simpa using hlength
              obtain ⟨hle, hsame⟩ := h.passed (newlineLength_le _) hskip
              rw [newlineLength_append t hle hsame, ih hskip]
            · rw [if_neg ‹_›] at hlength
              have hskip : (stringFrom quote (escape (t ++ r)).2 (t ++ r)).2 = t.length := by
                simpa using hlength
              obtain ⟨hle, hsame⟩ := h.passed (escape_le _) hskip
              rw [escape_append t hle hsame hnil]
              simp only [ih hskip]
          · rw [if_neg ‹_›] at hlength
            rw [ih (by simpa using hlength)]

end Alike

end TerseMarkup.Css
