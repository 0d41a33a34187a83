import TerseMarkup.Proofs.Css.Lexeme.NumberEnd
import TerseMarkup.Proofs.Css.Lexeme.UrlEnd

/-! What a lexeme sees of the text behind it.

A lexeme reads the same before like texts, whatever its token is (`Alike.read_append`). The one
exception is the mark `<!--`: an identifier behind `<!` may complete it. A lexeme that the end of the
text has ended may go on where the text does. -/
namespace TerseMarkup.Css

section Alike

variable {r r' : Text}

theorem readIdentLike_eq (s : Text) :
    Lexeme.readIdentLike s =
      if (s.drop (name s).2).head? = some '(' then
        if (name s).1.sameIgnoringCase "url".toList then
          match url? (s.drop ((name s).2 + 1)) with
          | some (good, k) => (if good then .url else .badUrl, (name s).2 + 1 + k)
          | none => (.function (name s).1, (name s).2 + 1)
        else (.function (name s).1, (name s).2 + 1)
      else (.ident (name s).1, (name s).2) := by
  unfold Lexeme.readIdentLike
  generalize name s = p
  obtain ⟨value, n⟩ := p
  simp only [← List.drop_drop]
  cases s.drop n with
  | nil => rfl
  | cons d rest =>
    by_cases hd : d = '('
    · subst hd
      exact (if_pos rfl).symm
    · simp [hd]

/-- **An identifier, a function or an address that has been read up to its end** reads the same
before like texts. -/
theorem Alike.readIdentLike_append (h : Alike r r') (hnil : r = [] → r' = []) {t : Text}
    (hlength : (Lexeme.readIdentLike (t ++ r)).2 = t.length) :
    Lexeme.readIdentLike (t ++ r') = Lexeme.readIdentLike (t ++ r) := by
  rw [readIdentLike_eq] at hlength
  rw [readIdentLike_eq, readIdentLike_eq]
  have hle : (name (t ++ r)).2 ≤ t.length := by
    split at hlength
    · split at hlength
      · split at hlength <;> simp only at hlength <;> omega
      · simp only at hlength; omega
    · exact Nat.le_of_eq hlength
  have hname : name (t ++ r') = name (t ++ r) := by
    obtain ⟨t₁, t₂, rfl, ht₁⟩ : ∃ t₁ t₂, t = t₁ ++ t₂ ∧ t₁.length = (name (t ++ r)).2 :=
      ⟨_, _, (List.take_append_drop _ t).symm, List.length_take_of_le hle⟩
    rw [List.append_assoc] at ht₁ ⊢
    rw [List.append_assoc]
    exact (h.append t₂).nameFrom_append (fun hr => by simp_all) ht₁.symm
  rw [hname]
  have hparen := (h.drop_append hle).head?_eq_some (d := '(') rfl rfl rfl
  simp only [hparen] at hlength ⊢
  split
  · rw [if_pos ‹_›] at hlength
    split
    · rw [if_pos ‹_›] at hlength
      generalize (name (t ++ r)).2 = n at *
      have hn : n + 1 ≤ t.length := by split at hlength <;> simp only at hlength <;> omega
      have hrest := h.drop_append hn
      rw [List.drop_append_of_le_length hn] at hlength hrest ⊢
      rw [List.drop_append_of_le_length hn] at hrest ⊢
      cases hurl : url? (t.drop (n + 1) ++ r) with
      | none => rw [hrest.url?_eq_none hurl]
      | some address =>
        obtain ⟨good, k⟩ := address
        rw [hurl] at hlength
        obtain rfl : k = (t.drop (n + 1)).length := by
          rw [List.length_drop]
          exact Nat.eq_sub_of_add_eq' hlength
        by_cases hr : r = []
        · subst hr
          rw [hnil rfl, hurl]
        · rw [url?_append hr r' hurl]
    · rfl
  · rfl

theorem Alike.readString_append (h : Alike r r') (hnil : r = [] → r' = []) {quote : Char}
    {t : Text} (hlength : (Lexeme.readString quote (t ++ r)).2 = t.length + 1) :
    Lexeme.readString quote (t ++ r') = Lexeme.readString quote (t ++ r) := by
  have hstring : (stringFrom quote 0 (t ++ r)).2 = t.length := by
    unfold Lexeme.readString at hlength
    split at hlength <;> simp_all
  rw [Lexeme.readString, Lexeme.readString, h.stringFrom_append hnil hstring]

theorem Alike.readHash_append (h : Alike r r') (hnil : r = [] → r' = []) {t : Text}
    (hlength : (Lexeme.readHash (t ++ r)).2 = t.length + 1) :
    Lexeme.readHash (t ++ r') = Lexeme.readHash (t ++ r) := by
  have ht := h.append t
  unfold Lexeme.readHash at hlength ⊢
  rw [← ht.startsIdent_eq, ← ht.startsWithDigit_eq]
  split
  · rw [if_pos ‹_›] at hlength
    rw [name, name, h.nameFrom_append hnil (Nat.succ.inj hlength)]
  · rw [if_neg ‹_›] at hlength
    have hhyphen : (t ++ r').head? = some '-' ↔ (t ++ r).head? = some '-' :=
      ((ht.sameHead (Bool.eq_false_iff.mpr ‹_›)).head?_eq_some rfl rfl).symm
    simp only [hhyphen]
    split
    · rw [if_pos ‹_›] at hlength
      rw [name, name, h.nameFrom_append hnil (Nat.succ.inj hlength)]
    · rfl

theorem Alike.readAt_append (h : Alike r r') (hnil : r = [] → r' = []) {t : Text}
    (hlength : (Lexeme.readAt (t ++ r)).2 = t.length + 1) :
    Lexeme.readAt (t ++ r') = Lexeme.readAt (t ++ r) := by
  unfold Lexeme.readAt at hlength ⊢
  rw [← (h.append t).startsIdent_eq]
  split
  · rw [if_pos ‹_›] at hlength
    rw [name, name, h.nameFrom_append hnil (Nat.succ.inj hlength)]
  · rfl

theorem Alike.takeWhile_isSpace (h : Alike r r') {t : Text}
    (hlength : ((t ++ r).takeWhile Text.isSpace).length = t.length) :
    ((t ++ r').takeWhile Text.isSpace).length = t.length := by
  induction t with
  | nil =>
    have hhead := h.any_head (fun _ => not_isSpace_of_isIdentHead) rfl rfl
    cases r <;> cases r' <;> simp_all [List.takeWhile_cons]
  | cons c t ih =>
    cases hc : Text.isSpace c with
    | true =>
      simp only [List.cons_append, List.takeWhile_cons_of_pos hc, List.length_cons] at hlength ⊢
      rw [ih (Nat.succ.inj hlength)]
    | false => simp [hc] at hlength

private theorem ite_eq_of_length {p : Prop} [Decidable p] {a a' b b' : Token × Nat} {n : Nat}
    (h : (if p then a else b).2 = n) (ha : p → a.2 = n → a' = a) (hb : ¬ p → b.2 = n → b' = b) :
    (if p then a' else b') = if p then a else b := by
  by_cases hp : p
  · rw [if_pos hp] at h
    rw [if_pos hp, if_pos hp, ha hp h]
  · rw [if_neg hp] at h
    rw [if_neg hp, if_neg hp, hb hp h]

/-- The mark `<!--` is read as one lexeme. -/
theorem isPrefixOf_open_append {c : Char} {t : Text}
    (hlength : (Lexeme.read c (t ++ r)).2 = t.length + 1)
    (hmark : "<!--".toList.isPrefixOf (c :: (t ++ r)) = true) (r' : Text) :
    "<!--".toList.isPrefixOf (c :: (t ++ r')) = true := by
  obtain ⟨s, hs⟩ := List.isPrefixOf_iff_prefix.mp hmark
  obtain ⟨rfl, hrest⟩ := List.cons.inj hs
  rw [← hrest] at hlength
  have ht : t.length = 3 := (Nat.succ.inj hlength).symm
  have hrest : "!--".toList ++ s = t ++ r := hrest
  obtain ⟨rfl, -⟩ := List.append_inj hrest ht.symm
  rw [List.isPrefixOf_iff_prefix]
  exact ⟨r', rfl⟩

/-- **A lexeme that ends before `r`** reads the same before a like text, unless the mark `<!--` is
made by it. -/
theorem Alike.read_append (h : Alike r r') (hnil : r = [] → r' = []) {c : Char} {t : Text}
    (hlength : (Lexeme.read c (t ++ r)).2 = t.length + 1)
    (hmark : "<!--".toList.isPrefixOf (c :: (t ++ r')) = true →
      "<!--".toList.isPrefixOf (c :: (t ++ r)) = true) :
    Lexeme.read c (t ++ r') = Lexeme.read c (t ++ r) := by
  have ht := h.append t
  have hs := ht.cons c
  have hopen : "<!--".toList.isPrefixOf (c :: (t ++ r')) =
      "<!--".toList.isPrefixOf (c :: (t ++ r)) :=
    Bool.eq_iff_iff.mpr ⟨hmark, fun h => isPrefixOf_open_append hlength h r'⟩
  have hstar : (t ++ r').head? = some '*' ↔ (t ++ r).head? = some '*' :=
    (ht.head?_eq_some rfl rfl rfl).symm
  have hequals : (t ++ r').head? = some '=' ↔ (t ++ r).head? = some '=' :=
    (ht.head?_eq_some rfl rfl rfl).symm
  unfold Lexeme.read at hlength ⊢
  simp only [hopen, hstar, ← hs.startsNumber_eq, ← hs.isPrefixOf_close, ← hs.startsIdent_eq]
    at hlength ⊢
  refine ite_eq_of_length hlength (fun hc hlength => ?_) fun _ hlength => ?_
  · simp only [List.takeWhile_cons_of_pos hc, List.length_cons] at hlength ⊢
    rw [h.takeWhile_isSpace (Nat.succ.inj hlength), Nat.succ.inj hlength]
  refine ite_eq_of_length hlength (fun _ hlength => h.readString_append hnil hlength)
    fun _ hlength => ?_
  refine ite_eq_of_length hlength (fun _ hlength => h.readHash_append hnil hlength)
    fun _ hlength => ?_
  refine ite_eq_of_length hlength (fun _ hlength => h.readAt_append hnil hlength)
    fun _ hlength => ?_
  iterate 9 refine ite_eq_of_length hlength (fun _ _ => rfl) fun _ hlength => ?_
  refine ite_eq_of_length hlength (fun _ _ => ?_) fun _ hlength => ?_
  · simp only [Lexeme.readMatch, hequals]
  refine ite_eq_of_length hlength (fun _ hlength => ?_) fun _ hlength => ?_
  · cases t with
    | nil => simp at hlength
    | cons d t =>
      have hcomment : Lexeme.commentLength (t ++ r) = t.length := by simpa using hlength
      by_cases hr : r = []
      · rw [hr, hnil hr]
      · simp [hcomment, commentLength_append hr r' hcomment]
  refine ite_eq_of_length hlength (fun _ _ => rfl) fun _ hlength => ?_
  refine ite_eq_of_length hlength (fun _ hlength => h.readNumber_append hnil hlength)
    fun _ hlength => ?_
  refine ite_eq_of_length hlength (fun _ _ => rfl) fun _ hlength => ?_
  exact ite_eq_of_length hlength
    (fun _ hlength => h.readIdentLike_append hnil (t := c :: t) hlength) fun _ _ => rfl

end Alike

end TerseMarkup.Css
