import TerseMarkup.Proofs.Css.Lexeme.Stopping

/-! Closing brackets behind a text.

A text is `Finished` if a curly bracket behind it is read as one, and then any number of them are. If
it is not, something is open in its last lexeme: a string, a comment, the address of a `url` or an
escape. That takes the first of the brackets, and only the others are read as brackets
(`exists_taking`). -/
namespace TerseMarkup.Css

namespace Lexeme

def closingCurly : Lexeme := ⟨.closing .curly, ['}']⟩

theorem scan_closing (n : Nat) :
    scan (List.replicate n '}') = List.replicate n closingCurly := by
  induction n with
  | zero => rfl
  | succ n ih =>
    rw [List.replicate_succ, scan, scanFrom_cons, List.replicate_succ, ← ih]
    rfl

theorem stops_closing (n : Nat) : Stops (List.replicate n '}') := by
  cases n with
  | zero => exact stops_nil
  | succ n => exact stops_cons (by decide) _

/-- Whether nothing is open in the last lexeme: a curly bracket behind the text is read as one. -/
def Finished (s : Text) : Prop := scan (s ++ ['}']) = scan s ++ [closingCurly]

theorem scan_append_closing {s : Text} (h : Finished s) (n : Nat) :
    scan (s ++ List.replicate n '}') = scan s ++ List.replicate n closingCurly := by
  have hstanding : Standing (scan s ++ [closingCurly]) := h ▸ standing_scan _
  have hbefore : StandingBefore ([] ++ ['}']) (scan s) := (standing_append.mp hstanding).1
  have hclosing : StandingBefore (List.replicate n '}') (scan s) :=
    hbefore.exchange (stops_closing 1) (stops_closing n) (by simp)
  rw [← scan_closing n, ← scan_append hclosing, spelling_scan]

/-- Where a text is cut, the lexemes are cut too, or one of them is. -/
theorem exists_cut {ls : List Lexeme} {a b : Text} (h : ls.flatMap text = a ++ b) :
    (∃ ls₁ ls₂, ls = ls₁ ++ ls₂ ∧ ls₁.flatMap text = a ∧ ls₂.flatMap text = b) ∨
      ∃ ls₁ l ls₂ u v, ls = ls₁ ++ l :: ls₂ ∧ l.text = u ++ v ∧ u ≠ [] ∧ v ≠ [] ∧
        ls₁.flatMap text ++ u = a ∧ v ++ ls₂.flatMap text = b := by
  induction ls generalizing a with
  | nil =>
    obtain ⟨rfl, rfl⟩ := List.append_eq_nil_iff.mp h.symm
    exact .inl ⟨[], [], rfl, rfl, rfl⟩
  | cons l ls ih =>
    rw [List.flatMap_cons] at h
    obtain ⟨a', rfl, hrest⟩ | ⟨v, htext, rfl⟩ := List.append_eq_append_iff.mp h
    · obtain ⟨ls₁, ls₂, rfl, ha, hb⟩ | ⟨ls₁, l', ls₂, u, v, rfl, htext, hu, hv, ha, hb⟩ := ih hrest
      · exact .inl ⟨l :: ls₁, ls₂, rfl, by rw [List.flatMap_cons, ha], hb⟩
      · exact .inr ⟨l :: ls₁, l', ls₂, u, v, rfl, htext, hu, hv,
          by rw [List.flatMap_cons, List.append_assoc, ha], hb⟩
    · by_cases ha : a = []
      · subst ha
        exact .inl ⟨[], l :: ls, rfl, rfl, by rw [List.flatMap_cons, htext]; rfl⟩
      by_cases hv : v = []
      · subst hv
        exact .inl ⟨[l], ls, rfl, by simpa using htext, rfl⟩
      · exact .inr ⟨[], l, ls, a, v, rfl, htext, ha, hv, rfl, rfl⟩

/-- A curly bracket is read by itself, and so is every closing one. -/
theorem Usual.length_eq_one {l : Lexeme} (h : l.Usual)
    (htoken : l.token = .opening .curly ∨ ∃ b, l.token = .closing b) : l.text.length = 1 := by
  obtain hopening | ⟨b, hclosing⟩ := htoken
  · rw [h.openCurly hopening]; rfl
  · cases b with
    | paren => rw [h.closeParen hclosing]; rfl
    | square => rw [h.closeSquare hclosing]; rfl
    | curly => rw [h.closeCurly hclosing]; rfl

theorem Standing.ne_nil_of_mem {ls : List Lexeme} (h : Standing ls) : ∀ l ∈ ls, l.text ≠ [] := by
  induction ls with
  | nil => simp
  | cons l ls ih =>
    obtain ⟨⟨c, t, htext, -⟩, hls⟩ := h
    exact List.forall_mem_cons.mpr ⟨by simp [htext], ih hls⟩

/-- A text of which more is read at once is a lexeme, too. -/
theorem exists_scan_eq_singleton {u v r : Text} (hu : u ≠ []) (hv : v ≠ []) (hr : Stops r)
    {l' : Lexeme} {ls' : List Lexeme} (hscan : scan (u ++ r) = l' :: ls')
    (htext : l'.text = u ++ v) : ∃ l, scan u = [l] := by
  have hstanding := standing_scan u
  have hspelling := spelling_scan u
  match hls : scan u with
  | [] =>
    rw [hls] at hspelling
    exact absurd hspelling.symm hu
  | [l] => exact ⟨l, rfl⟩
  | l :: l₂ :: ls =>
    rw [hls] at hstanding hspelling
    rw [List.flatMap_cons] at hspelling
    have hne : (l₂ :: ls).flatMap text ≠ [] := by
      have := hstanding.2.ne_nil_of_mem l₂ (List.mem_cons_self ..)
      simp [this]
    have hl : l.StandsBefore ((l₂ :: ls).flatMap text ++ []) := by
      rw [List.append_nil]
      exact hstanding.1
    have hbefore : StandingBefore ((l₂ :: ls).flatMap text ++ r) [l] :=
      ⟨hl.exchange stops_nil hr fun h => absurd (List.append_eq_nil_iff.mp h).1 hne, trivial⟩
    have hsame := scan_append hbefore
    rw [List.flatMap_singleton, ← List.append_assoc, hspelling, hscan] at hsame
    obtain rfl : l' = l := (List.cons.inj hsame).1
    have := congrArg List.length hspelling
    rw [htext] at this
    simp [hv] at this

/-- **If a text is not finished, its last lexeme takes the first of the brackets behind it**, and
the others stay brackets. -/
theorem exists_taking {s : Text} (h : ¬ Finished s) {n : Nat} (hn : n ≠ 0) :
    ∃ ls l l' m, scan s = ls ++ [l] ∧
      scan (s ++ List.replicate n '}') = ls ++ l' :: List.replicate m closingCurly ∧ m < n ∧
      l.token ≠ .opening .curly ∧ l'.token ≠ .opening .curly ∧ ∀ b, l'.token ≠ .closing b := by
  have hstanding := standing_scan (s ++ List.replicate n '}')
  obtain ⟨ls, ls', hscan, hs, hclosing⟩ | ⟨ls, l', ls', u, v, hscan, htext, hu, hv, hs, hclosing⟩ :=
    exists_cut (spelling_scan (s ++ List.replicate n '}'))
  · -- The brackets would be read as brackets.
    rw [hscan, standing_append, hclosing] at hstanding
    have hone : StandingBefore ['}'] ls := StandingBefore.exchange (u := []) hstanding.1
      (stops_closing n) (stops_closing 1) (by simp [hn])
    have hls : scan s = ls := by
      rw [← hs, scan_flatMap_text (hstanding.1.standing (stops_closing n))]
    exact absurd (by rw [Finished, hls, ← hs]; exact scan_append hone) h
  · rw [hscan, standing_append] at hstanding
    obtain ⟨hbefore, htaking⟩ := hstanding
    have htail : (l' :: ls').flatMap text = u ++ List.replicate n '}' := by
      rw [List.flatMap_cons, htext, List.append_assoc, hclosing]
    have hscanTail : scan (u ++ List.replicate n '}') = l' :: ls' :=
      htail ▸ scan_flatMap_text htaking
    obtain ⟨hlength, -, hreplicate⟩ := List.append_eq_replicate_iff.mp hclosing
    have hls' : ls' = List.replicate (ls'.flatMap text).length closingCurly := by
      rw [← scan_closing, ← hreplicate, scan_flatMap_text htaking.2]
    obtain ⟨l, hl⟩ := exists_scan_eq_singleton hu hv (stops_closing n) hscanTail htext
    have hlText : l.text = u := by
      have := spelling_scan u
      rwa [hl, List.flatMap_singleton] at this
    have hlong : l'.text.length ≠ 1 := by
      have hu := List.length_pos_iff.mpr hu
      have hv := List.length_pos_iff.mpr hv
      rw [htext, List.length_append]
      omega
    refine ⟨ls, l, l', _, ?_, hls' ▸ hscan, ?_, fun htoken => ?_, fun htoken => ?_,
      fun b htoken => ?_⟩
    · have hu : StandingBefore (u ++ []) ls :=
        StandingBefore.exchange (htail ▸ hbefore) (stops_closing n) stops_nil (by simp [hu])
      rw [List.append_nil] at hu
      rw [← hs, scan_append hu, hl]
    · have hv := List.length_pos_iff.mpr hv
      omega
    · -- A curly bracket is read by itself.
      have husual : l.Usual := (standing_scan u).usual l (by simp [hl])
      rw [← hlText, husual.openCurly htoken] at hscanTail
      have hl' : l' = ⟨.opening .curly, ['{']⟩ := (List.cons.inj hscanTail).1.symm
      exact hlong (by rw [hl']; rfl)
    · exact hlong (htaking.1.usual.length_eq_one (.inl htoken))
    · exact hlong (htaking.1.usual.length_eq_one (.inr ⟨b, htoken⟩))

end Lexeme

end TerseMarkup.Css
