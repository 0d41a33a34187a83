import TerseMarkup.Proofs.Css.Lexeme.Usual

/-! Lexemes in front of curly brackets.

`StandingBefore` says of lexemes that they stand where they are with a text behind them. Where that
text is a curly bracket or nothing at all, the one may be exchanged for the other
(`StandingBefore.exchange`), so the selector of a rule is read by itself as it is read in front of its
block. Only the end of a text is no curly bracket to a lexeme that is open there. -/
namespace TerseMarkup.Css

theorem Stops.isPrefixOf_append {r : Text} (h : Stops r) {mark : Text}
    (hmark : ∀ c ∈ mark, isStop c = false) (u : Text) :
    mark.isPrefixOf (u ++ r) = mark.isPrefixOf u := by
  induction mark generalizing u with
  | nil => rw [List.isPrefixOf_nil_left, List.isPrefixOf_nil_left]
  | cons c mark ih =>
    obtain ⟨hc, hmark⟩ := List.forall_mem_cons.mp hmark
    cases u with
    | nil => exact h.isPrefixOf_eq hc mark
    | cons d u => exact congrArg ((c == d) && ·) (ih hmark u)

namespace Lexeme

/-- What stands before nothing that goes on stands before anything that does not, unless the end of
the text was needed for it. -/
theorem StandsBefore.exchange {l : Lexeme} {u r r' : Text} (h : l.StandsBefore (u ++ r))
    (hr : Stops r) (hr' : Stops r') (hnil : u ++ r = [] → u ++ r' = []) :
    l.StandsBefore (u ++ r') := by
  obtain ⟨c, t, htext, hread⟩ := h
  have halike : Alike (u ++ r) (u ++ r') := (Alike.stop hr hr').append u
  refine ⟨c, t, htext, ?_⟩
  rw [halike.read_append hnil (congrArg Prod.snd hread), hread]
  intro hmark
  have hcut (s : Text) (hs : Stops s) : "<!--".toList.isPrefixOf (c :: (t ++ (u ++ s))) =
      "<!--".toList.isPrefixOf (c :: (t ++ u)) := by
    rw [← hs.isPrefixOf_append (forall_of_all (by decide)) (c :: (t ++ u)), List.cons_append, List.append_assoc]
  rw [hcut r hr, ← hcut r' hr', hmark]

/-- Each lexeme stands before those behind it and the text behind them all. -/
def StandingBefore (r : Text) : List Lexeme → Prop
  | [] => True
  | l :: ls => l.StandsBefore (ls.flatMap text ++ r) ∧ StandingBefore r ls

theorem standingBefore_append {ls ls' : List Lexeme} {r : Text} :
    StandingBefore r (ls ++ ls') ↔
      StandingBefore (ls'.flatMap text ++ r) ls ∧ StandingBefore r ls' := by
  induction ls with
  | nil => simp [StandingBefore]
  | cons l ls ih =>
    rw [List.cons_append, StandingBefore, StandingBefore, ih, List.flatMap_append,
      List.append_assoc, and_assoc]

theorem standingBefore_nil {ls : List Lexeme} : StandingBefore [] ls ↔ Standing ls := by
  induction ls with
  | nil => exact Iff.rfl
  | cons l ls ih => rw [StandingBefore, Standing, ih, List.append_nil]

theorem standing_append {ls ls' : List Lexeme} :
    Standing (ls ++ ls') ↔ StandingBefore (ls'.flatMap text) ls ∧ Standing ls' := by
  rw [← standingBefore_nil, standingBefore_append, List.append_nil, standingBefore_nil]

/-- **Lexemes stand before a curly bracket as before the end**, if none of them needs the end. -/
theorem StandingBefore.exchange {ls : List Lexeme} {u r r' : Text}
    (h : StandingBefore (u ++ r) ls) (hr : Stops r) (hr' : Stops r')
    (hnil : u ++ r = [] → u ++ r' = []) : StandingBefore (u ++ r') ls := by
  induction ls with
  | nil => trivial
  | cons l ls ih =>
    obtain ⟨hl, hls⟩ := h
    refine ⟨?_, ih hls⟩
    rw [← List.append_assoc] at hl ⊢
    refine hl.exchange hr hr' fun heq => ?_
    rw [List.append_assoc, List.append_eq_nil_iff] at heq ⊢
    exact heq.imp_right hnil

/-- Lexemes that stand before a text are read in front of it. -/
theorem scan_append {ls : List Lexeme} {r : Text} (h : StandingBefore r ls) :
    scan (ls.flatMap text ++ r) = ls ++ scan r := by
  have hstanding : Standing (ls ++ scan r) :=
    standing_append.mpr ⟨by rwa [spelling_scan], standing_scan r⟩
  have := scan_flatMap_text hstanding
  rwa [List.flatMap_append, spelling_scan] at this

/-- Lexemes in front of a curly bracket stand by themselves. -/
theorem StandingBefore.standing {ls : List Lexeme} {r : Text} (h : StandingBefore r ls)
    (hr : Stops r) : Standing ls :=
  standingBefore_nil.mp (StandingBefore.exchange (u := []) h hr stops_nil (by simp))

theorem Standing.cut {ls ls' : List Lexeme} {l : Lexeme} {c : Char} {t : Text}
    (h : Standing (ls ++ l :: ls')) (hl : l.text = c :: t) (hc : isStop c = true) :
    Standing ls := by
  refine (standing_append.mp h).1.standing ?_
  rw [List.flatMap_cons, hl]
  exact stops_cons hc _

end Lexeme

end TerseMarkup.Css
