import TerseMarkup.Proofs.Css.Lexeme.Finished
import TerseMarkup.Proofs.Css.Rules

/-! Blocks that are closed when a stylesheet is printed.

The closing brackets put behind a stylesheet end the rules that it leaves open, unless something
else is open inside them: a bracket of another kind or a block in a body, a string, a comment or an
escape. Then the brackets belong to that, a rule stays open, and the next print puts brackets there
again (`text_parse_text_iff`). -/
namespace TerseMarkup.Css

/-! ### Brackets on the stack -/

theorem head?_eq_of_starts {α : Type} {xs ys : List α} (h : xs <+: ys) (hne : xs ≠ []) :
    ys.head? = xs.head? := by
  obtain ⟨t, rfl⟩ := h
  exact List.head?_append_of_ne_nil _ hne

namespace Token

theorem prefix_openBehind (brackets : List Bracket) {t : Token} (h : ∀ b, t ≠ .closing b) :
    brackets <+: openBehind brackets t := by
  unfold openBehind
  split
  · exact List.prefix_append ..
  · have hclosing : brackets.getLast?.any (t == .closing ·) = false := by
      cases brackets.getLast? <;> simp [h]
    simp [hclosing]

/-- The outermost bracket stays the same. -/
theorem head?_openBehind {brackets : List Bracket} {t : Token} (h : brackets ≠ [])
    (hne : openBehind brackets t ≠ []) : (openBehind brackets t).head? = brackets.head? := by
  revert hne
  unfold openBehind
  split
  · exact fun _ => head?_eq_of_starts (List.prefix_append ..) h
  · split
    · exact fun hne => (head?_eq_of_starts (List.dropLast_prefix brackets) hne).symm
    · exact fun _ => rfl

theorem count_openBehind_le (brackets : List Bracket) {t : Token} (h : t ≠ .opening .curly) :
    (openBehind brackets t).count .curly ≤ brackets.count .curly := by
  unfold openBehind
  split
  · next b hb =>
    have hb : b ≠ .curly := fun hcurly => h (eq_opening (hcurly ▸ hb) (by decide))
    simp [List.count_append, hb]
  · split
    · exact (List.dropLast_sublist _).count_le _
    · exact Nat.le_refl _

theorem openBehind_closing (brackets : List Bracket) :
    openBehind brackets (.closing .curly) =
      if brackets.getLast? = some .curly then brackets.dropLast else brackets := by
  unfold openBehind
  cases h : brackets.getLast? with
  | none => simp [opens?]
  | some b => cases b <;> simp [opens?]

end Token

/-- Curly brackets close at most as many blocks, the innermost first. -/
theorem foldl_closing (brackets : List Bracket) (n : Nat) :
    let left := (List.replicate n (Token.closing .curly)).foldl Token.openBehind brackets
    left <+: brackets ∧ brackets.length ≤ left.length + n := by
  induction n generalizing brackets with
  | zero => simp
  | succ n ih =>
    rw [List.replicate_succ, List.foldl_cons, Token.openBehind_closing]
    split
    · obtain ⟨hstart, hlength⟩ := ih brackets.dropLast
      rw [List.length_dropLast] at hlength
      exact ⟨hstart.trans (List.dropLast_prefix _), by omega⟩
    · obtain ⟨hstart, hlength⟩ := ih brackets
      exact ⟨hstart, by omega⟩

theorem foldl_closing_curly (n : Nat) :
    (List.replicate n (Token.closing .curly)).foldl Token.openBehind
      (List.replicate n .curly) = [] := by
  induction n with
  | zero => rfl
  | succ n ih =>
    rw [List.replicate_succ (a := Token.closing .curly), List.foldl_cons, Token.openBehind_closing]
    simp [List.getLast?_replicate, ih]

/-! ### Blocks left open -/

namespace Rule

/-- Every rule left open is a curly block that is never closed. -/
theorem openBlocksFrom_le (begun : Begun) (cs : List Component) :
    openBlocksFrom begun cs ≤ (Component.unclosedAll cs).count .curly := by
  fun_induction openBlocksFrom begun cs with
  | case1 => exact Nat.zero_le _
  | case2 begun opener inside closer rest ihinside ihrest =>
    rw [Component.unclosedAll, Component.unclosed, List.count_append, List.count_append]
    refine Nat.add_le_add (Nat.add_le_add ?_ ?_) ihrest
    · cases closer <;> simp
    · split
      · exact ihinside
      · exact Nat.zero_le _
  | case3 begun c rest hcurly ih =>
    rw [Component.unclosedAll, List.count_append]
    exact Nat.le_add_left_of_le ih

/-- A rule is left open exactly if the outermost open block is curly. -/
theorem openBlocksFrom_pos {begun : Begun} {cs : List Component} (h : Component.EndsAll cs) :
    0 < openBlocksFrom begun cs ↔ (Component.unclosedAll cs).head? = some .curly := by
  fun_induction openBlocksFrom begun cs with
  | case1 => simp [Component.unclosedAll]
  | case2 begun opener inside closer rest ihinside ihrest =>
    cases closer with
    | none =>
      refine iff_of_true ?_ rfl
      rw [Option.isNone_none, if_pos rfl]
      omega
    | some l =>
      have hinside := h.1.2 rfl
      simpa [Component.unclosedAll, Component.unclosed, hinside, openBlocksFrom_of_closed _ hinside]
        using ihrest h.2.1
  | case3 begun c rest hcurly ih =>
    cases c with
    | plain l => simpa [Component.unclosedAll, Component.unclosed] using ih h.2.1
    | block opener bracket inside closer =>
      cases closer with
      | none =>
        obtain rfl : rest = [] := h.2.2 (by simp [Component.unclosed])
        have hbracket : bracket ≠ .curly := fun hb => hcurly opener inside none (by rw [hb])
        simp [openBlocksFrom, Component.unclosedAll, Component.unclosed, hbracket]
      | some l =>
        simpa [Component.unclosedAll, Component.unclosed, h.1.2 rfl] using ih h.2.1

/-! ### Selectors do not change -/

section Selectors

variable {xs ys : List Component}

theorem selectorsFrom_append_congr
    (h : ∀ begun, selectorsFrom begun xs = selectorsFrom begun ys) (before : List Component)
    (begun : Begun) : selectorsFrom begun (before ++ xs) = selectorsFrom begun (before ++ ys) := by
  induction before generalizing begun with
  | nil => exact h begun
  | cons c before ih =>
    rw [List.cons_append, List.cons_append]
    by_cases hcurly : IsCurly c
    · obtain ⟨opener, inside, closer, rfl⟩ := hcurly
      rw [selectorsFrom, selectorsFrom, ih]
    · rw [selectorsFrom_cons hcurly, selectorsFrom_cons hcurly, ih]

/-- How a block is closed, if at all, makes no difference. -/
theorem selectorsFrom_block_congr
    (h : ∀ begun, selectorsFrom begun xs = selectorsFrom begun ys) (opener : Lexeme)
    (bracket : Bracket) (closer closer' : Option Lexeme) (begun : Begun) :
    selectorsFrom begun [.block opener bracket xs closer] =
      selectorsFrom begun [.block opener bracket ys closer'] := by
  cases bracket <;> simp [selectorsFrom, h]

theorem selectorsFrom_endAll_congr
    (h : ∀ begun, selectorsFrom begun xs.reverse = selectorsFrom begun ys.reverse)
    (outer : List Component.OpenBlock) (begun : Begun) :
    selectorsFrom begun (Component.endAll outer xs) =
      selectorsFrom begun (Component.endAll outer ys) := by
  induction outer generalizing xs ys with
  | nil => exact h begun
  | cons o outer ih =>
    refine ih fun begun => ?_
    rw [Component.OpenBlock.end, Component.OpenBlock.end, List.reverse_cons, List.reverse_cons]
    exact selectorsFrom_append_congr (selectorsFrom_block_congr h _ _ _ _) _ _

theorem selectorsFrom_endAll_cons {c : Component} (h : ¬ IsCurly c)
    (outer : List Component.OpenBlock) (level : List Component) (begun : Begun) :
    selectorsFrom begun (Component.endAll outer (c :: level)) =
      selectorsFrom begun (Component.endAll outer level) := by
  refine selectorsFrom_endAll_congr (fun begun => ?_) outer begun
  rw [List.reverse_cons, ← List.append_nil level.reverse, List.append_assoc]
  refine selectorsFrom_append_congr (fun begun => ?_) _ begun
  rw [List.nil_append, selectorsFrom_cons h, selectorsFrom, selectorsFrom]

end Selectors

theorem selectorsFrom_nest {ls : List Lexeme} (h : ∀ l ∈ ls, l.token ≠ .opening .curly)
    (outer : List Component.OpenBlock) (level : List Component) (begun : Begun) :
    selectorsFrom begun (Component.nest outer level ls) =
      selectorsFrom begun (Component.endAll outer level) := by
  induction ls generalizing outer level with
  | nil => rw [Component.nest]
  | cons l ls ih =>
    obtain ⟨hl, hls⟩ := List.forall_mem_cons.mp h
    obtain ⟨b, hopens, hnest⟩ | ⟨o, outer, rfl, -, hnest⟩ | ⟨-, -, hnest⟩ :=
      Component.nest_cases outer level l <;> rw [hnest, ih hls]
    · refine selectorsFrom_endAll_cons ?_ outer level begun
      rintro ⟨opener, inside, closer, heq⟩
      cases heq
      exact hl (Token.eq_opening hopens (by decide))
    · refine selectorsFrom_endAll_congr (fun begun => ?_) outer begun
      rw [Component.OpenBlock.end, List.reverse_cons, Component.OpenBlock.end, List.reverse_cons]
      refine selectorsFrom_append_congr (fun begun => ?_) _ begun
      exact selectorsFrom_block_congr (fun _ => rfl) _ _ _ _ begun
    · refine selectorsFrom_endAll_cons ?_ outer level begun
      rintro ⟨opener, inside, closer, heq⟩
      cases heq

/-- **Where no curly block opens, no selector is found.** -/
theorem selectorsFrom_ofLexemes (ls : List Lexeme) {ls' : List Lexeme}
    (h : ∀ l ∈ ls', l.token ≠ .opening .curly) (begun : Begun) :
    selectorsFrom begun (Component.ofLexemes (ls ++ ls')) =
      selectorsFrom begun (Component.ofLexemes ls) := by
  have hnest (outer : List Component.OpenBlock) (level : List Component) :
      selectorsFrom begun (Component.nest outer level (ls ++ ls')) =
        selectorsFrom begun (Component.nest outer level ls) := by
    induction ls generalizing outer level with
    | nil => rw [List.nil_append, selectorsFrom_nest h, Component.nest]
    | cons l ls ih =>
      obtain ⟨b, -, hnest⟩ | ⟨o, outer, rfl, -, hnest⟩ | ⟨-, -, hnest⟩ :=
        Component.nest_cases outer level l <;> rw [List.cons_append, hnest, hnest, ih]
  exact hnest [] []

end Rule

/-! ### Printed twice -/

namespace Stylesheet

open Component (unclosedAll)

/-- The brackets that lexemes leave open. -/
theorem unclosedAll_of_scan {s : Text} {ls ls' : List Lexeme} (h : Lexeme.scan s = ls ++ ls') :
    unclosedAll (Component.read s) =
      (ls'.map Lexeme.token).foldl Token.openBehind (unclosedAll (Component.ofLexemes ls)) := by
  rw [Component.read, h, Component.unclosedAll_ofLexemes, Component.unclosedAll_ofLexemes,
    List.map_append, List.foldl_append]

theorem selectors_of_scan {s : Text} {ls ls' : List Lexeme} (h : Lexeme.scan s = ls ++ ls')
    (hcurly : ∀ l ∈ ls', l.token ≠ .opening .curly) :
    selectors s = Rule.selectorsFrom .none (Component.ofLexemes ls) := by
  rw [selectors, Component.read, h, Rule.selectorsFrom_ofLexemes ls hcurly]

theorem selectors_append_closing (css : Text) (n : Nat) :
    selectors (css ++ List.replicate n '}') = selectors css := by
  have hclosing (m : Nat) :
      ∀ l ∈ List.replicate m Lexeme.closingCurly, l.token ≠ .opening .curly := by
    simp [List.mem_replicate, Lexeme.closingCurly]
  by_cases hn : n = 0
  · rw [hn, List.replicate_zero, List.append_nil]
  by_cases h : Lexeme.Finished css
  · rw [selectors_of_scan (Lexeme.scan_append_closing h n) (hclosing n)]
    rfl
  · obtain ⟨ls, l, l', m, hscan, hscan', -, hl, hl', -⟩ := Lexeme.exists_taking h hn
    rw [selectors_of_scan hscan (by simpa using hl),
      selectors_of_scan hscan' (List.forall_mem_cons.mpr ⟨hl', hclosing m⟩)]

theorem map_token_closing (n : Nat) :
    (List.replicate n Lexeme.closingCurly).map Lexeme.token = List.replicate n (.closing .curly) :=
  List.map_replicate

theorem openBlocks_le (css : Text) :
    openBlocks css ≤ (unclosedAll (Component.read css)).count .curly := Rule.openBlocksFrom_le ..

theorem openBlocks_pos {css : Text} :
    0 < openBlocks css ↔ (unclosedAll (Component.read css)).head? = some .curly :=
  Rule.openBlocksFrom_pos (Component.endsAll_read css)

/-- Brackets behind a finished text end all that is open if rules are all that is. -/
theorem openBlocks_of_finished {css : Text} (h : Lexeme.Finished css) (hopen : openBlocks css ≠ 0) :
    openBlocks (css ++ List.replicate (openBlocks css) '}') = 0 ↔
      openBlocks css = (unclosedAll (Component.read css)).length := by
  have hleft := unclosedAll_of_scan (Lexeme.scan_append_closing h (openBlocks css))
  rw [map_token_closing, show Component.ofLexemes (Lexeme.scan css) = Component.read css from rfl] at hleft
  have hle := openBlocks_le css
  have hcount := List.count_le_length (a := Bracket.curly) (l := unclosedAll (Component.read css))
  constructor
  · -- Fewer brackets than blocks leave the outermost block open.
    refine fun hclosed => Decidable.by_contra fun hne => ?_
    obtain ⟨hstart, hlength⟩ := foldl_closing (unclosedAll (Component.read css)) (openBlocks css)
    rw [← hleft] at hstart hlength
    have hne : unclosedAll (Component.read (css ++ List.replicate (openBlocks css) '}')) ≠ [] :=
      List.ne_nil_of_length_pos (by omega)
    have hpos := openBlocks_pos.mpr
      ((head?_eq_of_starts hstart hne).symm.trans (openBlocks_pos.mp (by omega)))
    omega
  · intro heq
    have hcurly : unclosedAll (Component.read css) = List.replicate (openBlocks css) .curly :=
      List.eq_replicate_iff.mpr
        ⟨heq.symm, fun b hb => (List.count_eq_length.mp (by omega) b hb).symm⟩
    rw [hcurly, foldl_closing_curly] at hleft
    have := openBlocks_le (css ++ List.replicate (openBlocks css) '}')
    rw [hleft] at this
    simpa using this

/-- If a text is not finished, a rule stays open. -/
theorem openBlocks_of_not_finished {css : Text} (h : ¬ Lexeme.Finished css)
    (hopen : openBlocks css ≠ 0) :
    openBlocks (css ++ List.replicate (openBlocks css) '}') ≠ 0 := by
  obtain ⟨ls, l, l', m, hscan, hscan', hm, hl, -, hl'⟩ := Lexeme.exists_taking h hopen
  have hbefore : unclosedAll (Component.read css) =
      Token.openBehind (unclosedAll (Component.ofLexemes ls)) l.token := unclosedAll_of_scan hscan
  have hleft := unclosedAll_of_scan hscan'
  rw [List.map_cons, map_token_closing, List.foldl_cons] at hleft
  -- There are at least as many blocks before the last lexeme as rules that are left open.
  have hrules := openBlocks_le css
  rw [hbefore] at hrules
  have hcount := Token.count_openBehind_le (unclosedAll (Component.ofLexemes ls)) hl
  have hlength := List.count_le_length (a := Bracket.curly)
    (l := unclosedAll (Component.ofLexemes ls))
  have htaking := Token.prefix_openBehind (unclosedAll (Component.ofLexemes ls)) hl'
  have hlonger := htaking.length_le
  obtain ⟨hstart, hfewer⟩ :=
    foldl_closing (Token.openBehind (unclosedAll (Component.ofLexemes ls)) l'.token) m
  rw [← hleft] at hstart hfewer
  -- So one stays, and the outermost is the one that it was.
  have hhead := openBlocks_pos.mp (Nat.pos_of_ne_zero hopen)
  have hne : unclosedAll (Component.ofLexemes ls) ≠ [] := List.ne_nil_of_length_pos (by omega)
  rw [hbefore, Token.head?_openBehind hne (by rintro heq; simp [heq] at hhead),
    ← head?_eq_of_starts htaking hne,
    head?_eq_of_starts hstart (List.ne_nil_of_length_pos (by omega))] at hhead
  exact (openBlocks_pos.mpr hhead).ne'

/-- **What has been closed stays as it is exactly if rules were all that was open**: no rule was, or
no bracket inside one and nothing in the last lexeme. -/
theorem text_parse_text_iff {css : Text}
    (h : ∀ p ∈ selectors css, ∀ l ∈ Component.parenthesizedAll (Component.read p),
      l.token ≠ .opening .curly) :
    (parse (parse css).text).text = (parse css).text ↔
      openBlocks css = 0 ∨
        openBlocks css = (unclosedAll (Component.read css)).length ∧ Lexeme.Finished css := by
  have hagain := h
  rw [← selectors_append_closing css (openBlocks css)] at hagain
  rw [text_parse_eq h, text_parse_eq hagain, List.append_right_eq_self, List.replicate_eq_nil_iff]
  by_cases hopen : openBlocks css = 0
  · simp [hopen]
  by_cases hfinished : Lexeme.Finished css
  · simp [openBlocks_of_finished hfinished hopen, hopen, hfinished]
  · simp [openBlocks_of_not_finished hfinished hopen, hopen, hfinished]

/-- In `.a{b`, the rule is all that is open. -/
theorem text_parse_text_iff_rule :
    let css := ".a\x7bb".toList
    (∀ p ∈ selectors css, ∀ l ∈ Component.parenthesizedAll (Component.read p),
      l.token ≠ .opening .curly) ∧ openBlocks css = 1 ∧ Lexeme.Finished css ∧
      (parse (parse css).text).text = (parse css).text := by
  intro css
  have hread : Component.read css = [.plain ⟨.delim '.', ['.']⟩, .plain ⟨.ident ['a'], ['a']⟩,
      .block ⟨.opening .curly, ['{']⟩ .curly [.plain ⟨.ident ['b'], ['b']⟩] none] := by rfl
  have hselectors : selectors css = [".a".toList] := by
    simp [selectors, hread, Rule.selectorsFrom, Rule.Begun.next?, Rule.isSeparator,
      Rule.Begun.isGroup, Rule.Begun.selector, Rule.Begun.text, Component.text]
  have hopen : openBlocks css = 1 := by
    simp [openBlocks, hread, Rule.openBlocksFrom, Rule.Begun.next?, Rule.isSeparator,
      Rule.Begun.isGroup]
  have hcurly : ∀ p ∈ selectors css, ∀ l ∈ Component.parenthesizedAll (Component.read p),
      l.token ≠ .opening .curly := by
    rw [hselectors]
    decide +kernel
  have hfinished : Lexeme.Finished css := by
    rw [Lexeme.Finished]
    decide +kernel
  refine ⟨hcurly, hopen, hfinished, (text_parse_text_iff hcurly).mpr (.inr ⟨?_, hfinished⟩)⟩
  rw [hopen]
  decide +kernel

/-- The string in `.a{"x` takes the bracket, at each print anew. -/
theorem text_parse_text_grows :
    let css := ".a\x7b\"x".toList
    (parse css).text = css ++ ['}'] ∧ (parse (parse css).text).text = css ++ ['}', '}'] ∧
      (parse (parse css).text).text ≠ (parse css).text := by
  intro css
  have hselector : Selector.parse ['.', 'a'] =
      [.className { source := ['.', 'a'], value := ['a'] }] := by
    have hread : Component.read ['.', 'a'] =
        [.plain ⟨.delim '.', ['.']⟩, .plain ⟨.ident ['a'], ['a']⟩] := by rfl
    simp [Selector.parse, hread, Part.readFrom]
  have htext (body : Text) (value : Text)
      (hread : Component.read (".a\x7b".toList ++ body) =
        [.plain ⟨.delim '.', ['.']⟩, .plain ⟨.ident ['a'], ['a']⟩,
          .block ⟨.opening .curly, ['{']⟩ .curly [.plain ⟨.string value, body⟩] none]) :
      (parse (".a\x7b".toList ++ body)).text = ".a\x7b".toList ++ body ++ ['}'] := by
    rw [parse, hread]
    simp [Rule.readFrom, Rule.isSeparator, Component.text, hselector, text, Rule.textOf, Rule.text,
      Selector.text, Part.textOf, Part.text, Name.text, Component.textOf]
  have hfirst : (parse css).text = css ++ ['}'] := htext ['"', 'x'] ['x'] (by rfl)
  have hsecond : (parse (css ++ ['}'])).text = css ++ ['}', '}'] :=
    htext ['"', 'x', '}'] ['x', '}'] (by rfl)
  rw [hfirst, hsecond]
  exact ⟨rfl, rfl, by decide⟩

end Stylesheet

end TerseMarkup.Css
