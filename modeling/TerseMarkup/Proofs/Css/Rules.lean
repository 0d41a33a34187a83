import TerseMarkup.Proofs.Css.Lexeme.Stopping
import TerseMarkup.Proofs.Css.Printing
import TerseMarkup.Proofs.Css.Source
import TerseMarkup.Proofs.Css.Unclosed

/-! Stylesheets printed as they were read.

A component that is no curly block goes on with what has begun or ends a raw text (`Begun.next?`); a
curly block ends a rule (`Begun.close`). The selector of a style rule is read by itself as it was
read in its place, so it prints as it was written, and so does every rule, with a closing bracket
for each block that the text left open (`text_parse`). -/
namespace TerseMarkup.Css

namespace Rule

/-! ### What a component does -/

namespace Begun

/-- What has begun behind a component, if the component does not end a raw text. -/
def next? : Begun → Component → Option Begun
  | .none, .plain l =>
    if isSeparator l.token then Option.none
    else
      match l.token with
      | .atKeyword name => some (.atRule name l.text)
      | _ => some (.style l.text)
  | .none, c => some (.style c.text)
  | .atRule name prelude, .plain l =>
    if l.token = .semicolon then Option.none else some (.atRule name (prelude ++ l.text))
  | .atRule name prelude, c => some (.atRule name (prelude ++ c.text))
  | .style prelude, c => some (.style (prelude ++ c.text))

theorem text_next? {begun begun' : Begun} {c : Component} (h : begun.next? c = some begun') :
    begun'.text = begun.text ++ c.text := by
  revert h
  fun_cases next? begun c <;> intro h <;> cases h <;> simp [text, Component.text]

/-- Whether the block of the rule holds rules. -/
def isGroup : Begun → Bool
  | .atRule name _ => Rule.isGroup name
  | _ => false

/-- The selector that the rule would have. -/
def selector : Begun → Option Text
  | .atRule _ _ => Option.none
  | begun => some begun.text

/-- The rule that a block ends. -/
def close (inside : List Component) : Begun → Rule
  | .atRule name prelude =>
    if Rule.isGroup name then group prelude (readFrom .none inside)
    else block prelude (Component.textOf inside)
  | begun => Rule.style (Selector.parse begun.text) (Component.textOf inside)

end Begun

/-- Whether a component is a block in curly brackets. -/
def IsCurly (c : Component) : Prop :=
  ∃ opener inside closer, c = .block opener .curly inside closer

theorem not_isCurly {c : Component}
    (h : ∀ opener inside closer, c = .block opener .curly inside closer → False) : ¬ IsCurly c := by
  rintro ⟨opener, inside, closer, hc⟩
  exact h opener inside closer hc

theorem readFrom_curly (begun : Begun) (opener : Lexeme) (inside : List Component)
    (closer : Option Lexeme) (rest : List Component) :
    readFrom begun (.block opener .curly inside closer :: rest) =
      begun.close inside :: readFrom .none rest := by
  cases begun <;> simp [readFrom, Begun.close, Begun.text]

theorem readFrom_cons {c : Component} (h : ¬ IsCurly c) (begun : Begun) (rest : List Component) :
    readFrom begun (c :: rest) =
      match begun.next? c with
      | some begun' => readFrom begun' rest
      | none => raw (begun.text ++ c.text) :: readFrom .none rest := by
  cases c with
  | block opener bracket inside closer =>
    have hcurly : bracket ≠ .curly := fun hcurly => h ⟨_, _, _, by rw [hcurly]⟩
    cases bracket <;> first | exact absurd rfl hcurly | cases begun <;> simp [readFrom, Begun.next?]
  | plain l =>
    cases begun with
    | none =>
      obtain ⟨token, source⟩ := l
      cases token <;> simp [readFrom, Begun.next?, isSeparator, Begun.text, Component.text]
    | atRule name prelude =>
      rw [readFrom, Begun.next?]
      split <;> rfl
    | style prelude => simp [readFrom, Begun.next?, Component.text]

theorem textOf_readFrom_nil (begun : Begun) : textOf (readFrom begun []) = begun.text := by
  cases begun <;> simp [readFrom, textOf, text, Begun.text]

/-! ### The blocks left open, and the selectors -/

/-- The number of rules whose block is never closed. -/
def openBlocksFrom : Begun → List Component → Nat
  | _, [] => 0
  | begun, .block _ .curly inside closer :: rest =>
    (if closer.isNone then 1 else 0) +
      (if begun.isGroup then openBlocksFrom .none inside else 0) + openBlocksFrom .none rest
  | begun, c :: rest => openBlocksFrom ((begun.next? c).getD .none) rest

/-- The texts of the selectors of style rules, those in groups included. -/
def selectorsFrom : Begun → List Component → List Text
  | _, [] => []
  | begun, .block _ .curly inside _ :: rest =>
    (if begun.isGroup then selectorsFrom .none inside else begun.selector.toList) ++
      selectorsFrom .none rest
  | begun, c :: rest => selectorsFrom ((begun.next? c).getD .none) rest

mutual

/-- The selectors of a rule and of the rules inside. -/
def selectors : Rule → List Selector
  | style selector _ => [selector]
  | group _ rules => selectorsOf rules
  | block _ _ => []
  | raw _ => []

def selectorsOf : List Rule → List Selector
  | [] => []
  | r :: rest => r.selectors ++ selectorsOf rest

end

theorem selectorsFrom_cons {c : Component} (h : ¬ IsCurly c) (begun : Begun)
    (rest : List Component) :
    selectorsFrom begun (c :: rest) = selectorsFrom ((begun.next? c).getD .none) rest := by
  rw [selectorsFrom]
  exact fun opener inside closer hc => h ⟨opener, inside, closer, hc⟩

/-- The texts are those that the selectors are read from. -/
theorem selectorsOf_readFrom (begun : Begun) (cs : List Component) :
    selectorsOf (readFrom begun cs) = (selectorsFrom begun cs).map Selector.parse := by
  fun_induction selectorsFrom begun cs with
  | case1 begun => cases begun <;> simp [readFrom, selectorsOf, selectors]
  | case2 begun opener inside closer rest ihinside ihrest =>
    rw [readFrom_curly, selectorsOf, ihrest, List.map_append]
    cases begun with
    | none | style => simp [Begun.close, selectors, Begun.isGroup, Begun.selector]
    | atRule name prelude =>
      rw [Begun.close, Begun.isGroup]
      split <;> simp [selectors, ihinside, Begun.selector]
  | case3 begun c rest hcurly ih =>
    rw [readFrom_cons (not_isCurly hcurly), ← ih]
    cases begun.next? c <;> simp [selectorsOf, selectors]

theorem openBlocksFrom_of_closed (begun : Begun) {cs : List Component}
    (h : Component.unclosedAll cs = []) : openBlocksFrom begun cs = 0 := by
  fun_induction openBlocksFrom begun cs with
  | case1 => rfl
  | case2 begun opener inside closer rest ihinside ihrest =>
    obtain ⟨l, rfl, hinside, hrest⟩ := Component.exists_closer h
    simp [ihinside hinside, ihrest hrest]
  | case3 begun c rest hcurly ih => exact ih (Component.unclosedAll_cons_eq_nil.mp h).2

/-! ### What rules print -/

theorem text_close {begun : Begun} {inside : List Component}
    (hselector : begun.isGroup = false → ∀ p ∈ begun.selector, (Selector.parse p).text = p) :
    (begun.close inside).text = begun.text ++ '{' ::
      ((if begun.isGroup then textOf (readFrom .none inside) else Component.textOf inside) ++
        ['}']) := by
  cases begun with
  | none | style =>
    have hselector := hselector rfl _ rfl
    simp [Begun.close, text, Begun.isGroup, hselector]
  | atRule name prelude =>
    rw [Begun.close, Begun.isGroup]
    split <;> simp [text, Begun.text]

/-- Rules print as they were read if their selectors do, and then all that are open are closed. -/
theorem textOf_readFrom {begun : Begun} {bracket : Option Bracket} {cs : List Component}
    (hfits : Component.FitAll bracket cs) (hends : Component.EndsAll cs)
    (husual : ∀ l ∈ Component.lexemesOf cs, l.Usual)
    (hselectors : ∀ p ∈ selectorsFrom begun cs, (Selector.parse p).text = p) :
    textOf (readFrom begun cs) =
      begun.text ++ Component.textOf cs ++ List.replicate (openBlocksFrom begun cs) '}' := by
  fun_induction openBlocksFrom begun cs generalizing bracket with
  | case1 begun => simp [textOf_readFrom_nil, Component.textOf]
  | case2 begun opener inside closer rest ihinside ihrest =>
    rw [selectorsFrom, List.forall_mem_append] at hselectors
    obtain ⟨hopener, husualInside, hcloser, husual⟩ := Component.forall_lexemesOf_block.mp husual
    have hopen : opener.text = ['{'] :=
      hopener.openCurly (Token.eq_opening hfits.1.1 (by decide))
    have hinside : (if begun.isGroup then textOf (readFrom .none inside)
        else Component.textOf inside) = Component.textOf inside ++
          List.replicate (if begun.isGroup then openBlocksFrom .none inside else 0) '}' := by
      split
      · have := ihinside hfits.1.2.1 hends.1.1 husualInside (by simpa [*] using hselectors.1)
        simpa [Begun.text] using this
      · simp
    rw [readFrom_curly, textOf, text_close, hinside, ihrest hfits.2 hends.2.1 husual hselectors.2]
    · cases closer with
      | none =>
        obtain rfl : rest = [] := hends.2.2 (by simp [Component.unclosed])
        simp [Component.textOf, Component.text, hopen, openBlocksFrom, Begun.text,
          Nat.add_comm 1, List.replicate_succ']
      | some l =>
        have hclose : l.text = ['}'] := (hcloser l rfl).closeCurly (hfits.1.2.2 l rfl)
        have hclosed := openBlocksFrom_of_closed .none (hends.1.2 rfl)
        simp [Component.textOf, Component.text, hopen, hclose, hclosed, Begun.text]
    · intro hgroup
      simpa [hgroup] using hselectors.1
  | case3 begun c rest hcurly ih =>
    have hcurly : ¬ IsCurly c := not_isCurly hcurly
    rw [selectorsFrom_cons hcurly] at hselectors
    rw [Component.lexemesOf, List.forall_mem_append] at husual
    have hrest := ih hfits.2 hends.2.1 husual.2 hselectors
    rw [readFrom_cons hcurly, Component.textOf]
    cases hnext : begun.next? c with
    | none =>
      rw [hnext, Option.getD_none] at hrest
      rw [textOf, text, hrest, Option.getD_none]
      simp [Begun.text]
    | some begun' =>
      rw [hnext, Option.getD_some, Begun.text_next? hnext] at hrest
      simpa using hrest

/-! ### Selectors by themselves -/

/-- Components that stand by themselves are those of their text. -/
theorem read_textOf {bracket : Option Bracket} {cs : List Component}
    (hfits : Component.FitAll bracket cs) (hclosed : Component.unclosedAll cs = [])
    (hstanding : Lexeme.Standing (Component.lexemesOf cs)) :
    Component.read (Component.textOf cs) = cs := by
  rw [Component.read, ← Component.flatMap_text_lexemesOf, Lexeme.scan_flatMap_text hstanding,
    Component.ofLexemes_lexemesOf hfits.outside hclosed]

/-- A selector is read by itself as it was read in front of its block: it has no curly block outside
parentheses and square brackets, and leaves nothing open. -/
theorem read_selector {begun : Begun} {bracket : Option Bracket} (prelude : List Component)
    {cs : List Component} (behind : List Lexeme) (hbegun : begun.text = Component.textOf prelude)
    (hprelude : ∀ c ∈ prelude, ¬ IsCurly c) (hclosed : Component.unclosedAll prelude = [])
    (hfits : Component.FitAll bracket (prelude ++ cs)) (hends : Component.EndsAll cs)
    (hstanding : Lexeme.Standing (Component.lexemesOf (prelude ++ cs) ++ behind))
    {p : Text} (hp : p ∈ selectorsFrom begun cs) :
    (∀ c ∈ Component.read p, ¬ IsCurly c) ∧ Component.unclosedAll (Component.read p) = [] := by
  fun_induction selectorsFrom begun cs generalizing bracket prelude behind with
  | case1 => cases hp
  | case2 begun opener inside closer rest ihinside ihrest =>
    rw [Component.fitAll_append] at hfits
    rw [Component.lexemesOf_append, List.append_assoc, Component.lexemesOf, Component.lexemes,
      List.cons_append, List.cons_append, List.append_assoc, List.append_assoc] at hstanding
    obtain ⟨hopener, hinside⟩ := (Lexeme.standing_append.mp hstanding).2
    obtain hp | hp := List.mem_append.mp hp
    · split at hp
      · exact ihinside [] _ rfl (by simp) rfl hfits.2.1.2.1 hends.1.1 hinside hp
      · obtain rfl : begun.text = p := by
          cases begun <;> simp_all [Begun.selector, Begun.text]
        have hopen : opener.text = ['{'] :=
          hopener.usual.openCurly (Token.eq_opening hfits.2.1.1 (by decide))
        rw [hbegun, read_textOf hfits.1 hclosed (hstanding.cut hopen (by decide))]
        exact ⟨hprelude, hclosed⟩
    · have hrest := (Lexeme.standing_append.mp (Lexeme.standing_append.mp hinside).2).2
      exact ihrest [] _ rfl (by simp) rfl hfits.2.2 hends.2.1 hrest hp
  | case3 begun c rest hcurly ih =>
    have hcurly : ¬ IsCurly c := not_isCurly hcurly
    have hc : c.unclosed = [] := by
      refine Decidable.by_contra fun hne => ?_
      obtain rfl : rest = [] := hends.2.2 hne
      rw [selectorsFrom] at hp
      cases hp
    cases hnext : begun.next? c with
    | none =>
      rw [hnext] at hp ih
      rw [Component.lexemesOf_append, List.append_assoc, Component.lexemesOf,
        List.append_assoc] at hstanding
      have hrest := (Lexeme.standing_append.mp (Lexeme.standing_append.mp hstanding).2).2
      exact ih [] _ rfl (by simp) rfl (Component.fitAll_append.mp hfits).2.2 hends.2.1
        hrest hp
    | some begun' =>
      rw [hnext] at hp ih
      rw [List.append_cons] at hfits hstanding
      refine ih _ _ ?_ ?_ ?_ hfits hends.2.1 hstanding hp
      · simp [Begun.text_next? hnext, hbegun, Component.textOf_append, Component.textOf]
      · simpa [or_imp, forall_and] using ⟨hprelude, hcurly⟩
      · simp [Component.unclosedAll_append, Component.unclosedAll, hclosed, hc]

end Rule

/-! ### Stylesheets -/

namespace Component

mutual

/-- The lexemes between parentheses. -/
def parenthesized : Component → List Lexeme
  | plain _ => []
  | block _ .paren inside _ => lexemesOf inside
  | block _ _ inside _ => parenthesizedAll inside

def parenthesizedAll : List Component → List Lexeme
  | [] => []
  | c :: rest => c.parenthesized ++ parenthesizedAll rest

end

end Component

/-- Without curly brackets there is nothing to take over. -/
theorem Part.kept_of_lexemes {cs : List Component}
    (h : ∀ l ∈ Component.lexemesOf cs, l.token ≠ .opening .curly) {bracket : Option Bracket}
    (hfits : Component.FitAll bracket cs) : Kept cs := by
  fun_induction Kept cs generalizing bracket with
  | case1 => trivial
  | case2 opener inside closer rest ih =>
    have hopener := (Component.forall_lexemesOf_block.mp h).1
    exact absurd (Token.eq_opening hfits.1.1 (by decide)) hopener
  | case3 opener inside closer rest ih =>
    exact ih (Component.forall_lexemesOf_block.mp h).2.2.2 hfits.2
  | case4 opener inside closer rest ihinside ihrest =>
    obtain ⟨-, hinside, -, hrest⟩ := Component.forall_lexemesOf_block.mp h
    exact ⟨ihinside hinside hfits.1.2.1, ihrest hrest hfits.2⟩
  | case5 l rest ih => exact ih (List.forall_mem_cons.mp h).2 hfits.2

theorem Part.kept_of_parenthesized {cs : List Component} (hcurly : ∀ c ∈ cs, ¬ Rule.IsCurly c)
    (h : ∀ l ∈ Component.parenthesizedAll cs, l.token ≠ .opening .curly) {bracket : Option Bracket}
    (hfits : Component.FitAll bracket cs) : Kept cs := by
  fun_induction Kept cs generalizing bracket with
  | case1 => trivial
  | case2 opener inside closer rest ih =>
    exact absurd ⟨opener, inside, closer, rfl⟩ (List.forall_mem_cons.mp hcurly).1
  | case3 opener inside closer rest ih =>
    rw [Component.parenthesizedAll, List.forall_mem_append] at h
    exact ih (List.forall_mem_cons.mp hcurly).2 h.2 hfits.2
  | case4 opener inside closer rest ihinside ihrest =>
    rw [Component.parenthesizedAll, List.forall_mem_append] at h
    exact ⟨kept_of_lexemes h.1 hfits.1.2.1, ihrest (List.forall_mem_cons.mp hcurly).2 h.2 hfits.2⟩
  | case5 l rest ih =>
    rw [Component.parenthesizedAll, List.forall_mem_append] at h
    exact ih (List.forall_mem_cons.mp hcurly).2 h.2 hfits.2

namespace Stylesheet

/-- The texts of the selectors of style rules. -/
def selectors (css : Text) : List Text := Rule.selectorsFrom .none (Component.read css)

/-- The number of rules whose block the text leaves open. -/
def openBlocks (css : Text) : Nat := Rule.openBlocksFrom .none (Component.read css)

/-- Rules print as they were read, and those left open are closed. -/
theorem text_parse_eq {css : Text}
    (h : ∀ p ∈ selectors css, ∀ l ∈ Component.parenthesizedAll (Component.read p),
      l.token ≠ .opening .curly) :
    (parse css).text = css ++ List.replicate (openBlocks css) '}' := by
  have hstanding : Lexeme.Standing (Component.lexemesOf (Component.read css)) := by
    rw [Component.lexemesOf_read]
    exact Lexeme.standing_scan css
  have hfits := Component.fitAll_read css
  have hends := Component.endsAll_read css
  have hselectors : ∀ p ∈ selectors css, (Selector.parse p).text = p := fun p hp => by
    obtain ⟨hcurly, hclosed⟩ := Rule.read_selector [] [] rfl (by simp) rfl
      hfits hends (by rwa [List.append_nil]) hp
    exact (Selector.keeps_parse hclosed).eq_iff.mpr
      (Part.kept_of_parenthesized hcurly (h p hp) (Component.fitAll_read p))
  have htext := Rule.textOf_readFrom hfits hends hstanding.usual hselectors
  rwa [Component.textOf_read, Rule.Begun.text, List.nil_append] at htext

theorem openBlocks_of_closed {css : Text} (h : Component.unclosedAll (Component.read css) = []) :
    openBlocks css = 0 := Rule.openBlocksFrom_of_closed _ h

/-- **A stylesheet prints as it was written, with a closing bracket for each block left open**, if
no curly bracket opens between the parentheses of a selector. -/
theorem text_parse {css : Text}
    (h : ∀ p ∈ selectors css, ∀ l ∈ Component.parenthesizedAll (Component.read p),
      l.token ≠ .opening .curly) :
    (parse css).text = css ++ List.replicate (openBlocks css) '}' ∧
      (Component.unclosedAll (Component.read css) = [] → (parse css).text = css) := by
  have htext := text_parse_eq h
  refine ⟨htext, fun hclosed => ?_⟩
  rw [htext, openBlocks_of_closed hclosed, List.replicate_zero, List.append_nil]

/-- Of `@media x{.a{b`, two blocks are open. -/
theorem text_parse_media :
    let css := "@media x\x7b.a\x7bb".toList
    (∀ p ∈ selectors css, ∀ l ∈ Component.parenthesizedAll (Component.read p),
      l.token ≠ .opening .curly) ∧ openBlocks css = 2 ∧ (parse css).text = css ++ ['}', '}'] := by
  intro css
  have hread : Component.read css =
      [.plain ⟨.atKeyword "media".toList, "@media".toList⟩, .plain ⟨.whitespace, [' ']⟩,
        .plain ⟨.ident ['x'], ['x']⟩,
        .block ⟨.opening .curly, ['{']⟩ .curly [.plain ⟨.delim '.', ['.']⟩,
          .plain ⟨.ident ['a'], ['a']⟩,
          .block ⟨.opening .curly, ['{']⟩ .curly [.plain ⟨.ident ['b'], ['b']⟩] none] none] := by
    rfl
  have hgroup : Rule.isGroup ['m', 'e', 'd', 'i', 'a'] = true := by decide
  have hselectors : selectors css = [".a".toList] := by
    simp [selectors, hread, Rule.selectorsFrom, Rule.Begun.next?, Rule.isSeparator,
      Rule.Begun.isGroup, Rule.Begun.selector, Rule.Begun.text, Component.text, hgroup]
  have hopen : openBlocks css = 2 := by
    simp [openBlocks, hread, Rule.openBlocksFrom, Rule.Begun.next?, Rule.isSeparator,
      Rule.Begun.isGroup, hgroup]
  have hcurly : ∀ p ∈ selectors css, ∀ l ∈ Component.parenthesizedAll (Component.read p),
      l.token ≠ .opening .curly := by
    rw [hselectors]
    decide +kernel
  refine ⟨hcurly, hopen, ?_⟩
  rw [(text_parse hcurly).1, hopen]
  rfl

end Stylesheet

end TerseMarkup.Css
