import Mathlib.Data.List.SplitBy
import TerseMarkup.Proofs.Html.Construction.Nested.Content

/-! Tokens that nest.

Text goes to the end of the node where construction rests. Directly inside a table that is put off
until the next token (`KeepsBack`); there only spaces nest. With them kept back or not, construction is
ready for a tag or a comment (`Ready`). -/
namespace TerseMarkup.Html
open Builder

section

variable {stack : List Handle} {path : List Node.Frame} {f : Node.Frame} {done : List Node}
  {b : Builder}

/-! ### Runs of text -/

/-- Text is taken in runs of spaces and of other characters. -/
def runs (s : Text) : List Text := s.splitBy fun c d => Text.isSpace c == Text.isSpace d

theorem flatten_runs (s : Text) : (runs s).flatten = s := List.flatten_splitBy _ _

theorem runs_of_isSpaces {s : Text} (hs : s ≠ []) (h : isSpaces s = true) : runs s = [s] := by
  refine List.splitBy_of_isChain hs (List.Pairwise.isChain (List.pairwise_of_forall_mem_list ?_))
  intro c hc d hd
  rw [isSpaces, List.all_eq_true] at h
  rw [h c hc, h d hd, beq_self_eq_true]

theorem isSpaces_of_mem_runs {s run : Text} (h : isSpaces s = true) (hrun : run ∈ runs s) :
    isSpaces run = true := by
  rw [isSpaces, List.all_eq_true] at h ⊢
  exact fun c hc => h c (flatten_runs s ▸ List.mem_flatten_of_mem hrun hc)

/-- The modes in which text goes to the end of the node, in some if it is spaces. -/
def Mode.takesText (mode : Mode) (run : Text) : Bool :=
  [inBody, inTemplate, inCaption, inCell, inText, inSelect, inSelectInTable].contains mode ||
    ([inHead, inColumnGroup].contains mode && isSpaces run)

/-- Whether a run of text goes to the end of the node inside elements of these names: it does in SVG
and MathML, and elsewhere if the mode takes it. -/
def Setting.puts (inside : List ElementName) (mode : Mode) (run : Text) : Bool :=
  isForeign inside (.text run) || mode.takesText run

theorem Stands.take_text (h : Stands stack path f done b) {run : Text}
    (hputs : Setting.puts (namesOf stack) b.mode run = true) :
    Stands stack path f (joined done run) (b.take (.text run)) ∧
      ∃ root framesetOk, b.take (.text run) = { b with root, framesetOk } := by
  have hput (framesetOk : Bool) :
      Stands stack path f (joined done run) ({ b with framesetOk }.putText run) ∧
        ∃ root framesetOk', { b with framesetOk }.putText run = { b with
          root, framesetOk := framesetOk' } := by
    have hstands : Stands stack path f done { b with framesetOk } := { h with }
    exact ⟨hstands.putText run, _, _, hstands.put_eq _⟩
  by_cases hforeign : Setting.isForeign (namesOf stack) (.text run) = true
  · have hstep : b.step (.text run) =
        .done ((if isSpaces run then b else { b with framesetOk := false }).putText run) := by
      rw [step, h.isForeign_eq, if_pos hforeign]
      rfl
    rw [take_of_done hstep]
    split
    · exact hput b.framesetOk
    · exact hput false
  rw [Bool.not_eq_true] at hforeign
  have hbody : b.inMode (.text run) = .done (b.bodyText run) →
      Stands stack path f (joined done run) (b.take (.text run)) ∧
        ∃ root framesetOk, b.take (.text run) = { b with root, framesetOk } := by
    intro hstep
    rw [take_of_done ((h.step_eq hforeign).trans hstep), bodyText, h.reopenFormatting_eq]
    split
    · exact hput b.framesetOk
    · exact hput false
  have hplain : b.inMode (.text run) = .done (b.putText run) →
      Stands stack path f (joined done run) (b.take (.text run)) ∧
        ∃ root framesetOk, b.take (.text run) = { b with root, framesetOk } := by
    intro hstep
    rw [take_of_done ((h.step_eq hforeign).trans hstep)]
    exact hput b.framesetOk
  have hmode : b.mode.takesText run = true := by rwa [Setting.puts, hforeign, Bool.false_or] at hputs
  rw [Mode.takesText, Bool.or_eq_true, Bool.and_eq_true, List.contains_iff_mem,
    List.contains_iff_mem] at hmode
  simp only [List.mem_cons, List.not_mem_nil, or_false] at hmode
  rcases hmode with (hmode | hmode | hmode | hmode | hmode | hmode | hmode) | ⟨hmode | hmode, hspaces⟩
  · exact hbody (by rw [inMode, hmode]; rfl)
  · exact hbody (by rw [inMode, hmode]; rfl)
  · exact hbody (by rw [inMode, hmode]; rfl)
  · exact hbody (by rw [inMode, hmode]; rfl)
  · exact hplain (by rw [inMode, hmode]; rfl)
  · exact hplain (by rw [inMode, hmode]; rfl)
  · exact hplain (by rw [inMode, hmode]; rfl)
  · exact hplain (by rw [inMode, hmode]; exact if_pos hspaces)
  · exact hplain (by rw [inMode, hmode]; exact if_pos hspaces)

theorem Stands.acceptText (h : Stands stack path f done b) {s : Text} (hs : s ≠ [])
    (hputs : ∀ run ∈ runs s, Setting.puts (namesOf stack) b.mode run = true) :
    Stands stack path f (joined done s) (b.acceptText s) ∧
      ∃ root framesetOk, b.acceptText s = { b with root, framesetOk } := by
  have hruns (rest : List Text) : ∀ {done : List Node} {b' : Builder} (run : Text),
      (∀ run' ∈ run :: rest, Setting.puts (namesOf stack) b.mode run' = true) →
      Stands stack path f done b' → (∃ root framesetOk, b' = { b with root, framesetOk }) →
      Stands stack path f (joined done (run :: rest).flatten)
          ((run :: rest).foldl (fun b run => b.take (.text run)) b') ∧
        ∃ root framesetOk, (run :: rest).foldl (fun b run => b.take (.text run)) b' =
          { b with root, framesetOk } := by
    induction rest with
    | nil =>
      rintro done b' run hputs h' ⟨root, framesetOk, rfl⟩
      obtain ⟨htext, root', framesetOk', heq⟩ := h'.take_text (hputs run List.mem_cons_self)
      rw [List.flatten_cons, List.flatten_nil, List.append_nil]
      exact ⟨htext, root', framesetOk', heq⟩
    | cons next rest ih =>
      rintro done b' run hputs h' ⟨root, framesetOk, rfl⟩
      obtain ⟨hrun, hrest⟩ := List.forall_mem_cons.mp hputs
      obtain ⟨htext, root', framesetOk', heq⟩ := h'.take_text hrun
      have hwhole := ih next hrest htext ⟨root', framesetOk', heq⟩
      rw [joined_joined] at hwhole
      exact hwhole
  obtain ⟨run, rest, hsplit⟩ : ∃ run rest, runs s = run :: rest :=
    List.exists_cons_of_ne_nil (List.splitBy_ne_nil.mpr hs)
  have hall := hruns rest run (hsplit ▸ hputs) h ⟨_, _, rfl⟩
  rwa [← hsplit, flatten_runs] at hall

/-- Text of which no line feed is dropped is taken as it is. -/
theorem Builder.accept_text {b : Builder} {s : Text}
    (hdrop : b.dropNewline = true → s.head? ≠ some '\n') :
    b.accept (.text s) = { b with dropNewline := false }.acceptText s := by
  have hkept : (if b.dropNewline then withoutNewline s else s) = s := by
    split
    next hdropped =>
      rw [withoutNewline.eq_2]
      rintro r rfl
      exact hdrop hdropped rfl
    · rfl
  rw [accept, hkept]

theorem Holds.accept_text {content : Content} {r : Builder} (h : Holds stack path f done content r b)
    {s : Text} (hs : s ≠ []) (hdrop : b.dropNewline = true → s.head? ≠ some '\n') :
    Holds stack path f (joined done s) content r (b.accept (.text s)) := by
  have hstands : Stands stack path f done { b with dropNewline := false } := { h.stands with }
  obtain ⟨htext, root, framesetOk, heq⟩ := hstands.acceptText hs fun run _ => by
    show Setting.puts (namesOf stack) b.mode run = true
    rw [Setting.puts, h.mode]
    exact Bool.or_true _
  rw [Builder.accept_text hdrop]
  rw [heq] at htext ⊢
  exact ⟨htext, h.content_eq, h.mode, h.returnMode, h.tableText, h.head, h.templateModes, h.form⟩

/-! ### Text that waits -/

/-- The settings directly inside a table or a part of one. -/
def Setting.inTables : List Setting := [table, rows, cells]

/-- Spaces directly inside a table have been kept back. -/
structure KeepsBack (stack : List Handle) (path : List Node.Frame) (f : Node.Frame)
    (done : List Node) (t : Text) (b : Builder) : Prop where
  setting : Setting.of (namesOf stack) ∈ Setting.inTables
  mode : b.mode = .inTableText
  tableText : b.tableText = [t]
  spaces : isSpaces t = true
  inside : Opening.outsideOf tableParts (namesOf stack) = false
  rests : Rests stack path f done { b with mode := b.returnMode, tableText := [] }

/-- Construction rests in a node, but for spaces that have been kept back. -/
def Ready (stack : List Handle) (path : List Node.Frame) (f : Node.Frame) (done : List Node)
    (b : Builder) : Prop :=
  Rests stack path f done b ∨
    ∃ done' t, done = joined done' t ∧ KeepsBack stack path f done' t b

/-- Outside tables nothing is kept back. -/
theorem Ready.rests_outside (h : Ready stack path f done b)
    (houtside : Setting.of (namesOf stack) ∉ Setting.inTables) : Rests stack path f done b :=
  h.resolve_right fun ⟨_, _, _, hback⟩ => houtside hback.setting

/-- A tag or a comment. -/
def Token.isMark : Token → Bool
  | .start _ | .finish _ | .comment _ => true
  | _ => false

/-- Nothing but text is told from other tokens by a line feed that is to be dropped. -/
theorem Rests.plain (h : Rests stack path f done b) :
    Rests stack path f done { b with dropNewline := false } :=
  h.sameRules { h.stands with } ⟨rfl, rfl, rfl, rfl, rfl, rfl⟩

theorem Ready.plain (h : Ready stack path f done b) :
    Ready stack path f done { b with dropNewline := false } :=
  h.imp Rests.plain fun ⟨done', t, hdone, hback⟩ =>
    ⟨done', t, hdone, hback.setting, hback.mode, hback.tableText, hback.spaces, hback.inside,
      hback.rests.plain⟩

/-- The next tag or comment brings back what has been kept back. -/
theorem Ready.flush (h : Ready stack path f done b) :
    ∃ r, Rests stack path f done r ∧ Follows stack b r ∧ r.dropNewline = b.dropNewline ∧
      ∀ {n : ℕ} {t : Token} {b' : Builder}, t.isMark = true → SettlesIn n r t b' →
        SettlesIn (n + 1) b t b' := by
  rcases h with h | ⟨done', s, rfl, hback⟩
  · exact ⟨b, h, .refl b, rfl, fun _ hsettles => hsettles.mono (Nat.le_succ _)⟩
  · set b₀ : Builder := { b with mode := b.returnMode, tableText := [] } with hb₀
    have hput : b₀.putText s = { b₀ with
        root := Node.within path (f.branch (joined done' s)) } := hback.rests.stands.put_eq _
    refine ⟨b₀.putText s, hback.rests.sameRules (hback.rests.stands.putText s) (sameRules_put b₀ _),
      ?_, ?_, fun {n t b'} ht hsettles => settlesIn_of_again ?_ hsettles⟩
    · rw [hput]
      exact .of_eq rfl rfl
    · rw [hput]
    · have hstands : Stands stack path f done' b := { hback.rests.stands with }
      have htable : b.inTableText t = .again (if b.tableText.reverse.all isSpaces then
          b.tableText.reverse.foldl putText b₀ else b.tableText.reverse.foldl fosterText b₀) t := by
        cases t <;> first | rfl | cases ht
      have hall : [s].reverse.all isSpaces = true := by simpa using hback.spaces
      rw [hstands.step_eq (Setting.isForeign_of_outsideOf hback.inside t), inMode, hback.mode]
      show b.inTableText t = _
      rw [htable, hback.tableText, if_pos hall]
      rfl

/-- A tag or a comment is looked at where construction rests. -/
theorem Ready.accept_mark (h : Ready stack path f done b) :
    ∃ r, Rests stack path f done r ∧ Follows stack b r ∧ r.dropNewline = false ∧
      ∀ {t : Token} {b' : Builder}, t.isMark = true → SettlesIn 2 r t b' → b.accept t = b' := by
  obtain ⟨r, hrests, hfollows, hdrop, hsettles⟩ := h.plain.flush
  have hsame : Follows stack b { b with dropNewline := false } := .of_eq rfl rfl
  refine ⟨r, hrests, hsame.trans hfollows, hdrop, fun {t b'} ht hr => ?_⟩
  have haccept : b.accept t = { b with dropNewline := false }.take t := by
    cases t <;> first | rfl | cases ht
  rw [haccept]
  exact (hsettles ht hr).take_eq (by decide)

/-! ### Text and comments -/

/-- Whether text may stand inside elements of these names. In SVG and MathML it may everywhere. -/
def Setting.takes (inside : List ElementName) (t : Text) : Bool :=
  isForeign inside (.text t) ||
    match of inside with
    | flow | options => true
    | metadata | columns => isSpaces t
    | table | rows | cells => isSpaces t && !Opening.outsideOf tableParts inside

section Text

variable {s : Text} (hs : s ≠ []) (hdrop : b.dropNewline = true → s.head? ≠ some '\n')
include hs hdrop

/-- In most settings text is put in at once. -/
theorem Rests.accept_puts (h : Rests stack path f done b)
    (hputs : ∀ run ∈ runs s, Setting.puts (namesOf stack) b.mode run = true) :
    Ready stack path f (joined done s) (b.accept (.text s)) ∧
      Follows stack b (b.accept (.text s)) ∧ (b.accept (.text s)).dropNewline = false := by
  have hplain := h.plain
  obtain ⟨htext, root, framesetOk, heq⟩ := hplain.stands.acceptText hs hputs
  rw [Builder.accept_text hdrop]
  rw [heq] at htext ⊢
  exact ⟨.inl (hplain.sameRules { htext with } ⟨rfl, rfl, rfl, rfl, rfl, rfl⟩), .of_eq rfl rfl, rfl⟩

/-- Directly in a table spaces are kept back. -/
theorem Rests.accept_waits (h : Rests stack path f done b)
    (hsetting : Setting.of (namesOf stack) ∈ Setting.inTables)
    (hmode : b.mode ∈ [.inTable, .inTableBody, .inRow]) (hspaces : isSpaces s = true)
    (hinside : Opening.outsideOf tableParts (namesOf stack) = false) :
    Ready stack path f (joined done s) (b.accept (.text s)) ∧
      Follows stack b (b.accept (.text s)) ∧ (b.accept (.text s)).dropNewline = false := by
  have hplain := h.plain
  rw [Builder.accept_text hdrop]
  set b₀ : Builder := { b with dropNewline := false }
  set b₁ : Builder := { b₀ with returnMode := b₀.mode, mode := .inTableText }
  have hhtml := Setting.isForeign_of_outsideOf hinside
  have htable : b₀.inTable (.text s) = .again b₁ (.text s) := by
    obtain ⟨e, rest, rfl, hstack, -⟩ := hplain.stands.exists_stack
    refine if_pos ?_
    rw [currentIs_top hstack]
    simpa [Opening.outsideOf, namesOf] using hinside
  have hagain : b₀.step (.text s) = .again b₁ (.text s) := by
    rw [hplain.stands.step_eq (hhtml _), ← htable, inMode]
    simp only [List.mem_cons, List.not_mem_nil, or_false] at hmode
    have hsame : b₀.mode = b.mode := rfl
    rw [hsame]
    rcases hmode with hmode | hmode | hmode <;> rw [hmode] <;> rfl
  have hstands : Stands stack path f done b₁ := { hplain.stands with }
  have hdone : b₁.step (.text s) = .done { b₁ with tableText := s :: b₁.tableText } := by
    rw [hstands.step_eq (hhtml _)]
    rfl
  have htake : b₀.acceptText s = { b₁ with tableText := s :: b₁.tableText } := by
    have hone : s.splitBy _ = [s] := runs_of_isSpaces hs hspaces
    have hrun : b₀.acceptText s = b₀.take (.text s) := by
      rw [Builder.acceptText, hone]
      rfl
    rw [hrun]
    exact (settlesIn_of_again hagain (settlesIn_of_done hdone)).take_eq (by decide)
  rw [htake]
  refine ⟨.inr ⟨done, s, rfl, hsetting, rfl, congrArg (s :: ·) h.tableText, hspaces, hinside, ?_⟩,
    .of_eq rfl rfl, rfl⟩
  exact hplain.sameRules { hplain.stands with } ⟨rfl, rfl, rfl, h.tableText.symm, rfl, rfl⟩

/-- **Text that may stand where construction rests goes there**, at once or with what comes next. -/
theorem Rests.accept_text (h : Rests stack path f done b)
    (htakes : Setting.takes (namesOf stack) s = true) :
    Ready stack path f (joined done s) (b.accept (.text s)) ∧
      Follows stack b (b.accept (.text s)) ∧ (b.accept (.text s)).dropNewline = false := by
  by_cases hforeign : Setting.isForeign (namesOf stack) (.text s) = true
  · -- whether the rules for SVG and MathML look at a text does not depend on what it says
    exact h.accept_puts hs hdrop fun _ _ => Bool.or_eq_true_iff.mpr (.inl hforeign)
  have hall (hmode : b.mode ∈ [.inBody, .inTemplate, .inCaption, .inCell, .inText, .inSelect,
      .inSelectInTable]) := h.accept_puts hs hdrop fun run _ => by
    rw [Setting.puts, Mode.takesText, List.contains_iff_mem.mpr hmode, Bool.true_or, Bool.or_true]
  have hspaces (hmode : b.mode ∈ [.inHead, .inColumnGroup]) (hspaces : isSpaces s = true) :=
    h.accept_puts hs hdrop fun run hrun => by
      rw [Setting.puts, Mode.takesText, List.contains_iff_mem.mpr hmode,
        isSpaces_of_mem_runs hspaces hrun, Bool.and_self, Bool.or_true, Bool.or_true]
  by_cases hflow : Setting.of (namesOf stack) = .flow
  · refine hall ?_
    rcases h.inForce.mode_mem with hmode | ⟨hmode, -⟩
    · rw [hflow] at hmode
      exact (by decide : ∀ m ∈ Setting.flow.modes, _) _ hmode
    · rw [hmode]
      decide
  have hmode := h.mode_mem hflow
  have hwaits (hsetting : Setting.of (namesOf stack) ∈ Setting.inTables)
      (hmode : b.mode ∈ [.inTable, .inTableBody, .inRow])
      (htakes : (isSpaces s && !Opening.outsideOf tableParts (namesOf stack)) = true) := by
    obtain ⟨hspaces, hinside⟩ := Bool.and_eq_true_iff.mp htakes
    exact h.accept_waits hs hdrop hsetting hmode hspaces ((Bool.not_eq_true' _).mp hinside)
  rw [Setting.takes, Bool.eq_false_iff.mpr hforeign, Bool.false_or] at htakes
  cases hsetting : Setting.of (namesOf stack) <;> rw [hsetting] at htakes hmode hwaits
  case flow => exact absurd hsetting hflow
  case options => exact hall ((by decide : ∀ m ∈ Setting.options.modes, _) _ hmode)
  case metadata => exact hspaces ((by decide : ∀ m ∈ Setting.metadata.modes, _) _ hmode) htakes
  case columns => exact hspaces ((by decide : ∀ m ∈ Setting.columns.modes, _) _ hmode) htakes
  all_goals
    have hmode := List.mem_singleton.mp hmode
    exact hwaits (by decide) (by rw [hmode]; decide) htakes

end Text

/-- From `b` construction has come behind a node: it rests in the same place again. -/
structure Behind (stack : List Handle) (path : List Node.Frame) (f : Node.Frame) (done : List Node)
    (n : Node) (b b' : Builder) : Prop where
  rests : Rests stack path f (done ++ [n]) b'
  follows : Follows stack b b'
  dropNewline : b'.dropNewline = false

/-- Construction may have come to where the node starts from elsewhere. -/
theorem Behind.after {n : Node} {r b b' : Builder} (h : Behind stack path f done n r b')
    (hfollows : Follows stack b r) : Behind stack path f done n b b' :=
  { h with follows := hfollows.trans h.follows }

theorem Completes.behind {n : Node} {r r' b b' : Builder}
    (h : Completes stack path f (done ++ [n]) r r' b') (hfollows : Follows stack b r)
    (hdrop : r'.dropNewline = false) : Behind stack path f done n b b' :=
  ⟨h.rests, hfollows.trans (.of_eq h.head h.templateModes), h.dropNewline.trans hdrop⟩

/-- **A comment goes where construction rests**, in every setting. -/
theorem Ready.accept_comment (h : Ready stack path f done b) (c : Text) :
    Behind stack path f done (.comment c) b (b.accept (.comment c)) := by
  obtain ⟨r, hrests, hfollows, hdrop, haccept⟩ := h.accept_mark
  have hstep : r.step (.comment c) = .done (r.putComment c) := by
    have hmode := hrests.inForce.mode_mem
    rw [step]
    split
    · rfl
    rw [inMode]
    cases hsetting : Setting.of (namesOf stack) <;> rw [hsetting] at hmode <;>
      simp only [Setting.modes, List.mem_cons, List.not_mem_nil, or_false, reduceCtorEq,
        and_false, and_true] at hmode
    case flow => rcases hmode with (hmode | hmode | hmode) | hmode <;> rw [hmode] <;> rfl
    case options => rcases hmode with hmode | hmode <;> rw [hmode] <;> rfl
    all_goals rw [hmode] ; rfl
  rw [haccept rfl ((settlesIn_of_done hstep).mono (by decide))]
  have hput := hrests.stands.put_eq (.node (.comment c))
  refine ⟨hrests.sameRules (hrests.stands.putComment c) (sameRules_put r _), ?_, ?_⟩
  · refine hfollows.trans ?_
    rw [putComment, hput]
    exact .of_eq rfl rfl
  · rw [putComment, hput]
    exact hdrop

/-! ### Tags -/

variable {t : Tag}

/-- A start tag that nests puts in or opens an element of its own kind. -/
theorem Ready.accept_role (h : Ready stack path f done b) {role : Role}
    (hrole : Setting.role? (namesOf stack) t.name = some role) (hopens : role ≠ .opens) :
    ∃ r framesetOk, Rests stack path f done r ∧ Follows stack b r ∧ r.dropNewline = false ∧
      b.accept (.start t) = role.start framesetOk r t := by
  obtain ⟨r, hrests, hfollows, hdrop, haccept⟩ := h.accept_mark
  obtain ⟨r', framesetOk, hrests', hfollows', hdrop', hsettles⟩ :=
    hrests.start_role hdrop hrole hopens
  exact ⟨r', framesetOk, hrests', hfollows.trans hfollows', hdrop', haccept rfl hsettles⟩

/-- **A start tag of an element without content puts that in.** -/
theorem Ready.accept_empty (h : Ready stack path f done b)
    (hrole : Setting.role? (namesOf stack) t.name = some .empty) :
    ∃ id, Behind stack path f done (.element id ⟨.html, t.name⟩ t.attributes []) b
      (b.accept (.start t)) := by
  have htemplate : t.name ≠ "template" := by
    intro heq
    have hvoid : ElementName.isVoid ⟨.html, t.name⟩ = true := Setting.role?_fits hrole
    rw [heq] at hvoid
    exact absurd hvoid (by decide)
  obtain ⟨r, framesetOk, hrests, hfollows, hdrop, heq⟩ := h.accept_role hrole (by simp)
  exact ⟨r.nextId, heq ▸ (hrests.completes_empty htemplate framesetOk).behind hfollows hdrop⟩

/-- **A start tag that nests opens its element.** -/
theorem Ready.accept_opens (h : Ready stack path f done b)
    (hrole : Setting.role? (namesOf stack) t.name = some .opens) :
    ∃ r, Rests stack path f done r ∧ Follows stack b r ∧ r.dropNewline = false ∧
      Opens stack path f done r t (b.accept (.start t)) := by
  obtain ⟨r, hrests, hfollows, hdrop, haccept⟩ := h.accept_mark
  obtain ⟨r', b', hrests', hfollows', hdrop', hsettles, hopens⟩ := hrests.start_opens hrole
  exact ⟨r', hrests', hfollows.trans hfollows', hdrop'.trans hdrop,
    haccept rfl hsettles ▸ hopens⟩

/-- Only where what a template holds shows, its mode changes. -/
theorem Rests.templateModes_eq {e : Handle} (h : Rests (e :: stack) path f done b)
    (hname : e.name ≠ ⟨.html, "template"⟩) {b' : Builder} (hfollows : Follows (e :: stack) b b') :
    b'.templateModes = b.templateModes :=
  hfollows.templateModes.resolve_right fun ⟨hreset, _⟩ => (h.inForce.ne_inTemplate hname).2 hreset

/-- **The end tag of the element opened last closes that.** -/
theorem Ready.accept_finish {r b₁ : Builder} {f' : Node.Frame} {done' : List Node}
    (hopens : Opens stack path f done r t b₁) (hparent : Rests stack path f done r)
    (hrole : Setting.role? (namesOf stack) t.name = some .opens)
    (h : Ready (newElement r t :: stack) (path ++ [f.holding done]) f' done' b)
    (hfollows : Follows (newElement r t :: stack) b₁ b) :
    Behind stack path f done (f'.branch done') r (b.accept (.finish t.name)) := by
  obtain ⟨r', hrests, hfollows', hdrop, haccept⟩ := h.accept_mark
  have hname : (newElement r t).name ≠ ⟨.html, "template"⟩ := fun heq =>
    (Setting.role?_fits hrole).1 (ElementName.mk.inj heq).2
  have hfollows := hfollows.trans hfollows'
  obtain ⟨b', hsettles, hcompletes⟩ := hparent.finish_opened hrests
    (hfollows.head.trans hopens.head)
    ((hopens.rests.templateModes_eq hname hfollows).trans hopens.templateModes) rfl hrole
  exact haccept rfl hsettles ▸ hcompletes.behind (.refl r) hdrop

/-- **The end tag of a template closes it.** -/
theorem Ready.accept_finishTemplate {r : Builder} {inner : List Node.Frame} {f' : Node.Frame}
    {done' : List Node} (hname : t.name = "template") (hparent : Rests stack path f done r)
    (h : Ready (newTemplate r t :: stack) (path ++ f.holding done :: inner) f' done' b)
    (hfollows : Follows (newTemplate r t :: stack) (r.templateStart t) b) :
    Behind stack path f done (Node.within inner (f'.branch done')) r
      (b.accept (.finish "template")) := by
  obtain ⟨r', hrests, hfollows', hdrop, haccept⟩ := h.accept_mark
  have hfollows := hfollows.trans hfollows'
  obtain ⟨-, hhead, hmodes, -⟩ := hparent.opens_template hname
  have hmodes : r'.templateModes.drop 1 = r.templateModes := by
    rcases hfollows.templateModes with heq | ⟨-, heq⟩
    · rw [heq, hmodes, List.drop_one, List.tail_cons]
    · rw [heq, hmodes]
      rfl
  obtain ⟨b', hsettles, hcompletes⟩ := hparent.finish_template hrests
    (congrArg (ElementName.mk .html) hname) (hfollows.head.trans hhead) hmodes
  exact haccept rfl hsettles ▸ hcompletes.behind (.refl r) hdrop

/-- **The end tag of an element that holds text closes it.** -/
theorem Holds.accept_finish {r : Builder} {f' : Node.Frame} {done' : List Node} {content : Content}
    (hname : t.name ∈ heldNames) (hparent : Rests stack path f done r)
    (h : Holds (newElement r t :: stack) (path ++ [f.holding done]) f' done' content r b) :
    Behind stack path f done (f'.branch done') r
      ({ b with content := .data }.accept (.finish t.name)) := by
  have hplain : Holds (newElement r t :: stack) (path ++ [f.holding done]) f' done' content r
      { b with dropNewline := false } := { h with stands := { h.stands with } }
  obtain ⟨b', hsettles, hcompletes⟩ := hplain.finish hparent rfl hname
  have haccept : { b with content := .data }.accept (.finish t.name) = b' :=
    hsettles.take_eq (by decide)
  exact haccept ▸ hcompletes.behind (.refl r) rfl

end
end TerseMarkup.Html
