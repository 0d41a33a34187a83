import TerseMarkup.Proofs.Html.Construction.Nested.Setting

/-! Where construction rests.

Between two tokens of content construction rests in a node (`Rests`): it stands there, and the rules
of the setting are in force. Whatever a rule puts in or opens, it rests again if the rules are the
same (`SameRules`), and whatever it closes if they are those of the node around
(`Rests.closed`). -/
namespace TerseMarkup.Html
open Builder

/-! ### Looks -/

/-- Construction is done with a token after `n` looks at it. -/
def SettlesIn (n : ℕ) (b : Builder) (t : Token) (b' : Builder) : Prop :=
  ∀ fuel, n ≤ fuel → b.settle fuel t = b'

section Looks

variable {b b' b'' : Builder} {t t' : Token} {m n : ℕ}

theorem settlesIn_of_done (h : b.step t = .done b') : SettlesIn 1 b t b' := by
  intro fuel hfuel
  obtain ⟨fuel, rfl⟩ := Nat.exists_eq_add_of_le' hfuel
  rw [settle, h]

theorem settlesIn_of_again (h : b.step t = .again b' t') (h' : SettlesIn n b' t' b'') :
    SettlesIn (n + 1) b t b'' := by
  intro fuel hfuel
  obtain ⟨fuel, rfl⟩ : ∃ k, fuel = k + 1 := ⟨fuel - 1, by omega⟩
  rw [settle, h]
  exact h' fuel (Nat.le_of_succ_le_succ hfuel)

theorem SettlesIn.mono (h : SettlesIn m b t b') (hle : m ≤ n) : SettlesIn n b t b' :=
  fun fuel hfuel => h fuel (Nat.le_trans hle hfuel)

theorem SettlesIn.take_eq (h : SettlesIn n b t b') (hn : n ≤ 48) : b.take t = b' :=
  h _ (by omega)

theorem take_of_done (h : b.step t = .done b') : b.take t = b' :=
  (settlesIn_of_done h).take_eq (by decide)

end Looks

/-! ### Rules -/

/-- Neither the mode nor what else the rules go by has changed. -/
structure SameRules (b b' : Builder) : Prop where
  mode : b'.mode = b.mode
  content : b'.content = b.content
  templateModes : b'.templateModes = b.templateModes
  tableText : b'.tableText = b.tableText
  head : b'.head = b.head
  form : b'.form = b.form

theorem sameRules_put (b : Builder) (p : Piece) : SameRules b (b.put p) := by
  obtain ⟨root, failed, h⟩ := put_eq b p
  rw [h]
  exact ⟨rfl, rfl, rfl, rfl, rfl, rfl⟩

theorem snd_putElement_eq (b : Builder) (space : Namespace) (t : Tag) :
    ∃ root nextId failed, (b.putElement space t).2 = { b with root, nextId, failed } := by
  rw [putElement_eq]
  obtain ⟨root, failed, hput⟩ := put_eq { b with nextId := nextAfter b.nextId ⟨space, t.name⟩ }
    (.node (.element b.nextId ⟨space, t.name⟩ t.attributes (newChildren b.nextId ⟨space, t.name⟩)))
  exact ⟨_, _, _, hput⟩

theorem snd_pushElement_eq (b : Builder) (space : Namespace) (t : Tag) :
    ∃ root nextId stack failed,
      (b.pushElement space t).2 = { b with root, nextId, stack, failed } := by
  rw [pushElement_eq]
  obtain ⟨root, nextId, failed, hput⟩ := snd_putElement_eq b space t
  rw [hput]
  exact ⟨_, _, _, _, rfl⟩

theorem putEmpty_eq (b : Builder) (t : Tag) :
    ∃ root nextId failed, b.putEmpty t = { b with root, nextId, failed } :=
  snd_putElement_eq b .html t

theorem push_eq (b : Builder) (t : Tag) :
    ∃ root nextId stack failed, b.push t = { b with root, nextId, stack, failed } :=
  snd_pushElement_eq b .html t

/-- The form that is open. One inside a template does not count. -/
def openForm : List Handle → Option Handle
  | [] => none
  | e :: rest =>
    if e.name.isHtml ["form"] && !rest.any (·.name.isHtml ["template"]) then some e
    else openForm rest

theorem openForm_cons {e : Handle} (hform : e.name.isHtml ["form"] = false) (stack : List Handle) :
    openForm (e :: stack) = openForm stack := by
  rw [openForm, hform, Bool.false_and, if_neg Bool.false_ne_true]

theorem openForm_eq_none {stack : List Handle}
    (h : (namesOf stack).any (·.isHtml ["form"]) = false) : openForm stack = none := by
  induction stack with
  | nil => rfl
  | cons e stack ih =>
    rw [namesOf, List.map_cons, List.any_cons, Bool.or_eq_false_iff] at h
    rw [openForm_cons h.1, ih h.2]

/-- Construction rests in a node, where the rules of the setting are in force. -/
structure Rests (stack : List Handle) (path : List Node.Frame) (f : Node.Frame)
    (done : List Node) (b : Builder) : Prop where
  stands : Stands stack path f done b
  content : b.content = .data
  tableText : b.tableText = []
  inForce : InForce stack b.mode (b.modeFor stack)
  form : b.form = openForm stack

/-- Where what a template holds shows, its mode changes; nothing else changes for good. -/
structure Follows (stack : List Handle) (b b' : Builder) : Prop where
  head : b'.head = b.head
  templateModes : b'.templateModes = b.templateModes ∨
    b.modeFor stack = .inTemplate ∧ b'.templateModes = .inBody :: b.templateModes.drop 1

namespace Follows

variable {stack : List Handle} {b b' b'' : Builder}

theorem refl (b : Builder) : Follows stack b b := ⟨rfl, .inl rfl⟩

theorem of_eq (hhead : b'.head = b.head) (hmodes : b'.templateModes = b.templateModes) :
    Follows stack b b' := ⟨hhead, .inl hmodes⟩

theorem trans (h : Follows stack b b') (h' : Follows stack b' b'') : Follows stack b b'' := by
  refine ⟨h'.head.trans h.head, ?_⟩
  rcases h.templateModes with heq | ⟨htemplate, heq⟩ <;>
    rcases h'.templateModes with heq' | ⟨htemplate', heq'⟩
  · exact .inl (heq'.trans heq)
  · refine .inr ⟨(modeFor_congr heq h.head stack) ▸ htemplate', ?_⟩
    rw [heq', heq]
  · exact .inr ⟨htemplate, heq'.trans heq⟩
  · refine .inr ⟨htemplate, ?_⟩
    rw [heq', heq]
    rfl

end Follows

namespace Rests

variable {stack : List Handle} {path : List Node.Frame} {f : Node.Frame} {done : List Node}
  {b : Builder}

theorem mode_mem (h : Rests stack path f done b) (hother : Setting.of (namesOf stack) ≠ .flow) :
    b.mode ∈ (Setting.of (namesOf stack)).modes :=
  h.inForce.mode_mem.resolve_right fun hmode => hother hmode.2

/-- Something has been put into the node. -/
theorem sameRules (h : Rests stack path f done b) {done' : List Node} {b' : Builder}
    (hstands : Stands stack path f done' b') (hsame : SameRules b b') :
    Rests stack path f done' b' where
  stands := hstands
  content := hsame.content.trans h.content
  tableText := hsame.tableText.trans h.tableText
  inForce := by
    rw [hsame.mode, modeFor_congr hsame.templateModes hsame.head]
    exact h.inForce
  form := hsame.form ▸ h.form

/-- An element has been opened that says nothing of the setting. -/
theorem opened (h : Rests stack path f done b) {e : Handle} {path' : List Node.Frame}
    {f' : Node.Frame} {b' : Builder} (hstands : Stands (e :: stack) path' f' [] b')
    (hsame : SameRules b b') (hplain : e.name.isHtml ("form" :: settingNames) = false)
    (hmode : b.mode ≠ .inTemplate) : Rests (e :: stack) path' f' [] b' := by
  have hform : e.name.isHtml ["form"] = false := isHtml_of_subset hplain (by simp)
  have hsetting : e.name.isHtml settingNames = false :=
    isHtml_of_subset hplain (List.subset_cons_self _ _)
  refine
    { stands := hstands, content := hsame.content.trans h.content,
      tableText := hsame.tableText.trans h.tableText, inForce := ?_, form := ?_ }
  · rw [hsame.mode, modeFor_congr hsame.templateModes hsame.head, modeFor_cons_other _ hsetting]
    exact (InForce.cons_other hsetting hmode).mpr h.inForce
  · rw [hsame.form]
    exact h.form.trans (openForm_cons hform stack).symm

/-- The element opened last has been closed; the rules of the node around it are in force. -/
theorem closed_within {inner : List Node.Frame} {f' : Node.Frame} {done' : List Node} {r b' : Builder}
    {e : Handle} (hparent : Rests stack path f done r)
    (h : Rests (e :: stack) (path ++ f.holding done :: inner) f' done' b')
    (hhead : b'.head = r.head) {templateModes : List Mode}
    (hmodes : templateModes = r.templateModes) {formatting : List Formatting}
    (hnoted : Noted stack formatting) {mode : Mode} (hmode : InForce stack mode (r.modeFor stack))
    {form : Option Handle} (hform : form = openForm stack) :
    Rests stack path f (done ++ [Node.within inner (f'.branch done')])
      { b' with stack, formatting, mode, templateModes, form } where
  stands := { hparent.stands.close h.stands hnoted with }
  content := h.content
  tableText := h.tableText
  inForce := by
    have hreset : Builder.modeFor { b' with stack, formatting, mode, templateModes, form } stack =
        r.modeFor stack := by
      refine modeFor_congr ?_ ?_ stack
      · exact hmodes
      · exact hhead
    rw [hreset]
    exact hmode
  form := hform

theorem closed {f' : Node.Frame} {done' : List Node} {r b' : Builder} {e : Handle}
    (hparent : Rests stack path f done r)
    (h : Rests (e :: stack) (path ++ [f.holding done]) f' done' b') (hhead : b'.head = r.head)
    (hmodes : b'.templateModes = r.templateModes) {formatting : List Formatting}
    (hnoted : Noted stack formatting) {mode : Mode} (hmode : InForce stack mode (r.modeFor stack))
    {form : Option Handle} (hform : form = openForm stack) :
    Rests stack path f (done ++ [f'.branch done']) { b' with stack, formatting, mode, form } := by
  have hclosed := hparent.closed_within h hhead hmodes hnoted hmode hform
  exact hclosed

end Rests

section

variable {stack : List Handle} {path : List Node.Frame} {f : Node.Frame} {done : List Node}
  {b : Builder} {e : Handle}

theorem Stands.isForeign_eq (h : Stands stack path f done b) (t : Token) :
    b.isForeign t = Setting.isForeign (namesOf stack) t := by
  rw [Builder.isForeign_eq, h.stack_eq]

/-- The rule of the mode looks at a token that is none for the rules of SVG and MathML. -/
theorem Stands.step_eq (h : Stands stack path f done b) {t : Token}
    (hforeign : Setting.isForeign (namesOf stack) t = false) : b.step t = b.inMode t := by
  rw [step, h.isForeign_eq, hforeign, if_neg Bool.false_ne_true]

/-- In an HTML element every token is looked at by the rule of the mode. -/
theorem Stands.step_html (h : Stands (e :: stack) path f done b) (hhtml : e.name.space = .html)
    (t : Token) : b.step t = b.inMode t :=
  h.step_eq (ElementName.keeps_html hhtml t)

end

end TerseMarkup.Html
