import TerseMarkup.Proofs.Html.Construction.Nested.Foreign
import TerseMarkup.Proofs.Html.Markup
import TerseMarkup.Proofs.Html.Reading
import TerseMarkup.Proofs.Html.Token.Written

/-! Trees that come back from their markup.

Nodes nest (`Node.nestsAll`) if each of them is written so that it can be read, and construction puts
what it reads where it stood: no start tag closes what is open, no line feed is dropped, and no two
texts become one. Names of SVG and MathML are read in small letters, and nest if they get their
capitals again. Such nodes are read one after the other, with nothing lost, gained or put elsewhere
(`comesBack_of_nestsAll`). -/
namespace TerseMarkup.Html
open Builder

/-! ### What nests -/

/-- A text that is written and that no NUL character is lost from. -/
def IsPlain (t : Text) : Prop := t ≠ [] ∧ '\x00' ∉ t

instance (t : Text) : Decidable (IsPlain t) := inferInstanceAs (Decidable (_ ∧ _))

/-- The attributes of a tag that is read as it is written. -/
def AreWritable (attributes : List Attribute) : Prop :=
  (∀ a ∈ attributes, a.IsWritable) ∧ (attributes.map Attribute.name).Nodup

instance (attributes : List Attribute) : Decidable (AreWritable attributes) :=
  have : Decidable (∀ a ∈ attributes, a.IsWritable) := List.decidableBAll _ _
  inferInstanceAs (Decidable (_ ∧ _))

/-- The start tag of an element of SVG or MathML is read back: its names are read in small letters, and
are given the capitals and the namespaces again that they have there. -/
def IsForeignTag (name : ElementName) (attributes : List Attribute) : Prop :=
  name.IsLegible ∧ (∀ a ∈ attributes, a.IsLegible) ∧
    ((attributes.map Attribute.asRead).map Attribute.name).Nodup ∧
    (Tag.asRead name attributes false).inNamespace name.space = { name := name.name, attributes }

instance (name : ElementName) (attributes : List Attribute) :
    Decidable (IsForeignTag name attributes) :=
  have : Decidable (∀ a ∈ attributes, a.IsLegible) := List.decidableBAll _ _
  inferInstanceAs (Decidable (_ ∧ _ ∧ _ ∧ _))

namespace Node

def isText : Node → Bool
  | text _ => true
  | _ => false

/-- Whether a node is written with a tag or as a comment. -/
def isMarked : Node → Bool
  | element .. | comment _ => true
  | _ => false

/-- Whether these nodes start with a line feed, which some elements drop. -/
def startWithNewline (cs : List Node) : Bool :=
  match cs.head? with
  | some (text t) => t.head? == some '\n'
  | _ => false

/-- Whether an element that is read like this can hold these nodes. -/
def areHeld (name : String) : Content → List Node → Bool
  | _, [] => true
  | .escapable _, [text t] => decide (IsPlain t) && !(name == "textarea" && startWithNewline [text t])
  | .raw _, [text t] => decide (IsPlain t) && RawText.length name.toList t == t.length
  | .script, [text t] =>
    decide (IsPlain t) &&
      RawText.scriptLength 0 .plain (t ++ Markup.writeEnd Token.scriptElement) == t.length
  | _, _ => false

/-- What is held is one text or none. -/
theorem areHeld_cases {name : String} {content : Content} {cs : List Node}
    (h : areHeld name content cs = true) :
    cs = [] ∨ ∃ t, cs = [.text t] ∧ IsPlain t ∧
      match content with
      | .escapable _ => name = "textarea" → t.head? ≠ some '\n'
      | .raw _ => RawText.length name.toList t = t.length
      | .script =>
        RawText.scriptLength 0 .plain (t ++ Markup.writeEnd Token.scriptElement) = t.length
      | _ => False := by
  unfold areHeld at h
  split at h
  · exact .inl rfl
  next t =>
    rw [Bool.and_eq_true, decide_eq_true_eq, Bool.not_eq_true', Bool.and_eq_false_imp] at h
    exact .inr ⟨t, rfl, h.1, fun hname => by simpa [hname, startWithNewline] using h.2⟩
  next t =>
    rw [Bool.and_eq_true, decide_eq_true_eq, beq_iff_eq] at h
    exact .inr ⟨t, rfl, h⟩
  next t =>
    rw [Bool.and_eq_true, decide_eq_true_eq, beq_iff_eq] at h
    exact .inr ⟨t, rfl, h⟩
  · cases h

mutual

/-- Whether a node comes back from its markup inside elements of these names, the innermost first. What
an element of SVG or MathML holds that is called template would be stripped. -/
def nests (inside : List ElementName) : Node → Bool
  | element _ name attributes cs =>
    if name.space == .html then
      decide name.IsWritable && decide (AreWritable attributes) &&
        match Setting.role? inside name.name with
        | none => false
        | some .empty => cs.isEmpty
        | some (.holds content) => areHeld name.name content cs
        | some _ =>
          nestsAll (name :: inside) cs &&
            !(Opening.ofName name.name == .verbatim && startWithNewline cs)
    else
      decide (IsForeignTag name attributes) &&
        Setting.startsForeign inside name.space (.asRead name attributes false) &&
        (name.name != "template" || name.mayClose && cs.isEmpty) && nestsAll (name :: inside) cs
  | text t =>
    decide (IsPlain t) && t.head? != some Token.byteOrderMark && Setting.takes inside t
  | comment c => decide (Token.IsComment c)
  | _ => false

def nestsAll (inside : List ElementName) : List Node → Bool
  | [] => true
  | n :: rest =>
    n.nests inside && !(n.isText && rest.head?.any isText) && nestsAll inside rest

end

mutual

/-- A node without the numbers that construction has given. -/
def unnumbered : Node → Node
  | element _ name attributes cs => element 0 name attributes (unnumberedAll cs)
  | document _ cs => document 0 (unnumberedAll cs)
  | n => n

def unnumberedAll : List Node → List Node
  | [] => []
  | n :: rest => n.unnumbered :: unnumberedAll rest

end

theorem unnumberedAll_append (xs ys : List Node) :
    unnumberedAll (xs ++ ys) = unnumberedAll xs ++ unnumberedAll ys := by
  induction xs with
  | nil => rfl
  | cons n xs ih => exact congrArg (n.unnumbered :: ·) ih

theorem tidyAll_append (xs ys : List Node) : tidyAll (xs ++ ys) = tidyAll xs ++ tidyAll ys := by
  induction xs with
  | nil => rfl
  | cons n xs ih => exact congrArg (n.tidy :: ·) ih

theorem isEmpty_unnumberedAll (cs : List Node) : (unnumberedAll cs).isEmpty = cs.isEmpty := by
  cases cs <;> rfl

mutual

theorem written?_unnumbered (outer : Surroundings) : (n : Node) →
    n.unnumbered.written? outer = n.written? outer
  | element _ name attributes cs => by
    rw [unnumbered, written?, written?, isEmpty_unnumberedAll, writtenAll?_unnumberedAll _ cs]
  | document _ _ => rfl
  | doctype .. | text _ | comment _ | placeholder => rfl

theorem writtenAll?_unnumberedAll (outer : Surroundings) : (cs : List Node) →
    writtenAll? outer (unnumberedAll cs) = writtenAll? outer cs
  | [] => rfl
  | n :: cs => by
    rw [unnumberedAll, writtenAll?, writtenAll?, written?_unnumbered outer n,
      writtenAll?_unnumberedAll outer cs]

end

/-- Nodes that have been read for others: once they are tidied they differ in their numbers at
most. -/
def ReadFor (cs cs' : List Node) : Prop := unnumberedAll (tidyAll cs') = unnumberedAll cs

namespace ReadFor

theorem nil : ReadFor [] [] := rfl

theorem cons {n n' : Node} {cs cs' : List Node} (h : ReadFor [n] [n']) (hrest : ReadFor cs cs') :
    ReadFor (n :: cs) (n' :: cs') := by
  have hsame : n'.tidy.unnumbered = n.unnumbered := (List.cons.inj h).1
  rw [ReadFor, tidyAll, unnumberedAll, unnumberedAll, hsame, hrest]

theorem append {cs cs' rest rest' : List Node} (h : ReadFor cs cs') (hrest : ReadFor rest rest') :
    ReadFor (cs ++ rest) (cs' ++ rest') := by
  have hsame : unnumberedAll (tidyAll cs') = unnumberedAll cs := h
  have hsame' : unnumberedAll (tidyAll rest') = unnumberedAll rest := hrest
  rw [ReadFor, tidyAll_append, unnumberedAll_append, unnumberedAll_append, hsame, hsame']

theorem text (t : Text) : ReadFor [.text t] [.text t] := rfl

theorem comment (c : Text) : ReadFor [.comment c] [.comment c] := rfl

section Element

variable {id id' : NodeId} {name : ElementName} {attributes : List Attribute} {cs cs' : List Node}

theorem element (h : ReadFor cs cs') (hname : name.name ≠ "template")
    (hvoid : name.isVoid = false) :
    ReadFor [.element id name attributes cs] [.element id' name attributes cs'] := by
  have hsame : unnumberedAll (tidyAll cs') = unnumberedAll cs := h
  rw [ReadFor, tidyAll, Node.tidy, hvoid, if_neg Bool.false_ne_true, if_neg hname]
  simp [unnumberedAll, unnumbered, tidyAll, hsame]

theorem empty : ReadFor [.element id name attributes []] [.element id' name attributes []] := by
  rw [ReadFor, tidyAll, Node.tidy]
  split_ifs <;> rfl

/-- While a template is read, its contents stand in a document. -/
theorem template (h : ReadFor cs cs') (d : NodeId) :
    ReadFor [.element id ⟨.html, "template"⟩ attributes cs]
      [.element id' ⟨.html, "template"⟩ attributes [.document d cs']] := by
  have htidy : (Node.element id' ⟨.html, "template"⟩ attributes [.document d cs']).tidy =
      .element id' ⟨.html, "template"⟩ attributes (tidyAll cs') := rfl
  have hsame : unnumberedAll (tidyAll cs') = unnumberedAll cs := h
  rw [ReadFor, tidyAll, htidy]
  simp [unnumberedAll, unnumbered, tidyAll, hsame]

end Element

end ReadFor

/-! ### The markup of an element -/

section Element

variable {id : NodeId} {name : ElementName} {attributes : List Attribute} {cs : List Node} {s : Text}

/-- An element is its start tag, its content, and its end tag, unless the start tag closes itself or the
element can have no content. -/
theorem written?_element (h : (element id name attributes cs).written? {} = some s) {closes : Bool}
    (hcloses : (name.mayClose && cs.isEmpty) = closes) :
    ∃ start contents, Markup.writeStart? name attributes closes = some start ∧
      writtenAll? ⟨name.hasRawText, closes || name.isVoid⟩ cs = some contents ∧
      s = start ++ contents ++ if closes || name.isVoid then [] else Markup.writeEnd name := by
  have hinner : Surroundings.inside {} name (!cs.isEmpty) =
      ⟨name.hasRawText, closes || name.isVoid⟩ := by
    simp [Surroundings.inside, hcloses]
  have hstart : Surroundings.start? {} name attributes (!cs.isEmpty) =
      Markup.writeStart? name attributes closes := by
    simp [Surroundings.start?, hcloses]
  rw [written?, hinner, hstart] at h
  obtain ⟨start, hstart, h⟩ := Option.bind_eq_some_iff.mp h
  obtain ⟨contents, hcontents, h⟩ := Option.bind_eq_some_iff.mp h
  exact ⟨start, contents, hstart, hcontents, (Option.some.inj h).symm⟩

/-- The tag of an HTML element never closes itself. -/
theorem written?_html (hhtml : name.space = .html)
    (h : (element id name attributes cs).written? {} = some s) :
    ∃ start contents, Markup.writeStart? name attributes false = some start ∧
      writtenAll? ⟨name.hasRawText, name.isVoid⟩ cs = some contents ∧
      s = start ++ contents ++ if name.isVoid then [] else Markup.writeEnd name :=
  written?_element h (by rw [ElementName.mayClose, hhtml]; rfl)

theorem head?_writeStart {closes : Bool} (h : Markup.writeStart? name attributes closes = some s) :
    s.head? = some '<' := by
  obtain ⟨written, -, h⟩ := Option.bind_eq_some_iff.mp h
  rw [← Option.some.inj h]
  rfl

theorem writtenAll?_cons {outer : Surroundings} {n : Node} {t : Text}
    (h : writtenAll? outer (n :: cs) = some t) :
    ∃ first others, n.written? outer = some first ∧ writtenAll? outer cs = some others ∧
      t = first ++ others := by
  rw [writtenAll?] at h
  obtain ⟨first, hfirst, h⟩ := Option.bind_eq_some_iff.mp h
  obtain ⟨others, hothers, h⟩ := Option.bind_eq_some_iff.mp h
  exact ⟨first, others, hfirst, hothers, (Option.some.inj h).symm⟩

end Element

end Node

/-! ### Reading one token -/

namespace Document

theorem Reads.trans {b b' b'' : Builder} {s s' s'' : Text} (h : Reads b s b' s')
    (h' : Reads b' s' b'' s'') : Reads b s b'' s'' := by
  induction h with
  | refl => exact h'
  | step hs _ ih => exact .step hs (ih h')

theorem reads_token {b : Builder} {t : Token} {content : Content} {s r : Text} (hs : s ≠ [])
    (hread : Token.read b.content b.takesSections s = ⟨[t], r, content⟩) :
    Reads b s ({ b with content }.accept t) r := by
  refine .step hs ?_
  rw [readOn, hread]
  exact .refl _ _

section Data

variable {b : Builder} (hcontent : b.content = .data)
include hcontent

theorem reads_data {t : Token} {s r : Text} (hs : s ≠ [])
    (hread : Token.readData b.takesSections s = ⟨[t], r, .data⟩) : Reads b s (b.accept t) r := by
  have hdata : Token.read b.content b.takesSections s = ⟨[t], r, b.content⟩ := by
    rw [hcontent]
    exact hread
  exact reads_token hs hdata

theorem reads_comment {c : Text} (hc : Token.IsComment c) (r : Text) :
    Reads b (Markup.writeComment c ++ r) (b.accept (.comment c)) r :=
  reads_data hcontent (by simp [Markup.writeComment]) (Token.readData_writeComment hc _ r)

theorem reads_startTag {name : ElementName} {attributes : List Attribute} (hname : name.IsLegible)
    (hattributes : ∀ a ∈ attributes, a.IsLegible)
    (hnodup : ((attributes.map Attribute.asRead).map Attribute.name).Nodup) {closes : Bool}
    {start : Text} (hstart : Markup.writeStart? name attributes closes = some start) (r : Text) :
    Reads b (start ++ r) (b.accept (.start (.asRead name attributes closes))) r := by
  refine reads_data hcontent (List.append_ne_nil_of_left_ne_nil (fun hnil => ?_) _)
    (Token.readData_writeStart hname hattributes hnodup hstart _ r)
  have hhead := Node.head?_writeStart hstart
  rw [hnil] at hhead
  cases hhead

theorem reads_endTag {name : ElementName} (hname : name.IsLegible) (r : Text) :
    Reads b (Markup.writeEnd name ++ r) (b.accept (.finish (Tag.nameOf name.name.toList))) r :=
  reads_data hcontent (by simp [Markup.writeEnd]) (Token.readData_writeEnd hname _ r)

theorem reads_start {name : String} {attributes : List Attribute}
    (hname : ElementName.IsWritable ⟨.html, name⟩) (hattributes : AreWritable attributes)
    {start : Text} (hstart : Markup.writeStart? ⟨.html, name⟩ attributes false = some start)
    (r : Text) : Reads b (start ++ r) (b.accept (.start { name, attributes })) r := by
  have hreads := reads_startTag hcontent hname.legible (fun a ha => (hattributes.1 a ha).legible)
    (by rw [Attribute.map_asRead hattributes.1]; exact hattributes.2) hstart r
  rwa [Tag.asRead_eq hname hattributes.1] at hreads

theorem reads_end {name : String} (hname : ElementName.IsWritable ⟨.html, name⟩) (r : Text) :
    Reads b (Markup.writeEnd ⟨.html, name⟩ ++ r) (b.accept (.finish name)) r := by
  have hreads := reads_endTag hcontent hname.legible r
  rwa [nameOf_eq hname.2] at hreads

end Data

end Document

open Document

/-- How an element that holds text is written, and how its content is read. -/
theorem heldContent?_eq {name : String} {content : Content} (h : heldContent? name = some content) :
    ('<' ∉ name.toList ∧ name ≠ "template" ∧ ElementName.isVoid ⟨.html, name⟩ = false) ∧
      (content = .escapable name ∧ ElementName.hasRawText ⟨.html, name⟩ = false ∨
        content = .raw name ∧ ElementName.hasRawText ⟨.html, name⟩ = true ∧ name ≠ "textarea" ∨
        content = .script ∧ name = "script") := by
  have hmem := mem_of_heldContent? h
  fin_cases hmem
  all_goals
    obtain rfl := Option.some.inj h
    exact ⟨by decide, by decide⟩

/-! ### Reading -/

section Reading

variable {stack : List Handle} {path : List Node.Frame} {f : Node.Frame} {done : List Node}
  {b : Builder}

theorem Ready.content (h : Ready stack path f done b) : b.content = .data := by
  rcases h with h | ⟨_, _, _, hback⟩
  · exact h.content
  · exact hback.rests.content

/-- The children with a text behind nodes that no text ends. -/
theorem joined_of_not_isText {cs : List Node} (h : cs.getLast?.any Node.isText = false) (t : Text) :
    joined cs t = cs ++ [.text t] := by
  rw [joined_eq]
  split
  next s hlast =>
    rw [hlast] at h
    cases h
  · rfl

/-- Behind nodes that no text ends nothing has been kept back. -/
theorem Ready.rests (h : Ready stack path f done b) (hlast : done.getLast?.any Node.isText = false) :
    Rests stack path f done b := by
  rcases h with h | ⟨done', t, rfl, -⟩
  · exact h
  · rw [joined_eq] at hlast
    split at hlast <;> simp [Node.isText] at hlast

/-- In the place where construction rests, what is written for these nodes is read for them, and
construction rests behind them. -/
def ComesBack (stack : List Handle) (path : List Node.Frame) (f : Node.Frame) (done : List Node)
    (b : Builder) (cs : List Node) (s : Text) (r : Text) : Prop :=
  ∃ cs' b', Node.ReadFor cs cs' ∧ Ready stack path f (done ++ cs') b' ∧ Follows stack b b' ∧
    ((cs = [] → b.dropNewline = false) → b'.dropNewline = false) ∧ Reads b (s ++ r) b' r

/-- In an element of this name nodes come back in front of the end tag, wherever the element stands,
unless a line feed at their start is dropped. -/
def ContentComesBack (stack : List Handle) (name : ElementName) (cs : List Node) : Prop :=
  ∀ {e : Handle} {path : List Node.Frame} {f : Node.Frame} {b : Builder} {s : Text} (r : Text),
    e.name = name → Ready (e :: stack) path f [] b → Node.writtenAll? {} cs = some s →
    (b.dropNewline = true → Node.startWithNewline cs = false) →
    ComesBack (e :: stack) path f [] b cs s (Markup.writeEnd name ++ r)

theorem Behind.comesBack {n n' : Node} {b' : Builder} (h : Behind stack path f done n' b b')
    (hread : Node.ReadFor [n] [n']) {s r : Text} (hreads : Reads b (s ++ r) b' r) :
    ComesBack stack path f done b [n] s r :=
  ⟨[n'], b', hread, .inl h.rests, h.follows, fun _ => h.dropNewline, hreads⟩

theorem Ready.text_comesBack (h : Ready stack path f done b) {t : Text} (ht : IsPlain t)
    (htakes : Setting.takes (namesOf stack) t = true)
    (hlast : done.getLast?.any Node.isText = false)
    (hdrop : b.dropNewline = true → t.head? ≠ some '\n') {r : Text} (hr : r.head? = some '<') :
    ComesBack stack path f done b [.text t] (Markup.writeText t) r := by
  obtain ⟨r, rfl⟩ := List.head?_eq_some_iff.mp hr
  obtain ⟨hready, hfollows, hplain⟩ := (h.rests hlast).accept_text ht.1 hdrop htakes
  rw [joined_of_not_isText hlast] at hready
  refine ⟨[.text t], _, .text t, hready, hfollows, fun _ => hplain, ?_⟩
  exact reads_data h.content (by simp) (Token.readData_writeText ht.1 ht.2 _ r)

theorem Ready.comment_comesBack (h : Ready stack path f done b) {c : Text}
    (hc : Token.IsComment c) (r : Text) :
    ComesBack stack path f done b [.comment c] (Markup.writeComment c) r :=
  (h.accept_comment c).comesBack (.comment c) (reads_comment h.content hc r)

section Element

variable {id : NodeId} {name : String} {attributes : List Attribute} {cs : List Node}
  (hname : ElementName.IsWritable ⟨.html, name⟩) (hattributes : AreWritable attributes)
  {start : Text} (hstart : Markup.writeStart? ⟨.html, name⟩ attributes false = some start)
include hname hattributes hstart

/-- An element without content comes back. -/
theorem Ready.empty_comesBack (h : Ready stack path f done b)
    (hrole : Setting.role? (namesOf stack) name = some .empty) (r : Text) :
    ComesBack stack path f done b [.element id ⟨.html, name⟩ attributes []] start r := by
  have hreads := reads_start h.content hname hattributes hstart r
  obtain ⟨id', hbehind⟩ := h.accept_empty (t := { name, attributes }) hrole
  exact hbehind.comesBack .empty hreads

/-- An element that nests comes back if its content does. -/
theorem Ready.opened_comesBack (h : Ready stack path f done b)
    (hrole : Setting.role? (namesOf stack) name = some .opens)
    (hcontent : ContentComesBack stack ⟨.html, name⟩ cs) {contents : Text}
    (hcontents : Node.writtenAll? {} cs = some contents)
    (hnewline : (Opening.ofName name == .verbatim) = true → Node.startWithNewline cs = false)
    (r : Text) :
    ComesBack stack path f done b [.element id ⟨.html, name⟩ attributes cs]
      (start ++ contents ++ Markup.writeEnd ⟨.html, name⟩) r := by
  have hreads := reads_start h.content hname hattributes hstart
  obtain ⟨r', hrests, hfollows, hdrop, hopens⟩ := h.accept_opens (t := { name, attributes }) hrole
  have hdrop' : (b.accept (.start { name, attributes })).dropNewline =
      (Opening.ofName name == .verbatim) := by
    rw [hopens.dropNewline, hdrop, Bool.false_or]
  obtain ⟨cs', b', hcs, hinside, hfollows', -, hreads'⟩ :=
    hcontent r rfl (.inl hopens.rests) hcontents (hdrop' ▸ hnewline)
  have hbehind := hinside.accept_finish hopens hrests hrole hfollows'
  obtain ⟨htemplate, hvoid, -⟩ := Setting.role?_fits hrole
  refine (hbehind.after hfollows).comesBack (hcs.element htemplate hvoid) ?_
  rw [List.append_assoc, List.append_assoc]
  exact (hreads _).trans (hreads'.trans (reads_end hinside.content hname r))

/-- A template comes back if its content does. -/
theorem Ready.template_comesBack (h : Ready stack path f done b)
    (hrole : Setting.role? (namesOf stack) name = some .template)
    (hcontent : ContentComesBack stack ⟨.html, name⟩ cs) {contents : Text}
    (hcontents : Node.writtenAll? {} cs = some contents) (r : Text) :
    ComesBack stack path f done b [.element id ⟨.html, name⟩ attributes cs]
      (start ++ contents ++ Markup.writeEnd ⟨.html, name⟩) r := by
  obtain rfl : name = "template" := Setting.role?_fits hrole
  have hreads := reads_start h.content hname hattributes hstart
  obtain ⟨r', framesetOk, hrests, hfollows, hdrop, haccept⟩ :=
    h.accept_role (t := { name := "template", attributes }) hrole (by simp)
  obtain ⟨hopened, -, -, hdrop'⟩ := hrests.opens_template (t := { name := "template", attributes }) rfl
  obtain ⟨cs', b', hcs, hinside, hfollows', -, hreads'⟩ :=
    hcontent r rfl (.inl hopened) hcontents fun hd =>
      absurd ((hdrop'.trans hdrop).symm.trans hd) Bool.false_ne_true
  have hbehind := hinside.accept_finishTemplate rfl hrests hfollows'
  refine (hbehind.after hfollows).comesBack (hcs.template _) ?_
  rw [List.append_assoc, List.append_assoc]
  refine (hreads _).trans ?_
  rw [haccept]
  exact hreads'.trans (reads_end hinside.content hname r)

omit hattributes hstart in
/-- Text in an element that holds it is read up to the end tag. -/
theorem Holds.reads_contents {content : Content} {r : Builder}
    (hcontent : heldContent? name = some content) (hheld : Node.areHeld name content cs = true)
    {contents : Text}
    (hcontents : Node.writtenAll? ⟨ElementName.hasRawText ⟨.html, name⟩, false⟩ cs = some contents)
    (h : Holds stack path f [] content r b) (hdrop : b.dropNewline = (name == "textarea"))
    (rest : Text) :
    ∃ b', Holds stack path f cs content r b' ∧
      Reads b (contents ++ (Markup.writeEnd ⟨.html, name⟩ ++ rest)) b'
        (Markup.writeEnd ⟨.html, name⟩ ++ rest) := by
  obtain ⟨⟨hlt, -⟩, hkind⟩ := heldContent?_eq hcontent
  rcases Node.areHeld_cases hheld with rfl | ⟨t, rfl, ht, hread⟩
  · obtain rfl := Option.some.inj hcontents
    exact ⟨b, h, .refl _ _⟩
  have hplain : joined [] t = [.text t] := rfl
  have hreads {s : Text} (hs : s ≠ []) (hnewline : b.dropNewline = true → t.head? ≠ some '\n')
      (hread : Token.read content b.takesSections
          (s ++ (Markup.writeEnd ⟨.html, name⟩ ++ rest)) =
        ⟨[.text t], Markup.writeEnd ⟨.html, name⟩ ++ rest, content⟩) :
      ∃ b', Holds stack path f [.text t] content r b' ∧
        Reads b (s ++ (Markup.writeEnd ⟨.html, name⟩ ++ rest)) b'
          (Markup.writeEnd ⟨.html, name⟩ ++ rest) :=
    ⟨_, hplain ▸ h.accept_text ht.1 hnewline,
      reads_token (List.append_ne_nil_of_left_ne_nil hs _) (h.content_eq ▸ hread)⟩
  have hkeeps (hne : name ≠ "textarea") : b.dropNewline = true → t.head? ≠ some '\n' := fun hd =>
    absurd (beq_iff_eq.mp (hdrop.symm.trans hd)) hne
  have hraw (hraw : ElementName.hasRawText ⟨.html, name⟩ = true) : contents = t := by
    simpa [Node.writtenAll?, Node.written?, hraw] using hcontents.symm
  rcases hkind with ⟨rfl, hescaped⟩ | ⟨rfl, hheldRaw, hne⟩ | ⟨rfl, rfl⟩
  · -- text with references
    obtain rfl : Markup.writeText t = contents := by
      simpa [Node.writtenAll?, Node.written?, hescaped] using hcontents
    exact hreads (Markup.writeText_ne_nil ht.1)
      (fun hd => hread (beq_iff_eq.mp (hdrop.symm.trans hd)))
      (Token.read_escapableText hname hlt ht.1 ht.2 _ rest)
  · -- raw text
    obtain rfl := hraw hheldRaw
    exact hreads ht.1 (hkeeps hne) (Token.read_rawText hname hlt ht.1 ht.2 hread _ rest)
  · -- a script
    obtain rfl := hraw (by decide)
    exact hreads ht.1 (hkeeps (by decide)) (Token.read_script ht.1 ht.2 hread _ rest)

/-- An element that holds text comes back. Behind a script a byte order mark would be dropped. -/
theorem Ready.held_comesBack (h : Ready stack path f done b) {content : Content}
    (hrole : Setting.role? (namesOf stack) name = some (.holds content))
    (hheld : Node.areHeld name content cs = true) {contents : Text}
    (hcontents : Node.writtenAll? ⟨ElementName.hasRawText ⟨.html, name⟩, false⟩ cs = some contents)
    {r : Text} (hmark : r.head? ≠ some Token.byteOrderMark) :
    ComesBack stack path f done b [.element id ⟨.html, name⟩ attributes cs]
      (start ++ contents ++ Markup.writeEnd ⟨.html, name⟩) r := by
  have hcontent : heldContent? name = some content := Setting.role?_fits hrole
  have hreads := reads_start h.content hname hattributes hstart
  obtain ⟨r', framesetOk, hrests, hfollows, -, haccept⟩ :=
    h.accept_role (t := { name, attributes }) hrole (by simp)
  have hheldName := mem_of_heldContent? hcontent
  obtain ⟨hopened, hdrop⟩ :=
    hrests.opens_held (t := { name, attributes }) hheldName content framesetOk
  obtain ⟨⟨-, htemplate, hvoid⟩, hkind⟩ := heldContent?_eq hcontent
  obtain ⟨b', hinside, hreads'⟩ :=
    Holds.reads_contents hname hcontent hheld hcontents hopened hdrop r
  have hbehind := hinside.accept_finish hheldName hrests
  have hsame : Node.ReadFor cs cs := by
    rcases Node.areHeld_cases hheld with rfl | ⟨t, rfl, -⟩
    · exact .nil
    · exact .text t
  refine (hbehind.after hfollows).comesBack (hsame.element htemplate hvoid) ?_
  rw [List.append_assoc, List.append_assoc]
  refine (hreads _).trans ?_
  rw [haccept]
  refine hreads'.trans (reads_token (by simp [Markup.writeEnd]) ?_)
  rw [hinside.content_eq]
  rcases hkind with ⟨rfl, -⟩ | ⟨rfl, -⟩ | ⟨rfl, rfl⟩
  · exact Token.read_heldEnd hname (.inl rfl) _ r
  · exact Token.read_heldEnd hname (.inr rfl) _ r
  · exact Token.read_scriptEnd _ hmark

end Element

section Foreign

variable {id : NodeId} {name : ElementName} {attributes : List Attribute} {cs : List Node}
  (htag : IsForeignTag name attributes)
include htag

theorem IsForeignTag.inNamespace_eq (closes : Bool) :
    (Tag.asRead name attributes closes).inNamespace name.space =
      { name := name.name, attributes, selfClosing := closes } := by
  show { (Tag.asRead name attributes false).inNamespace name.space with selfClosing := closes } = _
  rw [htag.2.2.2]

/-- The end tag is read in small letters, too. -/
theorem IsForeignTag.smallLetters_eq :
    smallLetters name.name = smallLetters (Tag.nameOf name.name.toList) := by
  have hname := Tag.smallLetters_inNamespace name.space (.asRead name attributes false)
  rwa [htag.inNamespace_eq] at hname

/-- An element of SVG or MathML whose tag closes itself comes back. -/
theorem Ready.closedForeign_comesBack (h : Ready stack path f done b)
    (hstarts : Setting.startsForeign (namesOf stack) name.space (.asRead name attributes true) = true)
    {start : Text} (hstart : Markup.writeStart? name attributes true = some start) (r : Text) :
    ComesBack stack path f done b [.element id name attributes []] start r := by
  have hreads := reads_startTag h.content htag.1 htag.2.1 htag.2.2.1 hstart r
  obtain ⟨r', hrests, hfollows, hdrop, -, haccept⟩ := h.accept_foreign hstarts
  rw [htag.inNamespace_eq] at haccept
  have hputs := hrests.puts_foreign (t := { name := name.name, attributes, selfClosing := true })
    (Setting.ne_html_of_startsForeign hstarts) rfl
  have hbehind := hputs.behind hfollows hdrop
  exact (haccept ▸ hbehind).comesBack .empty hreads

/-- An element of SVG or MathML that is opened comes back if its content does. -/
theorem Ready.openedForeign_comesBack (h : Ready stack path f done b)
    (hstarts : Setting.startsForeign (namesOf stack) name.space (.asRead name attributes false) = true)
    {start : Text} (hstart : Markup.writeStart? name attributes false = some start)
    (htemplate : name.name ≠ "template") (hcontent : ContentComesBack stack name cs)
    {contents : Text} (hcontents : Node.writtenAll? {} cs = some contents) (r : Text) :
    ComesBack stack path f done b [.element id name attributes cs]
      (start ++ contents ++ Markup.writeEnd name) r := by
  have hspace := Setting.ne_html_of_startsForeign hstarts
  have hother := Setting.name_ne_of_startsForeign hstarts
  have hreads := reads_startTag h.content htag.1 htag.2.1 htag.2.2.1 hstart
  obtain ⟨r', hrests, hfollows, hdrop, hmode, haccept⟩ := h.accept_foreign hstarts
  rw [htag.inNamespace_eq] at haccept
  obtain ⟨hopened, -, -, hdrop'⟩ := hrests.opens_foreign
    (t := { name := name.name, attributes }) hspace hmode rfl
  obtain ⟨cs', b', hcs, hinside, hfollows', -, hreads'⟩ :=
    hcontent r rfl (.inl hopened) hcontents fun hd =>
      absurd ((hdrop'.trans hdrop).symm.trans hd) Bool.false_ne_true
  have hbehind := hinside.accept_finishForeign hrests hspace hmode rfl hfollows'
    htag.smallLetters_eq hother
  have hvoid : name.isVoid = false := ElementName.not_isHtml hspace name.name _
  refine (hbehind.after hfollows).comesBack (hcs.element htemplate hvoid) ?_
  rw [List.append_assoc, List.append_assoc]
  refine (hreads _).trans ?_
  rw [haccept]
  exact hreads'.trans (reads_endTag hinside.content htag.1 r)

end Foreign

section Content

variable {id : NodeId} {attributes : List Attribute} {cs : List Node} {s : Text}

/-- An HTML element that nests comes back if its content does. -/
theorem Ready.html_comesBack (h : Ready stack path f done b) {name : String}
    (hcontent : Node.nestsAll (⟨.html, name⟩ :: namesOf stack) cs = true →
      ContentComesBack stack ⟨.html, name⟩ cs)
    (hnests : (Node.element id ⟨.html, name⟩ attributes cs).nests (namesOf stack) = true)
    (hs : (Node.element id ⟨.html, name⟩ attributes cs).written? {} = some s) {r : Text}
    (hmark : r.head? ≠ some Token.byteOrderMark) :
    ComesBack stack path f done b [.element id ⟨.html, name⟩ attributes cs] s r := by
  rw [Node.nests, if_pos (by rfl)] at hnests
  simp only [Bool.and_eq_true, decide_eq_true_eq] at hnests
  obtain ⟨⟨hname, hattributes⟩, hkind⟩ := hnests
  obtain ⟨start, contents, hstart, hcontents, rfl⟩ := Node.written?_html rfl hs
  cases hrole : Setting.role? (namesOf stack) name with
  | none =>
    rw [hrole] at hkind
    cases hkind
  | some role =>
    rw [hrole] at hkind
    have hfits := Setting.role?_fits hrole
    cases role with
    | empty =>
      have hvoid : ElementName.isVoid ⟨.html, name⟩ = true := hfits
      obtain rfl := List.isEmpty_iff.mp hkind
      obtain rfl := Option.some.inj hcontents
      rw [hvoid, if_pos rfl, List.append_nil, List.append_nil]
      exact h.empty_comesBack hname hattributes hstart hrole r
    | holds content =>
      obtain ⟨⟨-, -, hvoid⟩, -⟩ := heldContent?_eq hfits
      rw [hvoid] at hcontents ⊢
      exact h.held_comesBack hname hattributes hstart hrole hkind hcontents hmark
    | template =>
      obtain ⟨hinside, -⟩ := Bool.and_eq_true_iff.mp hkind
      obtain rfl : name = "template" := hfits
      exact h.template_comesBack hname hattributes hstart hrole (hcontent hinside) hcontents r
    | opens =>
      simp only [Bool.and_eq_true, Bool.not_eq_true', Bool.and_eq_false_imp] at hkind
      obtain ⟨hinside, hnewline⟩ := hkind
      obtain ⟨-, hvoid, hraw⟩ := hfits
      rw [hvoid, hraw] at hcontents
      rw [hvoid]
      exact h.opened_comesBack hname hattributes hstart hrole (hcontent hinside) hcontents hnewline r

/-- An element of SVG or MathML that nests comes back if its content does. -/
theorem Ready.foreign_comesBack (h : Ready stack path f done b) {name : ElementName}
    (hspace : name.space ≠ .html)
    (hcontent : Node.nestsAll (name :: namesOf stack) cs = true → ContentComesBack stack name cs)
    (hnests : (Node.element id name attributes cs).nests (namesOf stack) = true)
    (hs : (Node.element id name attributes cs).written? {} = some s) (r : Text) :
    ComesBack stack path f done b [.element id name attributes cs] s r := by
  rw [Node.nests, if_neg (by simpa using hspace), Bool.and_eq_true, Bool.and_eq_true,
    Bool.and_eq_true, decide_eq_true_eq] at hnests
  obtain ⟨⟨⟨htag, hstarts⟩, htemplate⟩, hinside⟩ := hnests
  have hvoid : name.isVoid = false := ElementName.not_isHtml hspace name.name _
  have hraw : name.hasRawText = false := ElementName.not_isHtml hspace name.name _
  cases hcloses : name.mayClose && cs.isEmpty with
  | true =>
    obtain ⟨start, contents, hstart, hcontents, rfl⟩ := Node.written?_element hs hcloses
    obtain rfl := List.isEmpty_iff.mp (Bool.and_eq_true_iff.mp hcloses).2
    obtain rfl := Option.some.inj hcontents
    rw [Bool.true_or, if_pos rfl, List.append_nil, List.append_nil]
    exact h.closedForeign_comesBack htag hstarts hstart r
  | false =>
    obtain ⟨start, contents, hstart, hcontents, rfl⟩ := Node.written?_element hs hcloses
    rw [hvoid, hraw] at hcontents
    rw [hvoid]
    rw [hcloses, Bool.or_false, bne_iff_ne] at htemplate
    exact h.openedForeign_comesBack htag hstarts hstart htemplate (hcontent hinside) hcontents r

end Content

/-! ### Nodes one after the other -/

/-- What nests is text or marked. -/
theorem Node.isMarked_of_nests {inside : List ElementName} {n : Node}
    (hnests : n.nests inside = true) (htext : n.isText = false) : n.isMarked = true := by
  cases n with
  | element | comment => rfl
  | text t => cases htext
  | document | doctype | placeholder => cases hnests

/-- What is marked starts with a tag or a comment. -/
theorem Node.head?_written {n : Node} (hn : n.isMarked = true) {s : Text}
    (hs : n.written? {} = some s) : s.head? = some '<' := by
  cases n with
  | element id name attributes cs =>
    obtain ⟨start, contents, hstart, -, rfl⟩ := Node.written?_element hs rfl
    obtain ⟨r, rfl⟩ := List.head?_eq_some_iff.mp (Node.head?_writeStart hstart)
    rfl
  | comment c =>
    obtain rfl := Option.some.inj hs
    rfl
  | text | document | doctype | placeholder => cases hn

/-- Nodes that nest start with a tag or a comment, unless they start with text. -/
theorem Node.head?_writtenAll {inside : List ElementName} {cs : List Node}
    (hnests : Node.nestsAll inside cs = true) (htext : cs.head?.any Node.isText = false) {s : Text}
    (hs : Node.writtenAll? {} cs = some s) {r : Text} (hr : r.head? = some '<') :
    (s ++ r).head? = some '<' := by
  cases cs with
  | nil =>
    obtain rfl := Option.some.inj hs
    exact hr
  | cons n rest =>
    obtain ⟨first, others, hfirst, -, rfl⟩ := Node.writtenAll?_cons hs
    simp only [Node.nestsAll, Bool.and_eq_true] at hnests
    have hmarked := Node.isMarked_of_nests hnests.1.1 htext
    obtain ⟨t, rfl⟩ := List.head?_eq_some_iff.mp (Node.head?_written hmarked hfirst)
    rfl

/-- Text is written with its first character, or with a reference for it. -/
theorem Markup.head?_writeText {t : Text} (hne : t ≠ []) {c : Char}
    (h : (Markup.writeText t).head? = some c) : t.head? = some c ∨ c = '&' := by
  obtain ⟨d, t, rfl⟩ := List.exists_cons_of_ne_nil hne
  rw [Markup.writeText, List.flatMap_cons, Markup.writeTextChar] at h
  split_ifs at h
  all_goals first | exact .inr (Option.some.inj h).symm | exact .inl h

/-- No byte order mark starts what is written for nodes that nest. -/
theorem Node.head?_ne_byteOrderMark {inside : List ElementName} {cs : List Node}
    (hnests : Node.nestsAll inside cs = true) {s : Text} (hs : Node.writtenAll? {} cs = some s)
    {r : Text} (hr : r.head? = some '<') : (s ++ r).head? ≠ some Token.byteOrderMark := by
  have hother : (s ++ r).head? = some '<' → (s ++ r).head? ≠ some Token.byteOrderMark := by
    rintro heq
    rw [heq]
    decide
  cases cs with
  | nil => exact hother (Node.head?_writtenAll hnests rfl hs hr)
  | cons n rest =>
    cases htext : n.isText with
    | false => exact hother (Node.head?_writtenAll hnests htext hs hr)
    | true =>
      obtain ⟨first, others, hfirst, -, rfl⟩ := Node.writtenAll?_cons hs
      cases n with
      | text t =>
        simp only [Node.nestsAll, Node.nests, Bool.and_eq_true, decide_eq_true_eq, bne_iff_ne] at hnests
        obtain ⟨⟨⟨⟨ht, hmark⟩, -⟩, -⟩, -⟩ := hnests
        obtain rfl : Markup.writeText t = first := Option.some.inj hfirst
        intro hhead
        rw [List.append_assoc, List.head?_append_of_ne_nil _ (Markup.writeText_ne_nil ht.1)] at hhead
        rcases Markup.head?_writeText ht.1 hhead with hfirst | hamp
        · exact hmark hfirst
        · exact absurd hamp (by decide)
      | element | comment | document | doctype | placeholder => cases htext

theorem Node.ReadFor.exists_singleton {n : Node} {cs : List Node} (h : Node.ReadFor [n] cs) :
    ∃ n', cs = [n'] := by
  cases cs with
  | nil => cases h
  | cons n' rest =>
    cases rest with
    | nil => exact ⟨n', rfl⟩
    | cons => cases (List.cons.inj h).2

theorem Node.isText_tidy (n : Node) : n.tidy.isText = n.isText := by
  cases n with
  | element id name attributes cs =>
    rw [Node.tidy]
    split_ifs <;> rfl
  | document | doctype | comment | text | placeholder => rfl

theorem Node.isText_unnumbered (n : Node) : n.unnumbered.isText = n.isText := by
  cases n <;> rfl

theorem Node.ReadFor.isText_eq {n n' : Node} (h : Node.ReadFor [n] [n']) : n'.isText = n.isText := by
  have hsame : n'.tidy.unnumbered = n.unnumbered := (List.cons.inj h).1
  rw [← isText_tidy, ← isText_unnumbered, hsame, isText_unnumbered]

mutual

/-- A node that nests comes back. -/
theorem comesBack_of_nests : (n : Node) → ∀ {stack path f done b} {s r : Text},
    Ready stack path f done b → n.nests (namesOf stack) = true → n.written? {} = some s →
    (n.isText = true → done.getLast?.any Node.isText = false ∧ r.head? = some '<') →
    r.head? ≠ some Token.byteOrderMark →
    (b.dropNewline = true → Node.startWithNewline [n] = false) →
    ComesBack stack path f done b [n] s r
  | .element id ⟨space, name⟩ attributes cs, stack, path, f, done, b, s, r, h, hnests, hs, _, hmark,
      _ => by
    have hcontent (hinside : Node.nestsAll (⟨space, name⟩ :: namesOf stack) cs = true) :
        ContentComesBack stack ⟨space, name⟩ cs := by
      intro e path f b s r hname hopen hs hdrop
      have hnames : namesOf (e :: stack) = ⟨space, name⟩ :: namesOf stack := by
        rw [namesOf, List.map_cons, hname]
        rfl
      exact comesBack_of_nestsAll cs hopen (hnames ▸ hinside) hs (fun _ => rfl) rfl hdrop
    by_cases hspace : space = .html
    · subst hspace
      exact h.html_comesBack hcontent hnests hs hmark
    · exact h.foreign_comesBack hspace hcontent hnests hs r
  | .text t, stack, path, f, done, b, s, r, h, hnests, hs, htext, _, hdrop => by
    obtain rfl := Option.some.inj hs
    obtain ⟨hlast, hr⟩ := htext rfl
    simp only [Node.nests, Bool.and_eq_true, decide_eq_true_eq] at hnests
    refine h.text_comesBack hnests.1.1 hnests.2 hlast (fun hd => ?_) hr
    simpa [Node.startWithNewline] using hdrop hd
  | .comment c, stack, path, f, done, b, s, r, h, hnests, hs, _, _, _ => by
    obtain rfl := Option.some.inj hs
    exact h.comment_comesBack (of_decide_eq_true hnests) r
  | .document _ _, _, _, _, _, _, _, _, _, hnests, _, _, _, _ => by cases hnests
  | .doctype _ _ _, _, _, _, _, _, _, _, _, hnests, _, _, _, _ => by cases hnests
  | .placeholder, _, _, _, _, _, _, _, _, hnests, _, _, _, _ => by cases hnests

/-- **Nodes that nest come back** where nothing but a tag or a comment follows them. -/
theorem comesBack_of_nestsAll : (cs : List Node) → ∀ {stack path f done b} {s r : Text},
    Ready stack path f done b → Node.nestsAll (namesOf stack) cs = true →
    Node.writtenAll? {} cs = some s →
    (cs.head?.any Node.isText = true → done.getLast?.any Node.isText = false) →
    r.head? = some '<' → (b.dropNewline = true → Node.startWithNewline cs = false) →
    ComesBack stack path f done b cs s r
  | [], stack, path, f, done, b, s, r, h, _, hs, _, _, _ => by
    obtain rfl := Option.some.inj hs
    exact ⟨[], b, .nil, (List.append_nil done).symm ▸ h, .refl b, fun hplain => hplain rfl,
      .refl _ _⟩
  | n :: rest, stack, path, f, done, b, s, r, h, hnests, hs, hlast, hr, hdrop => by
    obtain ⟨first, others, hfirst, hothers, rfl⟩ := Node.writtenAll?_cons hs
    simp only [Node.nestsAll, Bool.and_eq_true, Bool.not_eq_true', Bool.and_eq_false_imp] at hnests
    obtain ⟨⟨hn, happart⟩, hrest⟩ := hnests
    have hfollow : n.isText = true → (others ++ r).head? = some '<' := fun htext =>
      Node.head?_writtenAll hrest (happart htext) hothers hr
    obtain ⟨_, b', hcs, hready, hfollows, hplain, hreads⟩ := comesBack_of_nests n h hn hfirst
      (fun htext => ⟨hlast htext, hfollow htext⟩)
      (Node.head?_ne_byteOrderMark hrest hothers hr) hdrop
    obtain ⟨n', rfl⟩ := hcs.exists_singleton
    have hplain : b'.dropNewline = false := hplain fun hnil => absurd hnil (List.cons_ne_nil _ _)
    have hnext : rest.head?.any Node.isText = true →
        (done ++ [n']).getLast?.any Node.isText = false := by
      intro hhead
      rw [List.getLast?_concat, Option.any_some, hcs.isText_eq, Bool.eq_false_iff]
      intro htext
      rw [happart htext] at hhead
      cases hhead
    obtain ⟨rest', b'', hcs', hready', hfollows', hplain', hreads'⟩ :=
      comesBack_of_nestsAll rest hready hrest hothers hnext hr
        fun hd => absurd (hplain.symm.trans hd) Bool.false_ne_true
    refine ⟨n' :: rest', b'', hcs.cons hcs', ?_, hfollows.trans hfollows',
      fun _ => hplain' fun _ => hplain, ?_⟩
    · rwa [List.append_assoc, List.singleton_append] at hready'
    · rw [List.append_assoc]
      exact hreads.trans hreads'

end

end Reading
end TerseMarkup.Html
