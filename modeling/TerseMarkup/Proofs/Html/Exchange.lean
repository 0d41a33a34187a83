import TerseMarkup.Html.Renaming
import TerseMarkup.Proofs.Css.Exchange

/-! Exchanging the names of a tree for codes known from the start.

A tree is gone through twice, for its style elements and for its attributes, and each time renaming
follows an exchange and a list of mentions. A style element whose text changes loses its other
children, and the elements among them are not met any more. Whether a text changes depends on the
codes, and so do the mentions in style elements. -/
namespace TerseMarkup.Html

/-- The classes of an attribute's value, each with its code if there is one. -/
def exchangeClasses (codes : Codes) (value : Text) : Text :=
  joinClasses ((Text.words value).map fun word => (codes .className word).getD word)

namespace Attribute

def exchangeClass (codes : Codes) (as : List Attribute) : List Attribute :=
  match value? as "class" with
  | some value =>
    let new := exchangeClasses codes value
    if new.isEmpty then as else setValue as "class" new
  | none => as

def exchangeId (codes : Codes) (name : String) (as : List Attribute) : List Attribute :=
  match value? as name with
  | some value =>
    if value.isEmpty then as
    else
      match codes .id value with
      | some new => setValue as name new
      | none => as
  | none => as

def exchange (codes : Codes) (as : List Attribute) : List Attribute :=
  exchangeId codes "for" (exchangeId codes "id" (exchangeClass codes as))

def classMentions (as : List Attribute) : List Mention :=
  match value? as "class" with
  | some value => (Text.words value).map fun word => (.className, word)
  | none => []

def idMentions (name : String) (as : List Attribute) : List Mention :=
  match value? as name with
  | some value => if value.isEmpty then [] else [(.id, value)]
  | none => []

/-- The names in the attributes of one element: its classes, its id, and the id that it is for. -/
def mentions (as : List Attribute) : List Mention :=
  classMentions as ++ idMentions "id" as ++ idMentions "for" as

end Attribute

namespace Node

mutual

def exchangeElements (codes : Codes) : Node → Node
  | document id cs => document id (exchangeElementsAll codes cs)
  | element id name attributes cs =>
    element id name (Attribute.exchange codes attributes) (exchangeElementsAll codes cs)
  | doctype name publicId systemId => doctype name publicId systemId
  | text t => text t
  | comment c => comment c
  | placeholder => placeholder

def exchangeElementsAll (codes : Codes) : List Node → List Node
  | [] => []
  | n :: rest => n.exchangeElements codes :: exchangeElementsAll codes rest

end

mutual

/-- The names in attributes, an element's before those of its children. -/
def elementMentions : Node → List Mention
  | document _ cs => elementMentionsAll cs
  | element _ _ attributes cs => Attribute.mentions attributes ++ elementMentionsAll cs
  | doctype _ _ _ => []
  | text _ => []
  | comment _ => []
  | placeholder => []

def elementMentionsAll : List Node → List Mention
  | [] => []
  | n :: rest => n.elementMentions ++ elementMentionsAll rest

end

/-- What the text of a style element with these children becomes. -/
def exchangedText (codes : Codes) (cs : List Node) : Text :=
  ((Css.Stylesheet.parse (textOf cs)).exchange codes).text

mutual

def exchangeStyles (codes : Codes) : Node → Node
  | document id cs => document id (exchangeStylesAll codes cs)
  | element id name attributes cs =>
    if name.isStyle = true ∧ exchangedText codes cs ≠ textOf cs then
      element id name attributes (styleContents (exchangedText codes cs))
    else element id name attributes (exchangeStylesAll codes cs)
  | doctype name publicId systemId => doctype name publicId systemId
  | text t => text t
  | comment c => comment c
  | placeholder => placeholder

def exchangeStylesAll (codes : Codes) : List Node → List Node
  | [] => []
  | n :: rest => n.exchangeStyles codes :: exchangeStylesAll codes rest

end

mutual

/-- The names in the style elements that stay in the tree. -/
def styleMentions (codes : Codes) : Node → List Mention
  | document _ cs => styleMentionsAll codes cs
  | element _ name _ cs =>
    if name.isStyle then
      (Css.Stylesheet.parse (textOf cs)).mentions ++
        if exchangedText codes cs = textOf cs then styleMentionsAll codes cs else []
    else styleMentionsAll codes cs
  | doctype _ _ _ => []
  | text _ => []
  | comment _ => []
  | placeholder => []

def styleMentionsAll (codes : Codes) : List Node → List Mention
  | [] => []
  | n :: rest => n.styleMentions codes ++ styleMentionsAll codes rest

end

end Node

/-! ### Attributes of other names stay -/

namespace Attribute

theorem value?_setValue_of_ne {name name' : String} (h : name' ≠ name) (as : List Attribute)
    (value : Text) : value? (setValue as name value) name' = value? as name' := by
  induction as with
  | nil => rfl
  | cons a rest ih =>
    have ih' : ((rest.map fun a => if a.name == { name } then { a with value } else a).find?
        (·.name == { name := name' })).map Attribute.value =
        (rest.find? (·.name == { name := name' })).map Attribute.value := ih
    rw [value?, value?, setValue, List.map_cons, List.find?_cons, List.find?_cons]
    by_cases hname : a.name = { name }
    · have hother : (a.name == { name := name' }) = false := by
        rw [hname]
        exact beq_eq_false_iff_ne.mpr fun he => h (AttributeName.mk.inj he).2.symm
      rw [if_pos (beq_iff_eq.mpr hname), hother]
      exact ih'
    · rw [if_neg (fun he => hname (beq_iff_eq.mp he))]
      cases a.name == { name := name' } with
      | true => rfl
      | false => exact ih'

theorem value?_exchangeClass_of_ne {name : String} (h : name ≠ "class") (codes : Codes)
    (as : List Attribute) : value? (exchangeClass codes as) name = value? as name := by
  rw [exchangeClass]
  split
  · dsimp only
    split
    · rfl
    · exact value?_setValue_of_ne h as _
  · rfl

theorem value?_exchangeId_of_ne {name name' : String} (h : name' ≠ name) (codes : Codes)
    (as : List Attribute) : value? (exchangeId codes name as) name' = value? as name' := by
  rw [exchangeId]
  split
  · split
    · rfl
    · split
      · exact value?_setValue_of_ne h as _
      · rfl
  · rfl

/-- An element's names are asked for as they stood at first. -/
theorem mentions_eq (codes : Codes) (as : List Attribute) :
    mentions as = classMentions as ++ (idMentions "id" (exchangeClass codes as) ++
      idMentions "for" (exchangeId codes "id" (exchangeClass codes as))) := by
  rw [mentions, idMentions, idMentions, idMentions, idMentions,
    value?_exchangeClass_of_ne (by decide), value?_exchangeId_of_ne (by decide),
    value?_exchangeClass_of_ne (by decide), List.append_assoc]

end Attribute

/-! ### Renaming follows -/

section Follows

variable {σ : Type} {f : Renaming σ} {Before : σ → Prop} {codes : Codes}

theorem follows_renameClasses (h : f.Foretells Before codes) (value : Text) :
    f.Follows Before (renameClasses f value) (exchangeClasses codes value)
      ((Text.words value).map fun word => (.className, word)) := by
  have hwords := Renaming.Follows.mapM
    (fun word => (h .className word).map fun code => code.getD word) (Text.words value)
  rw [← List.map_eq_flatMap] at hwords
  exact hwords.map joinClasses

namespace Attribute

theorem follows_renameClass (h : f.Foretells Before codes) (as : List Attribute) :
    f.Follows Before (renameClass f as) (exchangeClass codes as) (classMentions as) := by
  rw [renameClass, exchangeClass, classMentions]
  cases value? as "class" with
  | none => exact .pure as
  | some value =>
    exact (follows_renameClasses h value).map fun new =>
      if new.isEmpty then as else setValue as "class" new

theorem follows_renameId (h : f.Foretells Before codes) (name : String) (as : List Attribute) :
    f.Follows Before (renameId f name as) (exchangeId codes name as) (idMentions name as) := by
  rw [renameId, exchangeId, idMentions]
  cases value? as name with
  | none => exact .pure as
  | some value =>
    dsimp only
    split
    · exact .pure as
    · have hset (code : Option Text) : f.Follows Before
          (match code with
            | some new => return setValue as name new
            | none => return as)
          (match code with
            | some new => setValue as name new
            | none => as) [] := by
        cases code with
        | none => exact .pure as
        | some new => exact .pure (setValue as name new)
      exact (h .id value).bind hset

theorem follows_rename (h : f.Foretells Before codes) (as : List Attribute) :
    f.Follows Before (rename f as) (exchange codes as) (mentions as) := by
  rw [rename, exchange, mentions_eq codes]
  exact (follows_renameClass h as).bind fun as =>
    (follows_renameId h "id" as).bind fun as => follows_renameId h "for" as

end Attribute

namespace Node

mutual

theorem follows_renameElements (h : f.Foretells Before codes) : (n : Node) →
    f.Follows Before (n.renameElements f) (n.exchangeElements codes) n.elementMentions
  | document id cs => by
    rw [renameElements, exchangeElements, elementMentions]
    exact (follows_renameElementsAll h cs).map (document id)
  | element id name attributes cs => by
    rw [renameElements, exchangeElements, elementMentions]
    exact (Attribute.follows_rename h attributes).bind fun attributes =>
      (follows_renameElementsAll h cs).map (element id name attributes)
  | doctype _ _ _ | text _ | comment _ | placeholder => by
    rw [renameElements, exchangeElements, elementMentions]
    exact .pure _

theorem follows_renameElementsAll (h : f.Foretells Before codes) : (ns : List Node) →
    f.Follows Before (renameElementsAll f ns) (exchangeElementsAll codes ns)
      (elementMentionsAll ns)
  | [] => by
    rw [renameElementsAll, exchangeElementsAll, elementMentionsAll]
    exact .pure []
  | n :: rest => by
    rw [renameElementsAll, exchangeElementsAll, elementMentionsAll]
    exact (follows_renameElements h n).bind fun n =>
      (follows_renameElementsAll h rest).map (n :: ·)

end

mutual

theorem follows_renameStyles (h : f.Foretells Before codes) : (n : Node) →
    f.Follows Before (n.renameStyles f) (n.exchangeStyles codes) (n.styleMentions codes)
  | document id cs => by
    rw [renameStyles, exchangeStyles, styleMentions]
    exact (follows_renameStylesAll h cs).map (document id)
  | element id name attributes cs => by
    rw [renameStyles, exchangeStyles, styleMentions]
    have hinside := follows_renameStylesAll h cs
    by_cases hstyle : name.isStyle = true
    · have hset (sheet : Css.Stylesheet) : f.Follows Before
          (do
            if sheet.text = textOf cs then
              return element id name attributes (← renameStylesAll f cs)
            else return element id name attributes (styleContents sheet.text))
          (if sheet.text ≠ textOf cs then element id name attributes (styleContents sheet.text)
            else element id name attributes (exchangeStylesAll codes cs))
          (if sheet.text = textOf cs then styleMentionsAll codes cs else []) := by
        by_cases htext : sheet.text = textOf cs
        · rw [if_pos htext, if_neg (not_not_intro htext), if_pos htext]
          exact hinside.map (element id name attributes)
        · rw [if_neg htext, if_pos htext, if_neg htext]
          exact .pure _
      simp only [hstyle, true_and, if_true]
      exact (Css.Stylesheet.follows_rename h (Css.Stylesheet.parse (textOf cs))).bind hset
    · rw [if_neg hstyle, if_neg hstyle, if_neg (fun h => hstyle h.1)]
      exact hinside.map (element id name attributes)
  | doctype _ _ _ | text _ | comment _ | placeholder => by
    rw [renameStyles, exchangeStyles, styleMentions]
    exact .pure _

theorem follows_renameStylesAll (h : f.Foretells Before codes) : (ns : List Node) →
    f.Follows Before (renameStylesAll f ns) (exchangeStylesAll codes ns)
      (styleMentionsAll codes ns)
  | [] => by
    rw [renameStylesAll, exchangeStylesAll, styleMentionsAll]
    exact .pure []
  | n :: rest => by
    rw [renameStylesAll, exchangeStylesAll, styleMentionsAll]
    exact (follows_renameStyles h n).bind fun n => (follows_renameStylesAll h rest).map (n :: ·)

end

end Node

end Follows
end TerseMarkup.Html
