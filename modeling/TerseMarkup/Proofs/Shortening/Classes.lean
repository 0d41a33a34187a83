import Mathlib.Data.List.Forall2
import TerseMarkup.Proofs.Assignment.Words
import TerseMarkup.Proofs.Shortening
import TerseMarkup.Shortener.Css

/-! Lists of classes.

The attribute `class` holds a list of classes, and each of them is exchanged for itself. That the
list stays one of as many classes needs their codes to be words, though a selector may have put
names with spaces in the table before; a name with spaces lends no code to a word
(`Assigned.isWord`). -/
namespace TerseMarkup
namespace Html

theorem joinClasses_eq_spaced {classes : List Text} (h : ∀ c ∈ classes, c.IsWord) :
    joinClasses classes = Text.spaced classes := by
  have hjoin (joined : Text) (hjoined : joined ≠ []) (rest : List Text) :
      rest.foldl (fun joined c => if joined.isEmpty then c else joined ++ ' ' :: c) joined =
        joined ++ rest.flatMap (' ' :: ·) := by
    induction rest generalizing joined with
    | nil => rw [List.foldl_nil, List.flatMap_nil, List.append_nil]
    | cons c rest ih =>
      rw [List.foldl_cons, if_neg (by simpa using hjoined),
        ih _ (List.append_ne_nil_of_left_ne_nil hjoined _), List.flatMap_cons, List.append_assoc]
  cases classes with
  | nil => rfl
  | cons c rest =>
    rw [joinClasses, List.foldl_cons, if_pos List.isEmpty_nil,
      hjoin c (h c (List.mem_cons_self ..)).ne_nil, Text.spaced_cons]

namespace Attribute

theorem value?_setValue {name : String} {as : List Attribute} {old : Text}
    (h : value? as name = some old) (new : Text) : value? (setValue as name new) name = some new := by
  obtain ⟨a, hfind, -⟩ := Option.map_eq_some_iff.mp h
  have hsame : (fun a : Attribute => a.name == { name := name }) ∘
      (fun a => if a.name == { name } then { a with value := new } else a) =
        fun a => a.name == { name } := by
    funext a
    rw [Function.comp_apply]
    split <;> rfl
  rw [value?, setValue, List.find?_map, hsame, hfind, Option.map_some, Option.map_some,
    if_pos (List.find?_some hfind)]

/-- What the list of classes in an attribute becomes; one without classes stays as it is. -/
def exchangedClasses (codes : Codes) (value : Text) : Text :=
  let new := exchangeClasses codes value
  if new.isEmpty then value else new

theorem value?_exchange (codes : Codes) (as : List Attribute) :
    value? (exchange codes as) "class" = (value? as "class").map (exchangedClasses codes) := by
  rw [exchange, value?_exchangeId_of_ne (by decide), value?_exchangeId_of_ne (by decide),
    exchangeClass]
  cases hvalue : value? as "class" with
  | none => simp [hvalue]
  | some value =>
    dsimp only
    rw [Option.map_some, exchangedClasses]
    split
    · exact hvalue
    · exact value?_setValue hvalue _

end Attribute

namespace Node

mutual

/-- The values of the attribute `class`, in the order of the elements. -/
def classValues : Node → List Text
  | document _ cs => classValuesAll cs
  | element _ _ attributes cs => (Attribute.value? attributes "class").toList ++ classValuesAll cs
  | doctype _ _ _ => []
  | text _ => []
  | comment _ => []
  | placeholder => []

def classValuesAll : List Node → List Text
  | [] => []
  | n :: rest => n.classValues ++ classValuesAll rest

end

mutual

theorem classValues_exchangeElements (codes : Codes) : (n : Node) →
    (n.exchangeElements codes).classValues =
      n.classValues.map (Attribute.exchangedClasses codes)
  | document id cs => by
    rw [exchangeElements, classValues, classValues, classValuesAll_exchangeElementsAll]
  | element id name attributes cs => by
    rw [exchangeElements, classValues, classValues, classValuesAll_exchangeElementsAll,
      Attribute.value?_exchange, List.map_append]
    cases Attribute.value? attributes "class" <;> rfl
  | doctype _ _ _ | text _ | comment _ | placeholder => by
    rw [exchangeElements, classValues]
    rfl

theorem classValuesAll_exchangeElementsAll (codes : Codes) : (ns : List Node) →
    classValuesAll (exchangeElementsAll codes ns) =
      (classValuesAll ns).map (Attribute.exchangedClasses codes)
  | [] => by
    rw [exchangeElementsAll, classValuesAll]
    rfl
  | n :: rest => by
    rw [exchangeElementsAll, classValuesAll, classValuesAll, classValues_exchangeElements,
      classValuesAll_exchangeElementsAll, List.map_append]

end

mutual

/-- Every class of an element is asked for. -/
theorem mem_elementMentions {value word : Text} (hword : word ∈ Text.words value) : (n : Node) →
    value ∈ n.classValues → (Kind.className, word) ∈ n.elementMentions
  | document _ cs => by
    rw [classValues, elementMentions]
    exact mem_elementMentionsAll hword cs
  | element _ _ attributes cs => by
    rw [classValues, elementMentions, List.mem_append, List.mem_append]
    refine Or.imp (fun hvalue => ?_) (mem_elementMentionsAll hword cs)
    rw [Option.mem_toList] at hvalue
    rw [Attribute.mentions, Attribute.classMentions, hvalue]
    exact List.mem_append_left _ (List.mem_append_left _ (List.mem_map_of_mem hword))
  | doctype _ _ _ | text _ | comment _ | placeholder => by
    rw [classValues]
    exact fun h => absurd h List.not_mem_nil

theorem mem_elementMentionsAll {value word : Text} (hword : word ∈ Text.words value) :
    (ns : List Node) → value ∈ classValuesAll ns →
      (Kind.className, word) ∈ elementMentionsAll ns
  | [] => by
    rw [classValuesAll]
    exact fun h => absurd h List.not_mem_nil
  | n :: rest => by
    rw [classValuesAll, elementMentionsAll, List.mem_append, List.mem_append]
    exact Or.imp (mem_elementMentions hword n) (mem_elementMentionsAll hword rest)

end

end Node
end Html

namespace Shortener
open Html

/-- What a list of classes becomes, by the last table: each class gives way to its code, or stays if
it is exempt, and one space is between each two. -/
structure Reworded (s : Shortener) (last : Table) (old new : Text) : Prop where
  classes : List.Forall₂
    (fun word word' =>
      if s.whitelist.contains .className word then word' = word
      else last.find? .className word = some word')
    (Text.words old) (Text.words new)
  spaced : new = Text.spaced (Text.words new)

variable {s : Shortener} {last : Table}

/-- A list of classes with words for codes becomes the list of those. -/
theorem exchangedClasses_eq_spaced {codes : Codes} {value : Text} (hne : Text.words value ≠ [])
    (h : ∀ word ∈ Text.words value, ((codes .className word).getD word).IsWord) :
    Attribute.exchangedClasses codes value =
      Text.spaced ((Text.words value).map fun word => (codes .className word).getD word) := by
  have hwords := List.forall_mem_map.mpr h
  have hsome := Text.spaced_ne_nil (by simpa using hne) hwords
  have hjoin : exchangeClasses codes value = Text.spaced _ := joinClasses_eq_spaced hwords
  rw [Attribute.exchangedClasses, hjoin, if_neg (by simpa using hsome)]

/-- Only the whitelist keeps a known word from giving way to its code, and that is a word again. -/
theorem reworded_word (hassigned : s.Assigned last) (hcodec : ∀ n, (s.codec.encode n).IsWord)
    {word : Text} (hword : word.IsWord)
    (hknown : s.renames .className word = true → ∃ code, last.find? .className word = some code) :
    let word' := (s.lookup last .className word).getD word
    word'.IsWord ∧ if s.whitelist.contains .className word then word' = word
      else last.find? .className word = some word' := by
  cases hexempt : s.whitelist.contains .className word with
  | true => simpa [lookup, renames, hexempt] using hword
  | false =>
    have hname : s.renames .className word = true :=
      (s.renames_iff .className word).mpr ⟨hword.ne_nil, hexempt⟩
    obtain ⟨code, hfind⟩ := hknown hname
    simpa [lookup, hname, hfind] using hassigned.isWord hcodec hword.solid hfind

/-- A list of classes that are all known is reworded. -/
theorem reworded_exchangedClasses (hassigned : s.Assigned last)
    (hcodec : ∀ n, (s.codec.encode n).IsWord) {value : Text} (hne : Text.words value ≠ [])
    (hknown : ∀ word ∈ Text.words value, s.renames .className word = true →
      ∃ code, last.find? .className word = some code) :
    s.Reworded last value (Attribute.exchangedClasses (s.lookup last) value) := by
  have hreword (word : Text) (hword : word ∈ Text.words value) :=
    reworded_word hassigned hcodec (Text.isWord_of_mem_words hword) (hknown word hword)
  have hwords := List.forall_mem_map.mpr fun word hword => (hreword word hword).1
  rw [exchangedClasses_eq_spaced hne fun word hword => (hreword word hword).1]
  refine ⟨?_, by rw [Text.words_spaced hwords]⟩
  rw [Text.words_spaced hwords, List.forall₂_map_right_iff, List.forall₂_same]
  exact fun word hword => (hreword word hword).2

theorem follows_shortenCss (css : Text) :
    s.assign.Follows (·.GrowsTo last) (s.shortenCss css)
      ((Css.Stylesheet.parse css).exchange (s.lookup last)).text
      (Css.Stylesheet.parse css).mentions :=
  (Css.Stylesheet.follows_rename (foretells_lookup last) _).map Css.Stylesheet.text

/-- Elements after stylesheets: their names are assigned at the end of one run from nothing, and are
exchanged by its table. -/
theorem shortenElements_spec {sheets : List Text} {root styled tree : Node} {table : Table}
    (hstyles : (do let _ ← sheets.mapM s.shortenCss; s.shortenStyles root : StateM Table Node).run
      .empty = (styled, table))
    (helements : (s.shortenElements styled).run table = (tree, last)) :
    s.Assigned last ∧ tree = styled.exchangeElements (s.lookup last) ∧
      last = s.assignAll styled.elementMentions table := by
  have htable := (eq_assignAll_of_follows (fun last =>
    (Renaming.Follows.mapM follows_shortenCss sheets).bind fun _ =>
      Node.follows_renameStyles (foretells_lookup last) root) hstyles).2
  obtain ⟨htree, hlast⟩ := eq_assignAll_of_follows
    (fun last => Node.follows_renameElements (foretells_lookup last) styled) helements
  refine ⟨?_, htree, hlast⟩
  rw [hlast, htable, ← assignAll_append]
  exact assigned_assignAll _

/-- **Lists of classes are reworded class by class**, after any stylesheets with any patterns in
their selectors, and a name without spaces has a word as its code. -/
theorem shortenElements_reworded (settings : Settings) (sheets : List Text) (root : Node) :
    let s := ofSettings settings
    let (styled, table) :=
      (do let _ ← sheets.mapM s.shortenCss; s.shortenStyles root : StateM Table Node).run .empty
    let (tree, last) := (s.shortenElements styled).run table
    List.Forall₂
        (fun old new => if Text.words old = [] then new = old else s.Reworded last old new)
        styled.classValues tree.classValues ∧
      ∀ k name code, last.find? k name = some code → (∀ c ∈ name, Text.isSpace c = false) →
        code.IsWord := by
  intro s
  obtain ⟨styled, table, hstyles⟩ : ∃ styled table,
      (do let _ ← sheets.mapM s.shortenCss; s.shortenStyles root : StateM Table Node).run .empty =
        (styled, table) := ⟨_, _, rfl⟩
  obtain ⟨tree, last, helements⟩ : ∃ tree last,
      (s.shortenElements styled).run table = (tree, last) := ⟨_, _, rfl⟩
  have hcodec : ∀ n, (s.codec.encode n).IsWord := Codec.isWord_encode settings.salt
  obtain ⟨hassigned, htree, hlast⟩ := shortenElements_spec hstyles helements
  rw [hstyles]
  dsimp only
  rw [helements]
  refine ⟨?_, fun k name code hfind hname => hassigned.isWord hcodec hname hfind⟩
  rw [htree, Node.classValues_exchangeElements, List.forall₂_map_right_iff, List.forall₂_same]
  intro value hvalue
  split
  · next hnone =>
    rw [Attribute.exchangedClasses, exchangeClasses, hnone]
    rfl
  · next hsome =>
    refine reworded_exchangedClasses hassigned hcodec hsome fun word hword hname => ?_
    rw [hlast]
    exact exists_find?_assignAll (Node.mem_elementMentions hword styled hvalue) hname table

end Shortener
end TerseMarkup
