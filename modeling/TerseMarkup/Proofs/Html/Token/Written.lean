import Mathlib.Data.List.DropRight
import TerseMarkup.Html.Markup.Tag
import TerseMarkup.Html.Token.Read
import TerseMarkup.Proofs.Html.Escape
import TerseMarkup.Proofs.Html.Token.Closing.RawText
import TerseMarkup.Proofs.Html.Token.Closing.Tag

/-! Tokens read from what has been written.

Behind what is written for a text there is the start of a tag or a comment; behind a tag or a comment
there may be anything. What is read is the text, the tag or the comment, and nothing of what
follows. -/
namespace TerseMarkup.Html

theorem withoutNull_eq {t : Text} (h : '\x00' ∉ t) : t.withoutNull = t := by
  refine (List.map_congr_left fun c hc => if_neg ?_).trans (List.map_id t)
  exact fun heq => h (heq ▸ hc)

theorem span_append {p : Char → Bool} {s r : Text} (hs : ∀ c ∈ s, p c = true)
    (hr : ∀ c, r.head? = some c → p c = false) : (s ++ r).span p = (s, r) := by
  rw [List.span_eq_takeWhile_dropWhile, List.takeWhile_append_of_pos hs,
    List.dropWhile_append_of_pos hs]
  cases r with
  | nil => rw [List.takeWhile_nil, List.dropWhile_nil, List.append_nil]
  | cons c r =>
    have hc := hr c rfl
    rw [List.takeWhile_cons_of_neg (by simp [hc]), List.dropWhile_cons_of_neg (by simp [hc]),
      List.append_nil]

/-! ### Names -/

/-- A name that is read as it is written, as one of a tag or of an attribute. -/
def IsReadAsWritten (name : String) : Prop :=
  ∀ c ∈ name.toList, Tag.isInName c = true ∧ c.toLower = c ∧ c ≠ '\x00'

instance (name : String) : Decidable (IsReadAsWritten name) :=
  List.decidableBAll _ _

theorem nameOf_eq {name : String} (h : IsReadAsWritten name) : Tag.nameOf name.toList = name := by
  have hlower : Text.lower name.toList = name.toList :=
    (List.map_congr_left fun c hc => (h c hc).2.1).trans (List.map_id _)
  rw [Tag.nameOf, hlower, withoutNull_eq fun hmem => (h _ hmem).2.2 rfl, String.ofList_toList]

theorem isInName_eq {c : Char} (h : Tag.isInName c = true) :
    Tag.endsName c = false ∧ Text.isSpace c = false ∧ c ≠ '/' ∧ c ≠ '>' ∧ c ≠ '=' := by
  rw [Tag.isInName, Bool.not_eq_true', Bool.or_eq_false_iff] at h
  obtain ⟨hend, hequals⟩ := h
  refine ⟨hend, ?_⟩
  simpa [Tag.endsName, and_assoc] using And.intro hend hequals

/-! ### Attributes -/

/-- An attribute's name as it is written, with the prefix of its namespace. -/
def AttributeName.spelled (n : AttributeName) : Text :=
  ((Markup.attributeLead? n).getD []).drop 1 ++ n.name.toList

/-- The attribute that is read where this one is written: its name is in small letters, and the prefix
is a part of it. -/
def Attribute.asRead (a : Attribute) : Attribute := ⟨{ name := Tag.nameOf a.name.spelled }, a.value⟩

/-- An attribute that is read where it is written. -/
def Attribute.IsLegible (a : Attribute) : Prop :=
  (Markup.attributeLead? a.name).isSome = true ∧ a.name.spelled ≠ [] ∧
    (∀ c ∈ a.name.spelled, Tag.isInName c = true) ∧ '\x00' ∉ a.value

instance (a : Attribute) : Decidable a.IsLegible :=
  have : Decidable (∀ c ∈ a.name.spelled, Tag.isInName c = true) := List.decidableBAll _ _
  inferInstanceAs (Decidable (_ ∧ _ ∧ _ ∧ _))

/-- An attribute that is read as it is written; those in a namespace are not. -/
def Attribute.IsWritable (a : Attribute) : Prop :=
  a.name.space = none ∧ a.name.name.toList ≠ [] ∧ IsReadAsWritten a.name.name ∧ '\x00' ∉ a.value

instance (a : Attribute) : Decidable a.IsWritable := inferInstanceAs (Decidable (_ ∧ _ ∧ _ ∧ _))

theorem AttributeName.spelled_eq {n : AttributeName} (h : n.space = none) :
    n.spelled = n.name.toList := by
  rw [spelled, Markup.attributeLead?, h]
  rfl

theorem Attribute.IsWritable.legible {a : Attribute} (h : a.IsWritable) : a.IsLegible := by
  obtain ⟨hspace, hne, hname, hnull⟩ := h
  rw [IsLegible, AttributeName.spelled_eq hspace, Markup.attributeLead?, hspace]
  exact ⟨rfl, hne, fun c hc => (hname c hc).1, hnull⟩

theorem Attribute.IsWritable.asRead_eq {a : Attribute} (h : a.IsWritable) : a.asRead = a := by
  obtain ⟨⟨space, name⟩, value⟩ := a
  obtain ⟨hspace, -, hname, -⟩ := h
  obtain rfl : space = none := hspace
  rw [asRead, AttributeName.spelled_eq rfl, nameOf_eq hname]

/-- The attributes of a tag that is read as it is written. -/
theorem Attribute.map_asRead {attributes : List Attribute} (h : ∀ a ∈ attributes, a.IsWritable) :
    attributes.map asRead = attributes :=
  (List.map_congr_left fun a ha => (h a ha).asRead_eq).trans (List.map_id _)

namespace Tag
open Markup

section Attributes

variable {element : ElementName}

/-- What is written behind an attribute's name. -/
def valuePart (element : ElementName) (value : Text) : Text :=
  if value.isEmpty && element.space == .html then [] else '=' :: writeValue value

theorem writeAttribute?_eq {a : Attribute} (ha : a.IsLegible) :
    writeAttribute? element a = some (' ' :: (a.name.spelled ++ valuePart element a.value)) := by
  obtain ⟨lead, hlead⟩ := Option.isSome_iff_exists.mp ha.1
  have hblank : lead = ' ' :: lead.drop 1 := by
    rw [attributeLead?] at hlead
    split at hlead
    · obtain rfl := Option.some.inj hlead
      rfl
    · obtain rfl := Option.some.inj hlead
      rfl
    · obtain rfl := Option.some.inj hlead
      split <;> rfl
    · obtain rfl := Option.some.inj hlead
      rfl
    · cases hlead
  rw [writeAttribute?, AttributeName.spelled, hlead, valuePart]
  show some (lead ++ _ ++ _) = some (' ' :: (lead.drop 1 ++ _ ++ _))
  rw [← List.cons_append, ← List.cons_append, ← hblank]

theorem readValue?_writeValue {value : Text} (hnull : '\x00' ∉ value) (r : Text) :
    readValue? (writeValue value ++ r) = some (value, r) := by
  rw [writeValue]
  set q := Quote.forValue value
  set spelled := value.flatMap (writeValueChar q) with hspelled
  have hquote : q.char = '"' ∨ q.char = '\'' := by cases q <;> decide
  have hspace : (q.char :: (spelled ++ [q.char]) ++ r).dropWhile Text.isSpace =
      q.char :: (spelled ++ q.char :: r) := by
    rw [List.cons_append, List.append_assoc, List.singleton_append, List.dropWhile_cons_of_neg]
    cases q <;> decide
  have hspan : (spelled ++ q.char :: r).span (· ≠ q.char) = (spelled, q.char :: r) := by
    refine span_append (fun c hc => ?_) fun c hc => ?_
    · have hne : c ≠ q.char := fun heq => char_not_mem_writeValue q value (heq ▸ hc)
      simpa using hne
    · simpa using (Option.some.inj hc).symm
  rw [readValue?_of_cons hspace, if_pos hquote, readValue?.quoted, hspan]
  show some (valueOf spelled, r) = _
  rw [valueOf, hspelled, decode_writeValue, withoutNull_eq hnull]

/-- The attributes of a tag have names of their own when they are read. -/
def NewTo (found attributes : List Attribute) : Prop :=
  ((found ++ attributes.map Attribute.asRead).map Attribute.name).Nodup

theorem addAttribute_eq {found rest : List Attribute} {a : Attribute}
    (hnew : NewTo found (a :: rest)) {spelled : Text} (hspelled : a.name.spelled = spelled)
    (value : Text) (hvalue : a.value = value) :
    addAttribute found spelled value = found ++ [a.asRead] := by
  have hsame : ({ name := nameOf spelled } : AttributeName) = a.asRead.name := by
    rw [← hspelled]
    rfl
  have hfound : found.any (·.name == a.asRead.name) = false := by
    rw [List.any_eq_false]
    intro e he heq
    rw [NewTo, List.map_append, List.nodup_append] at hnew
    exact hnew.2.2 _ (List.mem_map_of_mem he) _ List.mem_cons_self (beq_iff_eq.mp heq)
  rw [addAttribute]
  simp only [hsame]
  rw [if_neg (by simp [hfound]), ← hvalue]
  rfl

theorem writeAttributes?_shape {attributes : List Attribute}
    (hattributes : ∀ a ∈ attributes, a.IsLegible) {written : Text}
    (hwritten : writeAttributes? element attributes = some written) :
    written = [] ∨ ∃ c t, written = ' ' :: c :: t ∧ isInName c = true := by
  cases attributes with
  | nil => exact .inl (Option.some.inj hwritten).symm
  | cons a rest =>
    obtain ⟨ha, -⟩ := List.forall_mem_cons.mp hattributes
    rw [writeAttributes?, writeAttribute?_eq ha] at hwritten
    cases hothers : writeAttributes? element rest with
    | none => simp [hothers] at hwritten
    | some others =>
      obtain ⟨c, more, hname⟩ := List.exists_cons_of_ne_nil ha.2.1
      have hall := ha.2.2.1
      rw [hname] at hall
      refine .inr ⟨c, more ++ valuePart element a.value ++ others, ?_, hall c List.mem_cons_self⟩
      simpa [hothers, hname] using hwritten.symm

/-- The tag that is read where the start tag of this element is written. -/
def asRead (element : ElementName) (attributes : List Attribute) (closes : Bool) : Tag where
  name := nameOf element.name.toList
  attributes := attributes.map Attribute.asRead
  selfClosing := closes

/-- What a start tag ends with. -/
def ending (closes : Bool) : Text := if closes then ['/', '>'] else ['>']

theorem head?_ending (closes : Bool) (r : Text) : ∀ c, (ending closes ++ r).head? = some c →
    isInName c = false ∧ endsName c = true ∧ Text.isSpace c = false ∧ c ≠ '=' := by
  cases closes <;> rintro c ⟨⟩ <;> decide

/-- What follows an attribute's name in a tag starts with no character that would belong to it. -/
theorem stops_name {written : Text} (h : written = [] ∨ ∃ c t, written = ' ' :: c :: t ∧
    isInName c = true) (closes : Bool) (r value : Text) :
    ∀ c, (valuePart element value ++ (written ++ (ending closes ++ r))).head? = some c →
      isInName c = false := by
  intro c hc
  rw [valuePart] at hc
  split at hc
  · rcases h with rfl | ⟨_, _, rfl, -⟩
    · exact (head?_ending closes r c hc).1
    · obtain rfl := Option.some.inj hc
      decide
  · obtain rfl := Option.some.inj hc
    decide

/-- **The attributes that are written are read.** -/
theorem attributesFrom_written {attributes : List Attribute}
    (hattributes : ∀ a ∈ attributes, a.IsLegible) {written : Text}
    (hwritten : writeAttributes? element attributes = some written) {fuel : Nat}
    (hfuel : attributes.length < fuel) {found : List Attribute} (hnew : NewTo found attributes)
    (closes : Bool) {r s : Text}
    (hs : s.dropWhile Text.isSpace = (written ++ (ending closes ++ r)).dropWhile Text.isSpace) :
    attributesFrom fuel found s = some (found ++ attributes.map Attribute.asRead, closes, r) := by
  induction attributes generalizing written fuel found s with
  | nil =>
    obtain ⟨fuel, rfl⟩ : ∃ n, fuel = n + 1 := ⟨fuel - 1, by simp at hfuel; omega⟩
    obtain rfl := Option.some.inj hwritten
    rw [List.map_nil, List.append_nil]
    cases closes with
    | false => exact attributesFrom_end fuel found hs
    | true => exact attributesFrom_selfClosing fuel found hs
  | cons a rest ih =>
    obtain ⟨fuel, rfl⟩ : ∃ n, fuel = n + 1 := ⟨fuel - 1, by simp at hfuel; omega⟩
    obtain ⟨ha, hrest⟩ := List.forall_mem_cons.mp hattributes
    rw [writeAttributes?, writeAttribute?_eq ha] at hwritten
    cases hothers : writeAttributes? element rest with
    | none => simp [hothers] at hwritten
    | some others =>
      obtain rfl : ' ' :: (a.name.spelled ++ valuePart element a.value) ++ others = written := by
        simpa [hothers] using hwritten
      have hnew' : NewTo (found ++ [a.asRead]) rest := by
        rwa [NewTo, List.append_assoc]
      have hlength : rest.length < fuel := Nat.lt_of_succ_lt_succ hfuel
      obtain ⟨c, more, hname⟩ := List.exists_cons_of_ne_nil ha.2.1
      have hall := ha.2.2.1
      rw [hname] at hall
      obtain ⟨-, hspace, hslash, hend, hequals⟩ := isInName_eq (hall c List.mem_cons_self)
      have hskip : s.dropWhile Text.isSpace =
          c :: (more ++ (valuePart element a.value ++ (others ++ (ending closes ++ r)))) := by
        rw [hs, hname]
        simp [hspace, show Text.isSpace ' ' = true from by decide]
      have hshape := writeAttributes?_shape hrest hothers
      rw [attributesFrom_name fuel found hskip hend hslash, span_append
        (fun d hd => hall d (List.mem_cons_of_mem _ hd)) (stops_name hshape closes r a.value)]
      have hadd := addAttribute_eq hnew hname
      rw [List.map_cons, show found ++ a.asRead :: rest.map Attribute.asRead =
        found ++ [a.asRead] ++ rest.map Attribute.asRead from (List.append_assoc _ [_] _).symm]
      rw [valuePart]
      split
      next hempty =>
        have hvalue : a.value = [] := by
          rw [Bool.and_eq_true, List.isEmpty_iff] at hempty
          exact hempty.1
        have hother :
            ((others ++ (ending closes ++ r)).dropWhile Text.isSpace).head? ≠ some '=' := by
          rcases hshape with rfl | ⟨d, t, rfl, hd⟩
          · cases closes <;> simp [ending, show Text.isSpace '>' = false from by decide,
              show Text.isSpace '/' = false from by decide]
          · obtain ⟨-, hdspace, -, -, hdequals⟩ := isInName_eq hd
            simpa [show Text.isSpace ' ' = true from by decide, hdspace] using hdequals
        show behindName fuel found (c :: more) (others ++ (ending closes ++ r)) = _
        rw [behindName_other fuel found _ hother, hadd [] hvalue]
        exact ih hrest hothers hlength hnew' (List.dropWhile_idempotent _ _)
      next =>
        have hequals :
            ('=' :: (writeValue a.value ++ (others ++ (ending closes ++ r)))).dropWhile Text.isSpace =
              '=' :: (writeValue a.value ++ (others ++ (ending closes ++ r))) := rfl
        show behindName fuel found (c :: more)
          ('=' :: (writeValue a.value ++ (others ++ (ending closes ++ r)))) = _
        rw [behindName_equals fuel found _ hequals, readValue?_writeValue ha.2.2.2,
          Option.bind_some]
        show attributesFrom fuel (addAttribute found (c :: more) a.value) _ = _
        rw [hadd a.value rfl]
        exact ih hrest hothers hlength hnew' rfl

/-- Every attribute is written with a blank and a name. -/
theorem length_le_written {attributes : List Attribute}
    (hattributes : ∀ a ∈ attributes, a.IsLegible) {written : Text}
    (hwritten : writeAttributes? element attributes = some written) :
    attributes.length ≤ written.length := by
  induction attributes generalizing written with
  | nil => exact Nat.zero_le _
  | cons a rest ih =>
    obtain ⟨ha, hrest⟩ := List.forall_mem_cons.mp hattributes
    rw [writeAttributes?, writeAttribute?_eq ha] at hwritten
    cases hothers : writeAttributes? element rest with
    | none => simp [hothers] at hwritten
    | some others =>
      obtain rfl : ' ' :: (a.name.spelled ++ valuePart element a.value) ++ others = written := by
        simpa [hothers] using hwritten
      have hle := ih hrest hothers
      simp only [List.length_cons, List.length_append]
      omega

/-- **A tag that is written is read.** -/
theorem read?_written (hname : ∀ c ∈ element.name.toList, isInName c = true)
    {attributes : List Attribute} (hattributes : ∀ a ∈ attributes, a.IsLegible)
    (hnodup : ((attributes.map Attribute.asRead).map Attribute.name).Nodup) {written : Text}
    (hwritten : writeAttributes? element attributes = some written) (closes : Bool) (r : Text) :
    read? (element.name.toList ++ (written ++ (ending closes ++ r))) =
      some (asRead element attributes closes, r) := by
  have hspan : (element.name.toList ++ (written ++ (ending closes ++ r))).span (!endsName ·) =
      (element.name.toList, written ++ (ending closes ++ r)) := by
    refine span_append (fun c hc => ?_) fun c hc => ?_
    · rw [(isInName_eq (hname c hc)).1]
      rfl
    · rcases writeAttributes?_shape hattributes hwritten with rfl | ⟨_, _, rfl, -⟩
      · rw [(head?_ending closes r c hc).2.1]
        rfl
      · obtain rfl := Option.some.inj hc
        decide
  have hlength := length_le_written hattributes hwritten
  have hread : attributes? (written ++ (ending closes ++ r)) =
      some (attributes.map Attribute.asRead, closes, r) := by
    have hnew : NewTo [] attributes := hnodup
    refine attributesFrom_written hattributes hwritten ?_ hnew closes rfl
    rw [List.length_append]
    omega
  rw [read?, hspan]
  simp only [hread, Option.bind_eq_bind, Option.bind_some]
  rfl

end Attributes

end Tag

/-- A name that is read where it is written: a tag's name starts with a letter. -/
def ElementName.IsLegible (n : ElementName) : Prop :=
  n.name.toList.head?.any Char.isAlpha = true ∧ ∀ c ∈ n.name.toList, Tag.isInName c = true

instance (n : ElementName) : Decidable n.IsLegible :=
  have : Decidable (∀ c ∈ n.name.toList, Tag.isInName c = true) := List.decidableBAll _ _
  inferInstanceAs (Decidable (_ ∧ _))

/-- A name that is read as it is written. -/
def ElementName.IsWritable (n : ElementName) : Prop :=
  n.name.toList.head?.any Char.isAlpha = true ∧ IsReadAsWritten n.name

instance (n : ElementName) : Decidable n.IsWritable := inferInstanceAs (Decidable (_ ∧ _))

theorem ElementName.IsWritable.legible {n : ElementName} (h : n.IsWritable) : n.IsLegible :=
  ⟨h.1, fun c hc => (h.2 c hc).1⟩

theorem ElementName.IsLegible.exists_cons {n : ElementName} (h : n.IsLegible) :
    ∃ c r, n.name.toList = c :: r ∧ c.isAlpha = true := by
  obtain ⟨h, -⟩ := h
  cases hname : n.name.toList with
  | nil => rw [hname] at h; cases h
  | cons c r => rw [hname] at h; exact ⟨c, r, rfl, h⟩

theorem Tag.asRead_eq {element : ElementName} (hname : element.IsWritable)
    {attributes : List Attribute} (hattributes : ∀ a ∈ attributes, a.IsWritable) :
    asRead element attributes false = { name := element.name, attributes } := by
  rw [asRead, nameOf_eq hname.2, Attribute.map_asRead hattributes]

namespace Token
open Markup

section Tags

variable {element : ElementName} (hname : element.IsLegible)
include hname

/-- **A start tag is read back.** -/
theorem readData_writeStart {attributes : List Attribute}
    (hattributes : ∀ a ∈ attributes, a.IsLegible)
    (hnodup : ((attributes.map Attribute.asRead).map Attribute.name).Nodup) {closes : Bool}
    {start : Text} (hstart : writeStart? element attributes closes = some start) (sections : Bool)
    (r : Text) :
    readData sections (start ++ r) =
      ⟨[.start (.asRead element attributes closes)], r, .data⟩ := by
  obtain ⟨c, more, hcons, halpha⟩ := hname.exists_cons
  rw [writeStart?] at hstart
  cases hwritten : writeAttributes? element attributes with
  | none => simp [hwritten] at hstart
  | some written =>
    have hread := Tag.read?_written hname.2 hattributes hnodup hwritten closes r
    obtain rfl : '<' :: (element.name.toList ++ written ++ Tag.ending closes) = start := by
      simpa [hwritten, Tag.ending] using hstart
    have htext : '<' :: (element.name.toList ++ written ++ Tag.ending closes) ++ r =
        '<' :: c :: (more ++ (written ++ (Tag.ending closes ++ r))) := by
      simp [hcons]
    rw [hcons, List.cons_append] at hread
    have hmark : ∀ d, d.isAlpha = false → c ≠ d := by
      rintro d hd rfl
      exact absurd halpha (by simp [hd])
    rw [htext, readData, readMarkup.eq_4 _ _ (fun _ h => hmark '!' (by decide) (List.cons.inj h).1)
      (fun _ h => hmark '/' (by decide) (List.cons.inj h).1)
      (fun _ h => hmark '?' (by decide) (List.cons.inj h).1), hread]
    simp [halpha]

theorem read?_writeEnd (r : Text) :
    Tag.read? (element.name.toList ++ '>' :: r) = some (.asRead element [] false, r) := by
  have hnone : ∀ a ∈ ([] : List Attribute), a.IsLegible := fun a ha => absurd ha List.not_mem_nil
  exact Tag.read?_written hname.2 hnone List.nodup_nil rfl false r

/-- **An end tag is read back.** -/
theorem readData_writeEnd (sections : Bool) (r : Text) :
    readData sections (writeEnd element ++ r) =
      ⟨[.finish (Tag.nameOf element.name.toList)], r, .data⟩ := by
  obtain ⟨c, more, hcons, halpha⟩ := hname.exists_cons
  have hread := read?_writeEnd hname r
  rw [hcons, List.cons_append] at hread
  have htext : writeEnd element ++ r = '<' :: '/' :: c :: (more ++ '>' :: r) := by
    simp [writeEnd, hcons]
  have hmark : c ≠ '>' := by
    rintro rfl
    exact absurd halpha (by decide)
  rw [htext, readData, readMarkup, readEnd.eq_3 _ _ hmark, if_pos halpha, hread]
  rfl

end Tags

theorem ofEscaped_writeText {t : Text} (hnull : '\x00' ∉ t) : ofEscaped (writeText t) = [.text t] := by
  rw [ofEscaped, startsUnclosed_writeText, decode_writeText, withoutNull_eq hnull]
  rfl

/-- Text is read back up to the next mark, or up to the end. -/
theorem readData_writeText_append {t r : Text} (hne : t ≠ []) (hnull : '\x00' ∉ t)
    (hr : ∀ c, r.head? = some c → c = '<') (sections : Bool) :
    readData sections (writeText t ++ r) = ⟨[.text t], r, .data⟩ := by
  have hspan : (writeText t ++ r).span (fun c => c ≠ '<' && c ≠ '\x00') = (writeText t, r) := by
    refine span_append (fun c hc => ?_) fun c hc => ?_
    · simpa using mem_writeText hnull hc
    · obtain rfl := hr c hc
      decide
  obtain ⟨c, more, hcons⟩ := List.exists_cons_of_ne_nil (writeText_ne_nil hne)
  obtain ⟨hlt, hnul⟩ := mem_writeText hnull (hcons ▸ List.mem_cons_self : c ∈ writeText t)
  rw [readData.eq_3 sections _ ?_ ?_, hspan]
  · dsimp only
    rw [ofEscaped_writeText hnull]
  · exact fun _ h => hlt (by rw [hcons] at h; exact (List.cons.inj h).1)
  · exact fun _ h => hnul (by rw [hcons] at h; exact (List.cons.inj h).1)

/-- **Text is read back**, up to what starts behind it. -/
theorem readData_writeText {t : Text} (hne : t ≠ []) (hnull : '\x00' ∉ t) (sections : Bool)
    (r : Text) :
    readData sections (writeText t ++ '<' :: r) = ⟨[.text t], '<' :: r, .data⟩ :=
  readData_writeText_append (r := '<' :: r) hne hnull (fun _ h => (Option.some.inj h).symm) sections

/-! ### Elements that hold text -/

theorem length_append {name : Text} (hname : '<' ∉ name) {t : Text}
    (ht : RawText.length name t = t.length) (r : Text) :
    RawText.length name (t ++ '<' :: r) = t.length + RawText.length name ('<' :: r) := by
  induction t with
  | nil => exact (Nat.zero_add _).symm
  | cons c t ih =>
    have hstart := RawText.startsEnd_append hname c t r
    rw [RawText.length] at ht
    rw [List.cons_append] at hstart ⊢
    rw [RawText.length, hstart]
    split at ht
    · exact absurd ht (by simp)
    next hnot =>
      rw [if_neg hnot, ih (Nat.succ.inj ht), List.length_cons]
      omega

theorem length_of_not_mem (name : Text) {t : Text} (h : '<' ∉ t) :
    RawText.length name t = t.length := by
  induction t with
  | nil => rfl
  | cons c t ih =>
    rw [List.mem_cons, not_or] at h
    have hnot : RawText.startsEnd name (c :: t) = false := by
      rw [RawText.startsEnd.eq_2]
      rintro r heq
      exact h.1 (List.cons.inj heq).1.symm
    rw [RawText.length, hnot, if_neg Bool.false_ne_true, ih h.2, List.length_cons]

theorem afterIgnoringCase?_self {name : Text} (h : ∀ c ∈ name, c.toLower = c) (r : Text) :
    Text.afterIgnoringCase? name (name ++ r) = some r := by
  have hlower : Text.lower name = name := (List.map_congr_left h).trans (List.map_id name)
  exact (Text.afterIgnoringCase?_eq_some_iff name _ r).mpr ⟨name, rfl, hlower⟩

section Held

variable {element : ElementName} (hname : element.IsWritable)
include hname

/-- The end tag of an element that holds text is found. -/
theorem length_writeEnd (r : Text) :
    RawText.length element.name.toList (writeEnd element ++ r) = 0 := by
  have htext : writeEnd element ++ r = '<' :: '/' :: (element.name.toList ++ '>' :: r) := by
    simp [writeEnd]
  have hstart : RawText.startsEnd element.name.toList
      ('<' :: '/' :: (element.name.toList ++ '>' :: r)) = true := by
    rw [RawText.startsEnd, RawText.startsName,
      afterIgnoringCase?_self fun c hc => (hname.2 c hc).2.1]
    show (Text.isSpace '>' || '>' == '/' || '>' == '>') = true
    decide
  rw [htext, RawText.length, if_pos hstart]

theorem readRawEnd_writeEnd (r : Text) :
    readRawEnd (writeEnd element ++ r) = ⟨[.finish element.name], r, .data⟩ := by
  have htext : (writeEnd element ++ r).drop 2 = element.name.toList ++ '>' :: r := by
    simp [writeEnd]
  rw [readRawEnd, htext, read?_writeEnd hname.legible, Tag.asRead_eq hname (by simp)]

/-- **The end tag of an element that holds text is read back.** -/
theorem read_heldEnd {content : Content}
    (hcontent : content = .escapable element.name ∨ content = .raw element.name) (sections : Bool)
    (r : Text) :
    Token.read content sections (writeEnd element ++ r) = ⟨[.finish element.name], r, .data⟩ := by
  rcases hcontent with rfl | rfl <;>
    rw [Token.read, readRaw, length_writeEnd hname, if_pos rfl, readRawEnd_writeEnd hname]

/-- **Raw text is read back**, up to the end tag. -/
theorem read_rawText (hlt : '<' ∉ element.name.toList) {t : Text} (hne : t ≠ [])
    (hnull : '\x00' ∉ t) (hlength : RawText.length element.name.toList t = t.length)
    (sections : Bool) (r : Text) :
    Token.read (.raw element.name) sections (t ++ (writeEnd element ++ r)) =
      ⟨[.text t], writeEnd element ++ r, .raw element.name⟩ := by
  have hwhole : RawText.length element.name.toList (t ++ (writeEnd element ++ r)) = t.length := by
    have hend := length_writeEnd hname r
    rw [writeEnd, List.cons_append] at hend ⊢
    rw [length_append hlt hlength, hend, Nat.add_zero]
  have hpos : t.length ≠ 0 := fun h => hne (List.eq_nil_of_length_eq_zero h)
  rw [Token.read, hwhole, readRaw, if_neg hpos, List.take_left, List.drop_left,
    withoutNull_eq hnull]

/-- **Text with references is read back**, up to the end tag. -/
theorem read_escapableText (hlt : '<' ∉ element.name.toList) {t : Text} (hne : t ≠ [])
    (hnull : '\x00' ∉ t) (sections : Bool) (r : Text) :
    Token.read (.escapable element.name) sections (writeText t ++ (writeEnd element ++ r)) =
      ⟨[.text t], writeEnd element ++ r, .escapable element.name⟩ := by
  have hmark : '<' ∉ writeText t := fun hmem => (mem_writeText hnull hmem).1 rfl
  have hwhole : RawText.length element.name.toList (writeText t ++ (writeEnd element ++ r)) =
      (writeText t).length := by
    have hend := length_writeEnd hname r
    rw [writeEnd, List.cons_append] at hend ⊢
    rw [length_append hlt (length_of_not_mem _ hmark), hend, Nat.add_zero]
  have hpos : (writeText t).length ≠ 0 :=
    fun h => writeText_ne_nil hne (List.eq_nil_of_length_eq_zero h)
  rw [Token.read, hwhole, readRaw, if_neg hpos, List.take_left, List.drop_left,
    ofEscaped_writeText hnull]

end Held

/-- The name of a script element. -/
def scriptElement : ElementName := ⟨.html, "script"⟩

/-- **A script is read back**, up to its end tag. -/
theorem read_script {t : Text} (hne : t ≠ []) (hnull : '\x00' ∉ t)
    (hlength : RawText.scriptLength 0 .plain (t ++ writeEnd scriptElement) = t.length)
    (sections : Bool) (r : Text) :
    Token.read .script sections (t ++ (writeEnd scriptElement ++ r)) =
      ⟨[.text t], writeEnd scriptElement ++ r, .script⟩ := by
  have hwhole : RawText.scriptLength 0 .plain (t ++ (writeEnd scriptElement ++ r)) = t.length :=
    RawText.scriptLength_append_end hlength r
  have hpos : t.length ≠ 0 := fun h => hne (List.eq_nil_of_length_eq_zero h)
  rw [Token.read, readScript]
  rw [hwhole, if_neg hpos, readRaw, if_neg hpos, List.take_left, List.drop_left,
    withoutNull_eq hnull]

theorem dropByteOrderMark_eq {s : Text} (h : s.head? ≠ some byteOrderMark) :
    dropByteOrderMark s = s := by
  cases s with
  | nil => rfl
  | cons c s => rw [dropByteOrderMark, if_neg fun heq => h (congrArg some heq)]

/-- **The end tag of a script is read back** where no byte order mark follows it. -/
theorem read_scriptEnd (sections : Bool) {r : Text} (hmark : r.head? ≠ some byteOrderMark) :
    Token.read .script sections (writeEnd scriptElement ++ r) =
      ⟨[.finish "script"], r, .data⟩ := by
  have hzero : RawText.scriptLength 0 .plain (writeEnd scriptElement ++ r) = 0 := rfl
  rw [Token.read, readScript]
  rw [hzero, if_pos rfl, readRaw, if_pos rfl, readRawEnd_writeEnd (by decide)]
  exact congrArg (Reading.mk _ · _) (dropByteOrderMark_eq hmark)

/-! ### Comments -/

/-- What a comment can hold: no mark that ends it, and at its start none that ends it at once. -/
structure IsComment (c : Text) : Prop where
  null : '\x00' ∉ c
  end_ : ¬ "-->".toList <:+: c
  loudEnd : ¬ "--!>".toList <:+: c
  start : ¬ ">".toList <+: c
  dashStart : ¬ "->".toList <+: c

theorem isComment_iff (c : Text) : IsComment c ↔ '\x00' ∉ c ∧ ¬ "-->".toList <:+: c ∧
    ¬ "--!>".toList <:+: c ∧ ¬ ">".toList <+: c ∧ ¬ "->".toList <+: c :=
  ⟨fun ⟨h₁, h₂, h₃, h₄, h₅⟩ => ⟨h₁, h₂, h₃, h₄, h₅⟩, fun ⟨h₁, h₂, h₃, h₄, h₅⟩ => ⟨h₁, h₂, h₃, h₄, h₅⟩⟩

instance (c : Text) : Decidable (IsComment c) := decidable_of_iff' _ (isComment_iff c)

/-- The end of a comment completes no other mark that ends one. -/
theorem prefix_of_ended {mark : Text} (hmark : mark = "->".toList ∨ mark = "-!>".toList) {c r : Text}
    (h : mark <+: c ++ ("-->".toList ++ r)) : mark <+: c := by
  rcases hmark with rfl | rfl
  · rcases c with _ | ⟨x, _ | ⟨y, c⟩⟩
    all_goals simp [List.cons_prefix_cons] at h ⊢
    exact h
  · rcases c with _ | ⟨x, _ | ⟨y, _ | ⟨z, c⟩⟩⟩
    all_goals simp [List.cons_prefix_cons] at h ⊢
    exact h

theorem body_written {c : Text} (hend : ¬ "-->".toList <:+: c) (hloud : ¬ "--!>".toList <:+: c)
    (r : Text) : Comment.body (c ++ ("-->".toList ++ r)) = (c, r) := by
  induction c with
  | nil => rfl
  | cons x c ih =>
    have hmem : '>' ∈ c ++ ("-->".toList ++ r) := by simp
    have hread : Comment.body (x :: (c ++ ("-->".toList ++ r))) =
        (x :: (Comment.body (c ++ ("-->".toList ++ r))).1,
          (Comment.body (c ++ ("-->".toList ++ r))).2) := by
      refine Comment.body.eq_7 x _ ?_ ?_ ?_ (fun r' hx heq => hend ?_) fun r' hx heq => hloud ?_
      · exact fun _ heq => absurd (heq ▸ hmem) (by decide)
      · exact fun _ heq => absurd (heq ▸ hmem) (by decide)
      · exact fun _ heq => absurd (heq ▸ hmem) (by decide)
      · have hprefix := prefix_of_ended (.inl rfl) ⟨r', heq.symm⟩
        exact (hx ▸ List.cons_prefix_cons.mpr ⟨rfl, hprefix⟩ : "-->".toList <+: x :: c).isInfix
      · have hprefix := prefix_of_ended (.inr rfl) ⟨r', heq.symm⟩
        exact (hx ▸ List.cons_prefix_cons.mpr ⟨rfl, hprefix⟩ : "--!>".toList <+: x :: c).isInfix
    rw [List.cons_append, hread, ih (fun h => hend (h.trans (List.suffix_cons x c).isInfix))
      fun h => hloud (h.trans (List.suffix_cons x c).isInfix)]

/-- **A comment is read back.** -/
theorem readData_writeComment {c : Text} (h : IsComment c) (sections : Bool) (r : Text) :
    readData sections (writeComment c ++ r) = ⟨[.comment c], r, .data⟩ := by
  have htext : writeComment c ++ r = '<' :: '!' :: '-' :: '-' :: (c ++ ("-->".toList ++ r)) := by
    simp [writeComment]
  have hread : Comment.read (c ++ ("-->".toList ++ r)) = (c, r) := by
    rw [Comment.read.eq_3 _ (fun r' heq => ?_) fun r' heq => ?_, body_written h.end_ h.loudEnd]
    · dsimp only
      rw [withoutNull_eq h.null]
    · refine h.start ?_
      rcases c with _ | ⟨x, c⟩
      · exact absurd (List.cons.inj heq).1 (by decide)
      · exact (List.cons.inj heq).1 ▸ List.cons_prefix_cons.mpr ⟨rfl, List.nil_prefix⟩
    · exact h.dashStart (prefix_of_ended (.inl rfl) ⟨r', heq.symm⟩)
  have hdashes : Text.after? "--".toList ('-' :: '-' :: (c ++ ("-->".toList ++ r))) =
      some (c ++ ("-->".toList ++ r)) := rfl
  rw [htext, readData, readMarkup, readDeclaration, hdashes]
  dsimp only
  rw [hread]

end Token
end TerseMarkup.Html
