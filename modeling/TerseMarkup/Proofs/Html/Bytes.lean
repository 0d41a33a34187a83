import TerseMarkup.Proofs.Html.Markup
import TerseMarkup.Proofs.Text.Bytes

/-! Markup as bytes.

Text and values are escaped byte by byte, with a look at the byte behind for a no-break space. What
comes out is the UTF-8 form of what the characters are written as (`escapeBytes_bytes`), and so it is
for a whole tree (`bytes?_eq`): nothing that is written breaks a character in two. -/
namespace TerseMarkup.Html

namespace Markup
open Text

/-- What a byte is written as, where some characters have references. -/
def escapeByte : (references : List (Char × Text)) → UInt8 → List UInt8
  | [], b => [b]
  | (c, reference) :: rest, b => if b = asciiByte c then reference.bytes else escapeByte rest b

/-- Escapes bytes one after the other. The two of a no-break space become one reference. -/
def escapeBytes (references : List (Char × Text)) : List UInt8 → List UInt8
  | [] => []
  | [b] => escapeByte references b
  | first :: second :: rest =>
    if first = 194 ∧ second = 160 then bytes "&nbsp;".toList ++ escapeBytes references rest
    else escapeByte references first ++ escapeBytes references (second :: rest)

/-- The characters of a text that are written as references. -/
def textReferences : List (Char × Text) :=
  [('&', "&amp;".toList), ('<', "&lt;".toList), ('>', "&gt;".toList)]

namespace Quote

/-- The characters of a value that are written as references. -/
def references (q : Quote) : List (Char × Text) := [('&', "&amp;".toList), (q.char, q.reference)]

/-- The quote to write the bytes of a value in. -/
def forBytes (value : List UInt8) : Quote :=
  if value.count (asciiByte '\'') < value.count (asciiByte '"') then single else double

end Quote

/-- The bytes of a value, between quotes. -/
def valueBytes (value : List UInt8) : List UInt8 :=
  let q := Quote.forBytes value
  asciiByte q.char :: (escapeBytes q.references value ++ [asciiByte q.char])

/-! ### Escaping -/

theorem escapeBytes_cons {first : UInt8} (h : first ≠ 194) (references : List (Char × Text))
    (rest : List UInt8) :
    escapeBytes references (first :: rest) =
      escapeByte references first ++ escapeBytes references rest := by
  cases rest with
  | nil => rw [escapeBytes, escapeBytes, List.append_nil]
  | cons second rest => rw [escapeBytes, if_neg fun hpair => h hpair.1]

/-- A byte that is no ASCII character stands for itself. -/
theorem escapeByte_high {references : List (Char × Text)} (h : ∀ r ∈ references, r.1.toNat < 128)
    {b : UInt8} (hb : 128 ≤ b.toNat) : escapeByte references b = [b] := by
  induction references with
  | nil => rfl
  | cons r rest ih =>
    obtain ⟨hr, hrest⟩ := List.forall_mem_cons.mp h
    rw [escapeByte, if_neg (asciiByte_ne hr hb).symm, ih hrest]

theorem escapeBytes_high {references : List (Char × Text)} (h : ∀ r ∈ references, r.1.toNat < 128)
    {bs : List UInt8} (hbs : ∀ b ∈ bs, 128 ≤ b.toNat ∧ b ≠ 194) (rest : List UInt8) :
    escapeBytes references (bs ++ rest) = bs ++ escapeBytes references rest := by
  induction bs with
  | nil => rfl
  | cons b bs ih =>
    obtain ⟨hb, hbs⟩ := List.forall_mem_cons.mp hbs
    rw [List.cons_append, escapeBytes_cons hb.2, escapeByte_high h hb.1, ih hbs]
    rfl

/-- What a character is written as, where some characters have references. -/
def referenceFor : (references : List (Char × Text)) → Char → Text
  | [], c => [c]
  | (d, reference) :: rest, c => if c = d then reference else referenceFor rest c

/-- As `referenceFor`, with a reference for the no-break space as well. -/
def escapeChar (references : List (Char × Text)) (c : Char) : Text :=
  if c = noBreakSpace then "&nbsp;".toList else referenceFor references c

theorem escapeByte_ascii {references : List (Char × Text)} (h : ∀ r ∈ references, r.1.toNat < 128)
    {c : Char} (hc : c.toNat < 128) :
    escapeByte references (asciiByte c) = bytes (escapeChar references c) := by
  have hspace : c ≠ noBreakSpace := by
    rintro rfl
    exact absurd hc (by decide)
  rw [escapeChar, if_neg hspace]
  induction references with
  | nil => exact (bytes_ascii hc).symm
  | cons r rest ih =>
    obtain ⟨hr, hrest⟩ := List.forall_mem_cons.mp h
    rw [escapeByte, referenceFor, ih hrest, apply_ite bytes]
    simp only [asciiByte_inj hc hr]

/-- A character that is not ASCII stands for itself, unless it is a no-break space. -/
theorem escapeChar_high {references : List (Char × Text)} (h : ∀ r ∈ references, r.1.toNat < 128)
    {c : Char} (hc : 128 ≤ c.toNat) (hspace : c ≠ noBreakSpace) : escapeChar references c = [c] := by
  rw [escapeChar, if_neg hspace]
  induction references with
  | nil => rfl
  | cons r rest ih =>
    obtain ⟨hr, hrest⟩ := List.forall_mem_cons.mp h
    have hne : c ≠ r.1 := fun heq => Nat.not_lt.mpr hc (heq ▸ hr)
    rw [referenceFor, if_neg hne, ih hrest]

/-- The bytes of one character are escaped together, whatever follows. -/
theorem escapeBytes_encoded {references : List (Char × Text)}
    (h : ∀ r ∈ references, r.1.toNat < 128) (c : Char) (rest : List UInt8) :
    escapeBytes references (bytes [c] ++ rest) =
      bytes (escapeChar references c) ++ escapeBytes references rest := by
  by_cases hlow : c.toNat < 128
  · rw [bytes_ascii hlow, ← escapeByte_ascii h hlow]
    exact escapeBytes_cons (asciiByte_ne hlow (by decide)) references rest
  by_cases hspace : c = noBreakSpace
  · subst hspace
    rw [escapeChar, if_pos rfl, bytes_cons, bytes_nil]
    rfl
  have hencoded := encoded c
  rw [escapeChar_high h (Nat.le_of_not_lt hlow) hspace]
  generalize bytes [c] = bs at hencoded ⊢
  cases hencoded with
  | ascii hc => exact absurd hc hlow
  | @two first second _ hfirst hsecond hvalue =>
    -- The one pair that is escaped is the no-break space.
    have hpair : ¬(first = 194 ∧ second = 160) := by
      rintro ⟨rfl, rfl⟩
      exact hspace (Char.toNat_inj.mp hvalue)
    have hsecondne : second ≠ 194 := by
      rintro rfl
      exact absurd hsecond.2 (by decide)
    show escapeBytes references (first :: second :: rest) = _
    rw [escapeBytes, if_neg hpair, escapeByte_high h (by omega), escapeBytes_cons hsecondne,
      escapeByte_high h hsecond.1]
    rfl
  | more _ hfirst hothers =>
    refine escapeBytes_high h (List.forall_mem_cons.mpr ⟨⟨by omega, ?_⟩, ?_⟩) rest
    · rintro rfl
      exact absurd hfirst (by decide)
    · intro b hb
      refine ⟨(hothers b hb).1, ?_⟩
      rintro rfl
      exact absurd (hothers _ hb).2 (by decide)

/-- **Escaping byte by byte is escaping character by character.** -/
theorem escapeBytes_bytes {references : List (Char × Text)} (h : ∀ r ∈ references, r.1.toNat < 128)
    (t : Text) : escapeBytes references t.bytes = bytes (t.flatMap (escapeChar references)) := by
  induction t with
  | nil => rw [List.flatMap_nil, bytes_nil, escapeBytes]
  | cons c t ih =>
    rw [← List.singleton_append, bytes_append, escapeBytes_encoded h, ih, List.singleton_append,
      List.flatMap_cons, bytes_append]

/-! ### Texts and values -/

theorem escapeChar_text (c : Char) : escapeChar textReferences c = writeTextChar c := rfl

theorem escapeChar_value (q : Quote) (c : Char) : escapeChar q.references c = writeValueChar q c :=
  rfl

theorem escapeBytes_text (t : Text) : escapeBytes textReferences t.bytes = bytes (writeText t) := by
  rw [escapeBytes_bytes (by decide), writeText, funext escapeChar_text]

theorem Quote.char_ascii (q : Quote) : q.char.toNat < 128 := by
  cases q <;> decide

theorem Quote.forBytes_bytes (t : Text) : forBytes t.bytes = forValue t := by
  rw [forBytes, forValue, count_bytes (by decide), count_bytes (by decide)]

/-- A value is written between quotes as the bytes of what its characters are written as. -/
theorem valueBytes_bytes (t : Text) : valueBytes t.bytes = bytes (writeValue t) := by
  have hreferences : ∀ r ∈ (Quote.forValue t).references, r.1.toNat < 128 := by
    simp only [Quote.references, List.forall_mem_cons]
    exact ⟨by decide, (Quote.forValue t).char_ascii, by simp⟩
  have hquote := (Quote.forValue t).char_ascii
  rw [valueBytes, writeValue, Quote.forBytes_bytes, escapeBytes_bytes hreferences,
    funext (escapeChar_value _), bytes_cons_ascii hquote, bytes_append, bytes_ascii hquote]

/-! ### The bytes of a tag, a comment and a doctype -/

/-- The bytes of an attribute. -/
def attributeBytes? (element : ElementName) (a : Attribute) : Option (List UInt8) := do
  let lead ← attributeLead? a.name
  let value := a.value.bytes
  some (lead.bytes ++ bytes a.name.name.toList ++
    if value.isEmpty && element.space == .html then [] else asciiByte '=' :: valueBytes value)

def attributesBytes? (element : ElementName) : List Attribute → Option (List UInt8)
  | [] => some []
  | a :: rest => do
    let first ← attributeBytes? element a
    let others ← attributesBytes? element rest
    some (first ++ others)

def startBytes? (name : ElementName) (attributes : List Attribute) (closes : Bool) :
    Option (List UInt8) := do
  let attributes ← attributesBytes? name attributes
  some (asciiByte '<' ::
    (bytes name.name.toList ++ attributes ++ bytes (if closes then ['/', '>'] else ['>'])))

def endBytes (name : ElementName) : List UInt8 :=
  bytes ['<', '/'] ++ bytes name.name.toList ++ [asciiByte '>']

def commentBytes (contents : Text) : List UInt8 :=
  bytes "<!--".toList ++ contents.bytes ++ bytes "-->".toList

/-- The bytes of an identifier, behind a space and between double quotes. -/
def identifierBytes (identifier : List UInt8) : List UInt8 :=
  asciiByte ' ' :: asciiByte '"' :: (identifier ++ [asciiByte '"'])

/-- The bytes of the identifiers of a doctype. One that is empty is left out, and the kind of the
first one stands before it. -/
def identifiersBytes (publicId systemId : List UInt8) : List UInt8 :=
  if publicId.isEmpty then
    if systemId.isEmpty then [] else bytes " SYSTEM".toList ++ identifierBytes systemId
  else
    bytes " PUBLIC".toList ++ identifierBytes publicId ++
      if systemId.isEmpty then [] else identifierBytes systemId

def doctypeBytes (name publicId systemId : Text) : List UInt8 :=
  bytes "<!DOCTYPE ".toList ++ name.bytes ++ identifiersBytes publicId.bytes systemId.bytes ++
    [asciiByte '>']

theorem isEmpty_bytes (t : Text) : t.bytes.isEmpty = t.isEmpty := by
  rw [Bool.eq_iff_iff, List.isEmpty_iff, List.isEmpty_iff, bytes_eq_nil_iff]

theorem endBytes_eq (name : ElementName) : endBytes name = bytes (writeEnd name) := by
  have hend : writeEnd name = ['<', '/'] ++ name.name.toList ++ ['>'] := rfl
  rw [hend, bytes_append, bytes_append, endBytes, bytes_ascii (c := '>') (by decide)]

theorem commentBytes_eq (contents : Text) : commentBytes contents = bytes (writeComment contents) := by
  rw [writeComment, bytes_append, bytes_append, commentBytes]

theorem identifierBytes_eq (identifier : Text) :
    identifierBytes identifier.bytes = bytes (writeIdentifier identifier) := by
  have hwritten : writeIdentifier identifier = ' ' :: '"' :: (identifier ++ ['"']) := rfl
  rw [identifierBytes, hwritten, bytes_cons_ascii (by decide), bytes_cons_ascii (by decide),
    bytes_append, bytes_ascii (by decide)]

theorem doctypeBytes_eq (name publicId systemId : Text) :
    doctypeBytes name publicId systemId = bytes (writeDoctype name publicId systemId) := by
  have hclose : bytes ['>'] = [asciiByte '>'] := bytes_ascii (by decide)
  unfold doctypeBytes identifiersBytes writeDoctype
  -- What the fixed words are is of no account.
  generalize "<!DOCTYPE ".toList = opening, " PUBLIC".toList = isPublic, " SYSTEM".toList = isSystem
  simp only [isEmpty_bytes, bytes_append, identifierBytes_eq, ← hclose]
  cases publicId.isEmpty <;> cases systemId.isEmpty <;> simp

theorem attributeBytes?_eq (element : ElementName) (a : Attribute) :
    attributeBytes? element a = (writeAttribute? element a).map bytes := by
  rw [attributeBytes?, writeAttribute?]
  cases attributeLead? a.name with
  | none => rfl
  | some lead =>
    simp only [Option.bind_eq_bind, Option.bind_some, Option.map_some, bytes_append, isEmpty_bytes,
      valueBytes_bytes]
    split
    · rw [bytes_nil]
    · rw [bytes_cons_ascii (by decide)]

theorem attributesBytes?_eq (element : ElementName) (attributes : List Attribute) :
    attributesBytes? element attributes = (writeAttributes? element attributes).map bytes := by
  induction attributes with
  | nil => simp [attributesBytes?, writeAttributes?]
  | cons a rest ih =>
    rw [attributesBytes?, writeAttributes?, attributeBytes?_eq, ih]
    cases writeAttribute? element a <;> cases writeAttributes? element rest <;> simp

theorem startBytes?_eq (name : ElementName) (attributes : List Attribute) (closes : Bool) :
    startBytes? name attributes closes = (writeStart? name attributes closes).map bytes := by
  rw [startBytes?, writeStart?, attributesBytes?_eq]
  cases writeAttributes? name attributes with
  | none => rfl
  | some attributes =>
    simp only [Option.bind_eq_bind, Option.bind_some, Option.map_some]
    rw [bytes_cons_ascii (by decide), bytes_append, bytes_append]

end Markup

namespace Surroundings

/-- The bytes of the start tag of an element, unless it is left out. -/
def startBytes? (outer : Surroundings) (name : ElementName) (attributes : List Attribute)
    (hasChildren : Bool) : Option (List UInt8) :=
  if outer.silent then some []
  else Markup.startBytes? name attributes (name.mayClose && !hasChildren)

theorem startBytes?_eq (outer : Surroundings) (name : ElementName) (attributes : List Attribute)
    (hasChildren : Bool) :
    outer.startBytes? name attributes hasChildren =
      (outer.start? name attributes hasChildren).map Text.bytes := by
  rw [startBytes?, start?]
  split
  · simp
  · exact Markup.startBytes?_eq name attributes _

end Surroundings

namespace Node
open Markup

/-! ### The bytes of a tree -/

mutual

/-- The bytes of a node where this is asked of it. What needs no escaping is copied. -/
def bytes? (outer : Surroundings) : Node → Option (List UInt8)
  | element _ name attributes cs => do
    let inner := outer.inside name !cs.isEmpty
    let start ← outer.startBytes? name attributes !cs.isEmpty
    let contents ← bytesAll? inner cs
    some (start ++ contents ++ if inner.silent then [] else endBytes name)
  | text t =>
    some (if outer.silent then []
      else if outer.raw then t.bytes else escapeBytes textReferences t.bytes)
  | comment c => some (if outer.silent then [] else commentBytes c)
  | doctype name publicId systemId => some (doctypeBytes name publicId systemId)
  | document _ _ | placeholder => some []

def bytesAll? (outer : Surroundings) : List Node → Option (List UInt8)
  | [] => some []
  | n :: rest => do
    let first ← n.bytes? outer
    let others ← bytesAll? outer rest
    some (first ++ others)

end

mutual

theorem bytes?_eq (outer : Surroundings) : (n : Node) →
    n.bytes? outer = (n.written? outer).map Text.bytes
  | element _ name attributes cs => by
    rw [bytes?, written?, outer.startBytes?_eq, bytesAll?_eq (outer.inside name !cs.isEmpty) cs]
    cases outer.start? name attributes !cs.isEmpty <;>
      cases writtenAll? (outer.inside name !cs.isEmpty) cs <;>
        simp [apply_ite Text.bytes, endBytes_eq]
  | text t => by
    rw [bytes?, written?, escapeBytes_text]
    simp [apply_ite Text.bytes]
  | comment _ => by simp [bytes?, written?, apply_ite Text.bytes, commentBytes_eq]
  | doctype _ _ _ => by simp [bytes?, written?, doctypeBytes_eq]
  | document _ _ | placeholder => by simp [bytes?, written?]

theorem bytesAll?_eq (outer : Surroundings) : (cs : List Node) →
    bytesAll? outer cs = (writtenAll? outer cs).map Text.bytes
  | [] => by simp [bytesAll?, writtenAll?]
  | n :: rest => by
    rw [bytesAll?, writtenAll?, bytes?_eq outer n, bytesAll?_eq outer rest]
    cases n.written? outer <;> cases writtenAll? outer rest <;> simp

end

end Node
end TerseMarkup.Html
