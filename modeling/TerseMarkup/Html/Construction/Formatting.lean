import TerseMarkup.Html.Construction.Scope

/-! Formatting elements that the markup closes in the wrong order.

A formatting element that is closed while others stand open inside it, or that is left open where a
paragraph ends, is opened again behind that place (`reopenFormatting`). Where a block stands between
a formatting element and its end tag, the block is taken out of it and given a formatting element of
its own inside (`endFormatting`). -/
namespace TerseMarkup.Html

namespace Formatting

def isElement : Formatting → Bool
  | marker => false
  | element .. => true

/-- Whether the entry is for the element `h`. -/
def isFor (h : Handle) : Formatting → Bool
  | marker => false
  | element g _ => g.id == h.id

/-- Whether the entry is for a start tag with the same name and the same attributes. -/
def isAlike (t : Tag) : Formatting → Bool
  | marker => false
  | element _ u =>
    u.name == t.name && u.attributes.length == t.attributes.length &&
      u.attributes.all t.attributes.contains

end Formatting

/-- Drops the last element that `p` holds of. -/
def eraseLast {α : Type} (p : α → Bool) (xs : List α) : List α := (xs.reverse.eraseP p).reverse

namespace Builder

/-- The formatting elements since the latest marker, the latest first. -/
def recentFormatting (b : Builder) : List Formatting := b.formatting.takeWhile Formatting.isElement

def dropFormatting (b : Builder) (h : Handle) : Builder :=
  { b with formatting := b.formatting.filter (!·.isFor h) }

/-- Whether an entry needs no element to be opened again for it. -/
def isSettled (b : Builder) : Formatting → Bool
  | .marker => true
  | .element h _ => b.stack.any (·.id == h.id)

/-- Opens elements again, the oldest first, and puts their new entries before `kept`. -/
def reopenFrom (b : Builder) (kept : List Formatting) : List Formatting → Builder
  | [] => { b with formatting := kept }
  | .marker :: rest => reopenFrom b (.marker :: kept) rest
  | .element _ tag :: rest =>
    let (h, b) := b.pushElement .html tag
    reopenFrom b (.element h tag :: kept) rest

/-- Opens the formatting elements again that have been closed since the latest marker or the latest
one that is open. -/
def reopenFormatting (b : Builder) : Builder :=
  let closed := b.formatting.takeWhile (!b.isSettled ·)
  b.reopenFrom (b.formatting.drop closed.length) closed.reverse

/-- Opens a formatting element. Of three like it that are on the list already, the oldest goes. -/
def pushFormatting (b : Builder) (t : Tag) : Builder :=
  let recent := b.recentFormatting
  let older := b.formatting.drop recent.length
  let recent :=
    if 3 ≤ recent.countP (·.isAlike t) then eraseLast (·.isAlike t) recent else recent
  let (h, b) := b.pushElement .html t
  { b with formatting := .element h t :: (recent ++ older) }

/-- Any end tag without a rule of its own closes the latest element of its name, unless a special
element is in between. -/
def endOther (b : Builder) (name : String) : Builder :=
  match b.stack.find? (fun h => h.name.isHtml [name] || h.name.isSpecial) with
  | some h => if h.name.isHtml [name] then b.popThrough [name] else b
  | none => b

/-- What taking a block out of a formatting element has come to. -/
structure Rescue where
  builder : Builder
  /-- The elements between the two that stay open, the innermost first. -/
  kept : List Handle
  /-- The block inside the elements made for it. -/
  moved : Node
  /-- The entry that the new formatting element comes directly before, if not the old one's own. -/
  bookmark : Option Handle

/-- Goes outwards through the elements between the block and the formatting element. One that is a
formatting element itself, and among the first three, is made anew around the block; any other is
no longer open. -/
def rescueThrough (r : Rescue) : (steps : Nat) → List Handle → Rescue
  | _, [] => r
  | steps, h :: rest =>
    match r.builder.formatting.find? (·.isFor h) with
    | some (.element _ tag) =>
      if steps < 3 then
        let (new, node, b) := r.builder.create ⟨.html, tag.name⟩ tag.attributes
        let moved :=
          match node with
          | .element id name attributes _ => .element id name attributes [r.moved]
          | node => node
        let formatting := b.formatting.map fun e => if e.isFor h then .element new tag else e
        rescueThrough
          { builder := { b with formatting }, kept := r.kept ++ [new], moved,
            bookmark := r.bookmark.or (some new) } (steps + 1) rest
      else rescueThrough { r with builder := r.builder.dropFormatting h } (steps + 1) rest
    | _ => rescueThrough r (steps + 1) rest

/-- Puts the entry of a new formatting element where the bookmark says, and drops the old one. -/
def placeFormatting (old : Handle) (new : Formatting) (bookmark : Option Handle)
    (entries : List Formatting) : List Formatting :=
  match bookmark with
  | none => entries.map fun e => if e.isFor old then new else e
  | some mark =>
    (entries.flatMap fun e => if e.isFor mark then [new, e] else [e]).filter (!·.isFor old)

/-- Takes `block` out of the formatting element `h`. The open elements are `above`, the block,
`between`, `h` and `below`, the last one opened first. -/
def rescue (b : Builder) (h : Handle) (tag : Tag) (above : List Handle) (block : Handle)
    (between below : List Handle) : Builder :=
  let moved := (b.root.find? block.id).getD .placeholder
  let b := { b with root := b.root.remove block.id }
  let r := rescueThrough ⟨b, [], moved, none⟩ 0 between
  let b := { r.builder with stack := above ++ block :: (r.kept ++ h :: below) }
  let b :=
    match below with
    | ancestor :: _ => b.putAt (.node r.moved) (b.placeFor ancestor)
    | [] => b
  let (new, node, b) := b.create ⟨.html, tag.name⟩ tag.attributes
  let fill (cs : List Node) : List Node :=
    match node with
    | .element id name attributes _ => [.element id name attributes cs]
    | node => [node]
  { b with
    root := b.root.mapChildren block.id fill
    stack := above ++ new :: block :: (r.kept ++ below)
    formatting := placeFormatting h (.element new tag) r.bookmark b.formatting }

/-- Ends a formatting element, taking out of it at most `fuel` blocks, the outermost first. -/
def endFormattingFrom : (fuel : Nat) → Builder → String → Builder
  | 0, b, _ => b
  | fuel + 1, b, name =>
    match b.recentFormatting.find? fun
      | .element _ tag => tag.name == name
      | .marker => false with
    | some (.element h tag) =>
      let above := b.stack.takeWhile (·.id != h.id)
      match b.stack.drop above.length with
      | [] => b.dropFormatting h
      | _ :: below =>
        if !reaches ElementName.endsScope (·.id == h.id) b.stack then b
        else
          match above.reverse.find? (·.name.isSpecial) with
          | none => { b with stack := below }.dropFormatting h
          | some block =>
            let higher := above.takeWhile (·.id != block.id)
            let between := above.drop (higher.length + 1)
            endFormattingFrom fuel (b.rescue h tag higher block between below) name
    | _ => b.endOther name

/-- The end tag of a formatting element. -/
def endFormatting (b : Builder) (name : String) : Builder :=
  match b.stack with
  | h :: _ =>
    if h.name.isHtml [name] && !b.formatting.any (·.isFor h) then b.pop
    else endFormattingFrom 8 b name
  | [] => b

/-- A link ends the link that is open, if there is one. -/
def endOpenLink (b : Builder) : Builder :=
  match b.recentFormatting.find? fun
    | .element h _ => h.name.isHtml ["a"]
    | .marker => false with
  | some (.element h _) => ((b.endFormatting "a").dropFormatting h).close h
  | _ => b

end Builder
end TerseMarkup.Html
