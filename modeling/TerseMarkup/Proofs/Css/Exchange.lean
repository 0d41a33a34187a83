import TerseMarkup.Css.Stylesheet
import TerseMarkup.Proofs.Renaming

/-! Exchanging the names of a stylesheet for codes known from the start.

`exchange` leaves the parts and rules as they are but for the codes, and `mentions` lists the names
in the order of the text. Renaming follows the two: whatever state it carries, at the end it has
asked for the mentions in turn and exchanged the names for what the end knows. -/
namespace TerseMarkup.Css

namespace AttributeTest

def exchange (codes : Codes) (a : AttributeTest) : AttributeTest :=
  match a.kind?, a.value with
  | some k, some v => { a with value := some { v with code := codes k v.value } }
  | _, _ => a

def mentions (a : AttributeTest) : List Mention :=
  match a.kind?, a.value with
  | some k, some v => [(k, v.value)]
  | _, _ => []

end AttributeTest

namespace Part

mutual

def exchange (codes : Codes) : Part → Part
  | className n => className { n with code := codes .className n.value }
  | id n => id { n with code := codes .id n.value }
  | attributeTest a => attributeTest (a.exchange codes)
  | function opener inside => function opener (exchangeAll codes inside)
  | tag s => tag s
  | other s => other s

def exchangeAll (codes : Codes) : List Part → List Part
  | [] => []
  | p :: rest => p.exchange codes :: exchangeAll codes rest

end

mutual

def mentions : Part → List Mention
  | className n => [(.className, n.value)]
  | id n => [(.id, n.value)]
  | attributeTest a => a.mentions
  | function _ inside => mentionsAll inside
  | tag _ => []
  | other _ => []

def mentionsAll : List Part → List Mention
  | [] => []
  | p :: rest => p.mentions ++ mentionsAll rest

end

end Part

namespace Rule

mutual

def exchange (codes : Codes) : Rule → Rule
  | style selector body => style (Part.exchangeAll codes selector) body
  | group prelude rules => group prelude (exchangeAll codes rules)
  | block prelude body => block prelude body
  | raw source => raw source

def exchangeAll (codes : Codes) : List Rule → List Rule
  | [] => []
  | r :: rest => r.exchange codes :: exchangeAll codes rest

end

mutual

def mentions : Rule → List Mention
  | style selector _ => Part.mentionsAll selector
  | group _ rules => mentionsAll rules
  | block _ _ => []
  | raw _ => []

def mentionsAll : List Rule → List Mention
  | [] => []
  | r :: rest => r.mentions ++ mentionsAll rest

end

end Rule

namespace Stylesheet

def exchange (codes : Codes) (s : Stylesheet) : Stylesheet := Rule.exchangeAll codes s

def mentions (s : Stylesheet) : List Mention := Rule.mentionsAll s

end Stylesheet

/-! ### Renaming follows -/

section Follows

variable {σ : Type} {f : Renaming σ} {Before : σ → Prop} {codes : Codes}

namespace Part

theorem follows_rename_attributeTest (h : f.Foretells Before codes) (a : AttributeTest) :
    f.Follows Before (rename f (attributeTest a)) (attributeTest (a.exchange codes))
      a.mentions := by
  rw [rename, AttributeTest.exchange, AttributeTest.mentions]
  cases hkind : a.kind? with
  | none => exact .pure _
  | some k => cases hvalue : a.value with
    | none => exact .pure _
    | some v =>
      exact (h k v.value).map fun code => attributeTest { a with value := some { v with code } }

mutual

theorem follows_rename (h : f.Foretells Before codes) :
    (p : Part) → f.Follows Before (p.rename f) (p.exchange codes) p.mentions
  | className n => by
    rw [rename, exchange, mentions]
    exact (h .className n.value).map fun code => className { n with code }
  | id n => by
    rw [rename, exchange, mentions]
    exact (h .id n.value).map fun code => id { n with code }
  | attributeTest a => by
    rw [exchange, mentions]
    exact follows_rename_attributeTest h a
  | function opener inside => by
    rw [rename, exchange, mentions]
    exact (follows_renameAll h inside).map (function opener)
  | tag s | other s => by
    rw [rename, exchange, mentions]
    exact .pure _

theorem follows_renameAll (h : f.Foretells Before codes) :
    (ps : List Part) → f.Follows Before (renameAll f ps) (exchangeAll codes ps) (mentionsAll ps)
  | [] => by
    rw [renameAll, exchangeAll, mentionsAll]
    exact .pure []
  | p :: rest => by
    rw [renameAll, exchangeAll, mentionsAll]
    exact (follows_rename h p).bind fun p' => (follows_renameAll h rest).map (p' :: ·)

end

end Part

namespace Rule

mutual

theorem follows_rename (h : f.Foretells Before codes) :
    (r : Rule) → f.Follows Before (r.rename f) (r.exchange codes) r.mentions
  | style selector body => by
    rw [rename, exchange, mentions]
    exact (Part.follows_renameAll h selector).map (style · body)
  | group prelude rules => by
    rw [rename, exchange, mentions]
    exact (follows_renameAll h rules).map (group prelude)
  | block _ _ | raw _ => by
    rw [rename, exchange, mentions]
    exact .pure _

theorem follows_renameAll (h : f.Foretells Before codes) :
    (rs : List Rule) → f.Follows Before (renameAll f rs) (exchangeAll codes rs) (mentionsAll rs)
  | [] => by
    rw [renameAll, exchangeAll, mentionsAll]
    exact .pure []
  | r :: rest => by
    rw [renameAll, exchangeAll, mentionsAll]
    exact (follows_rename h r).bind fun r' => (follows_renameAll h rest).map (r' :: ·)

end

end Rule

/-- Renaming a stylesheet exchanges its names for what is known at the end. -/
theorem Stylesheet.follows_rename (h : f.Foretells Before codes) (s : Stylesheet) :
    f.Follows Before (s.rename f) (s.exchange codes) s.mentions :=
  Rule.follows_renameAll h s

end Follows

end TerseMarkup.Css
