import TerseMarkup.Proofs.Css.Exchange

/-! The text that selectors and rules have been read from.

What an attribute test keeps before, in and behind its value is the inside of its brackets
(`source_read`). Of a rule that has only begun, the text is kept until it is known what the rule is
(`Begun.text`). Exchanging names never leaves a stylesheet without any text
(`text_exchange_eq_nil`). -/
namespace TerseMarkup.Css

namespace AttributeTest

/-- The inside of the brackets as it was read. -/
def source (a : AttributeTest) : Text :=
  a.head ++ (a.value.map AttributeValue.source).getD [] ++ a.tail

theorem source_readFrom (a : AttributeTest) (operator : Bool) (pending : Text)
    (inside : List Component) (hvalue : a.value = none) (htail : a.tail = []) :
    (readFrom a operator pending inside).source =
      a.head ++ pending ++ Component.textOf inside := by
  fun_induction readFrom a operator pending inside with
  | case1 a operator pending => simp [source, hvalue, htail, Component.textOf]
  | case2 a operator pending opener bracket inside closer rest ih =>
    rw [ih hvalue htail]
    simp [Component.textOf, Component.text, Component.textInside]
  | case3 a pending l rest found v hv | case5 a pending l rest found v hv =>
    simp [source, withTail, found, Component.textOf, Component.text]
  | case4 a operator pending l rest skip v hv hop ih
  | case6 a operator pending l rest skip v hv hop ih
  | case7 a operator pending l rest skip hident hstring ih =>
    rw [ih hvalue htail]
    simp [skip, Component.textOf, Component.text]

/-- **An attribute test keeps the inside of its brackets.** -/
theorem source_read (inside : List Component) : (read inside).source = Component.textOf inside :=
  source_readFrom {} false [] inside rfl rfl

/-- A code takes the place of the value and of nothing else. -/
theorem source_exchange (codes : Codes) (a : AttributeTest) :
    (a.exchange codes).source = a.source := by
  rw [exchange]
  split
  · simp [source, *]
  · rfl

end AttributeTest

namespace Rule

/-- What has been read of a rule that has begun. -/
def Begun.text : Begun → Text
  | none => []
  | atRule _ prelude => prelude
  | style prelude => prelude

/-- Rules print as nothing only where nothing was read. -/
theorem textOf_exchangeAll_eq_nil (codes : Codes) (begun : Begun) (cs : List Component)
    (h : textOf (exchangeAll codes (readFrom begun cs)) = []) :
    begun.text = [] ∧ Component.textOf cs = [] := by
  fun_induction readFrom begun cs with
  | case1 => exact ⟨rfl, rfl⟩
  | case2 name prelude | case3 prelude =>
    simpa [exchangeAll, exchange, textOf, text, Begun.text, Component.textOf] using h
  | case4 | case6 => simp [exchangeAll, exchange, textOf, text] at h
  | case5 name prelude opener inside closer rest =>
    split at h <;> simp [exchangeAll, exchange, textOf, text] at h
  | case7 l rest hsep ih | case10 name prelude l rest hsemi ih =>
    simp only [exchangeAll, exchange, textOf, text, List.append_eq_nil_iff] at h
    have hrest := (ih h.2).2
    simp [Begun.text, Component.textOf, Component.text, h, hrest]
  | case8 l rest hsep name hname ih | case9 l rest hsep hname ih =>
    have := ih h
    simpa [Begun.text, Component.textOf, Component.text] using this
  | case13 o b inside c rest hb ih =>
    have := ih h
    simpa [Begun.text, Component.textOf] using this
  | case11 name prelude l rest hsemi ih | case12 prelude l rest ih
  | case14 name prelude o b inside c rest hb ih | case15 prelude o b inside c rest hb ih =>
    have := ih h
    simpa [Begun.text, Component.textOf, Component.text, and_assoc] using this

end Rule

namespace Stylesheet

/-- **Only an empty stylesheet prints as nothing**, whatever its names are exchanged for. -/
theorem eq_nil_of_text_exchange (codes : Codes) {css : Text}
    (h : ((parse css).exchange codes).text = []) : css = [] := by
  have := (Rule.textOf_exchangeAll_eq_nil codes .none (Component.read css) h).2
  rwa [Component.textOf_read] at this

end Stylesheet
end TerseMarkup.Css
