import TerseMarkup.Css.Stylesheet

/-! Shortening the selectors of a stylesheet. -/
namespace TerseMarkup.Shortener

/-- The stylesheet with every name in its selectors exchanged for its code. -/
def shortenCss (s : Shortener) (css : Text) : StateM Table Text := do
  return (← (Css.Stylesheet.parse css).rename s.assign).text

end TerseMarkup.Shortener
