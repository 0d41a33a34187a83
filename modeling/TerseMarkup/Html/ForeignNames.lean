import TerseMarkup.Html.Token

/-! Names inside SVG and MathML.

Markup is read in small letters, but some names of SVG and one of MathML have capitals. A few
attributes belong to a namespace of their own there. -/
namespace TerseMarkup.Html

/-- SVG elements with capitals in their names. -/
def svgElements : List String :=
  ["altGlyph", "altGlyphDef", "altGlyphItem", "animateColor", "animateMotion", "animateTransform",
    "clipPath", "feBlend", "feColorMatrix", "feComponentTransfer", "feComposite", "feConvolveMatrix",
    "feDiffuseLighting", "feDisplacementMap", "feDistantLight", "feDropShadow", "feFlood", "feFuncA",
    "feFuncB", "feFuncG", "feFuncR", "feGaussianBlur", "feImage", "feMerge", "feMergeNode",
    "feMorphology", "feOffset", "fePointLight", "feSpecularLighting", "feSpotLight", "feTile",
    "feTurbulence", "foreignObject", "glyphRef", "linearGradient", "radialGradient", "textPath"]

/-- SVG attributes with capitals in their names. -/
def svgAttributes : List String :=
  ["attributeName", "attributeType", "baseFrequency", "baseProfile", "calcMode", "clipPathUnits",
    "diffuseConstant", "edgeMode", "filterUnits", "glyphRef", "gradientTransform", "gradientUnits",
    "kernelMatrix", "kernelUnitLength", "keyPoints", "keySplines", "keyTimes", "lengthAdjust",
    "limitingConeAngle", "markerHeight", "markerUnits", "markerWidth", "maskContentUnits",
    "maskUnits", "numOctaves", "pathLength", "patternContentUnits", "patternTransform",
    "patternUnits", "pointsAtX", "pointsAtY", "pointsAtZ", "preserveAlpha", "preserveAspectRatio",
    "primitiveUnits", "refX", "refY", "repeatCount", "repeatDur", "requiredExtensions",
    "requiredFeatures", "specularConstant", "specularExponent", "spreadMethod", "startOffset",
    "stdDeviation", "stitchTiles", "surfaceScale", "systemLanguage", "tableValues", "targetX",
    "targetY", "textLength", "viewBox", "viewTarget", "xChannelSelector", "yChannelSelector",
    "zoomAndPan"]

def mathmlAttributes : List String := ["definitionURL"]

def smallLetters (name : String) : String := String.ofList (Text.lower name.toList)

/-- The name of the list that is `name` but for capitals. -/
def withCapitals (names : List String) (name : String) : String :=
  (names.find? (smallLetters · == name)).getD name

/-- The name in its namespace, for the attributes that have one. -/
def AttributeName.adjusted (n : AttributeName) : AttributeName :=
  match n.name with
  | "xlink:actuate" => ⟨some .xlink, "actuate"⟩
  | "xlink:arcrole" => ⟨some .xlink, "arcrole"⟩
  | "xlink:href" => ⟨some .xlink, "href"⟩
  | "xlink:role" => ⟨some .xlink, "role"⟩
  | "xlink:show" => ⟨some .xlink, "show"⟩
  | "xlink:title" => ⟨some .xlink, "title"⟩
  | "xlink:type" => ⟨some .xlink, "type"⟩
  | "xml:lang" => ⟨some .xml, "lang"⟩
  | "xml:space" => ⟨some .xml, "space"⟩
  | "xmlns" => ⟨some .xmlns, "xmlns"⟩
  | "xmlns:xlink" => ⟨some .xmlns, "xlink"⟩
  | _ => n

namespace Tag

/-- Changes the names of a tag's attributes. -/
def mapNames (f : AttributeName → AttributeName) (t : Tag) : Tag :=
  { t with attributes := t.attributes.map fun a => { a with name := f a.name } }

/-- The tag with its attributes as they are called in this namespace. -/
def withAttributesIn (space : Namespace) (t : Tag) : Tag :=
  let capitals :=
    match space with
    | .svg => svgAttributes
    | .mathml => mathmlAttributes
    | _ => []
  (t.mapNames fun n => { n with name := withCapitals capitals n.name }).mapNames
    AttributeName.adjusted

/-- The tag with its element and its attributes as they are called in this namespace. -/
def inNamespace (space : Namespace) (t : Tag) : Tag :=
  let name := if space = .svg then withCapitals svgElements t.name else t.name
  { t.withAttributesIn space with name }

end Tag
end TerseMarkup.Html
