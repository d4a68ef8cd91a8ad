import StyleBump.Property.Word
import StyleBump.Value.Measure

/-! # Boxes

The size and the place of a box, how it is laid out with others, and what is seen of it. -/

namespace StyleBump.Property
open Css Css.Parse Value

/-! ## Sizes -/

/-- Words for sizes that follow from what is inside or around a box. -/
def contentSizes : List String :=
  ["min-content", "-webkit-min-content", "-moz-min-content", "max-content", "-webkit-max-content",
   "-moz-max-content", "stretch", "-webkit-fill-available", "-moz-available", "fit-content",
   "-webkit-fit-content", "-moz-fit-content", "contain"]

/-- The size of content, as far as an extent. -/
def fitContent : Parse String := do
  let body ← expectFunction "fit-content"
  let s ← within body extentText
  pure ("fit-content(" ++ s ++ ")")

/-- A size; `initial` is the word for no size of its own. -/
def size (initial : String) : Parse String :=
  firstOf [expectWord (initial :: contentSizes), fitContent, extentText]

/-- A ratio as text: two numbers with a slash, the second one left out if it is one. -/
def ratioText (a b : Float32) : String :=
  if b == 1.0 then Decimal.terse a else Decimal.terse a ++ " / " ++ Decimal.terse b

/-- A ratio, whose second number may be left out. -/
def ratio : Parse String := do
  let a ← number
  let b ← behindSlash number
  pure (ratioText a (b.getD 1.0))

/-- The ratio of a box's sides, and whether that of its content goes first. -/
def aspectRatio : Parse String := do
  let auto ← accepts (expectKeyword "auto")
  let r ← attempt ratio
  let auto ← if auto then pure true else accepts (expectKeyword "auto")
  if !auto && r.isNone then refuse .value
  else pure (spaced [if auto then "auto" else "", r.getD ""])

/-! ## Layout -/

/-- Ways to be laid out that stand alone. -/
def displayWords : List String :=
  ["none", "contents", "table-row-group", "table-header-group", "table-footer-group", "table-row",
   "table-cell", "table-column-group", "table-column", "table-caption", "ruby-base", "ruby-text",
   "ruby-base-container", "ruby-text-container"]

/-- How a box takes part in the layout around it. -/
def outerDisplays : List String := ["block", "inline", "run-in"]

/-- How a box lays out what is inside it. -/
def innerDisplays : List String :=
  ["flow", "flow-root", "table", "flex", "-webkit-flex", "-ms-flexbox", "-webkit-box", "-moz-box",
   "grid", "ruby"]

/-- Layouts inside a line that have a word of their own, by the word for what is inside. -/
def inlineDisplays : List (String × String) :=
  [("flow-root", "inline-block"), ("table", "inline-table"), ("flex", "inline-flex"),
   ("-webkit-flex", "-webkit-inline-flex"), ("-ms-flexbox", "-ms-inline-flexbox"),
   ("-webkit-box", "-webkit-inline-box"), ("-moz-box", "-moz-inline-box"), ("grid", "inline-grid")]

/-- What a box is laid out as. -/
structure Display where
  outer : Option String
  inner : Option String
  isItem : Bool

namespace Display

/-- The layout in the fewest words. -/
def text (d : Display) : String :=
  let inner := d.inner.getD "flow"
  let usual := if inner == "ruby" then "inline" else "block"
  let outer := d.outer.getD usual
  let plain := spaced [
    if outer != usual || (inner == "flow" && !d.isItem) then outer else "",
    unlessIs "flow" inner,
    if d.isItem then "list-item" else ""]
  if outer == "inline" && !d.isItem then (inlineDisplays.lookup inner).getD plain else plain

/-- Words for what is outside, for what is inside, and for the item of a list. -/
def read : Parse Display := do
  let d ← someOrder [
    (do expectKeyword "list-item"; pure fun d => { d with isItem := true }),
    (do let w ← expectWord outerDisplays; pure fun d => { d with outer := some w }),
    (do let w ← expectWord innerDisplays; pure fun d => { d with inner := some w })] ⟨none, none, false⟩
  if d.isItem && (d.inner.getD "flow" ∉ ["flow", "flow-root"]) then refuse .declaration
  else pure d

end Display

/-- How a box is laid out. -/
def display : Parse String :=
  firstOf [Display.text <$> Display.read, expectWord (inlineDisplays.map (·.2)), expectWord displayWords]

/-- Along both axes, what happens to content that does not fit. -/
def overflow : Parse String := pairText id <$> pair (expectWord overflowWords)

/-- A gap between boxes. -/
def gap : Parse Measure := Measure.read ["normal"] extent

/-- How far something shows through, as a number. -/
def opacity : Parse String := do pure (Decimal.terse (factorValue (← factor)))

/-- The value of a property of boxes. -/
def box? (stem : String) : Option (Parse String) :=
  if ["width", "height", "min-width", "min-height", "block-size", "inline-size", "min-block-size",
      "min-inline-size"].contains stem then some (size "auto")
  else if ["max-width", "max-height", "max-block-size", "max-inline-size"].contains stem then
    some (size "none")
  else if ["margin", "padding", "inset", "scroll-margin", "scroll-padding"].contains stem then
    some (measureSides autoExtent)
  else if (pairs.flatMap fun s => [s ++ "-block", s ++ "-inline"]).contains stem then
    some (measurePair autoExtent)
  else if ["top", "bottom", "left", "right", "inset-block-start", "inset-block-end",
      "inset-inline-start", "inset-inline-end"].contains stem ||
      (pairs.flatMap fun s => sides.map fun t => s ++ "-" ++ t).contains stem then some (Measure.text <$> autoExtent)
  else match stem with
    | "aspect-ratio" => some aspectRatio
    | "display" => some display
    | "overflow" => some overflow
    | "row-gap" | "column-gap" => some (Measure.text <$> gap)
    | "gap" => some (measurePair gap)
    | "opacity" | "fill-opacity" | "stroke-opacity" => some opacity
    | "z-index" => some (wordOr ["auto"] integerText)
    | _ => none
where
  pairs : List String := ["margin", "padding", "inset", "scroll-margin", "scroll-padding"]
  sides : List String :=
    ["top", "bottom", "left", "right", "block-start", "block-end", "inline-start", "inline-end"]

end StyleBump.Property
