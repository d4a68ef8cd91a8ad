import StyleBump.Property.Border
import StyleBump.Property.Layer

/-! # Shapes, filters and drawings

What is cut out of a box, what its picture goes through, and how lines and areas of a drawing are painted. -/

namespace StyleBump.Property
open Css Css.Parse Value

/-! ## Shapes -/

/-- The radius of a round shape. -/
def shapeRadius : Parse Measure := Measure.read ["closest-side", "farthest-side"] extent

/-- The radius that is meant if nothing is said. -/
def usualRadius : Measure := .word "closest-side"

/-- The middle of a round shape, which is usually that of the box. -/
def shapeMiddle : Parse String := do
  match ← attempt (expectKeyword "at") with
  | some _ => Value.spotText <$> Spot.read
  | none => pure ""

/-- A point of a shape. -/
def point : Parse String := do
  let x ← extentText
  let y ← extentText
  pure (x ++ " " ++ y)

/-- The content of a shape's parentheses. -/
def shapeBody? (name : String) : Option (Parse String) :=
  match name with
  | "inset" => some do
      let offsets ← Sides.read extent
      let corners ← match ← attempt (expectKeyword "round") with
        | some _ => radii
        | none => pure "0"
      pure (offsets.text Calc.text ++ (if corners == "0" then "" else " round " ++ corners))
  | "circle" => some do
      let r ← attempt shapeRadius
      let middle ← shapeMiddle
      pure (spaced [unlessIs usualRadius.text ((r.map Measure.text).getD ""), middle])
  | "ellipse" => some do
      let size ← attempt do
        let x ← shapeRadius
        let y ← shapeRadius
        pure (x, y)
      let middle ← shapeMiddle
      let (x, y) := size.getD (usualRadius, usualRadius)
      let shown := if x == usualRadius && y == usualRadius then "" else x.text ++ " " ++ y.text
      pure (spaced [shown, middle])
  | "polygon" => some do
      let rule ← attempt do
        let w ← expectWord fillRules
        expectToken .comma
        pure w
      let points ← commaSeparated point
      let front := match rule with
        | some "evenodd" => ["evenodd"]
        | _ => []
      pure (listed (front ++ points))
  | _ => none

/-- A shape. -/
def shape : Parse String := do
  let p ← here
  let c ← next
  match c with
  | .block _ ⟨.function f, _⟩ body _ =>
    match shapeBody? f.toLower with
    | some read => do
      let inner ← within body read
      pure (f.toLower ++ "(" ++ inner ++ ")")
    | none => Parse.unexpected p c
  | c => Parse.unexpected p c

/-- What a box is cut to: an address, a shape and the box that it is measured by, or none. -/
def clipPath : Parse String :=
  let box := expectWord geometryBoxes
  firstOf [
    address,
    (do
      let s ← shape
      let b ← attempt box
      pure (spaced [s, unlessIs "border-box" (b.getD "")])),
    (do
      let b ← box
      match ← attempt shape with
      | some s => pure (spaced [s, unlessIs "border-box" b])
      | none => pure b),
    expectKeyword "none" *> pure "none"]

/-! ## Filters -/

/-- Filters that take a factor, which is one if nothing is said. -/
def factorFilters : List String :=
  ["brightness", "contrast", "grayscale", "invert", "opacity", "saturate", "sepia"]

/-- The shadow of a picture: two lengths, a blur and a color. -/
def pictureShadow : Parse String := shadow false false

/-- A filter; what is meant anyway is left out. -/
def filterFunction : Parse String := do
  let p ← here
  let c ← next
  match c with
  | .block _ ⟨.function f, _⟩ body _ =>
    let name := f.toLower
    let inner ←
      if name == "blur" then do
        let r ← within body (attempt length)
        pure (match r with
          | some c => if c == ShadowLengths.none then "" else c.text
          | none => "")
      else if name == "hue-rotate" then do
        let a ← within body (attempt angleOrZero)
        pure (match a with
          | some q => if q.isZero then "" else q.text false
          | none => "")
      else if name == "drop-shadow" then within body pictureShadow
      else if factorFilters.contains name then do
        let x ← within body (attempt factor)
        pure (match x with
          | some c => if factorValue c == 1.0 then "" else c.text
          | none => "")
      else Parse.unexpected p c
    pure (name ++ "(" ++ inner ++ ")")
  | c => Parse.unexpected p c

/-- Filters one behind the other, or none. -/
def filters : Parse String :=
  orElse (expectKeyword "none" *> pure "none") do
    pure (spaced (← many (orElse address filterFunction)))

/-! ## Drawings -/

/-- How an area or a line is painted: by what an address names, with a color in its place if it names
nothing, or in a color. -/
def paint : Parse String :=
  firstOf [
    (do
      let u ← address
      let rest ← attempt (orElse (expectKeyword "none" *> pure "none") color)
      pure (spaced [u, rest.getD ""])),
    color, expectWord ["none", "context-fill", "context-stroke"]]

/-- A length of a dash; pixels are plain numbers. -/
def dashText : Calc → String
  | .value (.length x "px") => Decimal.terse x
  | c => c.text

/-- Dashes behind the first, with commas or without; at most `fuel` of them. -/
def furtherDashes : Nat → Parse (List String)
  | 0 => pure []
  | fuel + 1 => do
    let comma ← accepts (expectToken .comma)
    match ← attempt extent with
    | some c => do
      let rest ← furtherDashes fuel
      pure (dashText c :: rest)
    | none => if comma then refuse (.unexpected .comma) else pure []

/-- The dashes and gaps of a line, or none. -/
def dashes : Parse String :=
  orElse (expectKeyword "none" *> pure "none") fun s => (do
    let c ← extent
    let rest ← furtherDashes (s.rest.length + 1)
    pure (spaced (dashText c :: rest)) : Parse String) s

/-- The value of a property of shapes, filters or drawings. -/
def graphic? (stem : String) : Option (Parse String) :=
  match stem with
  | "clip-path" => some clipPath
  | "filter" | "backdrop-filter" => some filters
  | "fill" | "stroke" => some paint
  | "stroke-width" | "stroke-dashoffset" => some extentText
  | "stroke-miterlimit" => some numberText
  | "stroke-dasharray" => some dashes
  | "marker" | "marker-start" | "marker-mid" | "marker-end" =>
    some (orElse (expectKeyword "none" *> pure "none") address)
  | _ => none

end StyleBump.Property
