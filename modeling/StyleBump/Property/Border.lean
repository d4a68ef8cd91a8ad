import StyleBump.Property.Names
import StyleBump.Property.Word
import StyleBump.Value.Image
import StyleBump.Value.Measure

/-! # Borders, outlines and shadows

What is drawn around a box and behind it. Of a border, only what differs from the usual width, style and
color is written. -/

namespace StyleBump.Property
open Css Css.Parse Value

/-- The width of a line. -/
def lineWidth : Parse Measure := Measure.read ["thin", "medium", "thick"] length

/-- The color of the text, which most colors are unless they are set. -/
def textColor : String := "currentColor"

/-! ## Lines around a box -/

/-- A line: its width, its style and its color. -/
structure Line where
  width : Measure
  style : String
  color : String

namespace Line

/-- The line that is meant if nothing is said. -/
def initial : Line := ⟨.word "medium", "none", textColor⟩

/-- A line as text; one that is none in every way is written as its style. -/
def text (l : Line) : String :=
  orText l.style (spaced [unlessIs "medium" l.width.text, unlessIs "none" l.style, unlessIs textColor l.color])

/-- The parts of a line in any order. -/
def read (styles : List String) : Parse Line :=
  someOrder [
    (do let w ← lineWidth; pure fun l => { l with width := w }),
    (do let s ← expectWord styles; pure fun l => { l with style := s }),
    (do let c ← Value.color; pure fun l => { l with color := c })] initial

end Line

/-- The style of an outline. -/
def outlineStyles : List String := "auto" :: lineStyles

/-! ## Corners -/

/-- The radii of the corners, across and along where they differ. -/
def radii : Parse String := do
  let across ← Sides.read extent
  let along ← behindSlash (Sides.read extent)
  let front := across.text Calc.text
  match along with
  | some s => pure (if s == across then front else front ++ " / " ++ s.text Calc.text)
  | none => pure front

/-- The radius of one corner, across and along. -/
def cornerRadius : Parse String := pairText Calc.text <$> pair extent

/-! ## Images as borders -/

/-- How an image is cut for a border. -/
structure Slice where
  offsets : Sides Calc
  filled : Bool
  deriving BEq

namespace Slice

/-- The whole image. -/
def initial : Slice := ⟨.all (.value (.percentage 1.0)), false⟩

def text (s : Slice) : String := s.offsets.text Calc.text ++ (if s.filled then " fill" else "")

/-- The offsets of the cuts, with `fill` on either side of them. -/
def read : Parse Slice := do
  let filled ← accepts (expectKeyword "fill")
  let offsets ← Sides.read factor
  let filled ← if filled then pure true else accepts (expectKeyword "fill")
  pure ⟨offsets, filled⟩

end Slice

/-- The width of an image in a border. -/
def imageWidth : Parse Measure := Measure.read ["auto"] (orElse numberCalc extent)

/-- How far an image reaches over its border. -/
def imageOutset : Parse Measure := .amount <$> numberOrLength

/-- How an image fills the sides of a border. -/
def imageRepeat : Parse String := pairText id <$> pair (expectWord ["stretch", "repeat", "round", "space"])

/-- An image that serves as a border. -/
structure BorderImage where
  source : String
  slice : Slice
  width : Sides Measure
  outset : Sides Measure
  fill : String
  mode : String

namespace BorderImage

def initial : BorderImage := ⟨"none", .initial, .all (.number 1.0), .all (.number 0.0), "stretch", "alpha"⟩

/-- What stands behind the slices: widths, then how far the image reaches. -/
def readSizes : Parse (Option (Sides Measure) × Option (Sides Measure)) := do
  expectToken (.delim '/')
  let width ← attempt (Sides.read imageWidth)
  let outset ← behindSlash (Sides.read imageOutset)
  if width.isNone && outset.isNone then refuse .value else pure (width, outset)

/-- The parts in any order; `modes` are the words for how a mask is made of the image. -/
def read (modes : List String) : Parse BorderImage :=
  someOrder [
    (do
      let s ← Slice.read
      let sizes ← attempt readSizes
      let (width, outset) := sizes.getD (none, none)
      pure fun b =>
        { b with slice := s, width := width.getD initial.width, outset := outset.getD initial.outset }),
    (do let s ← image; pure fun b => { b with source := s }),
    (do let s ← imageRepeat; pure fun b => { b with fill := s }),
    (do let s ← expectWord modes; pure fun b => { b with mode := s })] initial

/-- The image, then its slices and sizes, each behind a space. -/
def text (b : BorderImage) : String :=
  let width := if b.width == initial.width then "" else b.width.text Measure.text
  let outset := if b.outset == initial.outset then "" else " / " ++ b.outset.text Measure.text
  let sizes := if width.isEmpty && outset.isEmpty then "" else " / " ++ width ++ outset
  let slice := if sizes.isEmpty && b.slice == .initial then "" else " " ++ b.slice.text ++ sizes
  let behind (initial s : String) : String := if s == initial then "" else " " ++ s
  unlessIs "none" b.source ++ slice ++ behind initial.fill b.fill ++ behind initial.mode b.mode

end BorderImage

/-- The value of a part of an image that serves as a border. -/
def borderImagePart? (part : String) : Option (Parse String) :=
  match part with
  | "source" => some image
  | "slice" => some (Slice.text <$> Slice.read)
  | "width" => some (measureSides imageWidth)
  | "outset" => some (measureSides imageOutset)
  | "repeat" => some imageRepeat
  | _ => none

/-! ## Shadows -/

/-- The lengths of a shadow: its place, its blur and its spread. -/
structure ShadowLengths where
  x : Calc
  y : Calc
  blur : Calc
  spread : Calc

namespace ShadowLengths

/-- No length. -/
def none : Calc := .value (.length 0.0 "px")

/-- Two lengths at least; `spreads` says that there may be four. -/
def read (spreads : Bool) : Parse ShadowLengths := do
  let x ← length
  let y ← length
  let blur ← attempt length
  let spread ← if spreads then attempt length else pure Option.none
  pure ⟨x, y, blur.getD none, spread.getD none⟩

def text (l : ShadowLengths) : String :=
  let spread := if l.spread == none then "" else l.spread.text
  let blur := if l.blur == none && spread.isEmpty then "" else l.blur.text
  spaced [l.x.text, l.y.text, blur, spread]

end ShadowLengths

/-- A shadow. -/
structure Shadow where
  isInset : Bool
  lengths : Option ShadowLengths
  color : String

/-- The parts of a shadow in any order; only the shadow of a box can fall inside. -/
def shadow (insets spreads : Bool) : Parse String := do
  let s ← anyOrder [
    (do
      if insets then expectKeyword "inset" else refuse .value
      pure fun s => { s with isInset := true }),
    (do let l ← ShadowLengths.read spreads; pure fun s => { s with lengths := some l }),
    (do let c ← color; pure fun s => { s with color := c })] (⟨false, none, textColor⟩ : Shadow)
  match s.lengths with
  | some l => pure (spaced [if s.isInset then "inset" else "", l.text, unlessIs textColor s.color])
  | none => refuse .value

/-- The value of a property of borders, outlines or shadows. -/
def border? (stem : String) : Option (Parse String) :=
  let line := Line.text <$> Line.read lineStyles
  if (edges ++ ["border-block", "border-inline"]).contains stem then some line
  else if (edges.map (· ++ "-color")).contains stem then some color
  else if (edges.map (· ++ "-width")).contains stem then some (Measure.text <$> lineWidth)
  else match stem with
    | "border" => some line
    | "border-color" => some (Sides.text id <$> Sides.read color)
    | "border-style" => some (Sides.text id <$> Sides.read (expectWord lineStyles))
    | "border-width" => some (measureSides lineWidth)
    | "border-block-color" | "border-inline-color" => some (pairText id <$> pair color)
    | "border-block-style" | "border-inline-style" => some (pairText id <$> pair (expectWord lineStyles))
    | "border-block-width" | "border-inline-width" => some (measurePair lineWidth)
    | "border-spacing" => some (pairText Calc.text <$> pair length)
    | "border-radius" => some radii
    | "border-image" | "mask-box-image" => some (BorderImage.text <$> BorderImage.read [])
    | "mask-border" => some (BorderImage.text <$> BorderImage.read ["luminance", "alpha"])
    | "outline" => some (Line.text <$> Line.read outlineStyles)
    | "outline-color" => some color
    | "outline-style" => some (expectWord outlineStyles)
    | "outline-width" => some (Measure.text <$> lineWidth)
    | "box-shadow" => some (commaList (shadow true true))
    | "text-shadow" => some (commaList (shadow false true))
    | _ =>
      if (corners.map fun c => "border-" ++ c ++ "-radius").contains stem then some cornerRadius
      else match ["border-image-", "mask-box-image-", "mask-border-"].find?
          fun s => s.toList.isPrefixOf stem.toList with
        | some s => borderImagePart? (String.ofList (stem.toList.drop s.length))
        | none => none
where
  edges : List String :=
    ["border-top", "border-bottom", "border-left", "border-right", "border-block-start",
     "border-block-end", "border-inline-start", "border-inline-end"]

end StyleBump.Property
