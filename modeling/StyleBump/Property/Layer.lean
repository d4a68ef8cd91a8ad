import StyleBump.Property.Word
import StyleBump.Value.Image
import StyleBump.Value.Measure

/-! # Layers of images

Backgrounds and masks are stacks of images, each with a place, a size, a way to repeat and the boxes
that bound it. Of a layer, only what differs from the usual is written. -/

namespace StyleBump.Property
open Css Css.Parse Value

/-- The size of an image in a layer: a word, or width and height, of which a fitting height is left
out. -/
def layerSize : Parse String :=
  orElse (do
    let w ← autoExtent
    let h ← attempt autoExtent
    pure (spaced [w.text, unlessIs "auto" ((h.map Measure.text).getD "")]))
    (expectWord ["cover", "contain"])

/-- How an image repeats across and along. -/
def layerRepeat : Parse String :=
  orElse (expectWord ["repeat-x", "repeat-y"]) do
    let (x, y) ← pair (expectWord ["repeat", "space", "round", "no-repeat"])
    pure (match x, y with
      | "repeat", "no-repeat" => "repeat-x"
      | "no-repeat", "repeat" => "repeat-y"
      | x, y => pairText id (x, y))

/-- Boxes that bound an image. -/
def geometryBoxes : List String :=
  ["border-box", "padding-box", "content-box", "margin-box", "fill-box", "stroke-box", "view-box"]

/-- A layer; `join` is how the layers of a mask are put together. -/
structure Layer where
  color : String
  image : String
  spot : Spot
  size : String
  fill : String
  attachment : String
  origin : Option String
  clip : Option String
  join : String
  mode : String

namespace Layer

def initial : Layer :=
  ⟨"#0000", "none", .corner, "auto", "repeat", "scroll", none, none, "add", "match-source"⟩

/-- A place, and a size behind a slash. -/
def readSpot : Parse (Layer → Layer) := do
  let s ← Spot.read
  let size ← behindSlash layerSize
  pure fun l => { l with spot := s, size := size.getD initial.size }

def readImage : Parse (Layer → Layer) := do
  let s ← Value.image
  pure fun l => { l with image := s }

def readRepeat : Parse (Layer → Layer) := do
  let s ← layerRepeat
  pure fun l => { l with fill := s }

/-- A box that the place counts from. -/
def readOrigin (boxes : List String) : Parse (Layer → Layer) := do
  let s ← expectWord boxes
  pure fun l => { l with origin := some s }

/-- A box that nothing is painted outside of. -/
def readClip (boxes : List String) : Parse (Layer → Layer) := do
  let s ← expectWord boxes
  pure fun l => { l with clip := some s }

/-- A place and a size as text; the place is left out if `usual` says so and there is no size. -/
def spotText (l : Layer) (usual : Bool) : String :=
  if usual && l.size == initial.size then ""
  else l.spot.text ++ (if l.size == initial.size then "" else " / " ++ l.size)

/-- A layer of a background. Where it is clipped follows from the box that it starts from. -/
def background : Parse String := do
  let l ← anyOrder [
    (do let c ← Value.color; pure fun l => { l with color := c }),
    readSpot, readImage, readRepeat,
    (do let s ← expectWord (wordsOf "background-attachment"); pure fun l => { l with attachment := s }),
    readOrigin (wordsOf "background-origin"), readClip (wordsOf "background-clip")] initial
  let origin := l.origin.getD "padding-box"
  let clip := l.clip.getD (l.origin.getD "border-box")
  let shown := origin != "padding-box" || clip == "padding-box" || clip == "content-box"
  pure (orText "none" (spaced [
    unlessIs initial.color l.color, unlessIs initial.image l.image, l.spotText l.spot.isCorner,
    unlessIs initial.fill l.fill, unlessIs initial.attachment l.attachment,
    if shown then origin else "", unlessIs (if shown then origin else "border-box") clip]))

/-- A layer of a mask; its image is always written. -/
def mask : Parse String := do
  let l ← anyOrder [
    readImage, readSpot, readRepeat, readOrigin geometryBoxes, readClip (geometryBoxes ++ ["no-clip"]),
    (do let s ← expectWord (wordsOf "mask-composite"); pure fun l => { l with join := s }),
    (do let s ← expectWord (wordsOf "mask-mode"); pure fun l => { l with mode := s })] initial
  let origin := l.origin.getD "border-box"
  let clip := l.clip.getD origin
  pure (spaced [
    l.image, l.spotText (l.spot == Spot.corner), unlessIs initial.fill l.fill,
    if origin != "border-box" || clip != "border-box" then origin else "", unlessIs origin clip,
    unlessIs initial.join l.join, unlessIs initial.mode l.mode])

end Layer

/-- The value of a property of layers. -/
def layer? (stem : String) : Option (Parse String) :=
  match stem with
  | "background" => some (commaList Layer.background)
  | "mask" => some (commaList Layer.mask)
  | "background-color" => some color
  | "background-image" | "mask-image" => some (commaList image)
  | "background-position" | "mask-position" => some (commaList (Spot.text <$> Spot.read))
  | "background-position-x" | "mask-position-x" =>
    some (commaList (Placement.text <$> Placement.read horizontalSides))
  | "background-position-y" | "mask-position-y" =>
    some (commaList (Placement.text <$> Placement.read verticalSides))
  | "background-size" | "mask-size" => some (commaList layerSize)
  | "background-repeat" | "mask-repeat" => some (commaList layerRepeat)
  | "mask-origin" => some (commaList (expectWord geometryBoxes))
  | "mask-clip" => some (commaList (expectWord (geometryBoxes ++ ["no-clip"])))
  | _ => none

end StyleBump.Property
