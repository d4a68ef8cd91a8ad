import StyleBump.Color.Reader
import StyleBump.Value.Spot
import StyleBump.Value.Tokens

/-! # Images

An image is an address, a gradient or a choice of images. A gradient is written without what is meant
anyway: the direction to the bottom, the middle of the box, a hint half-way between two colors. -/

namespace StyleBump.Value
open Css Css.Parse

/-- A color as text. -/
def color : Parse String := Color.text <$> Color.read

/-- An address as text. -/
def address : Parse String := urlText <$> expectUrl

/-- A resolution as text. -/
def resolution : Parse String := do
  let p ← here
  let c ← next
  match c with
  | .leaf ⟨.dimension n u, _⟩ =>
    match resolutionText? n.single u with
    | some s => pure s
    | none => Parse.unexpected p c
  | c => Parse.unexpected p c

/-! ## The colors of a gradient -/

/-- A color of a gradient with its place, or the place between two colors where they meet. -/
inductive Stop
  | color (text : String) (place : Option Calc)
  | hint (place : Calc)

/-- The stops between two commas; `afterColor` says that a hint may stand here. -/
def stopsAt (kinds : Kinds) (afterColor : Bool) : Parse (List Stop) := do
  let hint ← if afterColor then attempt (calculation kinds) else pure none
  match hint with
  | some c => pure [.hint c]
  | none => do
    let c ← color
    let first ← attempt (calculation kinds)
    let second ← if first.isSome then attempt (calculation kinds) else pure none
    match second with
    | some q => pure [.color c first, .color c (some q)]
    | none => pure [.color c first]

/-- The stops of a gradient; at most `fuel` parts between commas. -/
def stopsAux (kinds : Kinds) : Nat → Bool → Parse (List Stop)
  | 0, _ => pure []
  | fuel + 1, afterColor => do
    let part ← before isComma (stopsAt kinds afterColor)
    let afterColor := match part with
      | [.hint _] => false
      | _ => true
    match ← attempt next with
    | none => pure part
    | some _ => do
      let rest ← stopsAux kinds fuel afterColor
      pure (part ++ rest)

/-- The stops of a gradient, whose places are of the given kinds. -/
def stops (kinds : Kinds) : Parse (List Stop) := fun s => stopsAux kinds (s.rest.length + 1) false s

/-- A stop by itself. -/
def Stop.text : Stop → String
  | color c none => c
  | color c (some p) => c ++ " " ++ p.text
  | hint p => p.text

/-- Whether two colors meet half-way anyway. -/
def Stop.isIdle : Stop → Bool
  | color _ _ => false
  | hint p => p == .value (.percentage 0.5)

/-- Stops as text. Two places of one color stand behind it together. -/
def pairStops : List Stop → List String
  | [] => []
  | .color c (some p) :: .color d (some q) :: rest =>
    if c == d then (c ++ " " ++ p.text ++ " " ++ q.text) :: pairStops rest
    else (c ++ " " ++ p.text) :: pairStops (.color d (some q) :: rest)
  | s :: rest => s.text :: pairStops rest

/-- The stops that say something as text. -/
def stopTexts (ss : List Stop) : List String := pairStops (ss.filter (!·.isIdle))

/-! ## Gradients -/

/-- The angle that a straight gradient runs in, or the sides it runs to; old forms name the sides it
starts from. -/
def lineDirection (old : Bool) : Parse (String × Bool) :=
  orElse (do
    match ← angleOrZero with
    | .angle x u => pure (angleText x u, inDegrees x u == 180.0)
    | q => pure (q.text false, false)) do
    if !old then expectKeyword "to"
    let front := if old then "" else "to "
    match ← attempt (expectWord horizontalSides) with
    | some x =>
      match ← attempt (expectWord verticalSides) with
      | some y => pure (front ++ y ++ " " ++ x, false)
      | none => pure (front ++ x, false)
    | none => do
      let y ← expectWord verticalSides
      match ← attempt (expectWord horizontalSides) with
      | some x => pure (front ++ y ++ " " ++ x, false)
      | none => pure (front ++ y, y == "bottom")

/-- A gradient along a line. -/
def linearGradient (old : Bool) : Parse String := do
  let direction ← attempt do
    let d ← lineDirection old
    expectToken .comma
    pure d
  let ss ← stops .extent
  let front := match direction with
    | some (text, isDefault) => if isDefault then [] else [text]
    | none => []
  pure (listed (front ++ stopTexts ss))

/-- How far a round gradient reaches. -/
def reaches : List String := ["closest-side", "farthest-side", "closest-corner", "farthest-corner"]

/-- An ellipse that ends a gradient; empty if it is the usual one. -/
def endingEllipse : Parse String :=
  let reach : Parse String := unlessIs "farthest-corner" <$> expectWord reaches
  let size : Parse String := do
    let x ← extent
    let y ← extent
    pure (x.text ++ " " ++ y.text)
  firstOf [
    (do
      let r ← reach
      if ← accepts (expectKeyword "circle") then refuse .value
      let _ ← attempt (expectKeyword "ellipse")
      pure r),
    (do
      let s ← size
      let _ ← attempt (expectKeyword "ellipse")
      pure s),
    (do
      expectKeyword "ellipse"
      match ← attempt reach with
      | some r => pure r
      | none => pure ((← attempt size).getD ""))]

/-- A circle that ends a gradient. -/
def endingCircle : Parse String :=
  let reach : Parse String := do
    pure (spaced ["circle", unlessIs "farthest-corner" (← expectWord reaches)])
  firstOf [
    (do
      let r ← reach
      expectKeyword "circle"
      pure r),
    (do
      let r ← length
      let _ ← attempt (expectKeyword "circle")
      pure r.text),
    (do
      expectKeyword "circle"
      firstOf [reach, Calc.text <$> length, pure "circle"])]

/-- The place behind `at`. -/
def atSpot : Parse Spot := do
  expectKeyword "at"
  Spot.read

/-- A place as text, empty for the middle. -/
def spotText (s : Spot) : String := if s.isMiddle then "" else "at " ++ s.text

/-- A gradient around a spot. -/
def radialGradient : Parse String := do
  let shape ← attempt (orElse endingEllipse endingCircle)
  let spot ← attempt atSpot
  if shape.isSome || spot.isSome then expectToken .comma
  let ss ← stops .extent
  let front := spaced [shape.getD "", spotText (spot.getD .middle)]
  pure (listed ((if front.isEmpty then [] else [front]) ++ stopTexts ss))

/-- A gradient that turns around a spot. -/
def conicGradient : Parse String := do
  let start ← attempt do
    expectKeyword "from"
    angleOrZero
  let start := start.getD (.angle 0.0 .deg)
  let turned := !start.isZero
  let spot := (← attempt atSpot).getD .middle
  if turned || spot != .middle then expectToken .comma
  let ss ← stops .angleExtent
  let front := spaced [if turned then "from " ++ start.text false else "", spotText spot]
  pure (listed ((if front.isEmpty then [] else [front]) ++ stopTexts ss))

/-- A coordinate of the oldest form of gradients. -/
def oldCoordinate (sides : List String) : Parse String :=
  firstOf [expectWord ("center" :: sides), Decimal.terse <$> number, percentText <$> portion]

/-- A point of the oldest form of gradients. -/
def oldPoint : Parse String := do
  let x ← oldCoordinate horizontalSides
  let y ← oldCoordinate verticalSides
  pure (x ++ " " ++ y)

/-- A color of the oldest form of gradients. -/
def oldStop : Parse String := do
  let p ← here
  match ← next with
  | .block b ⟨.function f, t⟩ body e =>
    if sameName f "color-stop" then
      within body do
        let x ← orElse number portion
        expectToken .comma
        let c ← color
        pure (if x == 0.0 then "from(" ++ c ++ ")" else if x == 1.0 then "to(" ++ c ++ ")"
          else "color-stop(" ++ Decimal.terse x ++ ", " ++ c ++ ")")
    else if sameName f "from" then (fun c => "from(" ++ c ++ ")") <$> within body color
    else if sameName f "to" then (fun c => "to(" ++ c ++ ")") <$> within body color
    else Parse.unexpected p (.block b ⟨.function f, t⟩ body e)
  | c => Parse.unexpected p c

/-- The oldest form of gradients. -/
def oldGradient : Parse String := do
  let kind ← expectWord ["linear", "radial"]
  expectToken .comma
  let first ← oldPoint
  expectToken .comma
  let radius : Parse String := do
    let r ← number
    expectToken .comma
    pure (Decimal.terse r)
  if kind == "linear" then
    let last ← oldPoint
    expectToken .comma
    let ss ← commaSeparated oldStop
    pure (listed (["linear", first, last] ++ ss))
  else
    let r ← radius
    let last ← oldPoint
    expectToken .comma
    let s ← radius
    let ss ← commaSeparated oldStop
    pure (listed (["radial", first, r, last, s] ++ ss))

/-- The content of a gradient's parentheses. -/
def gradientBody (name : String) : Option (Parse String) :=
  match name with
  | "linear-gradient" | "repeating-linear-gradient" => some (linearGradient false)
  | "radial-gradient" | "repeating-radial-gradient" => some radialGradient
  | "conic-gradient" | "repeating-conic-gradient" => some conicGradient
  | "-webkit-linear-gradient" | "-webkit-repeating-linear-gradient" | "-moz-linear-gradient"
  | "-moz-repeating-linear-gradient" | "-o-linear-gradient" | "-o-repeating-linear-gradient" =>
    some (linearGradient true)
  | "-webkit-radial-gradient" | "-webkit-repeating-radial-gradient" | "-moz-radial-gradient"
  | "-moz-repeating-radial-gradient" | "-o-radial-gradient" | "-o-repeating-radial-gradient" =>
    some radialGradient
  | "-webkit-gradient" => some oldGradient
  | _ => none

/-- A gradient. -/
def gradient : Parse String := do
  let p ← here
  match ← next with
  | .block b ⟨.function f, t⟩ body e =>
    match gradientBody f.toLower with
    | some read => do
      let inner ← within body read
      pure (f.toLower ++ "(" ++ inner ++ ")")
    | none => Parse.unexpected p (.block b ⟨.function f, t⟩ body e)
  | c => Parse.unexpected p c

/-! ## Images -/

/-- The type of a file that an image is in. -/
def fileType : Parse String := do
  let body ← expectFunction "type"
  let s ← within body expectString
  pure ("type(" ++ writeString s ++ ")")

/-- One of a choice of images. The vendor's form names addresses by `url()`. -/
def imageOption (old : Bool) (image : Parse String) : Parse String := do
  let shown ← orElse (do
    let u ← expectUrlOrString
    pure (if old then urlText u else writeString u)) image
  match ← attempt resolution with
  | some r => do
    let t ← attempt fileType
    pure (spaced [shown, r, t.getD ""])
  | none => do
    let t ← attempt fileType
    let r ← attempt resolution
    pure (spaced [shown, r.getD "1x", t.getD ""])

/-- An image; choices nest at most `fuel` deep. -/
def imageAux : Nat → Parse String
  | 0 => refuse .tooDeep
  | fuel + 1 =>
    let choice (name : String) (old : Bool) : Parse String := do
      let body ← expectFunction name
      let options ← within body (commaSeparated (imageOption old (imageAux fuel)))
      pure (name ++ "(" ++ listed options ++ ")")
    firstOf [
      (do expectKeyword "none"; pure "none"),
      address, gradient, choice "image-set" false, choice "-webkit-image-set" true]

/-- An image, or `none`. -/
def image : Parse String := fun s => imageAux (Component.sizeAll s.rest + 1) s

end StyleBump.Value
