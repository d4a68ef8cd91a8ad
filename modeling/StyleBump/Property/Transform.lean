import StyleBump.Property.Word
import StyleBump.Value.Measure
import StyleBump.Value.Spot

/-! # Transforms

Functions that move, turn, scale and skew a box, and the properties that each stand for one of them. Second
parts that change nothing, or the same as the first, are not written. -/

namespace StyleBump.Property
open Css Css.Parse Value

/-- An angle as text; no turn at all is a plain zero. -/
def turnText (q : Quantity) : String := if q.isZero then "0" else q.text false

/-- An angle in a transform. -/
def turn : Parse String := turnText <$> angleOrZero

/-- The arguments of a function, all of one kind; at most `fuel` behind the first. -/
def argumentsAux (p : Parse String) : Nat → Parse (List String)
  | 0 => do pure [← p]
  | fuel + 1 => do
    let a ← p
    expectToken .comma
    let rest ← argumentsAux p fuel
    pure (a :: rest)

/-- As many arguments as `count` says. -/
def arguments (count : Nat) (p : Parse String) : Parse (List String) := argumentsAux p (count - 1)

/-- Readers with commas between them. -/
def inTurn : List (Parse String) → Parse (List String)
  | [] => pure []
  | [p] => do pure [← p]
  | p :: ps => do
    let a ← p
    expectToken .comma
    let rest ← inTurn ps
    pure (a :: rest)

/-- What follows a comma, if there is one. -/
def behindComma {α : Type} (p : Parse α) : Parse (Option α) := do
  match ← attempt (expectToken .comma) with
  | some _ => some <$> p
  | none => pure none

/-- A factor as a plain number. -/
def share : Parse Float32 := factorValue <$> factor

/-- The spelling of a function of transforms, and its arguments. -/
def transformBody? (name : String) : Option (String × Parse (List String)) :=
  match name with
  | "matrix" => some ("matrix", arguments 6 numberText)
  | "matrix3d" => some ("matrix3d", arguments 16 numberText)
  | "translate" => some ("translate", do
      let x ← extent
      let y ← behindComma extent
      pure (x.text :: ((y.filter (!·.isZero)).map Calc.text).toList))
  | "translatex" => some ("translateX", arguments 1 extentText)
  | "translatey" => some ("translateY", arguments 1 extentText)
  | "translatez" => some ("translateZ", arguments 1 lengthText)
  | "translate3d" => some ("translate3d", inTurn [extentText, extentText, lengthText])
  | "scale" => some ("scale", do
      let x ← share
      let y ← behindComma share
      pure (Decimal.terse x :: ((y.filter (· != x)).map Decimal.terse).toList))
  | "scalex" => some ("scaleX", arguments 1 (Calc.text <$> factor))
  | "scaley" => some ("scaleY", arguments 1 (Calc.text <$> factor))
  | "scalez" => some ("scaleZ", arguments 1 (Calc.text <$> factor))
  | "scale3d" => some ("scale3d", arguments 3 (Decimal.terse <$> share))
  | "rotate" => some ("rotate", arguments 1 turn)
  | "rotatex" => some ("rotateX", arguments 1 turn)
  | "rotatey" => some ("rotateY", arguments 1 turn)
  | "rotatez" => some ("rotateZ", arguments 1 turn)
  | "rotate3d" => some ("rotate3d", inTurn [numberText, numberText, numberText, turn])
  | "skew" => some ("skew", do
      let x ← angleOrZero
      let y ← behindComma angleOrZero
      pure (x.text false :: ((y.filter (!·.isZero)).map turnText).toList))
  | "skewx" => some ("skewX", arguments 1 turn)
  | "skewy" => some ("skewY", arguments 1 turn)
  | "perspective" => some ("perspective", arguments 1 lengthText)
  | _ => none

/-- A function of transforms. -/
def transformFunction : Parse String := do
  let p ← here
  let c ← next
  match c with
  | .block _ ⟨.function f, _⟩ body _ =>
    match transformBody? f.toLower with
    | some (name, read) => do
      let ss ← within body read
      pure (name ++ "(" ++ listed ss ++ ")")
    | none => Parse.unexpected p c
  | c => Parse.unexpected p c

/-- One function at least, or none. -/
def transform : Parse String :=
  orElse (expectKeyword "none" *> pure "none") do
    let s ← transformFunction
    let ss ← many transformFunction
    pure (spaced (s :: ss))

/-- A move along one to three axes. -/
def translate : Parse String :=
  orElse (expectKeyword "none" *> pure "none") do
    let x ← extent
    let y ← attempt extent
    let z ← if y.isSome then attempt length else pure none
    let deep := z.any (!·.isZero)
    let along := if deep || y.any (!·.isZero) then (y.map Calc.text).getD "" else ""
    pure (spaced [x.text, along, if deep then (z.map Calc.text).getD "" else ""])

/-- Axes by name. -/
def axis : Parse (Float32 × Float32 × Float32) := do
  match ← expectWord ["x", "y", "z"] with
  | "x" => pure (1.0, 0.0, 0.0)
  | "y" => pure (0.0, 1.0, 0.0)
  | _ => pure (0.0, 0.0, 1.0)

/-- A turn around an axis, which is given on either side of the angle. -/
def rotate : Parse String :=
  orElse (expectKeyword "none" *> pure "none") do
    let before ← attempt angle
    let vector : Parse (Float32 × Float32 × Float32) := do
      let x ← number
      let y ← number
      let z ← number
      pure (x, y, z)
    let (x, y, z) := (← attempt (orElse axis vector)).getD (0.0, 0.0, 1.0)
    let a ← match before with
      | some a => pure a
      | none => angle
    let isAxis (a b c : Float32) : Bool := x == a && y == b && z == c
    let front :=
      if isAxis 0.0 0.0 1.0 then ""
      else if isAxis 1.0 0.0 0.0 then "x"
      else if isAxis 0.0 1.0 0.0 then "y"
      else spaced ([x, y, z].map Decimal.terse)
    pure (if isAxis 0.0 0.0 1.0 && a.isZero then "none" else spaced [front, a.text false])

/-- A change of size along one to three axes. -/
def scale : Parse String :=
  orElse (expectKeyword "none" *> pure "none") do
    let x ← factor
    let y ← attempt factor
    let z ← if y.isSome then attempt factor else pure none
    let deep := z.any (factorValue · != 1.0)
    let along := if deep || y.any (· != x) then (y.map Calc.text).getD "" else ""
    pure (spaced [x.text, along, if deep then (z.map Calc.text).getD "" else ""])

/-- The value of a property of transforms. -/
def transform? (stem : String) : Option (Parse String) :=
  match stem with
  | "transform" => some transform
  | "transform-origin" | "perspective-origin" => some (Spot.text <$> Spot.read)
  | "perspective" => some (wordOr ["none"] lengthText)
  | "translate" => some translate
  | "rotate" => some rotate
  | "scale" => some scale
  | _ => none

end StyleBump.Property
