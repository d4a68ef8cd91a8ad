import StyleBump.Value.Math
import StyleBump.Value.Shorthand

/-! # Spots in a box

A spot is named by two placements, along the one axis and along the other: the center, a distance from the
start, or a side with a distance from it. A spot is written in the fewest words. -/

namespace StyleBump.Value
open Css Css.Parse

/-- Where something is along one axis. -/
inductive Placement
  | center
  | offset (c : Calc)
  | side (name : String) (c : Option Calc)
  deriving BEq

/-- The sides across and the sides along. -/
def horizontalSides : List String := ["left", "right"]
def verticalSides : List String := ["top", "bottom"]

namespace Placement

/-- A placement along the axis with the given sides. -/
def read (sides : List String) : Parse Placement :=
  firstOf [
    (do expectKeyword "center"; pure center),
    .offset <$> extent,
    (do
      let s ← expectWord sides
      let c ← attempt extent
      pure (side s c))]

def text : Placement → String
  | center => "center"
  | offset c => c.text
  | side s none => s
  | side s (some c) => s ++ " " ++ c.text

def isCenter : Placement → Bool
  | center => true
  | offset c => c == .value (.percentage 0.5)
  | side _ _ => false

/-- Whether a placement is given as no distance from the start of its axis. -/
def isStart : Placement → Bool
  | offset c => c.isZero
  | _ => false

/-- A side as a share of the way. -/
def sideText (name : String) : String := if name == "left" || name == "top" then "0" else "100%"

/-- A placement as a distance from the start of its axis. -/
def distance? : Placement → Option String
  | center => some "50%"
  | offset c => some (if c.isZero then "0" else c.text)
  | side s c =>
    if s == "left" || s == "top" then
      match c with
      | some c => some (if c.isZero then "0" else c.text)
      | none => some "0"
    else none

end Placement

/-- A place in a box. -/
structure Spot where
  x : Placement
  y : Placement
  deriving BEq

namespace Spot
open Placement

/-- The middle of the box. -/
def middle : Spot := ⟨center, center⟩

/-- The corner of a box that it starts from. -/
def corner : Spot := ⟨offset (.value (.percentage 0.0)), offset (.value (.percentage 0.0))⟩

/-- What follows the name of a vertical side. -/
def readBehindVertical (side : String) : Parse Spot := do
  let rest ← attempt do
    let dy ← attempt extent
    match ← attempt (expectWord horizontalSides) with
    | some s => do
      let dx ← attempt extent
      pure (dy, Placement.side s dx)
    | none => do
      expectKeyword "center"
      pure (dy, Placement.center)
  match rest with
  | some (dy, x) => pure ⟨x, .side side dy⟩
  | none => pure ⟨.center, .side side none⟩

/-- One to four words. -/
def read : Parse Spot := do
  match ← attempt (Placement.read horizontalSides) with
  | some .center => do
    match ← attempt (Placement.read verticalSides) with
    | some y => pure ⟨.center, y⟩
    | none => do
      let x ← attempt (Placement.read horizontalSides)
      pure ⟨x.getD .center, .center⟩
  | some (.offset c) => do
    match ← attempt (expectWord verticalSides) with
    | some s => pure ⟨.offset c, .side s none⟩
    | none =>
      match ← attempt extent with
      | some d => pure ⟨.offset c, .offset d⟩
      | none => do
        let _ ← attempt (expectKeyword "center")
        pure ⟨.offset c, .center⟩
  | some (.side s c) => do
    match ← attempt (expectKeyword "center") with
    | some _ => pure ⟨.side s c, .center⟩
    | none =>
      match ← attempt (expectWord verticalSides) with
      | some t => do
        let d ← attempt extent
        pure ⟨.side s c, .side t d⟩
      | none => pure ⟨.side s none, (c.map Placement.offset).getD .center⟩
  | none => do
    let s ← expectWord verticalSides
    readBehindVertical s

/-- A spot as text. -/
def text (s : Spot) : String :=
  let both : String :=
    match s.x.distance?, s.y.distance? with
    | some a, some b => a ++ " " ++ b
    | _, _ => s.x.text ++ " " ++ s.y.text
  match s.x, s.y with
  | .side "right" (some _), .offset d => s.x.text ++ " top " ++ d.text
  | .side "right" (some _), y => if y.isCenter then s.x.text ++ " center" else both
  | .offset _, .side "bottom" (some _) => "left " ++ s.x.text ++ " " ++ s.y.text
  | x, y =>
    if x.isCenter && y.isCenter then x.text
    else match x, y with
      | .offset c, y => if y.isCenter then c.text else both
      | .side a none, .side b none => sideText a ++ " " ++ sideText b
      | .side a none, y => if y.isCenter then sideText a else both
      | x, .side b none => if x.isCenter then b else both
      | _, _ => both

/-- Whether a spot is the corner that a box starts from. -/
def isCorner (s : Spot) : Bool := s.x.isStart && s.y.isStart

def isMiddle (s : Spot) : Bool := s.x.isCenter && s.y.isCenter

end Spot

end StyleBump.Value
