import StyleBump.Css.Writing

/-! # Quantities

A quantity is a number with a unit. Two of them can be combined or compared if they have one unit, or
units of fixed size to each other. A zero length is written without its unit, unless it stands inside
a calculation. -/

namespace StyleBump.Value
open Css

/-- A number with a unit behind it. -/
def withUnit (x : Float32) (unit : String) : String :=
  (if x == 0.0 then writeSigned x else Decimal.terse x) ++ writeUnit unit

/-- Units of length. -/
def lengthUnits : List String :=
  ["px", "in", "cm", "mm", "q", "pt", "pc", "em", "rem", "ex", "rex", "ch", "rch", "cap", "rcap",
   "ic", "ric", "lh", "rlh", "vw", "lvw", "svw", "dvw", "cqw", "vh", "lvh", "svh", "dvh", "cqh",
   "vi", "svi", "lvi", "dvi", "cqi", "vb", "svb", "lvb", "dvb", "cqb", "vmin", "svmin", "lvmin",
   "dvmin", "cqmin", "vmax", "svmax", "lvmax", "dvmax", "cqmax"]

/-- The spelling of a unit of length. -/
def lengthUnit? (unit : String) : Option String :=
  let low := unit.toLower
  if lengthUnits.contains low then some low else none

/-- How many pixels a unit of fixed size has. -/
def pixels? : String → Option Float32
  | "px" => some 1.0
  | "in" => some 96.0
  | "cm" => some (96.0 / 2.54)
  | "mm" => some (96.0 / 2.54 / 10.0)
  | "q" => some (96.0 / 2.54 / 40.0)
  | "pt" => some (96.0 / 72.0)
  | "pc" => some 16.0
  | _ => none

/-- A length in pixels, if its unit has a fixed size. -/
def inPixels? (x : Float32) (unit : String) : Option Float32 := (pixels? unit).map (x * ·)

inductive AngleUnit
  | deg
  | grad
  | rad
  | turn
  deriving DecidableEq, Repr

/-- The unit of an angle by its name. -/
def angleUnit? (unit : String) : Option AngleUnit :=
  match unit.toLower with
  | "deg" => some .deg
  | "grad" => some .grad
  | "rad" => some .rad
  | "turn" => some .turn
  | _ => none

/-- How many degrees a radian has. -/
def degreesPerRadian : Float32 := 180.0 / 3.14159265

/-- An angle in degrees. -/
def inDegrees (x : Float32) : AngleUnit → Float32
  | .deg => x
  | .grad => x * 180.0 / 200.0
  | .rad => x * degreesPerRadian
  | .turn => x * 360.0

/-- How many radians a degree has. -/
def radiansPerDegree : Float32 := 3.14159265 / 180.0

/-- An angle in radians. -/
def inRadians (x : Float32) : AngleUnit → Float32
  | .rad => x
  | u => inDegrees x u * radiansPerDegree

/-- An angle as text; radians are written in degrees. -/
def angleText (x : Float32) : AngleUnit → String
  | .deg => Decimal.terse x ++ "deg"
  | .grad => Decimal.terse x ++ "grad"
  | .rad => Decimal.terse (inDegrees x .rad) ++ "deg"
  | .turn => Decimal.terse x ++ "turn"

/-- A time as text: seconds, or milliseconds below a tenth of a second. -/
def timeText (x : Float32) (isSeconds : Bool) : String :=
  if isSeconds then
    if 0.0 < x && x < 0.1 then withUnit (x * 1000.0) "ms" else withUnit x "s"
  else if x == 0.0 || 100.0 ≤ x then withUnit (x / 1000.0) "s"
  else withUnit x "ms"

/-- A share of a whole as text. -/
def percentText (portion : Float32) : String :=
  let s := writeSigned (portion * 100.0)
  (if portion != 0.0 && portion.abs < 0.01 then Decimal.dropZero s else s) ++ "%"

/-- A resolution as text. -/
def resolutionText? (x : Float32) (unit : String) : Option String :=
  match unit.toLower with
  | "dpi" => some (withUnit x "dpi")
  | "dpcm" => some (withUnit x "dpcm")
  | "dppx" | "x" => some (withUnit x "x")
  | _ => none

/-- A number with its unit, in the spelling that the kind of unit has. -/
def dimensionText (x : Float32) (unit : String) : String :=
  match lengthUnit? unit, angleUnit? unit, resolutionText? x unit, unit.toLower with
  | some u, _, _, _ => withUnit x u
  | _, some u, _, _ => angleText x u
  | _, _, some s, _ => s
  | _, _, _, "s" => timeText x true
  | _, _, _, "ms" => timeText x false
  | _, _, _, _ => withUnit x unit

/-- A number with a unit that can be calculated with. -/
inductive Quantity
  | length (x : Float32) (unit : String)
  | percentage (portion : Float32)
  | angle (x : Float32) (unit : AngleUnit)
  | time (x : Float32) (isSeconds : Bool)
  deriving BEq

namespace Quantity

/-- The quantity as text. -/
def text (inCalculation : Bool) : Quantity → String
  | length x u => if x == 0.0 && !inCalculation then "0" else withUnit x u
  | percentage p => percentText p
  | angle x u => angleText x u
  | time x s => timeText x s

def amount : Quantity → Float32
  | length x _ => x
  | percentage p => p
  | angle x _ => x
  | time x _ => x

def isZero (q : Quantity) : Bool := q.amount == 0.0

/-- The same kind of quantity with another amount. -/
def map (f : Float32 → Float32) : Quantity → Quantity
  | length x u => length (f x) u
  | percentage p => percentage (f p)
  | angle x u => angle (f x) u
  | time x s => time (f x) s

/-- The amounts of two quantities in one unit, and the quantity that an amount in it is. -/
def aligned? : Quantity → Quantity → Option (Float32 × Float32 × (Float32 → Quantity))
  | length x u, length y v =>
    if u == v then some (x, y, fun z => length z u)
    else do
      let p ← inPixels? x u
      let q ← inPixels? y v
      some (p, q, fun z => length z "px")
  | percentage p, percentage q => some (p, q, percentage)
  | angle x u, angle y v =>
    if u = v then some (x, y, fun z => angle z u)
    else some (inDegrees x u, inDegrees y v, fun z => angle z .deg)
  | time x s, time y t =>
    if s == t then some (x, y, fun z => time z s)
    else if s then some (x, y / 1000.0, fun z => time z true)
    else some (x, y * 1000.0, fun z => time z false)
  | _, _ => none

/-- Combines two quantities of one kind. -/
def combine? (f : Float32 → Float32 → Float32) (a b : Quantity) : Option Quantity :=
  (aligned? a b).map fun (x, y, make) => make (f x y)

/-- Compares two quantities of one kind. -/
def compare? (a b : Quantity) : Option Ordering :=
  (aligned? a b).bind fun (x, y, _) =>
    if x < y then some .lt else if x == y then some .eq else if y < x then some .gt else none

/-- The sign of a quantity: 1, -1 or 0. -/
def sign (q : Quantity) : Float32 :=
  if 0.0 < q.amount then 1.0 else if q.amount < 0.0 then -1.0 else q.amount

end Quantity

end StyleBump.Value
