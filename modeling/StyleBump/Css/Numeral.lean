import StyleBump.Css.Token
import StyleBump.Decimal.Single

/-! # The values of numbers

A number is summed up digit by digit in double precision and then kept in single precision. -/

namespace StyleBump.Css

/-- The integer that a run of digits writes. -/
def digitsValue (ds : List Char) : Nat := ds.foldl (fun v d => 10 * v + (d.toNat - 48)) 0

def Sign.factor : Sign → Float
  | .minus => -1.0
  | _ => 1.0

namespace Numeral

/-- Whether the number has a sign in front. -/
def signed (n : Numeral) : Bool := n.sign != .none

/-- Whether the number is written without point and exponent. -/
def isInteger (n : Numeral) : Bool := n.fraction.isEmpty && n.exponent.isNone

/-- The integer that the number writes, within 32 bits. -/
def integer? (n : Numeral) : Option Int :=
  if n.isInteger then
    let v : Int := digitsValue n.whole
    let v := if n.sign = .minus then -v else v
    some (max (-2147483648) (min 2147483647 v))
  else none

/-- The value in double precision. -/
def value (n : Numeral) : Float :=
  let digit (d : Char) : Float := (d.toNat - 48).toFloat
  let whole := n.whole.foldl (fun v d => v * 10.0 + digit d) 0.0
  let fraction := n.fraction.foldl (fun (v, f) d => (v + digit d * f, f * 0.1)) ((0.0, 0.1) : Float × Float)
  let v := n.sign.factor * (whole + fraction.1)
  match n.exponent with
  | none => v
  | some (s, ds) =>
    v * Float.pow 10.0 (s.factor * ds.foldl (fun v d => v * 10.0 + digit d) 0.0)

/-- The value in single precision. -/
def single (n : Numeral) : Float32 := n.value.toFloat32

/-- A percentage as a fraction of one. -/
def portion (n : Numeral) : Float32 := (n.value / 100.0).toFloat32

end Numeral

end StyleBump.Css
