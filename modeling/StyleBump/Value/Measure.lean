import StyleBump.Value.Math
import StyleBump.Value.Shorthand

/-! # Measures

A measure is an amount or a word in place of one. Two measures are the same if they have the same unit as
well, so no length is the same in two units, though it is written without one. -/

namespace StyleBump.Value
open Css Css.Parse

/-- An amount, or a word in place of one. -/
inductive Measure
  | word (w : String)
  | amount (c : Calc)
  deriving BEq

namespace Measure

def text : Measure → String
  | word w => w
  | amount c => c.text

/-- A measure that is one of the words or what `p` reads. -/
def read (ws : List String) (p : Parse Calc) : Parse Measure :=
  orElse (word <$> expectWord ws) (amount <$> p)

/-- A plain number. -/
def number (x : Float32) : Measure := amount (.number x)

/-- Whether a measure is a single quantity that is zero. -/
def isZero : Measure → Bool
  | word _ => false
  | amount c => c.isZero

end Measure

/-- A plain number as a calculation. -/
def numberCalc : Parse Calc := .number <$> number

/-- A share as a calculation. -/
def portionCalc : Parse Calc := (fun p => .value (.percentage p)) <$> portion

/-- A number or a share. -/
def factor : Parse Calc := orElse numberCalc portionCalc

/-- The number that a factor stands for. -/
def factorValue : Calc → Float32
  | .number x => x
  | .value q => q.amount
  | _ => 1.0

/-- A number or a length. -/
def numberOrLength : Parse Calc := orElse numberCalc length

/-- An extent, or whatever fits. -/
def autoExtent : Parse Measure := Measure.read ["auto"] extent

/-- The text of an extent. -/
def extentText : Parse String := Calc.text <$> extent

/-- The text of a length. -/
def lengthText : Parse String := Calc.text <$> length

/-- The text of a number. -/
def numberText : Parse String := Decimal.terse <$> number

/-- The text of an integer. -/
def integerText : Parse String := toString <$> integer

/-- A word of a set, or another value. -/
def wordOr (ws : List String) (p : Parse String) : Parse String := orElse (expectWord ws) p

/-- Two measures, the second one left out if it is the same. -/
def measurePair (p : Parse Measure) : Parse String := pairText Measure.text <$> pair p

/-- The measures of the four sides of a box. -/
def measureSides (p : Parse Measure) : Parse String := Sides.text Measure.text <$> Sides.read p

end StyleBump.Value
