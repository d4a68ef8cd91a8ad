import StyleBump.Color.Names
import StyleBump.Css.Component

/-! # Colors of four bytes

A color of red, green, blue and alpha bytes is written in the shortest way: by a name that is shorter
than the code, or by a code in which doubled digits stand once. -/

namespace StyleBump

structure Rgba where
  red : UInt8
  green : UInt8
  blue : UInt8
  alpha : UInt8
  deriving DecidableEq, Repr

namespace Rgba

/-- A color without transparency. -/
def ofBits (n : Nat) : Rgba := ⟨.ofNat (n / 0x10000), .ofNat (n / 0x100), .ofNat n, 255⟩

def bits (c : Rgba) : Nat := c.red.toNat * 0x10000 + c.green.toNat * 0x100 + c.blue.toNat

/-- The two hexadecimal digits of a byte. -/
def hexPair (b : UInt8) : List Char := [Nat.digitChar (b.toNat / 16), Nat.digitChar (b.toNat % 16)]

/-- Whether both digits of a byte are the same. -/
def isDouble (b : UInt8) : Bool := b.toNat / 16 == b.toNat % 16

/-- The code of a run of bytes. -/
def code (bs : List UInt8) : String :=
  let digits := if bs.all isDouble then bs.flatMap fun b => (hexPair b).take 1 else bs.flatMap hexPair
  String.ofList ('#' :: digits)

/-- A color as text. -/
def text (c : Rgba) : String :=
  if c.alpha = 255 then (Color.shortName? c.bits).getD (code [c.red, c.green, c.blue])
  else code [c.red, c.green, c.blue, c.alpha]

/-- The color that a hash stands for: one or two digits for each byte. -/
def ofHash? (name : String) : Option Rgba :=
  match name.toList.mapM Css.hexDigit? with
  | some [r, g, b] => some ⟨.ofNat (17 * r), .ofNat (17 * g), .ofNat (17 * b), 255⟩
  | some [r, g, b, a] => some ⟨.ofNat (17 * r), .ofNat (17 * g), .ofNat (17 * b), .ofNat (17 * a)⟩
  | some [r, r', g, g', b, b'] => some ⟨.ofNat (16 * r + r'), .ofNat (16 * g + g'), .ofNat (16 * b + b'), 255⟩
  | some [r, r', g, g', b, b', a, a'] =>
    some ⟨.ofNat (16 * r + r'), .ofNat (16 * g + g'), .ofNat (16 * b + b'), .ofNat (16 * a + a')⟩
  | _ => none

/-- Black that lets everything through. -/
def transparent : Rgba := ⟨0, 0, 0, 0⟩

/-- A byte from a number, rounded. -/
def byte (x : Float32) : UInt8 :=
  let r := x.round
  if r.isNaN || r < 0.0 then 0 else if 255.0 < r then 255 else r.toUInt8

/-- A color from parts of one, where a missing part counts as zero. -/
def ofParts (red green blue alpha : Float32) : Rgba :=
  ⟨byte (red * 255.0), byte (green * 255.0), byte (blue * 255.0), byte (alpha * 255.0)⟩

end Rgba

end StyleBump
