/-! # Single-precision numbers as decimals

A positive single-precision number is `m · 2 ^ q` for integers `m` and `q`. `shortest` finds the
fewest digits that read back as it: of the decimals on the grid of that many digits, the nearest one
that rounds to the number. `rounded` gives a fixed count of digits. All arithmetic is exact. -/

namespace StyleBump.Decimal

/-- The digits `coefficient`, the last of them counting `10 ^ exponent`. -/
structure Digits where
  coefficient : Nat
  exponent : Int
  deriving DecidableEq, Repr

/-- `n / d` rounded to the nearest integer, a half to the even one. -/
def roundDiv (n d : Nat) : Nat :=
  let q := n / d
  let r := n % d
  if 2 * r < d then q else if 2 * r > d then q + 1 else if q % 2 = 0 then q else q + 1

/-- `10 ^ e` as a fraction. -/
def pow10 (e : Int) : Nat × Nat := if e < 0 then (1, Nat.pow 10 (-e).toNat) else (Nat.pow 10 e.toNat, 1)

/-- `2 ^ e` as a fraction. -/
def pow2 (e : Int) : Nat × Nat := if e < 0 then (1, Nat.pow 2 (-e).toNat) else (Nat.pow 2 e.toNat, 1)

/-- The exponent of the first digit of `m · 2 ^ q`, for a positive `m`. -/
def leading (m : Nat) (q : Int) : Int :=
  let (n, d) := pow2 q
  let up := m * n
  let guess : Int := (Nat.toDigits 10 up).length - (Nat.toDigits 10 d).length
  let (tn, td) := pow10 guess
  if up * td < tn * d then guess - 1 else guess

/-- `m · 2 ^ q` rounded to `k` digits. -/
def rounded (k : Nat) (m : Nat) (q : Int) : Digits :=
  let e := leading m q - (k - 1 : Nat)
  let (n, d) := pow2 q
  let (tn, td) := pow10 e
  ⟨roundDiv (m * n * td) (d * tn), e⟩

/-- Whether a decimal rounds to `m · 2 ^ q` among the numbers of 24 binary digits; halfway points
round to the even one. At a power of two the number below is nearer. -/
def readsBack (m : Nat) (q : Int) (x : Digits) : Bool :=
  let (n, d) := pow2 (q - 2)
  let (tn, td) := pow10 x.exponent
  let v := x.coefficient * tn * d
  let scale := n * td
  let low := if m = 0x800000 then 4 * m - 1 else 4 * m - 2
  let high := 4 * m + 2
  if m % 2 = 0 then low * scale ≤ v && v ≤ high * scale else low * scale < v && v < high * scale

/-- The fewest digits that read back as `m · 2 ^ q`; nine always do. -/
def shortest (m : Nat) (q : Int) : Digits :=
  let tries := (List.range 9).map fun k => rounded (k + 1) m q
  (tries.find? (readsBack m q)).getD (rounded 9 m q)

/-- Drops final zeros; at most `n` of them. -/
def trimZeros : Nat → Digits → Digits
  | n + 1, x => if x.coefficient % 10 = 0 ∧ x.coefficient ≠ 0 then trimZeros n ⟨x.coefficient / 10, x.exponent + 1⟩ else x
  | 0, x => x

/-- What a single-precision number is. -/
inductive Parts
  | nan
  | infinite (negative : Bool)
  | zero (negative : Bool)
  | finite (negative : Bool) (m : Nat) (q : Int)

def parts (x : Float32) : Parts :=
  let b := x.toBits.toNat
  let negative := b / 0x80000000 = 1
  let e : Nat := b / 0x800000 % 0x100
  let f : Nat := b % 0x800000
  if e = 255 then if f = 0 then .infinite negative else .nan
  else if e = 0 then if f = 0 then .zero negative else .finite negative f (-149)
  else .finite negative (0x800000 + f) ((e : Int) - 150)

/-- Digits in positional notation, without a point if none is needed. -/
def positional (x : Digits) : String :=
  let ds := Nat.toDigits 10 x.coefficient
  if 0 ≤ x.exponent then String.ofList (ds ++ List.replicate x.exponent.toNat '0')
  else
    let places := (-x.exponent).toNat
    let padded := List.replicate (places + 1 - ds.length) '0' ++ ds
    let cut := padded.length - places
    String.ofList (padded.take cut ++ '.' :: padded.drop cut)

/-- Digits in scientific notation: one digit before the point, and `e` with the exponent. -/
def scientific (x : Digits) : String :=
  let ds := Nat.toDigits 10 x.coefficient
  let e := x.exponent + (ds.length - 1 : Nat)
  match ds with
  | d :: [] => String.singleton d ++ "e" ++ toString e
  | d :: rest => String.singleton d ++ "." ++ String.ofList rest ++ "e" ++ toString e
  | [] => "0"

/-- How a number is reported: the fewest digits, at least one behind the point, and scientific
notation from `10 ^ 16` on and below `10 ^ -4`. -/
def report (x : Float32) : String :=
  let signed (negative : Bool) (s : String) := if negative then "-" ++ s else s
  match parts x with
  | .nan => "NaN"
  | .infinite n => signed n "inf"
  | .zero n => signed n "0.0"
  | .finite n m q =>
    let d := trimZeros 9 (shortest m q)
    if x.abs < 1e-4 || 1e16 ≤ x.abs then signed n (scientific d)
    else if d.exponent < 0 then signed n (positional d)
    else signed n (positional d ++ ".0")

/-- At most six digits, the sixth rounded up from a half. -/
def sixDigits (x : Digits) : Digits :=
  let surplus := (Nat.toDigits 10 x.coefficient).length - 6
  if surplus = 0 then x
  else trimZeros 9 ⟨(x.coefficient + 5 * Nat.pow 10 (surplus - 1)) / Nat.pow 10 surplus, x.exponent + surplus⟩

/-- How a style sheet writes a number: at most six digits; positional between 10 ^ -6 and 10 ^ 21. It
has no word for infinity: the next power of two stands for it. -/
def brief (x : Float32) : String :=
  let signed (negative : Bool) (s : String) := if negative then "-" ++ s else s
  match parts x with
  | .nan => "5.10424e38"
  | .infinite n => signed n "3.40282e38"
  | .zero _ => "0"
  | .finite n m q =>
    let d := trimZeros 9 (shortest m q)
    let point : Int := d.exponent + (Nat.toDigits 10 d.coefficient).length
    let d := sixDigits d
    signed n (if point ≤ -6 ∨ 21 < point then scientific d else positional d)

/-- Whether a number has a minus sign, zero included. -/
def isNegative (x : Float32) : Bool := x.toBits >>> 31 = 1

/-- Whether a number is whole. -/
def isWhole (x : Float32) : Bool := x.floor == x

/-- Drops the zero before the point. -/
def dropZero (s : String) : String :=
  match s.toList with
  | '0' :: '.' :: ds => String.ofList ('.' :: ds)
  | '-' :: '0' :: '.' :: ds => String.ofList ('-' :: '.' :: ds)
  | cs => String.ofList cs

/-- A number without the zero before its point. -/
def terse (x : Float32) : String := dropZero (brief x)

end StyleBump.Decimal
