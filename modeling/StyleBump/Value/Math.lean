import StyleBump.Css.Cursor
import StyleBump.Value.Calc

/-! # Reading calculations

`Math.read` reads a function of calculations and evaluates what it can. Around it stand the readers for
numbers, shares, lengths, angles and times, each of which may be given by a calculation. -/

namespace StyleBump.Value
open Css Css.Parse

/-- The kinds of quantities that a value may have. -/
structure Kinds where
  lengths : Bool
  percentages : Bool
  angles : Bool
  times : Bool

namespace Kinds

def numbers : Kinds := ⟨false, false, false, false⟩
def length : Kinds := ⟨true, false, false, false⟩
def percentage : Kinds := ⟨false, true, false, false⟩
def extent : Kinds := ⟨true, true, false, false⟩
def angle : Kinds := ⟨false, false, true, false⟩
def angleExtent : Kinds := ⟨false, true, true, false⟩
def time : Kinds := ⟨false, false, false, true⟩

end Kinds

/-- The quantity of a token. A plain number counts pixels. -/
def quantity? (k : Kinds) : Token → Option Quantity
  | .number n => if k.lengths then some (.length n.single "px") else none
  | .percentage n => if k.percentages then some (.percentage n.portion) else none
  | .dimension n u =>
    match lengthUnit? u, angleUnit? u with
    | some u, _ => if k.lengths then some (.length n.single u) else none
    | _, some u => if k.angles then some (.angle n.single u) else none
    | none, none =>
      if !k.times then none
      else if sameName u "s" then some (.time n.single true)
      else if sameName u "ms" then some (.time n.single false)
      else none
  | _ => none

/-- A quantity by itself. -/
def quantity (k : Kinds) : Parse Quantity := do
  let p ← here
  let c ← next
  match c with
  | .leaf l =>
    match quantity? k l.token with
    | some q => pure q
    | none => Parse.unexpected p c
  | c => Parse.unexpected p c

/-- A number by itself. -/
def plainNumber : Parse Float32 := do
  let p ← here
  match ← next with
  | .leaf ⟨.number n, _⟩ => pure n.single
  | c => Parse.unexpected p c

namespace Math

/-- Names that stand for numbers in any calculation. -/
def constant? (name : String) : Option Float32 :=
  match name.toLower with
  | "e" => some 2.71828182845904523536
  | "pi" => some 3.14159265358979323846
  | "infinity" => some (1.0 / 0.0)
  | "-infinity" => some (-1.0 / 0.0)
  | "nan" => some (0.0 / 0.0)
  | _ => none

/-- The integer part of a number. -/
def truncate (x : Float32) : Float32 := if x < 0.0 then x.ceil else x.floor

/-- What is left of a division; it has the sign of the dividend. No digit of it is rounded. -/
def remainder (x y : Float32) : Float32 :=
  match Decimal.parts x, Decimal.parts y with
  | .finite negative m q, .finite _ n r =>
    let e := min q r
    let left := (m * Nat.pow 2 (q - e).toNat) % (n * Nat.pow 2 (r - e).toNat)
    let z := ((Float.ofNat left).scaleB e).toFloat32
    if negative then -z else z
  | .zero _, .finite _ _ _ | .zero _, .infinite _ | .finite _ _ _, .infinite _ => x
  | _, _ => 0.0 / 0.0

/-- What is left of a division; it has the sign of the divisor. -/
def modulus (x y : Float32) : Float32 := remainder (remainder x y + y) y

/-- The length of the diagonal. -/
def diagonal (x y : Float32) : Float32 :=
  (x.toFloat * x.toFloat + y.toFloat * y.toFloat).sqrt.toFloat32

/-- Ways to round to a multiple. -/
def strategies : List String := ["nearest", "up", "down", "to-zero"]

/-- `x` rounded to a multiple of `y`. -/
def roundTo (strategy : String) (x y : Float32) : Float32 :=
  let r := x / y
  (match strategy with
    | "up" => r.ceil
    | "down" => r.floor
    | "to-zero" => truncate r
    | _ => r.round) * y

/-- The number that a calculation comes to. -/
def asNumber (c : Calc) : Parse Float32 :=
  match c with
  | .number x => pure x
  | _ => refuse .value

/-- The angle that a number of radians is, if angles are wanted. -/
def asAngle (k : Kinds) (x : Float32) : Parse Calc :=
  if k.angles then pure (.value (.angle x .rad)) else refuse .value

/-- An angle or a number in radians. -/
def asRadians (c : Calc) : Parse Float32 :=
  match c with
  | .value (.angle x u) => pure (inRadians x u)
  | .number x => pure x
  | _ => refuse .value

/-- The direction of a point. Its coordinates are of one kind. -/
def direction? : Calc → Calc → Option Float32
  | .value p, .value q => (p.aligned? q).map fun (x, y, _) => x.atan2 y
  | .number x, .number y => some (x.atan2 y)
  | _, _ => none

/-- The length of the diagonal, if it can be told. -/
def hypotenuse? : List Calc → Option Calc
  | [c] => some c
  | [a, b] => Calc.combine? diagonal a b
  | c :: cs => do
    let first ← c.mapSingle? fun x => x * x
    let total ← cs.foldlM (fun sum c => Calc.combine? (fun x y => x + y * y) sum c) first
    total.mapSingle? Float32.sqrt
  | [] => none

mutual
/-- A function of calculations. `names` gives the numbers that other names stand for. -/
def readCall : Nat → (String → Option Float32) → Kinds → Parse Calc
  | 0, _, _ => refuse .tooDeep
  | n + 1, names, k => do
    let p ← here
    match ← next with
    | .block b ⟨.function f, t⟩ body e =>
      let sum := readSum n names k
      let plain := do asNumber (← readSum n names .numbers)
      let one (make : Calc → Calc) (f : Float32 → Float32) : Parse Calc := do
        let c ← within body sum
        pure ((c.mapSingle? f).getD (make c))
      let two (name : String) (strategy : Option String) (f : Float32 → Float32 → Float32) : Parse Calc := do
        let a ← sum
        expectToken .comma
        let b ← sum
        pure ((Calc.combine? f a b).getD (.call name strategy [a, b]))
      let numeric (f : Float32 → Float32) : Parse Calc := do
        let x ← within body plain
        pure (.number (f x))
      let radians : Parse Float32 := do asRadians (← readSum n names .angle)
      let trigonometric (f : Float32 → Float32) : Parse Calc := do
        let x ← within body radians
        pure (.number (f x))
      let inverse (f : Float32 → Float32) : Parse Calc := do
        let x ← within body (do asNumber (← readSum n names .angle))
        let y := f x
        if y.isNaN then pure (.number y) else asAngle k y
      match f.toLower with
      | "calc" => do
        match ← within body sum with
        | .value q => pure (.value q)
        | .number x => pure (.number x)
        | c => pure (.group c)
      | "min" => do
        let cs ← within body (readList n names k)
        pure (Calc.extreme "min" .lt cs)
      | "max" => do
        let cs ← within body (readList n names k)
        pure (Calc.extreme "max" .gt cs)
      | "clamp" => within body do
        let low ← sum
        expectToken .comma
        let mid ← sum
        expectToken .comma
        let high ← sum
        pure (Calc.clamp low mid high)
      | "round" => within body do
        let strategy ← attempt do
          let w ← expectWord strategies
          expectToken .comma
          pure w
        let strategy := strategy.getD "nearest"
        two "round" (if strategy == "nearest" then none else some strategy) (roundTo strategy)
      | "rem" => within body (two "rem" none remainder)
      | "mod" => within body (two "mod" none modulus)
      | "sin" => trigonometric Float32.sin
      | "cos" => trigonometric Float32.cos
      | "tan" => trigonometric Float32.tan
      | "asin" => inverse Float32.asin
      | "acos" => inverse Float32.acos
      | "atan" => inverse Float32.atan
      | "atan2" => do
        let x ← within body (readDirection n names [.length, .percentage, .angle, .time, .numbers])
        asAngle k x
      | "pow" => within body do
        let x ← plain
        expectToken .comma
        let y ← plain
        pure (.number (x.pow y))
      | "log" => within body do
        let x ← plain
        match ← attempt (expectToken .comma) with
        | some _ => do
          let y ← plain
          pure (.number (x.log / y.log))
        | none => pure (.number x.log)
      | "sqrt" => numeric Float32.sqrt
      | "exp" => numeric Float32.exp
      | "hypot" => do
        let cs ← within body (readList n names k)
        pure ((hypotenuse? cs).getD (.function "hypot" cs))
      | "abs" => one (fun c => .function "abs" [c]) Float32.abs
      | "sign" => do
        let c ← within body sum
        match c with
        | .value (.percentage _) => pure (.function "sign" [c])
        | .value q => pure (.number q.sign)
        | .number x => pure (.number (Calc.numberSign x))
        | c => pure (.function "sign" [c])
      | _ => Parse.unexpected p (.block b ⟨.function f, t⟩ body e)
    | c => Parse.unexpected p c

/-- Sums between commas. -/
def readList : Nat → (String → Option Float32) → Kinds → Parse (List Calc)
  | 0, _, _ => refuse .tooDeep
  | n + 1, names, k => commaSeparated (readSum n names k)

/-- The direction of two sums of one of the kinds. -/
def readDirection : Nat → (String → Option Float32) → List Kinds → Parse Float32
  | _, _, [] => refuse .value
  | 0, _, _ => refuse .tooDeep
  | n + 1, names, k :: ks =>
    orElse (do
      let a ← readSum n names k
      expectToken .comma
      let b ← readSum n names k
      match direction? a b with
      | some x => pure x
      | none => refuse .value) (readDirection n names ks)

/-- A sum. White space stands on both sides of its signs. -/
def readSum : Nat → (String → Option Float32) → Kinds → Parse Calc
  | 0, _, _ => refuse .tooDeep
  | n + 1, names, k => do
    let first ← readProduct n names k
    readTerms n names k first

/-- The rest of a sum. -/
def readTerms : Nat → (String → Option Float32) → Kinds → Calc → Parse Calc
  | 0, _, _, _ => refuse .tooDeep
  | n + 1, names, k, total => do
    match ← attempt (lookahead nextOrSpace) with
    | some (.leaf ⟨.whitespace _, _⟩) =>
      if ← exhausted then pure total
      else
        let p ← here
        let c ← next
        if c.isLeaf (.delim '+') then
          let b ← readProduct n names k
          readTerms n names k (total.add b)
        else if c.isLeaf (.delim '-') then
          let b ← readProduct n names k
          readTerms n names k (total.add (b.scale (-1.0)))
        else Parse.unexpected p c
    | _ => pure total

/-- A product. -/
def readProduct : Nat → (String → Option Float32) → Kinds → Parse Calc
  | 0, _, _ => refuse .tooDeep
  | n + 1, names, k => do
    let first ← readFactor n names k
    readFactors n names k first

/-- The rest of a product; all but one of its factors are plain numbers. -/
def readFactors : Nat → (String → Option Float32) → Kinds → Calc → Parse Calc
  | 0, _, _, _ => refuse .tooDeep
  | n + 1, names, k, total => do
    match ← attempt (expectToken (.delim '*')) with
    | some _ => do
      let c ← readFactor n names k
      match total, c with
      | c, .number x => readFactors n names k (c.scale x)
      | .number x, c => readFactors n names k (c.scale x)
      | _, _ => refuse (.unexpected (.delim '*'))
    | none =>
      match ← attempt (expectToken (.delim '/')) with
      | some _ => do
        match ← readFactor n names k with
        | .number x =>
          if x == 0.0 then refuse .value else readFactors n names k (total.scale (1.0 / x))
        | _ => refuse .value
      | none => pure total

/-- A factor: a function, a sum in parentheses, a number, a name or a quantity. -/
def readFactor : Nat → (String → Option Float32) → Kinds → Parse Calc
  | 0, _, _ => refuse .tooDeep
  | n + 1, names, k => do
    match ← attempt (readCall n names k) with
    | some (.group c) => pure c
    | some c => pure c
    | none =>
      match ← attempt expectParens with
      | some body => within body (readSum n names k)
      | none =>
        match ← attempt plainNumber with
        | some x => pure (.number x)
        | none => do
          let p ← here
          match ← attempt expectIdent with
          | some name =>
            match (constant? name).orElse fun _ => names name with
            | some x => pure (.number x)
            | none => refuseAt p (.unexpected (.ident name))
          | none => .value <$> quantity k
end

/-- A function of calculations; no more steps are taken than the component values allow. -/
def read (names : String → Option Float32) (k : Kinds) : Parse Calc := fun s =>
  match s.skipGaps.rest with
  | .block b ⟨.function f, t⟩ body e :: _ =>
    readCall (8 * (Component.size (.block b ⟨.function f, t⟩ body e) + 2)) names k s
  | _ => .error ⟨.endOfInput, s.position⟩

/-- A function of calculations without names of its own. -/
def call (k : Kinds) : Parse Calc := read (fun _ => none) k

end Math

/-- A calculation, or a quantity by itself. -/
def calculation (k : Kinds) : Parse Calc := orElse (Math.call k) (.value <$> quantity k)

/-- A length. -/
def length : Parse Calc := calculation .length

/-- A length or a share of one. -/
def extent : Parse Calc := calculation .extent

/-- A number, given as one or by a calculation. -/
def number : Parse Float32 := do
  match ← attempt (Math.call .numbers) with
  | some c => Math.asNumber c
  | none => plainNumber

/-- A share of a whole. -/
def portion : Parse Float32 := do
  match ← calculation .percentage with
  | .value (.percentage p) => pure p
  | _ => refuse .value

/-- An angle. -/
def angle : Parse Quantity := do
  match ← calculation .angle with
  | .value q => pure q
  | _ => refuse .value

/-- An angle; a plain zero is one as well. -/
def angleOrZero : Parse Quantity :=
  orElse angle do
    let x ← plainNumber
    if x == 0.0 then pure (.angle 0.0 .deg) else refuse .value

/-- A time. -/
def time : Parse Quantity := do
  match ← calculation .time with
  | .value q => pure q
  | _ => refuse .value

/-- An integer. -/
def integer : Parse Int := do
  let p ← here
  match ← next with
  | .leaf ⟨.number n, t⟩ =>
    match n.integer? with
    | some i => pure i
    | none => Parse.unexpected p (.leaf ⟨.number n, t⟩)
  | c => Parse.unexpected p c

end StyleBump.Value
