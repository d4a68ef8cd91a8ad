import StyleBump.Value.Quantity

/-! # Calculations

A calculation is a tree of sums, products and functions over quantities and plain numbers. Adding
merges quantities of one kind wherever they stand in a sum; what cannot be merged stays as a sum, with
a negative part behind a positive one. -/

namespace StyleBump.Value
open Css

/-- A calculation. A `group` is one that `calc()` stands around; a `call` is any other function. -/
inductive Calc
  | value (q : Quantity)
  | number (x : Float32)
  | sum (a b : Calc)
  | product (x : Float32) (c : Calc)
  | group (c : Calc)
  | call (name : String) (strategy : Option String) (arguments : List Calc)
  deriving BEq

namespace Calc

mutual
/-- How many nodes a calculation has. -/
def size : Calc → Nat
  | sum a b => a.size + b.size + 1
  | product _ c => c.size + 1
  | group c => c.size + 1
  | call _ _ cs => sizeAll cs + 1
  | _ => 1

def sizeAll : List Calc → Nat
  | [] => 0
  | c :: cs => c.size + sizeAll cs
end

/-- A function of the name without a strategy. -/
def function (name : String) (arguments : List Calc) : Calc := call name none arguments

/-- The sign of a number. -/
def numberSign (x : Float32) : Float32 := if 0.0 < x then 1.0 else if x < 0.0 then -1.0 else x

/-- The sign that all of a list have. -/
def commonSign : List (Option Float32) → Option Float32
  | [] => none
  | s :: ss => if ss.all (· == s) then s else none

mutual
/-- The sign of a calculation, if it is known. -/
def sign? : Calc → Option Float32
  | value q => some q.sign
  | number x => some (numberSign x)
  | sum _ _ => none
  | product x c => (sign? c).map (· * numberSign x)
  | group c => sign? c
  | call name _ cs =>
    let signs := signs cs
    match name with
    | "abs" => some 1.0
    | "min" | "max" | "clamp" | "round" | "sign" => commonSign signs
    | _ => none

def signs : List Calc → List (Option Float32)
  | [] => []
  | c :: cs => sign? c :: signs cs
end

/-- Whether a calculation is known to have no minus sign; a zero may have one. -/
def isPositive (c : Calc) : Bool := c.sign?.any (!Decimal.isNegative ·)

/-- Whether a calculation is known to have a minus sign. -/
def isNegative (c : Calc) : Bool := c.sign?.any Decimal.isNegative

/-- Whether a calculation is a single quantity that is zero. -/
def isZero : Calc → Bool
  | value q => q.isZero
  | _ => false

/-- A calculation times a number. -/
def scale (k : Float32) : Calc → Calc
  | value q => if k == 1.0 then value q else value (q.map (· * k))
  | number x => if k == 1.0 then number x else number (x * k)
  | sum a b => if k == 1.0 then sum a b else sum (scale k a) (scale k b)
  | product x c => if k == 1.0 then product x c else if x * k == 1.0 then c else product (x * k) c
  | group c => if k == 1.0 then group c else group (scale k c)
  | call n s cs => if k == 1.0 then call n s cs else product k (call n s cs)

mutual
/-- The sum of two calculations of one kind of quantity; at most `fuel` steps. -/
def plus : Nat → Calc → Calc → Calc
  | 0, a, b => sum a b
  | fuel + 1, a, b =>
    match merge? fuel a b with
    | some c => c
    | none =>
      if a.isZero then b
      else if b.isZero then a
      else if a.isNegative && b.isPositive then sum b a
      else sum a b

/-- The sum of two calculations, if a part of the one can be merged into a part of the other. -/
def merge? : Nat → Calc → Calc → Option Calc
  | 0, _, _ => none
  | _ + 1, value p, value q => (p.combine? (· + ·) q).map value
  | fuel + 1, sum s t, b =>
    match merge? fuel s b with
    | some r => some (plus fuel r t)
    | none => (merge? fuel t b).map (plus fuel s ·)
  | fuel + 1, value p, sum s t =>
    match merge? fuel (value p) s with
    | some r => some (plus fuel r t)
    | none => (merge? fuel (value p) t).map (plus fuel s ·)
  | _ + 1, _, _ => none
end

/-- Whether a calculation is a function. -/
def isFunction : Calc → Bool
  | group _ => true
  | call _ _ _ => true
  | _ => false

/-- The sum of two calculations. Plain numbers merge with plain numbers only; products and functions
stay as they are. -/
def add (a b : Calc) : Calc :=
  match a, b with
  | number x, number y => number (x + y)
  | sum (number x) t, number y => sum (number (x + y)) t
  | sum s (number x), number y => sum s (number (x + y))
  | number x, sum (number y) t => sum (number (x + y)) t
  | number x, sum s (number y) => sum s (number (x + y))
  | number _, _ | _, number _ | product _ _, _ | _, product _ _ => sum a b
  | a, b => if a.isFunction || b.isFunction then sum a b else plus (4 * (a.size + b.size)) a b

mutual
/-- The text of a calculation, or of its opposite if `negated` says so. A part of a sum that is known
to be negative is taken away. -/
def textWithin (inCalculation negated : Bool) : Calc → String
  | value q => (if negated then q.map (· * -1.0) else q).text inCalculation
  | number x => Decimal.terse (if negated then x * -1.0 else x)
  | sum a b =>
    let minus := if negated then b.isPositive else b.isNegative
    textWithin true negated a ++ (if minus then " - " else " + ") ++ textWithin true (negated != minus) b
  | product x c =>
    let y := if negated then x * -1.0 else x
    if negated && y == 1.0 then textWithin true false c
    else if y.abs < 1.0 then textWithin true false c ++ " / " ++ Decimal.terse (1.0 / y)
    else Decimal.terse y ++ " * " ++ textWithin true false c
  | group c => "calc(" ++ textWithin true negated c ++ ")"
  | call n s cs =>
    (if negated then "-1 * " else "") ++ n ++ "(" ++ (s.map (· ++ ", ")).getD "" ++
      ", ".intercalate (texts cs) ++ ")"

def texts : List Calc → List String
  | [] => []
  | c :: cs => textWithin true false c :: texts cs
end

/-- The text of a calculation by itself. -/
def text (c : Calc) : String := textWithin false false c

/-- Applies a function to two single amounts of one kind. -/
def combine? (f : Float32 → Float32 → Float32) : Calc → Calc → Option Calc
  | value p, value q => (p.combine? f q).map value
  | number x, number y => some (number (f x y))
  | _, _ => none

/-- Applies a function to a single amount. What a percentage stands for is not known. -/
def mapSingle? (f : Float32 → Float32) : Calc → Option Calc
  | value (.percentage _) => none
  | value q => some (value (q.map f))
  | number x => some (number (f x))
  | _ => none

/-- How two single amounts compare. -/
def compare? : Calc → Calc → Option Ordering
  | value p, value q => p.compare? q
  | number x, number y => if x < y then some .lt else if x == y then some .eq else if y < x then some .gt else none
  | _, _ => none

/-- Keeps of the amounts that can be compared the one that comes `wanted` to the others. -/
def extremes (wanted : Ordering) (cs : List Calc) : List Calc :=
  cs.foldl (fun kept c =>
    match kept.findIdx? fun k => (compare? c k).isSome with
    | some i =>
      match kept[i]? with
      | some k => if compare? c k == some wanted then kept.set i c else kept
      | none => kept ++ [c]
    | none => kept ++ [c]) []

/-- The least or the greatest of amounts: one of them, or a function of those that are left. -/
def extreme (name : String) (wanted : Ordering) (cs : List Calc) : Calc :=
  match extremes wanted cs with
  | [c] => c
  | kept => function name kept

/-- An amount between bounds. A bound that is known to have no effect is left out; if the bounds
contradict, the lower one wins. -/
def clamp (low mid high : Calc) : Calc :=
  let single : Calc → Calc → Option Ordering
    | value p, value q => p.compare? q
    | _, _ => none
  let (mid, high) := match single mid high with
    | some .gt => (high, none)
    | some _ => (mid, none)
    | none => (mid, some high)
  let (mid, low) := match single mid low with
    | some .lt => (low, none)
    | some _ => (mid, none)
    | none => (mid, some low)
  match low, high with
  | none, none => mid
  | some l, none => function "max" [l, mid]
  | none, some h => function "min" [mid, h]
  | some l, some h => function "clamp" [l, mid, h]

end Calc

end StyleBump.Value
