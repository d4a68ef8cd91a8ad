import StyleBump.Property.Word
import StyleBump.Value.Measure

/-! # Fonts

The families of a font, its weight, width, slope and size. The parts that are `normal` are not written
in the value of all together. -/

namespace StyleBump.Property
open Css Css.Parse Value

/-! ## Families -/

/-- Families of fonts that every system has, and words that stand for a value as a whole. -/
def genericFamilies : List String :=
  ["serif", "sans-serif", "cursive", "fantasy", "monospace", "system-ui", "emoji", "math",
   "fangsong", "ui-serif", "ui-sans-serif", "ui-monospace", "ui-rounded", "initial", "inherit",
   "unset", "default", "revert", "revert-layer"]

/-- The words of a text between single spaces. -/
def splitSpaces : List Char → List (List Char)
  | [] => [[]]
  | c :: cs =>
    match splitSpaces cs with
    | w :: ws => if c = ' ' then [] :: w :: ws else (c :: w) :: ws
    | [] => [[c]]

/-- The name of a family of fonts: plain words unless quotation marks are shorter or needed. -/
def familyText (name : String) : String :=
  let plain := " ".intercalate ((splitSpaces name.toList).map fun w => writeIdent (String.ofList w))
  if name.isEmpty || genericFamilies.contains name.toLower || name.utf8ByteSize + 2 ≤ plain.utf8ByteSize then
    writeString name
  else plain

/-- The name of a family in words or as a string. -/
def plainFamily : Parse String :=
  orElse (familyText <$> expectString) do
    let n ← expectIdent
    let ns ← many expectIdent
    pure (familyText (" ".intercalate (n :: ns)))

/-- The name of a family, or a generic one, which stays plain. -/
def family : Parse String := orElse (expectWord genericFamilies) plainFamily

/-- Families between commas. -/
def families : Parse String := commaList family

/-! ## Weight, width, slope and size -/

/-- A weight that does not depend on the weight around it. -/
def absoluteWeight : Parse String := wordOr ["normal", "bold"] numberText

def fontWeight : Parse String := wordOr ["bolder", "lighter"] absoluteWeight

/-- Words for how wide a font is. -/
def stretches : List String :=
  ["normal", "ultra-condensed", "extra-condensed", "condensed", "semi-condensed", "semi-expanded",
   "expanded", "extra-expanded", "ultra-expanded"]

/-- A share of a whole as text. -/
def portionText : Parse String := percentText <$> portion

def fontStretch : Parse String := wordOr stretches portionText

/-- Words for the size of a font. -/
def fontSizes : List String :=
  ["xx-small", "x-small", "small", "medium", "large", "x-large", "xx-large", "xxx-large", "smaller",
   "larger"]

def fontSize : Parse String := wordOr fontSizes extentText

/-- An angle as text. -/
def angleQuantityText (q : Quantity) : String := q.text false

/-- An angle in degrees. -/
def degrees : Quantity → Float32
  | .angle x u => inDegrees x u
  | q => q.amount

/-- How far an oblique font leans if nothing is said. -/
def usualSlope : Float32 := 14.0

/-- The slope of a font; the usual angle is not written. -/
def fontStyle : Parse String := do
  match ← expectWord ["normal", "italic", "oblique"] with
  | "oblique" => do
    match ← attempt angle with
    | some q => pure (if degrees q == usualSlope then "oblique" else "oblique " ++ angleQuantityText q)
    | none => pure "oblique"
  | w => pure w

/-- The height of a line. -/
def lineHeight : Parse String := firstOf [expectWord ["normal"], numberText, extentText]

/-! ## All together -/

/-- What may stand in front of the size of a font; `count` says how many parts did. -/
structure FontFront where
  style : Option String
  caps : Option String
  weight : Option String
  stretch : Option String
  count : Nat

namespace FontFront

/-- One part that is not there yet, or `normal`, which says nothing. -/
def step (f : FontFront) : Parse FontFront :=
  let slot (free : Bool) (p : Parse String) (set : String → FontFront) : List (Parse FontFront) :=
    if free then [do let s ← p; pure { set s with count := f.count + 1 }] else []
  firstOf (
    [expectKeyword "normal" *> pure { f with count := f.count + 1 }] ++
    slot f.style.isNone fontStyle (fun s => { f with style := some s }) ++
    slot f.weight.isNone fontWeight (fun s => { f with weight := some s }) ++
    slot f.caps.isNone (expectWord ["small-caps"]) (fun s => { f with caps := some s }) ++
    slot f.stretch.isNone (expectWord stretches) (fun s => { f with stretch := some s }))

/-- All parts in front of the size; at most `fuel` of them. -/
def readAux : Nat → FontFront → Parse FontFront
  | 0, f => pure f
  | fuel + 1, f => do
    match ← attempt f.step with
    | some f => readAux fuel f
    | none => pure f

def read : Parse FontFront := fun s => readAux (s.rest.length + 1) ⟨none, none, none, none, 0⟩ s

def text (f : FontFront) : String := spaced ([f.style, f.caps, f.weight, f.stretch].map (·.getD ""))

end FontFront

/-- A font: at most four parts, then its size, the height of its lines and its families. -/
def font : Parse String := do
  let front ← FontFront.read
  let size ← fontSize
  if 4 < front.count then refuse .declaration
  else
    let height ← match ← attempt (expectToken (.delim '/')) with
      | some _ => lineHeight
      | none => pure "normal"
    let names ← families
    pure (spaced [front.text, size ++ (if height == "normal" then "" else " / " ++ height), names])

/-- Places of a box against the line of text that it stands in. -/
def verticalPlaces : List String :=
  ["baseline", "sub", "super", "top", "text-top", "middle", "bottom", "text-bottom"]

/-- The value of a property of fonts. -/
def font? (stem : String) : Option (Parse String) :=
  match stem with
  | "font" => some font
  | "font-weight" => some fontWeight
  | "font-size" => some fontSize
  | "font-stretch" => some fontStretch
  | "font-family" => some families
  | "font-style" => some fontStyle
  | "line-height" => some lineHeight
  | "vertical-align" => some (wordOr verticalPlaces extentText)
  | _ => none

end StyleBump.Property
