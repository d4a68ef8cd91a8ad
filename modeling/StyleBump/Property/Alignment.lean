import StyleBump.Property.Word
import StyleBump.Value.Measure

/-! # Alignment and flexible boxes

How boxes share the room that is left, and where they stand in it. An alignment is held as its text; of a pair,
the second part is left out if it says the same as the first. -/

namespace StyleBump.Property
open Css Css.Parse Value

/-! ## Alignment -/

/-- The line of text that boxes are aligned by: the first one or the last. -/
def baseline : Parse String := do
  match ← expectWord ["baseline", "first", "last"] with
  | "baseline" => pure "baseline"
  | w => do
    expectKeyword "baseline"
    pure (if w == "last" then "last baseline" else "baseline")

/-- Ways to share room out between boxes. -/
def distributions : List String := ["space-between", "space-around", "space-evenly", "stretch"]

/-- Places for a group of boxes. -/
def contentPlaces : List String := ["center", "start", "end", "flex-start", "flex-end"]

/-- Places for a box by itself. -/
def ownPlaces : List String := contentPlaces ++ ["self-start", "self-end"]

/-- A place, with what goes first if a box does not fit there. -/
def placed (places : List String) : Parse String := do
  let safety ← attempt (expectWord ["safe", "unsafe"])
  let place ← expectWord places
  pure (spaced [safety.getD "", place])

/-- The sides, for alignment along a line. -/
def lineSides : List String := ["left", "right"]

def alignContent : Parse String :=
  firstOf [expectKeyword "normal" *> pure "normal", baseline, expectWord distributions, placed contentPlaces]

def justifyContent : Parse String :=
  firstOf [expectKeyword "normal" *> pure "normal", expectWord distributions,
    placed (contentPlaces ++ lineSides)]

def alignSelf : Parse String :=
  firstOf [expectWord ["auto", "normal", "stretch"], baseline, placed ownPlaces]

def justifySelf : Parse String :=
  firstOf [expectWord ["auto", "normal", "stretch"], baseline, placed (ownPlaces ++ lineSides)]

def alignItems : Parse String :=
  firstOf [expectWord ["normal", "stretch"], baseline, placed ownPlaces]

/-- A side that items without one of their own take over. -/
def inheritedSide : Parse String := do
  let sides := ["left", "right", "center"]
  let side ← orElse (do expectKeyword "legacy"; expectWord sides) do
    let s ← expectWord sides
    expectKeyword "legacy"
    pure s
  pure ("legacy " ++ side)

def justifyItems : Parse String :=
  firstOf [expectWord ["normal", "stretch"], baseline, inheritedSide, placed (ownPlaces ++ lineSides)]

/-- Alignment across and along; `copied` is the second part if it is left out, and `same` says
whether the second part may be. -/
def places (first second : Parse String) (copied : String → String) (same : String → String → Bool) :
    Parse String := do
  let a ← first
  let b ← attempt second
  let b := b.getD (copied a)
  pure (if same a b then a else a ++ " " ++ b)

/-- Whether an alignment is by a line of text. -/
def isBaseline (s : String) : Bool := s == "baseline" || s == "last baseline"

def placeContent : Parse String :=
  places alignContent justifyContent (fun a => if isBaseline a then "start" else a) (· == ·)

/-- Whether the alignment along a line need not be written behind the one across. -/
def isImplied (a b : String) : Bool := b == "auto" || (if b == "stretch" then a == "normal" else a == b)

def placeSelf : Parse String := places alignSelf justifySelf id isImplied

def placeItems : Parse String := places alignItems justifyItems id isImplied

/-! ## Flexible boxes -/

/-- The direction of a flexible box and whether it takes several lines. -/
def flexFlow : Parse String := do
  let (direction, wrap) ← anyOrder [
    (do let w ← expectWord flexDirections; pure fun f => (w, f.2)),
    (do let w ← expectWord flexWraps; pure fun f => (f.1, w))] (("row", "nowrap") : String × String)
  pure (spaced [if wrap == "nowrap" then direction else unlessIs "row" direction, unlessIs "nowrap" wrap])

/-- How a box grows and shrinks from its size. -/
structure Flex where
  grow : Float32
  shrink : Float32
  basis : Measure

namespace Flex

/-- No share of the size. -/
def noShare : Measure := .amount (.value (.percentage 0.0))

def read : Parse Flex :=
  orElse (do expectKeyword "none"; pure ⟨0.0, 0.0, .word "auto"⟩)
    (anyOrder [
      (do
        let grow ← number
        let shrink ← attempt number
        pure fun f => { f with grow := grow, shrink := shrink.getD 1.0 }),
      (do let b ← autoExtent; pure fun f => { f with basis := b })] ⟨1.0, 1.0, noShare⟩)

/-- Whether the size is no share. -/
def isShareless (f : Flex) : Bool :=
  match f.basis with
  | .amount (.value (.percentage p)) => p == 0.0
  | _ => false

/-- The shortest form. A size of no length cannot stand without the numbers; no share is meant
anyway. -/
def text (f : Flex) : String :=
  let isLength := f.basis.isZero && !f.isShareless
  let numbers := f.grow != 1.0 || f.shrink != 1.0 || f.isShareless || isLength
  if f.grow == 0.0 && f.shrink == 0.0 && f.basis == .word "auto" then "none"
  else spaced [
    if numbers then Decimal.terse f.grow else "",
    if f.shrink != 1.0 || isLength then Decimal.terse f.shrink else "",
    if f.isShareless then "" else f.basis.text]

end Flex

/-- The value of a property of alignment or of flexible boxes. -/
def alignment? (stem : String) : Option (Parse String) :=
  match stem with
  | "align-content" => some alignContent
  | "justify-content" => some justifyContent
  | "place-content" => some placeContent
  | "align-self" => some alignSelf
  | "justify-self" => some justifySelf
  | "place-self" => some placeSelf
  | "align-items" => some alignItems
  | "justify-items" => some justifyItems
  | "place-items" => some placeItems
  | "flex-flow" => some flexFlow
  | "flex" => some (Flex.text <$> Flex.read)
  | "flex-grow" | "flex-shrink" | "box-flex" | "flex-positive" | "flex-negative" => some numberText
  | "flex-basis" | "flex-preferred-size" => some (Measure.text <$> autoExtent)
  | "order" | "box-ordinal-group" | "box-flex-group" | "flex-order" => some integerText
  | _ => none

end StyleBump.Property
