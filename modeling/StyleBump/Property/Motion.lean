import StyleBump.Property.Grid
import StyleBump.Property.Names
import StyleBump.Property.Word
import StyleBump.Value.Measure

/-! # Motion

Transitions and animations: what moves, for how long, after which delay and at which pace. -/

namespace StyleBump.Property
open Css Css.Parse Value

/-! ## Pace -/

/-- Paces by name. -/
def paces : List String := ["linear", "ease", "ease-in", "ease-out", "ease-in-out"]

/-- Where a pace in steps jumps. -/
def stepPlaces : List String := ["start", "end", "jump-start", "jump-end", "jump-none", "jump-both"]

/-- The curve through two points; a curve that has a name is written by it. -/
def curveText (x₁ y₁ x₂ y₂ : Float32) : String :=
  let isCurve (a b c d : Float32) : Bool := x₁ == a && y₁ == b && x₂ == c && y₂ == d
  if isCurve 0.25 0.1 0.25 1.0 then "ease"
  else if isCurve 0.42 0.0 1.0 1.0 then "ease-in"
  else if isCurve 0.0 0.0 0.58 1.0 then "ease-out"
  else if isCurve 0.42 0.0 0.58 1.0 then "ease-in-out"
  else "cubic-bezier(" ++ listed ([x₁, y₁, x₂, y₂].map Decimal.terse) ++ ")"

/-- A pace in steps. -/
def stepsText (count : Int) (place : String) : String :=
  let place := if place == "jump-start" then "start" else if place == "jump-end" then "end" else place
  if count = 1 && (place == "start" || place == "end") then "step-" ++ place
  else "steps(" ++ toString count ++ ", " ++ place ++ ")"

/-- How a change goes on in time. -/
def pace : Parse String :=
  orElse (expectWord (paces ++ ["step-start", "step-end"])) do
    let p ← here
    let c ← next
    match c with
    | .block _ ⟨.function f, _⟩ body _ =>
      if sameName f "cubic-bezier" then
        within body do
          let x₁ ← number
          expectToken .comma
          let y₁ ← number
          expectToken .comma
          let x₂ ← number
          expectToken .comma
          let y₂ ← number
          pure (curveText x₁ y₁ x₂ y₂)
      else if sameName f "steps" then
        within body do
          let count ← integer
          let place ← attempt do
            expectToken .comma
            expectWord stepPlaces
          pure (stepsText count (place.getD "end"))
      else Parse.unexpected p c
    | c => Parse.unexpected p c

/-- A time as text. -/
def quantityText (q : Quantity) : String := q.text false

/-- No time at all. -/
def noTime : Quantity := .time 0.0 true

/-! ## Transitions -/

/-- The name of a property that changes. -/
def changing : Parse String := do
  let n ← expectIdent
  pure (writeName (Property.spelling n).toList)

/-- The change of a property. -/
structure Transition where
  property : String
  duration : Quantity
  pace : String
  delay : Quantity

/-- A change; of its times and its pace, only what differs from the usual is written. -/
def transition : Parse String := do
  let t ← anyOrder [
    (do let q ← time; pure fun t => { t with duration := q }),
    (do let s ← pace; pure fun t => { t with pace := s }),
    (do let q ← time; pure fun t => { t with delay := q }),
    (do let s ← changing; pure fun t => { t with property := s })] (⟨"all", noTime, "ease", noTime⟩ : Transition)
  pure (spaced [t.property,
    if t.duration.isZero && t.delay.isZero then "" else quantityText t.duration,
    unlessIs "ease" t.pace, if t.delay.isZero then "" else quantityText t.delay])

/-! ## Animations -/

/-- Words that are no name of an animation unless they are quoted. -/
def reservedNames : List String :=
  ["none", "initial", "inherit", "unset", "default", "revert", "revert-layer"]

/-- The name of an animation as text. -/
def animationNameText (name : String) : String :=
  if reservedNames.contains name.toLower then writeString name else writeIdent name

/-- The name of an animation, or none. -/
def animationName : Parse (Option String) :=
  firstOf [expectKeyword "none" *> pure none, some <$> expectString, some <$> customName]

/-- How often an animation runs. -/
def iterations : Parse String := orElse numberText (expectWord ["infinite"])

/-- The directions of a scroller. -/
def scrollAxes : List String := ["block", "inline", "x", "y"]

/-- The progress of scrolling, of some scroller and along some axis. -/
def scrollTimeline : Parse String := do
  let body ← expectFunction "scroll"
  let (scroller, axis) ← within body (anyOrder [
    (do let w ← expectWord ["root", "nearest", "self"]; pure fun t => (w, t.2)),
    (do let w ← expectWord scrollAxes; pure fun t => (t.1, w))] (("nearest", "block") : String × String))
  pure ("scroll(" ++ spaced [unlessIs "nearest" scroller, unlessIs "block" axis] ++ ")")

/-- The progress of an element through the view of its scroller. -/
def viewTimeline : Parse String := do
  let body ← expectFunction "view"
  let (axis, inset) ← within body (anyOrder [
    (do let w ← expectWord scrollAxes; pure fun t => (w, t.2)),
    (do let s ← measurePair autoExtent; pure fun t => (t.1, s))] (("block", "auto") : String × String))
  pure ("view(" ++ spaced [unlessIs "block" axis, unlessIs "auto" inset] ++ ")")

/-- What an animation takes its progress from. -/
def timeline : Parse String :=
  let named : Parse String := do
    let p ← here
    let n ← expectIdent
    if ['-', '-'].isPrefixOf n.toList then pure (writeIdent n) else refuseAt p (.unexpected (.ident n))
  firstOf [expectWord ["auto", "none"], named, scrollTimeline, viewTimeline]

/-- An animation. -/
structure Animation where
  name : Option String
  duration : Quantity
  pace : String
  delay : Quantity
  iterations : String
  direction : String
  fill : String
  state : String
  timeline : String

namespace Animation

def initial : Animation := ⟨none, noTime, "ease", noTime, "1", "normal", "none", "running", "auto"⟩

def read : Parse Animation :=
  anyOrder [
    (do let q ← time; pure fun a => { a with duration := q }),
    (do let s ← Property.pace; pure fun a => { a with pace := s }),
    (do let q ← time; pure fun a => { a with delay := q }),
    (do let s ← Property.iterations; pure fun a => { a with iterations := s }),
    (do let s ← expectWord (wordsOf "animation-direction"); pure fun a => { a with direction := s }),
    (do let s ← expectWord (wordsOf "animation-fill-mode"); pure fun a => { a with fill := s }),
    (do let s ← expectWord (wordsOf "animation-play-state"); pure fun a => { a with state := s }),
    (do let s ← animationName; pure fun a => { a with name := s }),
    (do let s ← Property.timeline; pure fun a => { a with timeline := s })] initial

/-- The animation as text. A part that is usual is left out, unless the name would be read as that
part. Without a name nothing counts but the timeline. -/
def text (a : Animation) : String :=
  match a.name with
  | none => spaced ["none", unlessIs "auto" a.timeline]
  | some n =>
    let low := n.toLower
    let part (usual : String) (words : List String) (s : String) : String :=
      if s == usual && !words.contains low then "" else s
    spaced [
      if a.duration.isZero && a.delay.isZero then "" else quantityText a.duration,
      part "ease" (paces ++ ["step-start", "step-end"]) a.pace,
      if a.delay.isZero then "" else quantityText a.delay,
      part "1" ["infinite"] a.iterations,
      part "normal" (wordsOf "animation-direction") a.direction,
      part "none" ((wordsOf "animation-fill-mode").filter (· != "none")) a.fill,
      part "running" (wordsOf "animation-play-state") a.state,
      animationNameText n, unlessIs "auto" a.timeline]

end Animation

/-! ## Ranges -/

/-- Named parts of the way of an element through a view. -/
def rangeNames : List String := ["cover", "contain", "entry", "exit", "entry-crossing", "exit-crossing"]

/-- An end of the range in which an animation runs. -/
inductive RangeEnd
  | normal
  | offset (c : Calc)
  | named (name : String) (offset : Calc)
  deriving BEq

namespace RangeEnd

/-- A share as an offset. -/
def share (p : Float32) : Calc := .value (.percentage p)

/-- An end of a range; a name alone stands for a share of its part. -/
def read (usual : Float32) : Parse RangeEnd :=
  firstOf [expectKeyword "normal" *> pure normal, offset <$> extent, do
    let n ← expectWord rangeNames
    let c ← attempt extent
    pure (named n (c.getD (share usual)))]

def text (usual : Float32) : RangeEnd → String
  | normal => "normal"
  | offset c => c.text
  | named n c => if c == share usual then n else n ++ " " ++ c.text

end RangeEnd

/-- The range in which an animation runs. -/
def animationRange : Parse String := do
  let a ← RangeEnd.read 0.0
  let b ← attempt (RangeEnd.read 1.0)
  let implied := match a with
    | .named n _ => RangeEnd.named n (RangeEnd.share 1.0)
    | _ => .normal
  let b := b.getD implied
  let omitted : Bool := match a, b with
    | .named _ _, .named _ _ => b == implied
    | _, b => b == .normal
  pure (if omitted then a.text 0.0 else a.text 0.0 ++ " " ++ b.text 1.0)

/-- The value of a property of motion. -/
def motion? (stem : String) : Option (Parse String) :=
  match stem with
  | "transition" => some (commaList transition)
  | "transition-property" => some (commaList changing)
  | "transition-duration" | "transition-delay" | "animation-duration" | "animation-delay" =>
    some (commaList (quantityText <$> time))
  | "transition-timing-function" | "animation-timing-function" => some (commaList pace)
  | "animation" => some (commaList (Animation.text <$> Animation.read))
  | "animation-name" =>
    some (commaList ((fun n => (n.map animationNameText).getD "none") <$> animationName))
  | "animation-iteration-count" => some (commaList iterations)
  | "animation-timeline" => some (commaList timeline)
  | "animation-range" => some (commaList animationRange)
  | "animation-range-start" => some (commaList (RangeEnd.text 0.0 <$> RangeEnd.read 0.0))
  | "animation-range-end" => some (commaList (RangeEnd.text 1.0 <$> RangeEnd.read 1.0))
  | _ => none

end StyleBump.Property
