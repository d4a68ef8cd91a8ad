import StyleBump.Property.Alignment
import StyleBump.Property.Box
import StyleBump.Property.Graphic
import StyleBump.Property.Interface
import StyleBump.Property.Motion
import StyleBump.Property.Transform
import StyleBump.Property.Writing
import StyleBump.Value.Tokens

/-! # Values of properties

`Property.value` reads the value of a property. A value that the property understands has one form; any
other value is the text of its tokens. -/

namespace StyleBump.Property
open Css Css.Parse

/-- What a property without its vendor's mark understands, on one line. -/
def line? (stem : String) : Option (Parse String) :=
  (word? stem).or <| (box? stem).or <| (border? stem).or <| (layer? stem).or <|
    (alignment? stem).or <| (font? stem).or <| (text? stem).or <| (motion? stem).or <|
    (transform? stem).or <| (graphic? stem).or (interface? stem)

/-- What a property without its vendor's mark understands, line by line. -/
def understood? (stem : String) : Option (Parse (List String)) :=
  match grid? stem, line? stem with
  | some p, _ => some p
  | none, some p => some do pure [← p]
  | none, none => none

/-- Words that any property understands. -/
def wideWords : List String := ["initial", "inherit", "unset", "revert", "revert-layer"]

/-- The lines of the value of a property by its spelling. All properties together take nothing but a
word that each of them understands. -/
def value (name : String) : Parse (List String) :=
  if name == "all" then do pure [← expectWord wideWords]
  else
    let plain : Parse (List String) := do pure [← Value.tokens]
    match (ofName? name).bind fun p => understood? p.stem with
    | some p => orElse (entirely p) plain
    | none => plain

end StyleBump.Property
