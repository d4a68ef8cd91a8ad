import StyleBump.Declaration.Basic
import StyleBump.Property.Value

/-! # Declarations in normal form

What is not compared value by value is compared as it would be written out: each property with a value
in one form, and the important ones behind the others. -/

namespace StyleBump

/-- A property and the normal form of its value, line by line. -/
structure Setting where
  property : String
  value : List String
  important : Bool
  deriving DecidableEq, Repr

namespace Setting
open Css Css.Parse

/-- What stands behind the last line of a value. -/
def ending (s : Setting) : String := if s.important then " !important;" else ";"

/-- The lines of a value behind its first; the last one ends the setting. -/
def furtherLines (ending : String) : String → List String → List String
  | l, [] => [l ++ ending]
  | l, m :: ms => l :: furtherLines ending m ms

/-- The lines of a setting. -/
def linesOf (s : Setting) : List String :=
  furtherLines s.ending (s.property ++ ": " ++ s.value.headD "") (s.value.drop 1)

/-- The lines of settings; the important ones come last. -/
def lines (ss : List Setting) : List String :=
  ((ss.filter (!·.important)) ++ ss.filter (·.important)).flatMap linesOf

/-- What ends the value of a property; only a property of the author's own may hold blocks in curly
brackets. -/
def endsValue (custom : Bool) (c : Component) : Bool :=
  c.isLeaf (.delim '!') || (!custom && c.isCurly)

/-- The mark of an important declaration. -/
def mark : Parse Bool := do
  let m ← attempt do
    expectToken (.delim '!')
    expectKeyword "important"
  pure m.isSome

/-- What follows the name of a property. -/
def afterName (name : String) : Parse Setting := do
  expectToken .colon
  let property := Property.spelling name
  let value ← before (endsValue (Value.isDashed name)) (Property.value property)
  let important ← mark
  expectExhausted
  pure ⟨property, value, important⟩

end Setting

end StyleBump
