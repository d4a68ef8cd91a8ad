/-! # Positions in a text

A position counts the line breaks before it and the UTF-16 units since the last of them. A line
feed, a form feed and a carriage return each break a line; a carriage return with the line feed
after it is one break. -/

namespace StyleBump.Text

/-- Line breaks before a place, and one more than the UTF-16 units between the last break and it. -/
structure Position where
  line : Nat
  column : Nat
  deriving DecidableEq, Repr, Inhabited

def isBreak (c : Char) : Bool := c = '\n' || c = '\r' || c = '\x0c'

/-- How many UTF-16 units write a character. -/
def units (c : Char) : Nat := if c.toNat < 0x10000 then 1 else 2

namespace Position

/-- Where a text starts. -/
def start : Position := ⟨0, 1⟩

/-- The position after the given characters. -/
def advance (p : Position) : List Char → Position
  | [] => p
  | '\r' :: '\n' :: cs => advance ⟨p.line + 1, 1⟩ cs
  | c :: cs => if isBreak c then advance ⟨p.line + 1, 1⟩ cs else advance ⟨p.line, p.column + units c⟩ cs

end Position

/-- What follows the first line break. -/
def afterBreak? : List Char → Option (List Char)
  | [] => none
  | '\r' :: '\n' :: cs => some cs
  | c :: cs => if isBreak c then some cs else afterBreak? cs

/-- What follows the first `n` line breaks. -/
def afterBreaks? : Nat → List Char → Option (List Char)
  | 0, cs => some cs
  | n + 1, cs => (afterBreak? cs).bind (afterBreaks? n)

/-- What follows the first `n` units; a character that the cut falls into is passed over whole. -/
def afterUnits? : Nat → List Char → Option (List Char)
  | 0, cs => some cs
  | _ + 1, [] => none
  | n + 1, c :: cs => afterUnits? (n + 1 - units c) cs

/-- The rest of a text from a position on; columns 0 and 1 both start the line. A column is counted
past the end of its line. -/
def seek? (cs : List Char) (p : Position) : Option (List Char) :=
  (afterBreaks? p.line cs).bind (afterUnits? (p.column - 1))

/-- The offset of a position, in bytes: the size of what stands in front of the rest. -/
def byteOffset? (text : String) (p : Position) : Option String.Pos.Raw :=
  (seek? text.toList p).map fun rest => ⟨text.utf8ByteSize - (String.ofList rest).utf8ByteSize⟩

end StyleBump.Text
