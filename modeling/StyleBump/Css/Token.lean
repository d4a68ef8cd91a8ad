/-! # Tokens of a style sheet

A lexeme is a token with the characters it was read from; a style sheet is the text of its lexemes,
one after the other. -/

namespace StyleBump.Css

/-- The three kinds of block. -/
inductive Bracket
  | round
  | square
  | curly
  deriving DecidableEq, Repr

/-- A sign in front of digits. -/
inductive Sign
  | none
  | plus
  | minus
  deriving DecidableEq, Repr

/-- A number as it is written: sign, digits before and after the point, and the exponent. -/
structure Numeral where
  sign : Sign
  whole : List Char
  fraction : List Char
  exponent : Option (Sign × List Char)
  deriving DecidableEq, Repr

/-- Names and strings are held with their escapes resolved. -/
inductive Token
  | ident (name : String)
  | function (name : String)
  | atKeyword (name : String)
  | hash (name : String)
  | idHash (name : String)
  | string (value : String)
  | badString (value : String)
  | url (value : String)
  | badUrl (value : String)
  | number (value : Numeral)
  | percentage (value : Numeral)
  | dimension (value : Numeral) (unit : String)
  | delim (c : Char)
  | colon
  | semicolon
  | comma
  | includeMatch
  | dashMatch
  | prefixMatch
  | suffixMatch
  | substringMatch
  | cdo
  | cdc
  | whitespace (text : String)
  | comment (text : String)
  | opening (b : Bracket)
  | closing (b : Bracket)
  deriving DecidableEq, Repr

namespace Token

/-- The block that a token opens. -/
def opens? : Token → Option Bracket
  | function _ => some .round
  | opening b => some b
  | _ => none

/-- The block that a token closes. -/
def closes? : Token → Option Bracket
  | closing b => some b
  | _ => none

/-- White space and comments stand between the tokens that say something. -/
def isGap : Token → Bool
  | whitespace _ => true
  | comment _ => true
  | _ => false

/-- Tokens that no value may hold. -/
def isMalformed : Token → Bool
  | badString _ => true
  | badUrl _ => true
  | closing _ => true
  | _ => false

end Token

/-- A token and its characters. -/
structure Lexeme where
  token : Token
  text : List Char
  deriving DecidableEq, Repr

/-- The characters of a run of lexemes. -/
def Lexeme.textOf (ls : List Lexeme) : List Char := (ls.map (·.text)).flatten

end StyleBump.Css
