import StyleBump.Css.Numeral
import StyleBump.Text.Quoted

/-! # Writing tokens

Names, strings and whole tokens as style sheets write them, with escapes where the plain character
would read as something else. -/

namespace StyleBump.Css

/-- An escape by code, closed by a space. -/
def escapeCode (c : Char) : String := "\\" ++ Text.hex c.toNat ++ " "

def isControlCode (c : Char) : Bool := c.toNat < 0x20 || c = '\x7f'

/-- A character inside a name. -/
def nameChar (c : Char) : String :=
  if c.isAlphanum || c = '_' || c = '-' || 0x80 ≤ c.toNat then String.singleton c
  else if c = '\x00' then "\uFFFD"
  else if isControlCode c then escapeCode c
  else "\\" ++ String.singleton c

def writeName (cs : List Char) : String := String.join (cs.map nameChar)

/-- A name whose first character must not read as a digit. -/
def writeStart : List Char → String
  | c :: cs => if c.isDigit then escapeCode c ++ writeName cs else writeName (c :: cs)
  | [] => ""

/-- An identifier. -/
def writeIdent (s : String) : String :=
  match s.toList with
  | '-' :: '-' :: cs => "--" ++ writeName cs
  | ['-'] => "\\-"
  | '-' :: cs => "-" ++ writeStart cs
  | cs => writeStart cs

/-- A character inside a string. -/
def stringChar (c : Char) : String :=
  if c = '"' then "\\\"" else if c = '\\' then "\\\\" else if c = '\x00' then "\uFFFD"
  else if isControlCode c then escapeCode c else String.singleton c

/-- A string in double quotation marks. -/
def writeString (s : String) : String :=
  "\"" ++ String.join (s.toList.map stringChar) ++ "\""

/-- A character inside an unquoted address. -/
def addressChar (c : Char) : String :=
  if c.toNat ≤ 0x20 || c = '\x7f' then escapeCode c
  else if c = '(' || c = ')' || c = '"' || c = '\'' || c = '\\' then "\\" ++ String.singleton c
  else String.singleton c

/-- A number that keeps the sign of zero. -/
def writeSigned (x : Float32) : String :=
  if x == 0.0 && Decimal.isNegative x then "-0" else Decimal.brief x

/-- A number with its sign; one written with a point keeps a digit behind it. -/
def writeNumeric (x : Float32) (n : Numeral) : String :=
  let s := writeSigned x
  let s := if n.integer?.isNone && Decimal.isWhole x && s.toList.all (fun c => c.isDigit || c = '-')
    then s ++ ".0" else s
  if n.signed && !Decimal.isNegative x then "+" ++ s else s

/-- A unit behind a number; one that could be read as an exponent is escaped. -/
def writeUnit (u : String) : String :=
  match u.toList with
  | c :: cs =>
    if (c = 'e' || c = 'E') && (cs.isEmpty || cs.head? = some '-') then "\\65 " ++ writeName cs else writeIdent u
  | [] => ""

def Bracket.opener : Bracket → String
  | round => "("
  | square => "["
  | curly => "\x7b"

def Bracket.closer : Bracket → String
  | round => ")"
  | square => "]"
  | curly => "\x7d"

/-- A token by itself. -/
def Token.write : Token → String
  | ident n => writeIdent n
  | function n => writeIdent n ++ "("
  | atKeyword n => "@" ++ writeIdent n
  | hash n => "#" ++ writeName n.toList
  | idHash n => "#" ++ writeIdent n
  | string v => writeString v
  | badString v => "\"" ++ String.join (v.toList.map stringChar)
  | url v => "url(" ++ String.join (v.toList.map addressChar) ++ ")"
  | badUrl v => "url(" ++ v ++ ")"
  | number n => writeNumeric n.single n
  | percentage n => writeNumeric (n.portion * 100.0) n ++ "%"
  | dimension n u => writeNumeric n.single n ++ writeUnit u
  | delim c => String.singleton c
  | colon => ":"
  | semicolon => ";"
  | comma => ","
  | includeMatch => "~="
  | dashMatch => "|="
  | prefixMatch => "^="
  | suffixMatch => "$="
  | substringMatch => "*="
  | cdo => "<!--"
  | cdc => "-->"
  | whitespace t => t
  | comment t => "/*" ++ t ++ "*/"
  | opening b => b.opener
  | closing b => b.closer

/-- The name of a bracket's block in reports. -/
def Bracket.report : Bracket → String
  | round => "Parenthesis"
  | square => "SquareBracket"
  | curly => "CurlyBracket"

/-- The fields of a number in reports. -/
def Numeral.report (n : Numeral) (label : String) (x : Float32) : String :=
  let whole := match n.integer? with
    | some v => "Some(" ++ toString v ++ ")"
    | none => "None"
  "has_sign: " ++ (if n.signed then "true" else "false") ++ ", " ++ label ++ ": " ++ Decimal.report x ++
    ", int_value: " ++ whole

/-- A token as reports of errors name it. -/
def Token.report : Token → String
  | ident n => "Ident(" ++ Text.quote n ++ ")"
  | function n => "Function(" ++ Text.quote n ++ ")"
  | atKeyword n => "AtKeyword(" ++ Text.quote n ++ ")"
  | hash n => "Hash(" ++ Text.quote n ++ ")"
  | idHash n => "IDHash(" ++ Text.quote n ++ ")"
  | string v => "String(" ++ Text.quote v ++ ")"
  | badString v => "BadString(" ++ Text.quote v ++ ")"
  | url v => "UnquotedUrl(" ++ Text.quote v ++ ")"
  | badUrl v => "BadUrl(" ++ Text.quote v ++ ")"
  | number n => "Number \x7b " ++ n.report "value" n.single ++ " \x7d"
  | percentage n => "Percentage \x7b " ++ n.report "unit_value" n.portion ++ " \x7d"
  | dimension n u => "Dimension \x7b " ++ n.report "value" n.single ++ ", unit: " ++ Text.quote u ++ " \x7d"
  | delim c => "Delim(" ++ Text.quoteOne c ++ ")"
  | colon => "Colon"
  | semicolon => "Semicolon"
  | comma => "Comma"
  | includeMatch => "IncludeMatch"
  | dashMatch => "DashMatch"
  | prefixMatch => "PrefixMatch"
  | suffixMatch => "SuffixMatch"
  | substringMatch => "SubstringMatch"
  | cdo => "CDO"
  | cdc => "CDC"
  | whitespace t => "WhiteSpace(" ++ Text.quote t ++ ")"
  | comment t => "Comment(" ++ Text.quote t ++ ")"
  | opening b => b.report ++ "Block"
  | closing b => "Close" ++ b.report

end StyleBump.Css
