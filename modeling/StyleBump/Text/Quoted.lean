import StyleBump.Text.Hidden

/-! # Quoted text

Strings and characters as reports quote them: between quotation marks, with a backslash before the
mark and before itself, and with a code in braces for what does not show. -/

namespace StyleBump.Text

/-- A number in hexadecimal digits. -/
def hex (n : Nat) : String := String.ofList (Nat.toDigits 16 n)

/-- A character between marks `q`. -/
def quoteChar (q : Char) (c : Char) : String :=
  if c = '\x00' then "\\0"
  else if c = '\t' then "\\t"
  else if c = '\r' then "\\r"
  else if c = '\n' then "\\n"
  else if c = '\\' then "\\\\"
  else if c = q then "\\" ++ String.singleton q
  else if isHidden c then "\\u\x7b" ++ hex c.toNat ++ "\x7d"
  else String.singleton c

/-- A string in double quotation marks. -/
def quote (s : String) : String :=
  "\"" ++ String.join (s.toList.map (quoteChar '"')) ++ "\""

/-- A character in single quotation marks. -/
def quoteOne (c : Char) : String := "'" ++ quoteChar '\'' c ++ "'"

/-- Quoted strings between square brackets. -/
def quoteList (ss : List String) : String :=
  "[" ++ String.intercalate ", " (ss.map quote) ++ "]"

end StyleBump.Text
