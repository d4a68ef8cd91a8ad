/-! # Blank characters

What counts as blank, and the form of a text in which single spaces are the only blanks. -/

namespace StyleBump.Text

/-- Unicode's `White_Space` property. -/
def isBlank (c : Char) : Bool :=
  let n := c.toNat
  (0x9 ≤ n && n ≤ 0xD) || n == 0x20 || n == 0x85 || n == 0xA0 || n == 0x1680 ||
    (0x2000 ≤ n && n ≤ 0x200A) || n == 0x2028 || n == 0x2029 || n == 0x202F || n == 0x205F ||
    n == 0x3000

/-- A blank text says nothing: it is empty or holds blanks only. -/
def blank (cs : List Char) : Bool := cs.all isBlank

/-- Puts a word in front of the others; the empty word is none. -/
def consWord (w : List Char) (ws : List (List Char)) : List (List Char) :=
  if w.isEmpty then ws else w :: ws

/-- The word a text starts with, empty if it starts with a blank, and the words after it. -/
def headWords : List Char → List Char × List (List Char)
  | [] => ([], [])
  | c :: cs =>
    let r := headWords cs
    if isBlank c then ([], consWord r.1 r.2) else (c :: r.1, r.2)

/-- The maximal runs of characters that are not blank. -/
def words (cs : List Char) : List (List Char) :=
  consWord (headWords cs).1 (headWords cs).2

/-- The words of a text, separated by single spaces. -/
def squeeze (cs : List Char) : List Char :=
  [' '].intercalate (words cs)

/-- A text with each comment replaced by one space. A comment runs from its opening mark to the
first closing mark after that, or to the end; `inside` says that one is open. -/
def dropComments (inside : Bool) : List Char → List Char
  | [] => []
  | [c] => if inside then [] else [c]
  | c :: d :: cs =>
    if inside then
      if c = '*' && d = '/' then dropComments false cs else dropComments true (d :: cs)
    else if c = '/' && d = '*' then ' ' :: dropComments true cs
    else c :: dropComments false (d :: cs)

/-- A text without its comments, in words separated by single spaces. -/
def tidy (cs : List Char) : List Char :=
  squeeze (dropComments false cs)

end StyleBump.Text
