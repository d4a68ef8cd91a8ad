import StyleBump.Declaration.Written
import StyleBump.Rule.Basic
import StyleBump.Selector.Basic

/-! # Statements

What a style sheet says, as it was read: style rules with their declarations in normal form, groups of
rules, and statements that are compared by their text. Every statement has a text of its own, line by
line. -/

namespace StyleBump
open Text (Position)

/-- A statement of a style sheet. A layer without a name is a group without a prelude. -/
inductive Statement
  | style (selectors : List (List Selector.Step)) (settings : List Setting) (children : List Statement)
      (position : Position)
  | group (kind : RuleKind) (heading : String) (prelude : Option String) (children : List Statement)
      (position : Position)
  | loose (settings : List Setting)
  | other (lines : List String) (short : Bool)

namespace Statement

/-- Two spaces in front of a line that is not empty. -/
def indentLine (s : String) : String := if s.isEmpty then s else "  " ++ s

/-- A block with a heading; the line inside an empty one holds its indentation. -/
def wrap (heading : String) (inner : List String) : List String :=
  (heading ++ " \x7b") :: ((if inner.isEmpty then ["  "] else inner.map indentLine) ++ ["\x7d"])

/-- A block of lines with a heading; an empty one has no line inside. -/
def wrapTight (heading : String) (inner : List String) : List String :=
  (heading ++ " \x7b") :: (inner.map indentLine ++ ["\x7d"])

/-- Whether a statement is written without a block, close to others like it. -/
def isShort : Statement → Bool
  | other _ short => short
  | _ => false

/-- The blank line between a statement and the ones behind it, if it takes one. -/
def separator (s : Statement) : List Statement → List String
  | [] => []
  | t :: _ => if s.isShort && t.isShort then [] else [""]

mutual
/-- The lines of a statement. -/
def lines : Statement → List String
  | style selectors settings children _ =>
    let head := ", ".intercalate (selectors.map Selector.text)
    let front := Setting.lines settings
    let back := linesAll children
    wrapTight head (front ++ (if front.isEmpty || back.isEmpty then [] else [""]) ++ back)
  | group _ heading _ children _ => wrap heading (linesAll children)
  | loose settings => Setting.lines settings
  | other ls _ => ls

/-- The lines of statements with a blank line between two of them, unless both are short. -/
def linesAll : List Statement → List String
  | [] => []
  | s :: ss => lines s ++ (separator s ss ++ linesAll ss)
end

end Statement

end StyleBump
