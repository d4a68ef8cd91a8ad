import StyleBump.Declaration.Block
import StyleBump.Fault
import StyleBump.Statement.Basic

/-! # The rules of a sheet

A sheet of statements is a list of rules in the same order. Selectors, preludes and statements that are
compared by their text are written out; the declarations of a style rule are read again from the text of
the sheet, where the rule starts. The first part that cannot be written ends it. -/

namespace StyleBump
open Text (Position)

/-- How the parts of a sheet are written out. A part that cannot be written has a message instead. -/
structure Printer where
  selector : List Selector.Step → Except String String
  prelude : String → Except String String
  property : Setting → Except String String
  value : Setting → Except String String
  statement : Statement → Except String String

/-- The printer of normal forms, which writes everything. -/
def Printer.plain : Printer where
  selector s := .ok (Selector.text s)
  prelude p := .ok p
  property s := .ok s.property
  value s := .ok ("\n".intercalate s.value)
  statement s := .ok ("\n".intercalate s.lines)

namespace Statement

/-- What was written of one side of a comparison. -/
def written (side : Side) (r : Except String String) : Except Fault String := r.mapError (Fault.print side)

section
variable (w : Printer) (side : Side)

/-- The texts of selectors. -/
def writtenSelectors : List (List Selector.Step) → Except Fault (List String)
  | [] => .ok []
  | s :: ss => do
    let t ← written side (w.selector s)
    let ts ← writtenSelectors ss
    .ok (t :: ts)

/-- Settings as declarations. -/
def printedInOrder : List Setting → Except Fault (List Declaration)
  | [] => .ok []
  | s :: ss => do
    let property ← written side (w.property s)
    let value ← written side (w.value s)
    let ds ← printedInOrder ss
    .ok (⟨property, value, s.important⟩ :: ds)

/-- The declarations of a style rule in normal form, the important ones last. -/
def printed (ss : List Setting) : Except Fault (List Declaration) :=
  printedInOrder w side ((ss.filter (!·.important)) ++ ss.filter (·.important))

variable (text : List Char)

/-- The declarations of a style rule as the text has them behind its position. Where there is no block, they
are given in normal form. -/
def declarations (ss : List Setting) (p : Position) : Except Fault (List Declaration) :=
  match Declaration.atPosition? text p with
  | some ds => .ok ds
  | none => printed w side ss

/-- Where a position of a text is said to be. -/
def location (p : Position) : Location := ⟨p.line + 1, p.column⟩

/-- A statement that is compared by its text. -/
def opaqueRule (s : Statement) : Except Fault Rule := do
  let t ← written side (w.statement s)
  .ok (.opaqueText .atRule t)

mutual
/-- The rule that a statement stands for. -/
def toRule : Statement → Except Fault Rule
  | style selectors settings children p => do
    let ts ← writtenSelectors w side selectors
    let ds ← declarations w side text settings p
    let rules ← toRules children
    .ok (.style ts ds rules (some (location p)))
  | group kind _ prelude children p => do
    let t ← match prelude with
      | some t => written side (w.prelude t)
      | none => .ok ""
    let rules ← toRules children
    .ok (.group kind t rules (some (location p)))
  | loose settings => opaqueRule w side (loose settings)
  | other ls short => opaqueRule w side (other ls short)

/-- The rules that statements stand for, in the same order. -/
def toRules : List Statement → Except Fault (List Rule)
  | [] => .ok []
  | s :: ss => do
    let r ← toRule s
    let rs ← toRules ss
    .ok (r :: rs)
end

mutual
/-- Where the style rules of a statement start for which the text has no block, in source order. -/
def withoutText : Statement → List Position
  | style _ _ children p =>
    (if (Declaration.atPosition? text p).isNone then [p] else []) ++ withoutTextAll children
  | group _ _ _ children _ => withoutTextAll children
  | loose _ => []
  | other _ _ => []

def withoutTextAll : List Statement → List Position
  | [] => []
  | s :: ss => withoutText s ++ withoutTextAll ss
end

end

end Statement

end StyleBump
