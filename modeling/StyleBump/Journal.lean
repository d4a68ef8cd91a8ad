import StyleBump.History
import StyleBump.Rule.Dump

/-! # Journals

What a comparison notes down while it runs, in order: the sheets that it read, and its outcome. The two
lines that trace the outlines of the sheets in full, in front of the outcome, are left out. -/

namespace StyleBump

inductive Level
  | trace
  | debug
  | warn
  | error
  deriving DecidableEq, Repr

def Level.name : Level → String
  | trace => "trace"
  | debug => "debug"
  | warn => "warn"
  | error => "error"

/-- Whether a log shows the level, with its filter at the default. -/
def Level.isShown : Level → Bool
  | trace => false
  | debug => false
  | warn => true
  | error => true

/-- A line of a journal. -/
structure Entry where
  level : Level
  message : String
  deriving DecidableEq, Repr

namespace Journal

/-- What a log shows of a journal. -/
def shown (entries : List Entry) : List Entry := entries.filter (·.level.isShown)

/-- A style rule whose declarations are compared in normal form. -/
def missing (side : Side) (p : Text.Position) : Entry :=
  ⟨.warn, "no declaration block at " ++ toString (p.line + 1) ++ ":" ++ toString p.column ++ " of " ++
    side.name ++ " stylesheet, comparing printed values"⟩

/-- What the sheet of one side notes down: how many rules it has, and each of them. -/
def sheet (side : Side) (sheet : Sheet) : List Entry :=
  ⟨.debug, "parsed " ++ side.name ++ " stylesheet into " ++ toString sheet.length ++ " top-level rules"⟩
    :: sheet.map fun r => ⟨.trace, r.dump⟩

/-- What reading one side notes down: the style rules whose block is missing, and the sheet. -/
def reading (side : Side) (text : Option String) : List Entry :=
  if hasText text then
    let cs := (text.getD "").toList
    match Statement.ofChars cs with
    | .error _ => []
    | .ok statements =>
      (Statement.withoutTextAll cs statements).map (missing side) ++
        match Sheet.read side text with
        | .error _ => []
        | .ok s => sheet side s
  else []

/-- What the comparison of two sheets notes down. -/
def comparison (old changed : Sheet) : Entry :=
  if structurallyEqual old changed then ⟨.debug, "stylesheets are structurally equal"⟩
  else
    let d := SelectorDiff.between old.selectorSet changed.selectorSet
    ⟨.debug, toString d.removed.length ++ " selectors removed, " ++ toString d.added.length ++
      " added: " ++ d.classify.name⟩

/-- What `Report.predict` notes down. -/
def predict (old changed : Option String) : List Entry :=
  reading .old old ++
    match Sheet.read .old old with
    | .error _ => []
    | .ok a =>
      reading .changed changed ++
        match Sheet.read .changed changed with
        | .error _ => []
        | .ok b => [comparison a b]

/-- What `Report.lenient` notes down. -/
def lenient (old changed : Option String) : List Entry :=
  predict old changed ++
    match Report.predict old changed false with
    | .ok _ => []
    | .error e => [⟨.error, "Something went wrong during css comparison: " ++ e.message⟩]

/-- What `History.steps` notes down. -/
def history (start : Option String) (edits : List Edit) : List Entry :=
  (History.pairs start edits).flatMap fun p => predict p.1 p.2 ++ lenient start p.2

end Journal

end StyleBump
