import StyleBump.Report

/-! # Histories

A text goes through a run of edits. Each step is compared with the one before it and with the start. -/

namespace StyleBump

/-- What happens to a text, which may be absent. -/
inductive Edit
  | set (text : Option String)
  | append (text : String)
  | prepend (text : String)
  | replace (pattern replacement : String)
  | delete
  deriving DecidableEq, Repr

/-- Replaces every occurrence of a pattern, from left to right and without overlap; `skip` more
characters belong to the last one. -/
def replaceFrom (pattern replacement : List Char) : Nat → List Char → List Char
  | _, [] => []
  | k + 1, _ :: cs => replaceFrom pattern replacement k cs
  | 0, c :: cs =>
    if pattern.isPrefixOf (c :: cs) then
      replacement ++ replaceFrom pattern replacement (pattern.length - 1) cs
    else c :: replaceFrom pattern replacement 0 cs

/-- Replaces every occurrence of a pattern. The empty pattern occurs around every character. -/
def replaceAll (pattern replacement cs : List Char) : List Char :=
  if pattern.isEmpty then replacement ++ cs.flatMap (· :: replacement)
  else replaceFrom pattern replacement 0 cs

namespace Edit

def apply : Edit → Option String → Option String
  | set text, _ => text
  | append text, old => some (old.getD "" ++ text)
  | prepend text, old => some (text ++ old.getD "")
  | replace pattern replacement, old =>
    old.map fun t => String.ofList (replaceAll pattern.toList replacement.toList t.toList)
  | delete, _ => none

end Edit

/-- One step of a history: its own report, and the bump since the start. -/
structure Step where
  report : Except Fault Report
  total : Option Bump

namespace History

/-- The texts of a history, each with the one before it. -/
def pairs (old : Option String) : List Edit → List (Option String × Option String)
  | [] => []
  | e :: es => (old, e.apply old) :: pairs (e.apply old) es

/-- The steps of a history. -/
def steps (start : Option String) (edits : List Edit) (verbose : Bool) : List Step :=
  (pairs start edits).map fun p => ⟨Report.predict p.1 p.2 verbose, Report.lenient start p.2 verbose⟩

end History

end StyleBump
