import StyleBump.Notice
import StyleBump.Rule.Outline
import StyleBump.Sheet

/-! # Reports

A report says which bump an edit asks for and, if asked, what changed. Sheets that are structurally
equal differ in nothing; between all others the selectors decide. -/

namespace StyleBump

structure Report where
  bump : Bump
  notices : List Notice
  deriving DecidableEq, Repr

namespace Report

def isUnchanged (r : Report) : Bool := r.bump == .none

/-- The report on two sheets; the notices are collected if it is `verbose`. -/
def between (old changed : Sheet) (verbose : Bool) : Report :=
  if structurallyEqual old changed then ⟨.none, []⟩
  else
    let diff := SelectorDiff.between old.selectorSet changed.selectorSet
    ⟨diff.classify, if verbose then Notice.collect old changed diff else []⟩

/-- The report on two texts. The first side that cannot be read decides the fault. -/
def predict (old changed : Option String) (verbose : Bool) (w : Printer := .plain) : Except Fault Report := do
  let old ← Sheet.read .old old w
  let changed ← Sheet.read .changed changed w
  .ok (between old changed verbose)

/-- The bump between two texts; no change and a fault both have none. -/
def lenient (old changed : Option String) (verbose : Bool := false) (w : Printer := .plain) : Option Bump :=
  match predict old changed verbose w with
  | .ok r => if r.isUnchanged then none else some r.bump
  | .error _ => none

/-- Reports on pairs of texts, in the same order. -/
def batch (pairs : List (Option String × Option String)) (verbose : Bool) : List (Except Fault Report) :=
  pairs.map fun p => predict p.1 p.2 verbose

end Report

end StyleBump
