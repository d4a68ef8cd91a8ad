import StyleBump.Bump
import StyleBump.SelectorSet

/-! # Selectors that come and go

Which bump an edit asks for depends on the selectors that it takes away and adds. -/

namespace StyleBump

/-- The selectors that disappeared and appeared between two versions. -/
structure SelectorDiff where
  removed : List String
  added : List String
  deriving DecidableEq, Repr

namespace SelectorDiff

def between (old changed : SelectorSet) : SelectorDiff :=
  ⟨old.difference changed, changed.difference old⟩

/-- The bump for two versions that are known to differ: whoever styles with a removed selector
breaks, so removals outrank additions. -/
def classify (d : SelectorDiff) : Bump :=
  if !d.removed.isEmpty then .major else if !d.added.isEmpty then .minor else .patch

end SelectorDiff

end StyleBump
