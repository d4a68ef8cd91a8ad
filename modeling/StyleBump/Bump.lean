/-! # Version bumps

The four answers of a comparison, from no change to a breaking one. -/

namespace StyleBump

inductive Bump
  | none
  | patch
  | minor
  | major
  deriving DecidableEq, Repr

namespace Bump

/-- How much an answer asks for. -/
def rank : Bump → Nat
  | none => 0
  | patch => 1
  | minor => 2
  | major => 3

instance : LE Bump := ⟨fun a b => a.rank ≤ b.rank⟩
instance : DecidableLE Bump := fun a b => inferInstanceAs (Decidable (a.rank ≤ b.rank))
instance : Max Bump := ⟨fun a b => if a ≤ b then b else a⟩

/-- The name of the bump; no change has none. -/
def label? : Bump → Option String
  | none => Option.none
  | patch => some "patch"
  | minor => some "minor"
  | major => some "major"

def name (b : Bump) : String := b.label?.getD "none"

/-- The answers in ascending order. -/
def sort (bs : List Bump) : List Bump := bs.mergeSort (fun a b => decide (a ≤ b))

/-- The largest answer of a list. -/
def largest? (bs : List Bump) : Option Bump := bs.max?

end Bump

end StyleBump
