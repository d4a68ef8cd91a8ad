/-! # Declarations

A property, its value as the author wrote it, and whether it is marked important. -/

namespace StyleBump

structure Declaration where
  property : String
  value : String
  important : Bool
  deriving DecidableEq, Repr

/-- The value that decides what the property is set to, its mark included. -/
def Declaration.effectiveValue (d : Declaration) : String :=
  if d.important then d.value ++ " !important" else d.value

end StyleBump
