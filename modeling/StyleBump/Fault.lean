/-! # Failures of a comparison

Either side of a comparison can fail to be read or to be written out again. -/

namespace StyleBump

/-- The two sides of a comparison. -/
inductive Side
  | old
  | changed
  deriving DecidableEq, Repr

def Side.name : Side → String
  | old => "old"
  | changed => "changed"

/-- Why a pair of sheets could not be compared. -/
inductive Fault
  | parse (side : Side) (detail : String) (line column : Option Nat)
  | print (side : Side) (detail : String)
  deriving DecidableEq, Repr

namespace Fault

def side : Fault → Side
  | parse s _ _ _ => s
  | print s _ => s

def detail : Fault → String
  | parse _ d _ _ => d
  | print _ d => d

/-- Where the fault is; a column without a line is not told. -/
def place : Option Nat → Option Nat → String
  | some line, some column => " at " ++ toString line ++ ":" ++ toString column
  | some line, none => " at line " ++ toString line
  | none, _ => ""

def message : Fault → String
  | parse s d line column =>
    "failed to parse " ++ s.name ++ " stylesheet" ++ place line column ++ ": " ++ d
  | print s d => "failed to serialize " ++ s.name ++ " stylesheet: " ++ d

end Fault

end StyleBump
