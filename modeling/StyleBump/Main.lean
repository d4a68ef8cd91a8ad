import StyleBump.CommandLine

/-! # The program

Reads the files that the arguments name, writes the answer and ends with its exit code. -/

open StyleBump

/-- Why a file could not be opened or read. -/
def readFault : IO.Error → ReadFault
  | .noFileOrDirectory _ _ _ => .missing
  | .inappropriateType _ _ _ => .isFolder
  | .invalidArgument file code details =>
    if code = 36 then .nameTooLong else .other (toString (IO.Error.invalidArgument file code details))
  | e => .other (toString e)

/-- The text of a file. -/
def readText (path : String) : IO (Except ReadFault String) := do
  try
    let bytes ← IO.FS.readBinFile path
    return textOfBytes bytes
  catch e => return .error (readFault e)

/-- The text of the file that a side is given by, if it is given by one. -/
def readSide (path : Option String) : IO (List (String × Except ReadFault String)) := do
  match path with
  | none => return []
  | some p => return [(p, ← readText p)]

/-- Whether the error channel shows colors. -/
def showsColors : IO Bool := do
  match ← IO.getEnv "CLICOLOR_FORCE" with
  | some v => return v != "0"
  | none => return false

/-- A line of the log. The time and the module in front of it are left out. -/
def logLine (e : Entry) : String := "[" ++ e.level.name ++ "] " ++ e.message ++ "\n"

def main (args : List String) : IO UInt32 := do
  let paths := (Options.ofArgs? args).map fun o => (o.old, o.changed)
  let files := (← readSide (paths.bind (·.1))) ++ (← readSide (paths.bind (·.2)))
  let outcome :=
    CommandLine.runLogged logLine (fun p => (files.lookup p).getD (.error .missing)) (← showsColors) args
  IO.print outcome.stdout
  IO.eprint outcome.stderr
  return outcome.exit.toUInt32
