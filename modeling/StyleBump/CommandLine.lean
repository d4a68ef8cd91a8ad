import StyleBump.Journal

/-! # The command line

The arguments name the two versions of a style sheet; a version that is not named is absent. The
answer is the name of the bump. Notices go to the error channel and do not change the answer. So does
the log, in front of all else; a run is given without it (`CommandLine.run`) and with it
(`CommandLine.runLogged`). -/

namespace StyleBump

/-- What the arguments ask for. -/
structure Options where
  old : Option String
  changed : Option String
  verbose : Bool
  noColor : Bool
  deriving DecidableEq, Repr

namespace Options

/-- Nothing is asked for. -/
def none : Options := ⟨.none, .none, false, false⟩

/-- Sets the path of one side, once. -/
def setPath (side : Side) (path : String) (o : Options) : Option Options :=
  if path.isEmpty then .none
  else match side with
    | .old => if o.old.isSome then .none else some { o with old := some path }
    | .changed => if o.changed.isSome then .none else some { o with changed := some path }

def setVerbose (o : Options) : Option Options :=
  if o.verbose then .none else some { o with verbose := true }

def setNoColor (o : Options) : Option Options :=
  if o.noColor then .none else some { o with noColor := true }

/-- Whether an argument can stand behind the name of an option. A hyphen alone is a path. -/
def isValue (a : String) : Bool := a == "-" || a.toList.head? != some '-'

/-- An option with its value behind an equals sign. -/
def joined? (a : String) : Option (Side × String) :=
  let cs := a.toList
  if "--old=".toList.isPrefixOf cs then some (.old, String.ofList (cs.drop 6))
  else if "--changed=".toList.isPrefixOf cs then some (.changed, String.ofList (cs.drop 10))
  else .none

/-- Reads arguments in any order, each at most once. -/
def read (o : Options) : List String → Option Options
  | [] => some o
  | ["--"] => some o
  | "-v" :: rest => o.setVerbose.bind (read · rest)
  | "--verbose" :: rest => o.setVerbose.bind (read · rest)
  | "--no-color" :: rest => o.setNoColor.bind (read · rest)
  | "--old" :: v :: rest => if isValue v then (o.setPath .old v).bind (read · rest) else .none
  | "--changed" :: v :: rest => if isValue v then (o.setPath .changed v).bind (read · rest) else .none
  | a :: rest =>
    match joined? a with
    | some (side, v) => (o.setPath side v).bind (read · rest)
    | .none => .none

/-- The options that arguments stand for, unless they make no sense. -/
def ofArgs? (args : List String) : Option Options := none.read args

end Options

/-- Why a file cannot be read as text. -/
inductive ReadFault
  | missing
  | isFolder
  | notFolder
  | nameTooLong
  | notText
  | other (message : String)
  deriving DecidableEq, Repr

def ReadFault.message : ReadFault → String
  | missing => "No such file or directory (os error 2)"
  | isFolder => "Is a directory (os error 21)"
  | notFolder => "Not a directory (os error 20)"
  | nameTooLong => "File name too long (os error 36)"
  | notText => "stream did not contain valid UTF-8"
  | other m => m

/-- The text of some bytes. -/
def textOfBytes (bytes : ByteArray) : Except ReadFault String :=
  match String.fromUTF8? bytes with
  | some s => .ok s
  | none => .error .notText

/-- What a run of the program leaves behind. -/
structure Outcome where
  exit : Nat
  stdout : String
  stderr : String
  deriving DecidableEq, Repr

/-- The colors of notices. -/
def Notice.colorCode : Notice → String
  | added _ => "\x1b[32m"
  | removed _ => "\x1b[31m"
  | changed _ _ => "\x1b[33m"

/-- Ends every color. -/
def colorReset : String := "\x1b[0m"

/-- A notice in its color, which starts again behind whatever ends a color inside. -/
def Notice.painted (n : Notice) : String :=
  let inner := replaceReset (colorReset ++ n.colorCode).toList n.text.toList
  n.colorCode ++ String.ofList inner ++ colorReset
where
  replaceReset (with_ : List Char) : List Char → List Char
    | '\x1b' :: '[' :: '0' :: 'm' :: cs => with_ ++ replaceReset with_ cs
    | c :: cs => c :: replaceReset with_ cs
    | [] => []

namespace Outcome

/-- The program stops with a message. -/
def failure (message : String) : Outcome := ⟨1, "", message ++ "\n"⟩

/-- The program refuses its arguments; the exit code says so. -/
def refused : Outcome := ⟨2, "", ""⟩

/-- The program answers. -/
def ofReport (r : Report) (colored : Bool) : Outcome :=
  ⟨0, r.bump.name ++ "\n",
    String.join (r.notices.map fun n => (if colored then n.painted else n.text) ++ "\n")⟩

/-- What is said about a file that cannot be read. -/
def unreadable (path : String) (e : ReadFault) : Outcome :=
  failure ("Error reading stylesheet " ++ path ++ ": " ++ e.message)

end Outcome

namespace CommandLine

/-- The text of a side: absent if no path is given. -/
def side (read : String → Except ReadFault String) :
    Option String → Except Outcome (Option String)
  | none => .ok none
  | some path =>
    match read path with
    | .ok s => .ok (some s)
    | .error e => .error (.unreadable path e)

/-- A run with options that make sense; `colors` says that the error channel shows colors. -/
def runWith (read : String → Except ReadFault String) (colors : Bool) (o : Options) : Outcome :=
  match side read o.old with
  | .error e => e
  | .ok old =>
    match side read o.changed with
    | .error e => e
    | .ok changed =>
      match Report.predict old changed o.verbose with
      | .ok r => .ofReport r (colors && !o.noColor)
      | .error e => .failure ("Oh no, something went wrong during css comparison: " ++ e.message)

/-- A run of the program but for its log; `read` gives the text of a file. -/
def run (read : String → Except ReadFault String) (colors : Bool) (args : List String) : Outcome :=
  match Options.ofArgs? args with
  | none => .refused
  | some o => runWith read colors o

/-- The log of a run, with its filter at the default: what it shows of the journal of the comparison, if
the run comes to one. The lines are written by `line`. -/
def log (line : Entry → String) (read : String → Except ReadFault String) (args : List String) : String :=
  match Options.ofArgs? args with
  | none => ""
  | some o =>
    match side read o.old, side read o.changed with
    | .ok old, .ok changed => String.join ((Journal.shown (Journal.predict old changed)).map line)
    | _, _ => ""

/-- A run of the program with its log. -/
def runLogged (line : Entry → String) (read : String → Except ReadFault String) (colors : Bool)
    (args : List String) : Outcome :=
  let out := run read colors args
  { out with stderr := log line read args ++ out.stderr }

end CommandLine

end StyleBump
