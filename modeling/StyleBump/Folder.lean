import StyleBump.CommandLine

/-! # Folders

A folder holds files under their paths, and other folders in between. Reading a path goes from part to
part: up for two points, else down to what has that name, and gives the text of the file at its end. -/

namespace StyleBump

/-- The files of a folder, under paths without empty parts. -/
structure Folder where
  files : List (List String × ByteArray)

namespace Folder

/-- The parts of a path between slashes. -/
def splitSlashes : List Char → List (List Char)
  | [] => [[]]
  | c :: cs =>
    match splitSlashes cs with
    | w :: ws => if c = '/' then [] :: w :: ws else (c :: w) :: ws
    | [] => [[c]]

/-- The parts of a path between slashes as texts. -/
def allParts (path : String) : List String := (splitSlashes path.toList).map String.ofList

/-- The part that stays where it is. -/
def isStill (part : String) : Bool := part.isEmpty || part == "."

def ofFiles (files : List (String × ByteArray)) : Folder :=
  ⟨files.map fun f => ((allParts f.1).filter (!isStill ·), f.2)⟩

/-- The bytes of the file at a path. -/
def file? (f : Folder) (path : List String) : Option ByteArray := f.files.lookup path

/-- Whether a path leads to a folder. -/
def isFolder (f : Folder) (path : List String) : Bool :=
  path.isEmpty || f.files.any fun e => path.isPrefixOf e.1 && path != e.1

/-- Where a path has led: to a file, to a folder inside, or out of the folder. -/
inductive Place
  | file (bytes : ByteArray)
  | inside (path : List String)
  | outside

/-- How many bytes the name of a file may have, and how many a path. -/
def nameLimit : Nat := 255
def pathLimit : Nat := 4096

/-- One part further. Nothing is known by name outside the folder. -/
def step (f : Folder) (place : Place) (part : String) : Except ReadFault Place :=
  match place with
  | .file _ => .error .notFolder
  | .outside =>
    if isStill part || part == ".." then .ok .outside
    else .error (if nameLimit < part.utf8ByteSize then .nameTooLong else .missing)
  | .inside path =>
    if isStill part then .ok (.inside path)
    else if part == ".." then .ok (if path.isEmpty then .outside else .inside path.dropLast)
    else if nameLimit < part.utf8ByteSize then .error .nameTooLong
    else
      let next := path ++ [part]
      match f.file? next with
      | some bytes => .ok (.file bytes)
      | none => if f.isFolder next then .ok (.inside next) else .error .missing

/-- The text of the file at a path. -/
def read (f : Folder) (path : String) : Except ReadFault String := do
  let start : Place := if path.toList.head? = some '/' then .outside else .inside []
  if pathLimit ≤ path.utf8ByteSize then .error .nameTooLong
  else match ← (allParts path).foldlM f.step start with
    | .file bytes => textOfBytes bytes
    | _ => .error .isFolder

end Folder

end StyleBump
