import StyleBump.Property.Word
import StyleBump.Value.Measure

/-! # Grids

The tracks of a grid, the names of its lines and its areas, and the places of boxes in it. A template
with areas has a line of text for each row; the lines behind the first stand under it. -/

namespace StyleBump.Property
open Css Css.Parse Value

/-- A name of the author's own. -/
def customName : Parse String := do
  let p ← here
  let n ← expectIdent
  if ["initial", "inherit", "unset", "default", "revert", "revert-layer"].contains n.toLower then
    refuseAt p (.unexpected (.ident n))
  else pure n

/-! ## Tracks -/

/-- Names of a line, in square brackets. -/
def lineNames : Parse (List String) := do
  let p ← here
  match ← next with
  | .block .square _ body _ => within body (many customName)
  | c => Parse.unexpected p c

/-- The names of a line, if there are any. -/
def optionalNames : Parse (List String) := do pure ((← attempt lineNames).getD [])

def namesText (ns : List String) : String := "[" ++ " ".intercalate (ns.map writeIdent) ++ "]"

/-- A share of the room that is left. -/
def flexible : Parse String := do
  let p ← here
  let c ← next
  match c with
  | .leaf ⟨.dimension n u, _⟩ =>
    if sameName u "fr" && !Decimal.isNegative n.single then pure (withUnit n.single "fr")
    else Parse.unexpected p c
  | c => Parse.unexpected p c

/-- The breadth of a track; `shares` says whether it may be a share. -/
def breadth (shares : Bool) : Parse String :=
  firstOf ([extentText] ++ (if shares then [flexible] else []) ++
    [expectWord ["auto", "min-content", "max-content"]])

/-- The size of a track. -/
def trackSize : Parse String :=
  firstOf [
    breadth true,
    (do
      let body ← expectFunction "minmax"
      within body do
        let a ← breadth false
        expectToken .comma
        let b ← breadth true
        pure ("minmax(" ++ a ++ ", " ++ b ++ ")")),
    (do
      let body ← expectFunction "fit-content"
      let s ← within body extentText
      pure ("fit-content(" ++ s ++ ")"))]

/-- Tracks with the names of the lines around them. -/
structure Tracks where
  names : List (List String)
  sizes : List String

namespace Tracks

/-- Names and sizes in turn; at most `fuel` sizes. -/
def readAux (size : Parse String) : Nat → Parse Tracks
  | 0 => pure ⟨[], []⟩
  | fuel + 1 => do
    let ns ← optionalNames
    match ← attempt size with
    | some s => do
      let rest ← readAux size fuel
      pure ⟨ns :: rest.names, s :: rest.sizes⟩
    | none => pure ⟨[ns], []⟩

/-- Names and sizes in turn. -/
def read (size : Parse String) : Parse Tracks := fun s => readAux size (s.rest.length + 1) s

/-- The names and the sizes from a place on. Names stand close behind a size. -/
def textFrom (isFirst : Bool) : List (List String) → List String → String
  | [], _ => ""
  | ns :: names, [] => (if ns.isEmpty then "" else namesText ns) ++ textFrom false names []
  | ns :: names, s :: sizes =>
    (if ns.isEmpty then (if isFirst then "" else " ") else namesText ns ++ " ") ++ s ++
      textFrom false names sizes

def text (t : Tracks) : String := textFrom true t.names t.sizes

end Tracks

/-- Tracks that repeat. -/
def repeated : Parse String := do
  let body ← expectFunction "repeat"
  within body do
    let count ← orElse integerText (expectWord ["auto-fill", "auto-fit"])
    expectToken .comma
    let ts ← Tracks.read trackSize
    pure ("repeat(" ++ count ++ ", " ++ ts.text ++ ")")

/-- One track at least; `repeats` says whether tracks may repeat. -/
def trackList (repeats : Bool) : Parse String := do
  let ts ← Tracks.read (if repeats then orElse trackSize repeated else trackSize)
  if ts.sizes.isEmpty then refuse .declaration else pure ts.text

/-- Tracks, or none. -/
def tracks : Parse String := orElse (expectKeyword "none" *> pure "none") (trackList true)

/-- The sizes of tracks that are added where they are needed. -/
def addedTracks : Parse String := do pure (orText "auto" (spaced (← many trackSize)))

/-! ## Areas -/

/-- The names of the areas in a row; a run of points stands for none. -/
def areaWords : List Char → Option (List String)
  | cs => split (cs.length + 1) cs
where
  isSpace (c : Char) : Bool := [' ', '\t', '\n', '\x0c', '\r'].contains c
  isName (c : Char) : Bool := c.isAlphanum || c = '_' || c = '-' || 0x80 ≤ c.toNat
  split : Nat → List Char → Option (List String)
    | 0, _ => some []
    | fuel + 1, cs =>
      match cs.dropWhile isSpace with
      | [] => some []
      | c :: rest =>
        if c = '.' then (split fuel (rest.dropWhile (· = '.'))).map ("." :: ·)
        else if isName c then
          (split fuel (rest.dropWhile isName)).map (String.ofList (c :: rest.takeWhile isName) :: ·)
        else none

/-- A row of areas; every row has as many as the ones before. -/
def areaRow (columns : Option Nat) : Parse (List String) := do
  let s ← expectString
  match areaWords s.toList with
  | some (w :: ws) => if columns.all (· == (w :: ws).length) then pure (w :: ws) else refuse .value
  | _ => refuse .value

/-- A row of areas as text. -/
def rowText (ws : List String) : String := "\"" ++ " ".intercalate ws ++ "\""

/-- Rows of areas; at most `fuel` of them. -/
def areaRows : Nat → Option Nat → Parse (List (List String))
  | 0, _ => pure []
  | fuel + 1, columns => do
    match ← attempt (lookahead expectString) with
    | none => pure []
    | some _ => do
      let row ← areaRow columns
      let rows ← areaRows fuel (some row.length)
      pure (row :: rows)

/-- Spaces in front of the lines behind the first. -/
def indented (width : Nat) (s : String) : String := String.ofList (List.replicate width ' ') ++ s

/-- The first line, and the other ones under the place where it starts. -/
def underFirst (width : Nat) : List String → List String
  | [] => [""]
  | l :: ls => l :: ls.map (indented width)

/-- The areas of a grid. -/
def areas : Parse (List String) :=
  orElse (expectKeyword "none" *> pure ["none"]) fun s => (do
    let rows ← areaRows (s.rest.length + 1) none
    pure (underFirst "grid-template-areas: ".length (rows.map rowText)) : Parse (List String)) s

/-! ## Templates -/

/-- A row of a template: its areas, its size and the names of the line below it. -/
structure TemplateRow where
  row : List String
  size : String
  below : List String

/-- The rows of a template; at most `fuel` of them. -/
def templateRows : Nat → Option Nat → Parse (List TemplateRow)
  | 0, _ => pure []
  | fuel + 1, columns => do
    match ← attempt (lookahead expectString) with
    | none => pure []
    | some _ => do
      let row ← areaRow columns
      let size ← attempt trackSize
      let below ← optionalNames
      let further ← optionalNames
      let rows ← templateRows fuel (some row.length)
      pure (⟨row, size.getD "auto", below ++ further⟩ :: rows)

/-- The lines of a template's rows; `above` names the line above the first of them, and `current` is
the text of the line that is being written, if there is one. If a line between two rows has two names,
each stands with its own row. -/
def templateLines (above : List String) (current : Option String) : List TemplateRow → List String
  | [] => [current.getD "" ++ (if above.isEmpty then "" else " " ++ namesText above)]
  | r :: rows =>
    let area := rowText r.row ++ (if r.size == "auto" then "" else " " ++ r.size)
    let done := current.toList
    match above with
    | [] => done ++ templateLines r.below (some area) rows
    | [a, b] =>
      (current.getD "" ++ " " ++ namesText [a]) ::
        templateLines r.below (some (namesText [b] ++ " " ++ area)) rows
    | names => done ++ templateLines r.below (some (namesText names ++ " " ++ area)) rows

/-- A template with areas; the lines behind its first row stand under it. -/
def areaTemplate (width : Nat) : Parse (List String) := fun s => (do
  let above ← optionalNames
  let rows ← templateRows (s.rest.length + 1) none
  if rows.isEmpty then refuse .value
  else
    let lines := templateLines above none rows
    let columns ← behindSlash (trackList false)
    let behind := (columns.map ("/ " ++ ·)).toList
    pure (if 1 < lines.length then underFirst width (lines ++ behind) else lines ++ behind) :
  Parse (List String)) s

/-- A template without areas: rows, a slash and columns. -/
def trackTemplate : Parse (List String) := do
  let rows ← tracks
  expectToken (.delim '/')
  let columns ← tracks
  pure [rows ++ " / " ++ columns]

/-- A template; `none` stands alone. -/
def template (width : Nat) : Parse (List String) := do
  match ← attempt (expectKeyword "none") with
  | some _ => do
    expectExhausted
    pure ["none"]
  | none => orElse (areaTemplate width) trackTemplate

/-- Whether boxes fill the gaps that were left, in the order of the text or the other way round. -/
def autoFlow : Parse String :=
  orElse (do
    let dense ← expectKeyword "auto-flow" *> accepts (expectKeyword "dense")
    pure (if dense then " dense" else "")) do
    expectKeyword "dense"
    expectKeyword "auto-flow"
    pure " dense"

/-- A grid: a template, or rows or columns that are added where they are needed. -/
def grid : Parse (List String) :=
  firstOf [
    template "grid: ".length,
    (do
      let rows ← tracks
      expectToken (.delim '/')
      let dense ← autoFlow
      let columns ← addedTracks
      pure [rows ++ " / auto-flow" ++ dense ++ (if columns == "auto" then "" else " " ++ columns)]),
    (do
      let dense ← autoFlow
      let rows ← addedTracks
      expectToken (.delim '/')
      let columns ← tracks
      pure [if dense.isEmpty && rows == "auto" then
          (if columns == "none" then "none" else "none / " ++ columns)
        else "auto-flow" ++ dense ++ (if rows == "auto" then "" else " " ++ rows) ++ " / " ++ columns])]

/-- The order in which boxes that have no place fill a grid. -/
def gridAutoFlow : Parse String :=
  orElse (do
    let w ← expectWord ["row", "column"]
    let dense ← accepts (expectKeyword "dense")
    pure (if dense then w ++ " dense" else w)) do
    expectKeyword "dense"
    let w ← attempt (expectWord ["row", "column"])
    pure (w.getD "row" ++ " dense")

/-! ## Places -/

/-- A line of a grid. -/
inductive GridLine
  | auto
  | area (name : String)
  | line (index : Int) (name : Option String)
  | span (count : Int) (name : Option String)
  deriving BEq

namespace GridLine

def text : GridLine → String
  | auto => "auto"
  | area n => writeIdent n
  | line i n => spaced [toString i, (n.map writeIdent).getD ""]
  | span i n => spaced ["span", if i = 1 && n.isSome then "" else toString i, (n.map writeIdent).getD ""]

/-- An integer other than zero. -/
def index : Parse Int := do
  let i ← integer
  if i = 0 then refuse .declaration else pure i

def read : Parse GridLine :=
  firstOf [
    (do expectKeyword "auto"; pure auto),
    (do
      expectKeyword "span"
      orElse (do
        let i ← index
        let n ← attempt customName
        pure (span i n)) do
        let n ← customName
        let i ← attempt index
        pure (span (i.getD 1) (some n))),
    (do
      let i ← index
      let n ← attempt customName
      pure (line i n)),
    (do
      let n ← customName
      match ← attempt integer with
      | none => pure (area n)
      | some i => if i = 0 then refuse .declaration else pure (line i (some n)))]

/-- The line that is meant if the opposite one is left out. -/
def opposite : GridLine → GridLine
  | area n => area n
  | _ => auto

/-- Whether `b` may be left out behind `a`. -/
def implies (a b : GridLine) : Bool := b == a.opposite

end GridLine

/-- The lines at the start and at the end. -/
def gridSpan : Parse String := do
  let a ← GridLine.read
  let b ← match ← attempt (expectToken (.delim '/')) with
    | some _ => GridLine.read
    | none => pure a.opposite
  pure (if a.implies b then a.text else a.text ++ " / " ++ b.text)

/-- Lines behind slashes; at most `fuel` of them. -/
def furtherLines : Nat → Parse (List GridLine)
  | 0 => pure []
  | fuel + 1 => do
    match ← attempt (expectToken (.delim '/')) with
    | none => pure []
    | some _ => do
      let l ← GridLine.read
      let ls ← furtherLines fuel
      pure (l :: ls)

/-- The lines on the four sides of an area. -/
def gridArea : Parse String := do
  let rowStart ← GridLine.read
  let ls ← furtherLines 3
  let columnStart := (ls[0]?).getD rowStart.opposite
  let rowEnd := (ls[1]?).getD rowStart.opposite
  let columnEnd := (ls[2]?).getD columnStart.opposite
  let third := columnStart.implies columnEnd
  let second := third && rowStart.implies rowEnd
  let first := second && rowStart.implies columnStart
  let part (omitted : Bool) (l : GridLine) : String := if omitted then "" else " / " ++ l.text
  pure (rowStart.text ++ part first columnStart ++ part second rowEnd ++ part third columnEnd)

/-- The value of a property of grids, line by line. -/
def grid? (stem : String) : Option (Parse (List String)) :=
  let single (p : Parse String) : Option (Parse (List String)) := some do pure [← p]
  match stem with
  | "grid" => some grid
  | "grid-template" => some (template "grid-template: ".length)
  | "grid-template-areas" => some areas
  | "grid-template-columns" | "grid-template-rows" => single tracks
  | "grid-auto-columns" | "grid-auto-rows" => single addedTracks
  | "grid-auto-flow" => single gridAutoFlow
  | "grid-row" | "grid-column" => single gridSpan
  | "grid-area" => single gridArea
  | "grid-row-start" | "grid-row-end" | "grid-column-start" | "grid-column-end" =>
    single (GridLine.text <$> GridLine.read)
  | _ => none

end StyleBump.Property
