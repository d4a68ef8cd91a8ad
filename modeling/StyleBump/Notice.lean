import StyleBump.SelectorDiff

/-! # Notices

What changed, selector by selector: the ones added, the ones removed, and those on both sides whose
declarations came to differ. Within a selector the last declaration of a property wins. -/

namespace StyleBump

/-- A property whose value differs; a side that does not set it has none. -/
structure PropertyChange where
  property : String
  old : Option String
  new : Option String
  deriving DecidableEq, Repr

inductive Notice
  | added (selector : String)
  | removed (selector : String)
  | changed (selector : String) (changes : List PropertyChange)
  deriving DecidableEq, Repr

/-- What each property is set to. -/
abbrev Settings := Keyed String

/-- Declarations are applied in order. -/
def Settings.apply (m : Settings) (ds : List Declaration) : Settings :=
  ds.foldl (fun m d => m.set d.property d.effectiveValue) m

/-- The settings of each selector that the top-level style rules of a sheet list. -/
def Sheet.settings (sheet : Sheet) : Keyed Settings :=
  sheet.styleRules.foldl (fun byselector r =>
    (r.selectors.getD []).foldl (fun m s =>
      m.update s fun old => Settings.apply (old.getD .empty) (r.declarations.getD [])) byselector) .empty

/-- The properties on which two settings differ, in ascending order. -/
def Settings.changes (before after : Settings) : List PropertyChange :=
  let properties := (before.keys ++ after.keys).foldl (fun s p => Keyed.set s p ()) Keyed.empty
  properties.keys.filterMap fun p =>
    let old := before.get? p
    let new := after.get? p
    if old = new then none else some ⟨p, old, new⟩

namespace Notice

def selector : Notice → String
  | added s => s
  | removed s => s
  | changed s _ => s

def marker : Notice → Char
  | added _ => '+'
  | removed _ => '-'
  | changed _ _ => '~'

def changes : Notice → List PropertyChange
  | changed _ cs => cs
  | _ => []

/-- The line of a change under its selector. -/
def changeLine (c : PropertyChange) : String :=
  "    " ++ c.property ++ ": " ++ c.old.getD "(none)" ++ " -> " ++ c.new.getD "(none)"

/-- A notice as text: marker and selector, and a line for each change. -/
def text (n : Notice) : String :=
  "\n".intercalate ((String.singleton n.marker ++ " " ++ n.selector) :: n.changes.map changeLine)

/-- The notices for a pair of sheets: additions, removals and changes, each in ascending order. A selector
without settings is taken to be set to `missing`. -/
def collectOr (missing : Settings) (old changed : Sheet) (diff : SelectorDiff) : List Notice :=
  let before := old.settings
  let after := changed.settings
  let kept := old.selectorSet.toList.filter changed.selectorSet.contains
  diff.added.map added ++ diff.removed.map removed ++ kept.filterMap fun s =>
    let cs := Settings.changes ((before.get? s).getD missing) ((after.get? s).getD missing)
    if cs.isEmpty then none else some (Notice.changed s cs)

/-- The notices, with nothing set where settings are missing. -/
def collect (old changed : Sheet) (diff : SelectorDiff) : List Notice := collectOr .empty old changed diff

end Notice

end StyleBump
