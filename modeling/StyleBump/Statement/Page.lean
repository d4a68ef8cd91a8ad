import StyleBump.Statement.Block

/-! # Pages

Settings for printed pages: which of them are meant, what holds for a page as a whole, and what stands in the
boxes in its margin. -/

namespace StyleBump.Statement
open Css Css.Parse

/-- The boxes in the margin of a page. -/
def marginBoxes : List String :=
  ["top-left-corner", "top-left", "top-center", "top-right", "top-right-corner", "left-top",
   "left-middle", "left-bottom", "right-top", "right-middle", "right-bottom", "bottom-left-corner",
   "bottom-left", "bottom-center", "bottom-right", "bottom-right-corner"]

/-- The pseudo-classes of pages. -/
def pageClasses : List String := ["left", "right", "first", "last", "blank"]

/-- The pseudo-classes behind the name of a page. -/
def pageClassesAux : Nat → Parse String
  | 0 => pure ""
  | n + 1 => do
    match ← attempt (lookahead nextOrSpace) with
    | some c =>
      if c.isLeaf .colon then do
        let _ ← nextOrSpace
        let p ← here
        let name ← expectIdent
        let low := name.toLower
        if pageClasses.contains low then
          let rest ← pageClassesAux n
          pure (":" ++ low ++ rest)
        else refuseAt p (.unexpected (.ident name))
      else pure ""
    | none => pure ""

/-- Which pages are meant. -/
def pageSelector : Parse String := do
  let name ← attempt expectIdent
  let classes ← fun s => pageClassesAux (s.rest.length + 1) s
  if name.isNone && classes.isEmpty then refuse .pageSelector
  else pure (name.getD "" ++ classes)

/-- The pages that a block is for; none stands for all. -/
def pageSelectors : Parse (List String) := do
  pure ((← attempt (commaSeparated pageSelector)).getD [])

/-- The settings of a page and the lines of its margin boxes; at most `fuel` of them. -/
def pageAux : Nat → Parse (List Setting × List (List String))
  | 0 => pure ([], [])
  | n + 1 => do
    match ← peekItem with
    | none => pure ([], [])
    | some c => do
      let p ← here
      let _ ← next
      match c.token with
      | .ident name => do
        let s ← settingAfter name
        let (ss, boxes) ← pageAux n
        pure (s :: ss, boxes)
      | .atKeyword name => do
        let q ← here
        let low := name.toLower
        if !marginBoxes.contains low then refuseAt q (.unknownAtRule name)
        else
          before endsPrelude (pure ())
          match ← next with
          | .block .curly _ body _ => do
            let inner ← within body settings
            let (ss, boxes) ← pageAux n
            pure (ss, settingsBlock ("@" ++ low) inner :: boxes)
          | _ => refuse (.unexpected .semicolon)
      | t => refuseAt p (.unexpected t)

/-- The lines of a page. -/
def page (selectors : List String) : Parse (List String) := do
  let (ss, boxes) ← fun s => pageAux (s.rest.length + 1) s
  let heading := "@page" ++ (if selectors.isEmpty then "" else " " ++ ", ".intercalate selectors)
  let front := Setting.lines ss
  let back := [""].intercalate boxes
  pure (wrapTight heading (front ++ (if front.isEmpty || back.isEmpty then [] else [""]) ++ back))

end StyleBump.Statement
