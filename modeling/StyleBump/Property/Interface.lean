import StyleBump.Property.Grid
import StyleBump.Value.Image
import StyleBump.Value.Measure

/-! # The interface

The pointer, the caret, the markers of lists, and the names by which containers and transitions of a
page are found. -/

namespace StyleBump.Property
open Css Css.Parse Value

/-- A color, or one that fits. -/
def autoColor : Parse String := wordOr ["auto"] color

/-! ## Pointer and caret -/

/-- The forms of the pointer. -/
def pointers : List String :=
  ["auto", "default", "none", "context-menu", "help", "pointer", "progress", "wait", "cell",
   "crosshair", "text", "vertical-text", "alias", "copy", "move", "no-drop", "not-allowed", "grab",
   "grabbing", "e-resize", "n-resize", "ne-resize", "nw-resize", "s-resize", "se-resize",
   "sw-resize", "w-resize", "ew-resize", "ns-resize", "nesw-resize", "nwse-resize", "col-resize",
   "row-resize", "all-scroll", "zoom-in", "zoom-out"]

/-- An image of the pointer, with the point of it that points. -/
def pointerImage : Parse String := do
  let u ← address
  match ← attempt number with
  | some x => do
    let y ← number
    pure (spaced [u, Decimal.terse x, Decimal.terse y])
  | none => pure u

/-- Images of the pointer, each with a comma behind it; at most `fuel` of them. -/
def pointerImages : Nat → Parse (List String)
  | 0 => pure []
  | fuel + 1 => do
    match ← attempt pointerImage with
    | some s => do
      expectToken .comma
      let ss ← pointerImages fuel
      pure (s :: ss)
    | none => pure []

/-- The form of the pointer behind the images to try first. -/
def cursor : Parse String := fun s => (do
  let images ← pointerImages (s.rest.length + 1)
  let w ← expectWord pointers
  pure (listed (images ++ [w])) : Parse String) s

/-- The color and the form of a caret. -/
def caret : Parse String := do
  let (tint, form) ← anyOrder [
    (do let s ← autoColor; pure fun c => (s, c.2)),
    (do let s ← expectWord caretShapes; pure fun c => (c.1, s))] (("auto", "auto") : String × String)
  pure (orText "auto" (spaced [unlessIs "auto" tint, unlessIs "auto" form]))

/-- The look of a control; words that are not known stay as they are. -/
def appearance : Parse String := do
  let n ← expectIdent
  let low := n.toLower
  pure (if known.contains low then low else n)
where
  known : List String :=
    ["none", "auto", "textfield", "menulist-button", "button", "checkbox", "listbox", "menulist",
     "meter", "progress-bar", "push-button", "radio", "searchfield", "slider-horizontal",
     "square-button", "textarea"]

/-- The schemes of color that a page has; without a known one it is the normal one. -/
structure Schemes where
  light : Bool
  dark : Bool
  only : Bool

namespace Schemes

def isNone (s : Schemes) : Bool := !s.light && !s.dark && !s.only

/-- Words behind the first; at most `fuel` of them. `only` is the last of them. -/
def readAux : Nat → Schemes → Parse Schemes
  | 0, s => pure s
  | fuel + 1, s => do
    match ← attempt expectIdent with
    | none => pure s
    | some n =>
      match n.toLower with
      | "normal" => refuse .value
      | "only" => if s.only then refuse .value else pure { s with only := true }
      | "light" => readAux fuel { s with light := true }
      | "dark" => readAux fuel { s with dark := true }
      | _ => readAux fuel s

def read : Parse Schemes := fun s => (do
  let n ← expectIdent
  let more := readAux (s.rest.length + 1)
  match n.toLower with
  | "normal" => pure ⟨false, false, false⟩
  | "only" => more ⟨false, false, true⟩
  | "light" => more ⟨true, false, false⟩
  | "dark" => more ⟨false, true, false⟩
  | _ => more ⟨false, false, false⟩ : Parse Schemes) s

def text (s : Schemes) : String :=
  if s.isNone then "normal"
  else (spaced [if s.light then "light" else "", if s.dark then "dark" else ""]) ++
    (if s.only then " only" else "")

end Schemes

/-! ## Lists -/

/-- Ways to count that every program knows. -/
def knownCounters : List String :=
  ["decimal", "decimal-leading-zero", "arabic-indic", "armenian", "upper-armenian",
   "lower-armenian", "bengali", "cambodian", "khmer", "cjk-decimal", "devanagari", "georgian",
   "gujarati", "gurmukhi", "hebrew", "kannada", "lao", "malayalam", "mongolian", "myanmar", "oriya",
   "persian", "lower-roman", "upper-roman", "tamil", "telugu", "thai", "tibetan", "lower-alpha",
   "lower-latin", "upper-alpha", "upper-latin", "cjk-earthly-branch", "cjk-heavenly-stem",
   "lower-greek", "hiragana", "hiragana-iroha", "katakana", "katakana-iroha", "disc", "circle",
   "square", "disclosure-open", "disclosure-closed", "japanese-informal", "japanese-formal",
   "korean-hangul-formal", "korean-hanja-informal", "korean-hanja-formal",
   "simp-chinese-informal", "simp-chinese-formal", "trad-chinese-informal", "trad-chinese-formal",
   "ethiopic-numeric"]

/-- Symbols to count with. -/
def symbols : Parse String := do
  let body ← expectFunction "symbols"
  let (system, ss) ← within body do
    let system ← attempt (expectWord ["cyclic", "numeric", "alphabetic", "symbolic", "fixed"])
    let s ← symbol
    let ss ← many symbol
    pure (system.getD "symbolic", s :: ss)
  pure ("symbols(" ++ spaced (unlessIs "symbolic" system :: ss) ++ ")")
where
  symbol : Parse String := orElse image (writeString <$> expectString)

/-- The marker of a list: a text, a way to count, or none. -/
def markerType : Parse String :=
  firstOf [expectKeyword "none" *> pure "none", writeString <$> expectString, symbols,
    expectWord knownCounters, writeIdent <$> customName]

/-- The markers of a list: their place, their image and what they are without one. -/
def listStyle : Parse String := do
  let (place, shown, kind) ← anyOrder [
    (do let s ← expectWord markerPositions; pure fun l => (s, l.2)),
    (do let s ← markerType; pure fun l => (l.1, l.2.1, s)),
    (do let s ← image; pure fun l => (l.1, s, l.2.2))]
    (("outside", "none", "disc") : String × String × String)
  pure (orText "outside" (spaced [unlessIs "outside" place, unlessIs "none" shown, unlessIs "disc" kind]))

/-! ## Names -/

/-- The name of a container; words of queries are none. -/
def containerName : Parse String := do
  let p ← here
  let n ← customName
  if ["none", "and", "not", "or"].contains n.toLower then refuseAt p (.unexpected (.ident n))
  else pure (writeIdent n)

/-- The names of a container, or none. -/
def containerNames : Parse String :=
  orElse (expectKeyword "none" *> pure "none") do
    let n ← containerName
    let ns ← many containerName
    pure (spaced (n :: ns))

/-- The names of a container, and behind a slash what is asked of it. -/
def container : Parse String := do
  let names ← containerNames
  let kind ← match ← attempt (expectToken (.delim '/')) with
    | some _ => expectWord containerTypes
    | none => pure "normal"
  pure (if kind == "normal" then names else names ++ " / " ++ kind)

/-- Names of the author's own with single spaces, or none. -/
def customNames : Parse String :=
  orElse (expectKeyword "none" *> pure "none") do
    let ns ← many customName
    if ns.contains "none" then refuse .value else pure (spaced (ns.map writeIdent))

/-- The value of a property of the interface. -/
def interface? (stem : String) : Option (Parse String) :=
  match stem with
  | "color" => some color
  | "cursor" => some cursor
  | "caret" => some caret
  | "caret-color" | "accent-color" => some autoColor
  | "appearance" => some appearance
  | "color-scheme" => some (Schemes.text <$> Schemes.read)
  | "list-style" => some listStyle
  | "list-style-type" => some markerType
  | "list-style-image" => some image
  | "container" => some container
  | "container-name" => some containerNames
  | "view-transition-name" => some (wordOr ["none", "auto"] (writeIdent <$> customName))
  | "view-transition-group" => some (wordOr ["normal", "contain", "nearest"] (writeIdent <$> customName))
  | "view-transition-class" => some customNames
  | _ => none

end StyleBump.Property
