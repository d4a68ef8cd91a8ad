import StyleBump.Property.Border
import StyleBump.Property.Font

/-! # Text

How text is set: its case, its lines, the marks along it and the space within it. -/

namespace StyleBump.Property
open Css Css.Parse Value

/-- The case of the letters, and forms of full width or size. -/
structure Casing where
  letters : Option String
  fullWidth : Bool
  fullSize : Bool

namespace Casing

/-- Words for the case, and for the forms; at most `fuel` of them. `none` ends them. -/
def readAux : Nat → Casing → Parse Casing
  | 0, c => pure c
  | fuel + 1, c => do
    let w ← attempt (expectWord ((if c.letters.isNone then ["none", "uppercase", "lowercase", "capitalize"]
      else []) ++ ["full-width", "full-size-kana"]))
    match w with
    | none => pure c
    | some "none" => pure ⟨some "none", false, false⟩
    | some "full-width" => readAux fuel { c with fullWidth := true }
    | some "full-size-kana" => readAux fuel { c with fullSize := true }
    | some w => readAux fuel { c with letters := some w }

def read : Parse Casing := fun s => readAux (s.rest.length + 1) ⟨none, false, false⟩ s

def text (c : Casing) : String :=
  orText "none" (spaced [(c.letters.map (unlessIs "none")).getD "",
    if c.fullWidth then "full-width" else "", if c.fullSize then "full-size-kana" else ""])

end Casing

/-- Lines along a text, in the order in which they are written. -/
def textLines : List String := ["underline", "overline", "line-through", "blink"]

/-- Marks of errors, which stand alone. -/
def errorLines : List String := ["spelling-error", "grammar-error"]

/-- The lines along a text, behind those that were read; at most `fuel` of them. -/
def decorationLinesAux : Nat → List String → Parse (List String)
  | 0, ls => pure ls
  | fuel + 1, ls => do
    let w ← attempt (expectWord (textLines ++ (if ls.isEmpty then "none" :: errorLines else [])))
    match w with
    | none => pure ls
    | some w => decorationLinesAux fuel (if w == "none" then ls else w :: ls)

/-- The lines along a text; `none` says that there are none. -/
def decorationLines : Parse String := fun s => (do
  let _ ← lookahead (expectWord (textLines ++ "none" :: errorLines))
  let ls ← decorationLinesAux (s.rest.length + 1) []
  let alone := errorLines.find? ls.contains
  pure (alone.getD (orText "none" (spaced (textLines.filter ls.contains)))) : Parse String) s

/-- How thick a line along a text is. -/
def lineThickness : Parse String := wordOr ["auto", "from-font"] extentText

/-- Lines along a text with their thickness, style and color, which say nothing if there are none. -/
def textDecoration : Parse String := do
  let (line, thickness, style, tint) ← anyOrder [
    (do let s ← decorationLines; pure fun d => (s, d.2)),
    (do let s ← lineThickness; pure fun d => (d.1, s, d.2.2)),
    (do let s ← expectWord textLineStyles; pure fun d => (d.1, d.2.1, s, d.2.2.2)),
    (do let s ← color; pure fun d => (d.1, d.2.1, d.2.2.1, s))]
    (("none", "auto", "solid", textColor) : String × String × String × String)
  pure (if line == "none" then line
    else spaced [line, unlessIs "auto" thickness, unlessIs "solid" style, unlessIs textColor tint])

/-- Forms of the marks at each letter. -/
def emphasisShapes : List String := ["dot", "circle", "double-circle", "triangle", "sesame"]

/-- The mark at each letter: none, a form, filled unless it is said to be open, or a text. -/
def emphasisStyle : Parse String :=
  let shape := expectWord emphasisShapes
  firstOf [expectKeyword "none" *> pure "none", writeString <$> expectString, do
    let first ← attempt shape
    let fill ← attempt (expectWord ["filled", "open"])
    let second ← if first.isNone then attempt shape else pure none
    match first.or second, fill with
    | none, none => refuse .value
    | none, some f => pure f
    | some s, f => pure (spaced [unlessIs "filled" (f.getD ""), s])]

/-- The mark at each letter with its color. -/
def textEmphasis : Parse String := do
  let (style, tint) ← anyOrder [
    (do let s ← emphasisStyle; pure fun e => (s, e.2)),
    (do let s ← color; pure fun e => (e.1, s))] (("none", textColor) : String × String)
  pure (if style == "none" then style else spaced [style, unlessIs textColor tint])

/-- The side of the text that its marks are on; the right one is usual. -/
def emphasisPosition : Parse String := do
  let across := expectWord ["left", "right"]
  let side ← attempt across
  let above ← expectWord ["over", "under"]
  let second ← if side.isNone then attempt across else pure none
  pure (spaced [above, unlessIs "right" ((side.or second).getD "")])

/-- How far the first line of a text starts inside. -/
def textIndent : Parse String := do
  let (value, hanging, eachLine) ← anyOrder [
    (do let s ← extentText; pure fun i => (s, i.2)),
    (do expectKeyword "hanging"; pure fun i => (i.1, "hanging", i.2.2)),
    (do expectKeyword "each-line"; pure fun i => (i.1, i.2.1, "each-line"))]
    (("", "", "") : String × String × String)
  if value.isEmpty then refuse .declaration else pure (spaced [value, hanging, eachLine])

/-- The value of a property of text. -/
def text? (stem : String) : Option (Parse String) :=
  match stem with
  | "text-transform" => some (Casing.text <$> Casing.read)
  | "tab-size" => some (Calc.text <$> numberOrLength)
  | "word-spacing" | "letter-spacing" => some (wordOr ["normal"] lengthText)
  | "text-indent" => some textIndent
  | "text-decoration" => some textDecoration
  | "text-decoration-line" => some decorationLines
  | "text-decoration-thickness" => some lineThickness
  | "text-decoration-color" | "text-emphasis-color" => some color
  | "text-emphasis" => some textEmphasis
  | "text-emphasis-style" => some emphasisStyle
  | "text-emphasis-position" => some emphasisPosition
  | "text-size-adjust" => some (wordOr ["auto", "none"] portionText)
  | _ => none

end StyleBump.Property
