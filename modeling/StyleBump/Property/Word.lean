import StyleBump.Value.Shorthand

/-! # Properties whose values are words

The properties that take one word of a fixed set, and the words. Such a value is written in lower
case. -/

namespace StyleBump.Property
open Css Css.Parse Value

/-- Styles of a line. -/
def lineStyles : List String :=
  ["none", "hidden", "inset", "groove", "outset", "ridge", "dotted", "dashed", "solid", "double"]

/-- Ways to go on where content does not fit. -/
def overflowWords : List String := ["visible", "hidden", "clip", "scroll", "auto"]

/-- Ways to break a word that does not fit. -/
def wrapWords : List String := ["normal", "anywhere", "break-word"]

/-- Directions of a flexible box, and whether it takes several lines. -/
def flexDirections : List String := ["row", "row-reverse", "column", "column-reverse"]
def flexWraps : List String := ["nowrap", "wrap", "wrap-reverse"]

/-- Styles of a line through or along a text. -/
def textLineStyles : List String := ["solid", "double", "dotted", "dashed", "wavy"]

/-- The forms of a caret. -/
def caretShapes : List String := ["auto", "bar", "block", "underscore"]

/-- Where the marker of a list stands. -/
def markerPositions : List String := ["inside", "outside"]

/-- Which points are inside a shape. -/
def fillRules : List String := ["nonzero", "evenodd"]

/-- What can be asked of a container. -/
def containerTypes : List String := ["normal", "inline-size", "size", "scroll-state"]

/-- Fonts whose small letters are capitals. -/
def capitals : List String :=
  ["normal", "small-caps", "all-small-caps", "petite-caps", "all-petite-caps", "unicase",
   "titling-caps"]

/-- Properties that take one word of a set, with that set. -/
def wordTable : List (String × List String) :=
  [("visibility", ["visible", "hidden", "collapse"]),
   ("box-sizing", ["content-box", "border-box"]),
   ("overflow-x", overflowWords), ("overflow-y", overflowWords),
   ("text-overflow", ["clip", "ellipsis"]),
   ("position", ["static", "relative", "absolute", "fixed", "sticky", "-webkit-sticky"]),
   ("flex-direction", flexDirections), ("flex-wrap", flexWraps),
   ("box-orient", ["horizontal", "vertical", "inline-axis", "block-axis"]),
   ("box-direction", ["normal", "reverse"]),
   ("box-align", ["start", "end", "center", "baseline", "stretch"]),
   ("box-pack", ["start", "end", "center", "justify"]),
   ("box-lines", ["single", "multiple"]),
   ("flex-pack", ["start", "end", "center", "justify", "distribute"]),
   ("flex-align", ["start", "end", "center", "baseline", "stretch"]),
   ("flex-item-align", ["auto", "start", "end", "center", "baseline", "stretch"]),
   ("flex-line-pack", ["start", "end", "center", "justify", "distribute", "stretch"]),
   ("font-variant-caps", capitals),
   ("transform-style", ["flat", "preserve-3d"]),
   ("transform-box", ["content-box", "border-box", "fill-box", "stroke-box", "view-box"]),
   ("backface-visibility", ["visible", "hidden"]),
   ("white-space", ["normal", "pre", "nowrap", "pre-wrap", "break-spaces", "pre-line"]),
   ("word-break", ["normal", "keep-all", "break-all", "break-word"]),
   ("line-break", ["auto", "loose", "normal", "strict", "anywhere"]),
   ("hyphens", ["none", "manual", "auto"]),
   ("overflow-wrap", wrapWords), ("word-wrap", wrapWords),
   ("text-align", ["start", "end", "left", "right", "center", "justify", "match-parent", "justify-all"]),
   ("text-align-last", ["auto", "start", "end", "left", "right", "center", "justify", "match-parent"]),
   ("text-justify", ["auto", "none", "inter-word", "inter-character"]),
   ("text-decoration-style", textLineStyles),
   ("text-decoration-skip-ink", ["auto", "none", "all"]),
   ("box-decoration-break", ["slice", "clone"]),
   ("direction", ["ltr", "rtl"]),
   ("unicode-bidi",
     ["normal", "embed", "isolate", "bidi-override", "isolate-override", "plaintext"]),
   ("resize", ["none", "both", "horizontal", "vertical", "block", "inline"]),
   ("caret-shape", caretShapes),
   ("user-select", ["auto", "text", "none", "contain", "all"]),
   ("list-style-position", markerPositions),
   ("marker-side", ["match-self", "match-parent"]),
   ("fill-rule", fillRules), ("clip-rule", fillRules),
   ("stroke-linecap", ["butt", "round", "square"]),
   ("stroke-linejoin", ["miter", "miter-clip", "round", "bevel", "arcs"]),
   ("color-interpolation", ["auto", "srgb", "linearrgb"]),
   ("color-interpolation-filters", ["auto", "srgb", "linearrgb"]),
   ("color-rendering", ["auto", "optimizespeed", "optimizequality"]),
   ("shape-rendering", ["auto", "optimizespeed", "crispedges", "geometricprecision"]),
   ("text-rendering", ["auto", "optimizespeed", "optimizelegibility", "geometricprecision"]),
   ("image-rendering", ["auto", "optimizespeed", "optimizequality"]),
   ("mask-type", ["luminance", "alpha"]),
   ("mask-border-mode", ["luminance", "alpha"]),
   ("container-type", containerTypes),
   ("mix-blend-mode",
     ["normal", "multiply", "screen", "overlay", "darken", "lighten", "color-dodge", "color-burn",
      "hard-light", "soft-light", "difference", "exclusion", "hue", "saturation", "color",
      "luminosity", "plus-darker", "plus-lighter"]),
   ("print-color-adjust", ["economy", "exact"])] ++
  (sideNames.map fun s => ("border-" ++ s ++ "-style", lineStyles))
where
  sideNames : List String :=
    ["top", "bottom", "left", "right", "block-start", "block-end", "inline-start", "inline-end"]

/-- Properties that take a list of words of a set between commas, with that set. -/
def wordListTable : List (String × List String) :=
  [("background-attachment", ["scroll", "fixed", "local"]),
   ("background-origin", ["border-box", "padding-box", "content-box"]),
   ("background-clip", ["border-box", "padding-box", "content-box", "border", "text"]),
   ("animation-direction", ["normal", "reverse", "alternate", "alternate-reverse"]),
   ("animation-play-state", ["running", "paused"]),
   ("animation-fill-mode", ["none", "forwards", "backwards", "both"]),
   ("animation-composition", ["replace", "add", "accumulate"]),
   ("mask-mode", ["luminance", "alpha", "match-source"]),
   ("mask-composite", ["add", "subtract", "intersect", "exclude"]),
   ("mask-source-type", ["auto", "luminance", "alpha"]),
   ("-webkit-mask-composite",
     ["clear", "copy", "source-over", "source-in", "source-out", "source-atop",
      "destination-over", "destination-in", "destination-out", "destination-atop", "xor"])]

/-- The value of a property that takes a word, or several between commas. -/
def word? (stem : String) : Option (Parse String) :=
  match wordTable.lookup stem, wordListTable.lookup stem with
  | some ws, _ => some (expectWord ws)
  | none, some ws => some (commaList (expectWord ws))
  | none, none => none

/-- The words that a property takes between commas. -/
def wordsOf (stem : String) : List String := (wordListTable.lookup stem).getD []

end StyleBump.Property
