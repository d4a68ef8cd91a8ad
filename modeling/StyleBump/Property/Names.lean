/-! # Names of properties

The properties of the language, and the vendors that have variants of them. A known name is written in
lower case; all other names stay as the author wrote them. -/

namespace StyleBump

namespace Property

/-- `stem` followed by each of the endings. -/
def withEndings (stem : String) (endings : List String) : List String := endings.map (stem ++ ·)

/-- The four sides of a box, and its sides in the order of the text. -/
def sides : List String :=
  ["top", "bottom", "left", "right", "block-start", "block-end", "inline-start", "inline-end"]

/-- The pairs of sides in the order of the text. -/
def axes : List String := ["block", "inline"]

/-- The four corners of a box, and its corners in the order of the text. -/
def corners : List String :=
  ["top-left", "top-right", "bottom-left", "bottom-right", "start-start", "start-end", "end-start",
   "end-end"]

def webkit : String := "-webkit-"
def moz : String := "-moz-"
def ms : String := "-ms-"
def o : String := "-o-"

/-- Vendors that put their mark in front of a name. -/
def vendors : List String := [webkit, moz, ms, o]

/-- Properties that no vendor has a variant of. -/
def plain : List String :=
  withEndings "background" ["", "-color", "-image", "-position", "-position-x", "-position-y", "-size",
    "-repeat", "-attachment", "-origin"] ++
  ["opacity", "color", "display", "visibility", "width", "height", "min-width", "min-height",
   "max-width", "max-height", "block-size", "inline-size", "min-block-size", "min-inline-size",
   "max-block-size", "max-inline-size", "aspect-ratio", "overflow", "overflow-x", "overflow-y",
   "position", "top", "bottom", "left", "right"] ++
  withEndings "inset" ["", "-block", "-inline", "-block-start", "-block-end", "-inline-start", "-inline-end"] ++
  withEndings "border" (["", "-spacing", "-color", "-style", "-width", "-image-source", "-image-outset",
    "-image-repeat", "-image-width", "-image-slice"] ++
    (sides ++ axes).flatMap fun s => withEndings ("-" ++ s) ["", "-color", "-style", "-width"]) ++
  withEndings "border-" (["start-start-radius", "start-end-radius", "end-start-radius", "end-end-radius"]) ++
  withEndings "outline" ["", "-color", "-style", "-width"] ++
  ["place-content", "justify-self", "place-self", "justify-items", "place-items", "row-gap",
   "column-gap", "gap"] ++
  withEndings "grid" ["", "-template", "-template-columns", "-template-rows", "-template-areas",
    "-auto-columns", "-auto-rows", "-auto-flow", "-row", "-row-start", "-row-end", "-column",
    "-column-start", "-column-end", "-area"] ++
  ["margin", "padding", "scroll-margin", "scroll-padding"].flatMap (fun s =>
    s :: withEndings (s ++ "-") (sides ++ axes)) ++
  withEndings "font" ["", "-weight", "-size", "-stretch", "-family", "-style", "-variant-caps", "-palette"] ++
  ["line-height", "vertical-align"] ++
  withEndings "animation-" ["composition", "timeline", "range", "range-start", "range-end"] ++
  ["transform-box", "translate", "rotate", "scale"] ++
  withEndings "text-" ["transform", "align", "justify", "decoration-thickness", "shadow", "indent"] ++
  ["white-space", "word-break", "line-break", "overflow-wrap", "word-wrap", "word-spacing",
   "letter-spacing", "direction", "unicode-bidi", "resize", "cursor", "caret-color", "caret-shape",
   "caret", "accent-color", "list-style", "list-style-type", "list-style-image",
   "list-style-position", "marker-side", "composes", "fill", "fill-rule", "fill-opacity", "stroke",
   "stroke-opacity", "stroke-width", "stroke-linecap", "stroke-linejoin", "stroke-miterlimit",
   "stroke-dasharray", "stroke-dashoffset", "marker-start", "marker-mid", "marker-end", "marker",
   "color-interpolation", "color-interpolation-filters", "color-rendering", "shape-rendering",
   "text-rendering", "image-rendering", "clip-rule", "mask-mode", "mask-composite", "mask-type",
   "mask-position-x", "mask-position-y"] ++
  withEndings "mask-border" ["", "-source", "-mode", "-slice", "-width", "-outset", "-repeat"] ++
  ["z-index", "container-type", "container-name", "container", "view-transition-name",
   "view-transition-class", "view-transition-group", "color-scheme", "mix-blend-mode", "all"]

/-- Properties that some vendors have variants of, with these vendors. -/
def vendored : List (List String × List String) :=
  [([webkit], ["flex-grow", "flex-shrink", "flex-basis", "order", "align-content",
      "justify-content", "align-self", "align-items", "text-decoration-skip-ink", "text-emphasis",
      "text-emphasis-style", "text-emphasis-color", "text-emphasis-position",
      "box-decoration-break", "clip-path", "mask", "mask-image", "mask-repeat", "mask-position",
      "mask-clip", "mask-origin", "mask-size", "filter", "backdrop-filter", "print-color-adjust"]),
   ([webkit, moz], ["background-clip", "box-shadow", "box-sizing", "border-radius",
      "border-top-left-radius", "border-top-right-radius", "border-bottom-left-radius",
      "border-bottom-right-radius", "transform-style", "backface-visibility", "perspective",
      "perspective-origin", "text-decoration", "text-decoration-line", "text-decoration-style",
      "text-decoration-color"]),
   ([webkit, moz, ms], ["transition", "transition-property", "transition-duration",
      "transition-delay", "transition-timing-function", "hyphens", "text-size-adjust",
      "user-select", "appearance"]),
   ([webkit, moz, o], ["border-image", "animation", "animation-name", "animation-duration",
      "animation-timing-function", "animation-iteration-count", "animation-direction",
      "animation-play-state", "animation-delay", "animation-fill-mode"]),
   ([webkit, ms], ["flex", "flex-direction", "flex-wrap", "flex-flow"]),
   (vendors, ["transform", "transform-origin"]),
   ([moz, o], ["tab-size"]),
   ([moz], ["text-align-last"]),
   ([o], ["text-overflow"])]

/-- Properties that only vendors have, with these vendors. -/
def vendorOnly : List (List String × List String) :=
  [([webkit, moz], ["box-orient", "box-direction", "box-ordinal-group", "box-align", "box-flex",
      "box-pack", "box-lines"]),
   ([webkit], ["box-flex-group", "mask-box-image", "mask-box-image-source", "mask-box-image-slice",
      "mask-box-image-width", "mask-box-image-outset", "mask-box-image-repeat", "mask-source-type"]),
   ([ms], ["flex-pack", "flex-order", "flex-align", "flex-item-align", "flex-line-pack",
      "flex-positive", "flex-negative", "flex-preferred-size"])]

end Property

/-- A known property: the mark of the vendor whose variant it is, empty for none, and its name without
the mark. -/
structure Property where
  vendor : String
  stem : String
  deriving DecidableEq, Repr

namespace Property

/-- The name with its mark. -/
def name (p : Property) : String := p.vendor ++ p.stem

/-- Whether vendors have variants of the property. -/
def isVendored (p : Property) : Bool :=
  (vendored ++ vendorOnly).any fun f => f.2.contains p.stem

/-- The mark of a vendor that a name starts with, and the rest. -/
def split (name : String) : String × String :=
  match vendors.find? fun v => v.toList.isPrefixOf name.toList with
  | some v => (v, String.ofList (name.toList.drop v.length))
  | none => ("", name)

/-- The known property of a name in any case. -/
def ofName? (name : String) : Option Property :=
  let low := name.toLower
  let (vendor, stem) := split low
  let among (fs : List (List String × List String)) : Bool :=
    fs.any fun f => f.1.contains vendor && f.2.contains stem
  if vendor.isEmpty then
    if plain.contains stem || vendored.any (fun f => f.2.contains stem) then some ⟨"", stem⟩ else none
  else if among vendored || among vendorOnly then some ⟨vendor, stem⟩
  else if low == "-webkit-mask-composite" then some ⟨"", low⟩
  else none

/-- The spelling of a property's name. -/
def spelling (name : String) : String := ((ofName? name).map Property.name).getD name

end Property

end StyleBump
