import StyleBump.Color.Mix
import StyleBump.Value.Math

/-! # Reading colors

A color is given by a name, by a code, or by a function of its channels. Channels may be missing, may be
calculated, and may refer to the channels of another color. What can be written with four bytes is; a
color of another space keeps its channels. -/

namespace StyleBump

/-- A color as a value. A `soft` color is one of the spaces that are written with bytes, whose channels
are not rounded yet; a `tone` is written by its channels. -/
inductive Color
  | current
  | bytes (c : Rgba)
  | soft (s : Color.Space) (t : Color.Tone)
  | tone (s : Color.Space) (t : Color.Tone)
  | lightDark (light dark : Color)
  | system (name : String)

namespace Color
open Css Css.Parse Value

/-- The colors of a program's own surface. -/
def systemNames : List String :=
  ["accentcolor", "accentcolortext", "activetext", "buttonborder", "buttonface", "buttontext", "canvas",
   "canvastext", "field", "fieldtext", "graytext", "highlight", "highlighttext", "linktext", "mark",
   "marktext", "selecteditem", "selecteditemtext", "visitedtext", "activeborder", "activecaption",
   "appworkspace", "background", "buttonhighlight", "buttonshadow", "captiontext", "inactiveborder",
   "inactivecaption", "inactivecaptiontext", "infobackground", "infotext", "menu", "menutext",
   "scrollbar", "threeddarkshadow", "threedface", "threedhighlight", "threedlightshadow",
   "threedshadow", "window", "windowframe", "windowtext"]

/-- The name of a space in front of its channels. -/
def Space.name : Space → String
  | srgb => "srgb"
  | hsl => "hsl"
  | hwb => "hwb"
  | srgbLinear => "srgb-linear"
  | displayP3 => "display-p3"
  | a98 => "a98-rgb"
  | prophoto => "prophoto-rgb"
  | rec2020 => "rec2020"
  | xyzD50 => "xyz-d50"
  | xyzD65 => "xyz"
  | lab => "lab"
  | lch => "lch"
  | oklab => "oklab"
  | oklch => "oklch"

/-- The space of a name inside `color()`. -/
def Space.ofName? (name : String) : Option Space :=
  match name.toLower with
  | "srgb" => some srgb
  | "srgb-linear" => some srgbLinear
  | "display-p3" => some displayP3
  | "a98-rgb" => some a98
  | "prophoto-rgb" => some prophoto
  | "rec2020" => some rec2020
  | "xyz-d50" => some xyzD50
  | "xyz" | "xyz-d65" => some xyzD65
  | _ => none

/-- The space of a name in a mixture. -/
def Space.ofMixName? (name : String) : Option Space :=
  match name.toLower with
  | "srgb" => some srgb
  | "srgb-linear" => some srgbLinear
  | "lab" => some lab
  | "oklab" => some oklab
  | "xyz" | "xyz-d65" => some xyzD65
  | "xyz-d50" => some xyzD50
  | "hsl" => some hsl
  | "hwb" => some hwb
  | "lch" => some lch
  | "oklch" => some oklch
  | _ => none

/-- A channel as text. -/
def channelText (x : Float32) : String := if x.isNaN then "none" else Decimal.terse x

/-- The alpha channel with the slash in front of it; an opaque color has none. -/
def alphaText (x : Float32) : String :=
  if x.isNaN || 1.1920929e-7 < (x - 1.0).abs then " / " ++ channelText x else ""

/-- The lightness of a color as a share of white. -/
def lightnessText (x : Float32) : String := if x.isNaN then "none" else percentText x

/-- A color written by its channels. -/
def toneText (s : Space) (t : Tone) : String :=
  let tail := channelText t.b ++ " " ++ channelText t.c ++ alphaText t.alpha ++ ")"
  match s with
  | .lab | .lch => s.name ++ "(" ++ lightnessText (t.a / 100.0) ++ " " ++ tail
  | .oklab | .oklch => s.name ++ "(" ++ lightnessText t.a ++ " " ++ tail
  | s => "color(" ++ s.name ++ " " ++ channelText t.a ++ " " ++ tail

/-- A color as text. -/
def text : Color → String
  | current => "currentColor"
  | bytes c => c.text
  | soft s t => (Tone.toRgba s t).text
  | tone s t => toneText s t
  | lightDark a b => "light-dark(" ++ a.text ++ ", " ++ b.text ++ ")"
  | system n => n

/-- The color of a word. -/
def ofWord? (name : String) : Option Color :=
  let low := name.toLower
  if low == "currentcolor" then some current
  else if low == "transparent" then some (bytes .transparent)
  else match ofName? low with
    | some n => some (bytes (Rgba.ofBits n))
    | none => if systemNames.contains low then some (system low) else none

/-- The channels of a color in a space, if it has any. -/
def inSpace? (target : Space) : Color → Option Tone
  | bytes c => some ((Tone.ofRgba c).convert .srgb target)
  | soft s t => some (t.convert s target)
  | tone s t => some (t.convert s target)
  | _ => none

/-! ## Channels -/

/-- A number within bounds; a missing one stays missing. -/
def clamp (low high x : Float32) : Float32 := if x < low then low else if high < x then high else x

/-- Names of the channels of another color that calculations may refer to. -/
abbrev Names := String → Option Float32

/-- A channel of another color, or a calculation with some. -/
def namedNumber (names : Names) : Parse Float32 :=
  orElse (do
    let p ← here
    let n ← expectIdent
    match names n.toLower with
    | some x => pure x
    | none => refuseAt p (.unexpected (.ident n)))
  (do Math.asNumber (← Math.read (fun n => names n.toLower) .numbers))

/-- A channel, as a number or as a share. -/
inductive Channel
  | number (x : Float32)
  | share (x : Float32)

/-- A channel; `none` stands for a missing one. -/
def channel (names : Names) : Parse Channel :=
  orElse (.number <$> namedNumber names) <|
  orElse (do expectKeyword "none"; pure (.number missing)) <|
  orElse (.number <$> Value.number) (.share <$> portion)

/-- A channel in which a share counts out of `whole`. -/
def scaledChannel (names : Names) (whole : Float32) : Parse Float32 := do
  match ← channel names with
  | .number x => pure x
  | .share x => pure (x * whole)

/-- A hue in degrees. -/
def hueChannel (names : Names) : Parse Float32 :=
  orElse (namedNumber names) <|
  orElse (do expectKeyword "none"; pure missing) <|
  orElse (do
    match ← angle with
    | .angle x u => pure (inDegrees x u)
    | q => pure q.amount) Value.number

/-- The alpha channel behind a slash. -/
def slashAlpha (names : Names) : Parse Float32 := do
  match ← attempt (expectToken (.delim '/')) with
  | some _ => clamp 0.0 1.0 <$> scaledChannel names 1.0
  | none => pure 1.0

/-- The alpha channel behind a comma. -/
def commaAlpha : Parse Float32 := do
  if ← exhausted then pure 1.0
  else
    expectToken .comma
    let x ← orElse Value.number portion
    pure (clamp 0.0 1.0 x)

/-- The channels of a color that a function's arguments may refer to. -/
def namesOf (s : Space) (t : Tone) : Names := fun n =>
  let pick (x y z : String) : Option Float32 :=
    if n == x then some t.a else if n == y then some t.b else if n == z then some t.c
    else if n == "alpha" then some t.alpha else none
  match s with
  | .hsl => pick "h" "s" "l"
  | .hwb => pick "h" "w" "b"
  | .lab | .oklab => pick "l" "a" "b"
  | .lch | .oklch => pick "l" "c" "h"
  | .xyzD50 | .xyzD65 => pick "x" "y" "z"
  | _ => pick "r" "g" "b"

/-- Arguments of a function: the names they may refer to, none by themselves. -/
abbrev Arguments (α : Type) := Option Names → Parse α

def noNames : Names := fun _ => none

/-- Red, green and blue as parts of one, and whether commas stand between them. -/
def rgbChannels (base : Option Names) : Parse (Float32 × Float32 × Float32 × Bool) := do
  let names := base.getD noNames
  let first ← channel names
  let known := match first with
    | .number x => !x.isNaN
    | .share _ => true
  let commas ← if base.isNone && known then attempt (expectToken .comma) else pure none
  match commas, first with
  | some _, .number r => do
    let g ← Value.number
    expectToken .comma
    let b ← Value.number
    let part (x : Float32) := clamp 0.0 255.0 x.round / 255.0
    pure (part r, part g, part b, true)
  | some _, .share r => do
    let g ← portion
    expectToken .comma
    let b ← portion
    let part (x : Float32) := clamp 0.0 255.0 (x * 255.0).round / 255.0
    pure (part r, part g, part b, true)
  | none, r => do
    let part : Channel → Float32
      | .number x => clamp 0.0 255.0 x.round / 255.0
      | .share x => clamp 0.0 1.0 x
    let g ← channel names
    let b ← channel names
    pure (part r, part g, part b, false)

/-- A color of a space that is written with bytes. -/
def settled (s : Space) (t : Tone) : Color :=
  if t.a.isNaN || t.b.isNaN || t.c.isNaN || t.alpha.isNaN then soft s t else bytes (t.toRgba s)

/-- The alpha channel behind other channels. -/
def alphaChannel (names : Names) (commas : Bool) : Parse Float32 :=
  if commas then commaAlpha else slashAlpha names

def rgbArguments : Arguments Color := fun base => do
  let (r, g, b, commas) ← rgbChannels base
  let alpha ← alphaChannel (base.getD noNames) commas
  pure (settled .srgb ⟨r, g, b, alpha⟩)

/-- Hue and two shares, and whether commas stand between them. -/
def hueChannels (oldStyle : Bool) (base : Option Names) : Parse (Float32 × Float32 × Float32 × Bool) := do
  let names := base.getD noNames
  let h ← hueChannel names
  let commas ← if oldStyle && base.isNone && !h.isNaN then attempt (expectToken .comma) else pure none
  match commas with
  | some _ => do
    let a ← portion
    expectToken .comma
    let b ← portion
    pure (h, clamp 0.0 1.0 a, clamp 0.0 1.0 b, true)
  | none => do
    let a ← scaledChannel names 100.0
    let b ← scaledChannel names 100.0
    pure (h, clamp 0.0 1.0 (a / 100.0), clamp 0.0 1.0 (b / 100.0), false)

def hueArguments (s : Space) : Arguments Color := fun base => do
  let (h, x, y, commas) ← hueChannels (s = .hsl) base
  let alpha ← alphaChannel (base.getD noNames) commas
  pure (settled s ⟨h, x, y, alpha⟩)

/-- Lightness and two rectangular channels; shares count out of the wholes. -/
def labArguments (s : Space) (whole range : Float32) : Arguments Color := fun base => do
  let names := base.getD noNames
  let l ← scaledChannel names whole
  let a ← scaledChannel names range
  let b ← scaledChannel names range
  let alpha ← slashAlpha names
  pure (tone s ⟨if l < 0.0 then 0.0 else l, a, b, alpha⟩)

/-- Lightness, chroma and hue. -/
def lchArguments (s : Space) (whole range : Float32) : Arguments Color := fun base => do
  let names := base.getD noNames
  let l ← scaledChannel names whole
  let c ← scaledChannel names range
  let h ← hueChannel names
  let alpha ← slashAlpha names
  pure (tone s ⟨if l < 0.0 then 0.0 else l, if c < 0.0 then 0.0 else c, h, alpha⟩)

/-- The channels behind the name of a space. -/
def spaceArguments (s : Space) : Arguments Color := fun base => do
  let names := base.getD noNames
  let a ← scaledChannel names 1.0
  let b ← scaledChannel names 1.0
  let c ← scaledChannel names 1.0
  let alpha ← slashAlpha names
  pure (tone s ⟨a, b, c, alpha⟩)

/-- How much the channels of a space are enlarged where they are referred to. -/
def enlarged (s : Space) (old : Bool) (t : Tone) : Tone :=
  match s, old with
  | .srgb, true => { t with a := t.a * 255.0, b := t.b * 255.0, c := t.c * 255.0 }
  | .hsl, _ | .hwb, _ => { t with b := t.b * 100.0, c := t.c * 100.0 }
  | _, _ => t

/-- Arguments that refer to a color. One that depends on the surroundings gives another such. -/
def relativeTo (s : Space) (old : Bool) (arguments : Arguments Color) : Color → Parse Color
  | lightDark a b => fun cursor =>
    match relativeTo s old arguments a cursor, relativeTo s old arguments b cursor with
    | .ok (x, _), .ok (y, rest) => .ok (lightDark x y, rest)
    | .error e, _ => .error e
    | _, .error e => .error e
  | c =>
    match c.inSpace? s with
    | some t => arguments (some (namesOf s (enlarged s old (mapped s t.resolved))))
    | none => refuse .value

/-! ## Mixtures -/

/-- The mixture of two colors. -/
def mix? (s : Space) (r : Route) (p : Float32) (x : Color) (q : Float32) (y : Color) : Option Color :=
  let prepare : Color → Option Tone
    | bytes c => some (prepared .srgb s (Tone.ofRgba c))
    | soft s' t => some (prepared s' s t)
    | tone s' t => some (prepared s' s t)
    | _ => none
  let single (x y : Color) : Option Color := do
    let m := blend s r p (← prepare x) q (← prepare y)
    some (match s with
      | .srgb | .hsl | .hwb => soft s m
      | _ => tone s m)
  match x, y with
  | lightDark a b, lightDark c d => do some (lightDark (← single a c) (← single b d))
  | lightDark a b, c => do some (lightDark (← single a c) (← single b c))
  | a, lightDark c d => do some (lightDark (← single a c) (← single a d))
  | a, b => single a b

/-- The way around the circle of hues. -/
def hueRoute : Parse Route := do
  let p ← here
  let n ← expectIdent
  let r ← match n.toLower with
    | "shorter" => pure Route.shorter
    | "longer" => pure Route.longer
    | "increasing" => pure Route.increasing
    | "decreasing" => pure Route.decreasing
    | _ => refuseAt p (.unexpected (.ident n))
  expectKeyword "hue"
  pure r

/-- A weight. -/
def weight : Parse Float32 := do
  match ← quantity .percentage with
  | .percentage x => pure x
  | _ => refuse .value

/-! ## Colors -/

/-- The first of two colors that depend on the surroundings. -/
def light : Color → Color
  | lightDark a _ => a
  | c => c

/-- The second of them. -/
def dark : Color → Color
  | lightDark _ b => b
  | c => c

mutual
def readColor : Nat → Parse Color
  | 0 => refuse .tooDeep
  | n + 1 => do
    let p ← here
    let c ← next
    match c with
    | .leaf ⟨.ident w, _⟩ =>
      match ofWord? w with
      | some c => pure c
      | none => Parse.unexpected p c
    | .leaf ⟨.hash h, _⟩ | .leaf ⟨.idHash h, _⟩ =>
      match Rgba.ofHash? h with
      | some c => pure (bytes c)
      | none => Parse.unexpected p c
    | .block _ ⟨.function f, _⟩ body _ =>
      let base := readBase n
      match f.toLower with
      | "rgb" | "rgba" => within body (base .srgb true rgbArguments)
      | "hsl" | "hsla" => within body (base .hsl true (hueArguments .hsl))
      | "hwb" => within body (base .hwb true (hueArguments .hwb))
      | "lab" => within body (base .lab false (labArguments .lab 100.0 125.0))
      | "oklab" => within body (base .oklab false (labArguments .oklab 1.0 0.4))
      | "lch" => within body (base .lch false (lchArguments .lch 100.0 150.0))
      | "oklch" => within body (base .oklch false (lchArguments .oklch 1.0 0.4))
      | "color" => within body (readInSpace n)
      | "color-mix" => within body (readMix n)
      | "light-dark" => within body do
        let a ← readColor n
        expectToken .comma
        let b ← readColor n
        pure (lightDark a.light b.dark)
      | _ => Parse.unexpected p c
    | c => Parse.unexpected p c

/-- Arguments that may start with a color they refer to. -/
def readBase : Nat → Space → Bool → Arguments Color → Parse Color
  | 0, _, _, _ => refuse .tooDeep
  | n + 1, s, old, arguments => do
    match ← attempt (expectKeyword "from") with
    | none => arguments none
    | some _ => do
      let c ← readColor n
      relativeTo s old arguments c

/-- The arguments of `color()`. -/
def readInSpace : Nat → Parse Color
  | 0 => refuse .tooDeep
  | n + 1 => do
    let base ← match ← attempt (expectKeyword "from") with
      | none => pure none
      | some _ => some <$> readColor n
    let p ← here
    let name ← expectIdent
    match Space.ofName? name with
    | none => refuseAt p (.unexpected (.ident name))
    | some s =>
      match base with
      | none => spaceArguments s none
      | some c => relativeTo s false (spaceArguments s) c

/-- The arguments of `color-mix()`. -/
def readMix : Nat → Parse Color
  | 0 => refuse .tooDeep
  | n + 1 => do
    expectKeyword "in"
    let p ← here
    let name ← expectIdent
    match Space.ofMixName? name with
    | none => refuseAt p (.unexpected (.ident name))
    | some s => do
      let r ← if s.hueAt.isSome then attempt hueRoute else pure none
      expectToken .comma
      let (p, x) ← readWeighted n
      expectToken .comma
      let (q, y) ← readWeighted n
      let (p, q) := match p, q with
        | none, none => (0.5, 0.5)
        | some p, none => (p, 1.0 - p)
        | none, some q => (1.0 - q, q)
        | some p, some q => (p, q)
      if p + q == 0.0 then refuse .value
      else match mix? s (r.getD .shorter) p x q y with
        | some c => pure c
        | none => refuse .value

/-- A color with its weight on either side. -/
def readWeighted : Nat → Parse (Option Float32 × Color)
  | 0 => refuse .tooDeep
  | n + 1 => do
    let before ← attempt weight
    let c ← readColor n
    match before with
    | some w => pure (some w, c)
    | none => do
      let w ← attempt weight
      pure (w, c)
end

/-- A color; no more steps are taken than the component values allow. -/
def read : Parse Color := fun s =>
  match s.skipGaps.rest with
  | c :: _ => readColor (4 * (Component.size c + 2)) s
  | [] => .error ⟨.endOfInput, s.position⟩

end Color

end StyleBump
