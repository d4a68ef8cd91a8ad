import StyleBump.Color.Basic

/-! # Color spaces

A tone is a color by three channels and an alpha channel in some color space. `Tone.convert` takes it to
another space: first from polar to rectangular channels, then through the channels of light that the
eye responds to, and back. A missing channel is held as not-a-number. -/

namespace StyleBump.Color

inductive Space
  | srgb
  | hsl
  | hwb
  | srgbLinear
  | displayP3
  | a98
  | prophoto
  | rec2020
  | xyzD50
  | xyzD65
  | lab
  | lch
  | oklab
  | oklch
  deriving DecidableEq, Repr

/-- The channels of a color in some space. -/
structure Tone where
  a : Float32
  b : Float32
  c : Float32
  alpha : Float32

/-- What a missing channel is held as. -/
def missing : Float32 := 0.0 / 0.0

/-- A channel, zero if it is missing. -/
def present (x : Float32) : Float32 := if x.isNaN then 0.0 else x

/-- Three numbers: channels, or one row of a change between spaces. -/
abbrev Triple := Float32 × Float32 × Float32

namespace Triple

def map (f : Float32 → Float32) (t : Triple) : Triple := (f t.1, f t.2.1, f t.2.2)

/-- Three rows applied to three channels. -/
def through (t r₁ r₂ r₃ : Triple) : Triple :=
  let row (r : Triple) := r.1 * t.1 + r.2.1 * t.2.1 + r.2.2 * t.2.2
  (row r₁, row r₂, row r₃)

end Triple

open Triple

namespace Tone

def channels (t : Tone) : Triple := (t.a, t.b, t.c)

def ofChannels (t : Triple) (alpha : Float32) : Tone := ⟨t.1, t.2.1, t.2.2, alpha⟩

/-- All missing channels set to zero. -/
def resolved (t : Tone) : Tone := ⟨present t.a, present t.b, present t.c, present t.alpha⟩

end Tone

/-! ## Curves -/

/-- The magnitude of `x` under a curve, with the sign of `x`. -/
def signed (f : Float32 → Float32) (x : Float32) : Float32 := if x < 0.0 then -(f x.abs) else f x.abs

def srgbToLight : Float32 → Float32 :=
  signed fun x => if x < 0.04045 then x / 12.92 else ((x + 0.055) / 1.055).pow 2.4

def lightToSrgb : Float32 → Float32 :=
  signed fun x => if 0.0031308 < x then 1.055 * x.pow (1.0 / 2.4) - 0.055 else 12.92 * x

def a98ToLight : Float32 → Float32 := signed fun x => x.pow (563.0 / 256.0)

def lightToA98 : Float32 → Float32 := signed fun x => x.pow (256.0 / 563.0)

def prophotoToLight : Float32 → Float32 :=
  signed fun x => if x ≤ 16.0 / 512.0 then x / 16.0 else x.pow 1.8

def lightToProphoto : Float32 → Float32 :=
  signed fun x => if 1.0 / 512.0 ≤ x then x.pow (1.0 / 1.8) else 16.0 * x

def rec2020ToLight : Float32 → Float32 :=
  signed fun x =>
    if x < 0.018053968510807 * 4.5 then x / 4.5
    else ((x + 1.09929682680944 - 1.0) / 1.09929682680944).pow (1.0 / 0.45)

def lightToRec2020 : Float32 → Float32 :=
  signed fun x =>
    if 0.018053968510807 < x then 1.09929682680944 * x.pow 0.45 - (1.09929682680944 - 1.0)
    else 4.5 * x

/-! ## Changes of light -/

def srgbLightToXyz (t : Triple) : Triple :=
  t.through (0.41239079926595934, 0.357584339383878, 0.1804807884018343)
    (0.21263900587151027, 0.715168678767756, 0.07219231536073371)
    (0.01933081871559182, 0.11919477979462598, 0.9505321522496607)

def xyzToSrgbLight (t : Triple) : Triple :=
  t.through (3.2409699419045226, -1.537383177570094, -0.4986107602930034)
    (-0.9692436362808796, 1.8759675015077202, 0.04155505740717559)
    (0.05563007969699366, -0.20397695888897652, 1.0569715142428786)

def displayP3LightToXyz (t : Triple) : Triple :=
  t.through (0.4865709486482162, 0.26566769316909306, 0.1982172852343625)
    (0.2289745640697488, 0.6917385218365064, 0.079286914093745)
    (0.0, 0.04511338185890264, 1.043944368900976)

def xyzToDisplayP3Light (t : Triple) : Triple :=
  t.through (2.493496911941425, -0.9313836179191239, -0.40271078445071684)
    (-0.8294889695615747, 1.7626640603183463, 0.023624685841943577)
    (0.03584583024378447, -0.07617238926804182, 0.9568845240076872)

def a98LightToXyz (t : Triple) : Triple :=
  t.through (0.5766690429101305, 0.1855582379065463, 0.1882286462349947)
    (0.29734497525053605, 0.6273635662554661, 0.07529145849399788)
    (0.02703136138641234, 0.07068885253582723, 0.9913375368376388)

def xyzToA98Light (t : Triple) : Triple :=
  t.through (2.0415879038107465, -0.5650069742788596, -0.34473135077832956)
    (-0.9692436362808795, 1.8759675015077202, 0.04155505740717557)
    (0.013444280632031142, -0.11836239223101838, 1.0151749943912054)

def prophotoLightToXyz50 (t : Triple) : Triple :=
  t.through (0.7977604896723027, 0.13518583717574031, 0.0313493495815248)
    (0.2880711282292934, 0.7118432178101014, 0.00008565396060525902)
    (0.0, 0.0, 0.8251046025104601)

def xyz50ToProphotoLight (t : Triple) : Triple :=
  t.through (1.3457989731028281, -0.25558010007997534, -0.05110628506753401)
    (-0.5446224939028347, 1.5082327413132781, 0.02053603239147973)
    (0.0, 0.0, 1.2119675456389454)

def rec2020LightToXyz (t : Triple) : Triple :=
  t.through (0.6369580483012914, 0.14461690358620832, 0.1688809751641721)
    (0.2627002120112671, 0.6779980715188708, 0.05930171646986196)
    (0.0, 0.028072693049087428, 1.060985057710791)

def xyzToRec2020Light (t : Triple) : Triple :=
  t.through (1.7166511879712674, -0.35567078377639233, -0.25336628137365974)
    (-0.6666843518324892, 1.6164812366349395, 0.01576854581391113)
    (0.017639857445310783, -0.042770613257808524, 0.9421031212354738)

def xyzToXyz50 (t : Triple) : Triple :=
  t.through (1.0479298208405488, 0.022946793341019088, -0.05019222954313557)
    (0.029627815688159344, 0.990434484573249, -0.01707382502938514)
    (-0.009243058152591178, 0.015055144896577895, 0.7518742899580008)

def xyz50ToXyz (t : Triple) : Triple :=
  t.through (0.9554734527042182, -0.023098536874261423, 0.0632593086610217)
    (-0.028369706963208136, 1.0099954580058226, 0.021041398966943008)
    (0.012314001688319899, -0.020507696433477912, 1.3303659366080753)

/-- The white that the channels of `lab` are relative to. -/
def white50 : Triple := (0.3457 / 0.3585, 1.0, (1.0 - 0.3457 - 0.3585) / 0.3585)

def xyz50ToLab (t : Triple) : Triple :=
  let f (x : Float32) : Float32 :=
    if 216.0 / 24389.0 < x then x.cbrt else (24389.0 / 27.0 * x + 16.0) / 116.0
  let f₀ := f (t.1 / white50.1)
  let f₁ := f (t.2.1 / white50.2.1)
  let f₂ := f (t.2.2 / white50.2.2)
  (116.0 * f₁ - 16.0, 500.0 * (f₀ - f₁), 200.0 * (f₁ - f₂))

def labToXyz50 (t : Triple) : Triple :=
  let k : Float32 := 24389.0 / 27.0
  let e : Float32 := 216.0 / 24389.0
  let f₁ := (t.1 + 16.0) / 116.0
  let f₀ := t.2.1 / 500.0 + f₁
  let f₂ := f₁ - t.2.2 / 200.0
  let cube (x : Float32) := x * x * x
  let g (x : Float32) := if e < cube x then cube x else (116.0 * x - 16.0) / k
  let y := if k * e < t.1 then cube f₁ else t.1 / k
  (g f₀ * white50.1, y * white50.2.1, g f₂ * white50.2.2)

def xyzToOklab (t : Triple) : Triple :=
  let lms : Triple := t.through (0.8190224432164319, 0.3619062562801221, -0.12887378261216414)
    (0.0329836671980271, 0.9292868468965546, 0.03614466816999844)
    (0.048177199566046255, 0.26423952494422764, 0.6335478258136937)
  (lms.map Float32.cbrt).through (0.2104542553, 0.7936177850, -0.0040720468)
    (1.9779984951, -2.4285922050, 0.4505937099)
    (0.0259040371, 0.7827717662, -0.8086757660)

def oklabToXyz (t : Triple) : Triple :=
  let lms : Triple := t.through (0.99999999845051981432, 0.39633779217376785678, 0.21580375806075880339)
    (1.0000000088817607767, -0.1055613423236563494, -0.063854174771705903402)
    (1.0000000546724109177, -0.089484182094965759684, -1.2914855378640917399)
  (lms.map fun x => x * x * x).through (1.2268798733741557, -0.5578149965554813, 0.28139105017721583)
    (-0.04057576262431372, 1.1122868293970594, -0.07171106666151701)
    (-0.07637294974672142, -0.4214933239627914, 1.5869240244272418)

/-! ## Polar channels -/

def pi : Float32 := 3.14159265358979323846

/-- Lightness, chroma and hue from rectangular channels. -/
def toPolar (t : Triple) : Triple :=
  let hue := t.2.2.atan2 t.2.1 * 180.0 / pi
  (t.1, (t.2.1 * t.2.1 + t.2.2 * t.2.2).sqrt, if hue < 0.0 then hue + 360.0 else hue)

def ofPolar (t : Triple) : Triple :=
  (t.1, t.2.1 * (t.2.2 * pi / 180.0).cos, t.2.1 * (t.2.2 * pi / 180.0).sin)

/-- A hue within one turn. -/
def turn (h : Float32) : Float32 := h - 360.0 * (h / 360.0).floor

/-- Red, green and blue from hue, saturation and lightness. -/
def hslToSrgb (t : Triple) : Triple :=
  let h := turn t.1
  let l := t.2.2
  let channel (n : Float32) : Float32 :=
    let k := n + h / 30.0
    let k := k - 12.0 * (k / 12.0).floor
    let a := t.2.1 * min l (1.0 - l)
    l - a * max (-1.0) (min (min (k - 3.0) (9.0 - k)) 1.0)
  (channel 0.0, channel 8.0, channel 4.0)

/-- Hue, saturation and lightness; a gray has no hue. -/
def srgbToHsl (t : Triple) : Triple :=
  let (r, g, b) := t
  let high := max (max r g) b
  let low := min (min r g) b
  let l := (low + high) / 2.0
  let d := high - low
  if d == 0.0 then (missing, 0.0, l)
  else
    let s := if l == 0.0 || l == 1.0 then 0.0 else (high - l) / min l (1.0 - l)
    let h := if high == r then (g - b) / d + (if g < b then 6.0 else 0.0)
      else if high == g then (b - r) / d + 2.0
      else (r - g) / d + 4.0
    (h * 60.0, s, l)

/-- Red, green and blue from hue, whiteness and blackness. -/
def hwbToSrgb (t : Triple) : Triple :=
  let (h, w, b) := t
  if 1.0 ≤ w + b then (w / (w + b), w / (w + b), w / (w + b))
  else (hslToSrgb (h, 1.0, 0.5)).map fun x => x * (1.0 - w - b) + w

def srgbToHwb (t : Triple) : Triple :=
  ((srgbToHsl t).1, min (min t.1 t.2.1) t.2.2, 1.0 - max (max t.1 t.2.1) t.2.2)

/-! ## From space to space -/

/-- The space with rectangular channels that a space is another form of. -/
def Space.base : Space → Space
  | hsl | hwb => srgb
  | lch => lab
  | oklch => oklab
  | s => s

/-- The channels of a space in its base. -/
def Space.toBase : Space → Triple → Triple
  | hsl, t => hslToSrgb t
  | hwb, t => hwbToSrgb t
  | lch, t => ofPolar t
  | oklch, t => ofPolar t
  | _, t => t

def Space.ofBase : Space → Triple → Triple
  | hsl, t => srgbToHsl t
  | hwb, t => srgbToHwb t
  | lch, t => toPolar t
  | oklch, t => toPolar t
  | _, t => t

/-- Whether the light of a space is measured against the warmer white. -/
def Space.isWarm : Space → Bool
  | lab | prophoto | xyzD50 => true
  | _ => false

/-- The light of channels in a base space, against the space's own white. -/
def Space.toLight : Space → Triple → Triple
  | srgb, t => srgbLightToXyz (t.map srgbToLight)
  | srgbLinear, t => srgbLightToXyz t
  | displayP3, t => displayP3LightToXyz (t.map srgbToLight)
  | a98, t => a98LightToXyz (t.map a98ToLight)
  | prophoto, t => prophotoLightToXyz50 (t.map prophotoToLight)
  | rec2020, t => rec2020LightToXyz (t.map rec2020ToLight)
  | lab, t => labToXyz50 t
  | oklab, t => oklabToXyz t
  | _, t => t

def Space.ofLight : Space → Triple → Triple
  | srgb, t => (xyzToSrgbLight t).map lightToSrgb
  | srgbLinear, t => xyzToSrgbLight t
  | displayP3, t => (xyzToDisplayP3Light t).map lightToSrgb
  | a98, t => (xyzToA98Light t).map lightToA98
  | prophoto, t => (xyz50ToProphotoLight t).map lightToProphoto
  | rec2020, t => (xyzToRec2020Light t).map lightToRec2020
  | lab, t => xyz50ToLab t
  | oklab, t => xyzToOklab t
  | _, t => t

namespace Tone

/-- A color of one space in another. -/
def convert (source target : Space) (t : Tone) : Tone :=
  if source = target then t
  else
    let t := t.resolved
    let x := source.toBase t.channels
    let x :=
      if source.base = target.base then x
      else if source.base = .srgb ∧ target.base = .srgbLinear then x.map srgbToLight
      else if source.base = .srgbLinear ∧ target.base = .srgb then x.map lightToSrgb
      else
        let light := source.base.toLight x
        let light := match source.base.isWarm, target.base.isWarm with
          | true, false => xyz50ToXyz light
          | false, true => xyzToXyz50 light
          | _, _ => light
        target.base.ofLight light
    ofChannels (target.ofBase x) t.alpha

/-- Four bytes as parts of one. -/
def ofRgba (c : Rgba) : Tone :=
  let part (b : UInt8) : Float32 := b.toNat.toFloat32 / 255.0
  ⟨part c.red, part c.green, part c.blue, part c.alpha⟩

/-- The bytes of a color. -/
def toRgba (s : Space) (t : Tone) : Rgba :=
  let t := (t.convert s .srgb).resolved
  Rgba.ofParts t.a t.b t.c t.alpha

end Tone

/-! ## Gamuts -/

/-- Whether a channel is a part of one. -/
def isPart (x : Float32) : Bool := 0.0 ≤ x && x ≤ 1.0

/-- Whether a color can be shown. -/
def inGamut (s : Space) (t : Tone) : Bool :=
  match s with
  | .srgb | .srgbLinear | .displayP3 | .a98 | .prophoto | .rec2020 => isPart t.a && isPart t.b && isPart t.c
  | .hsl | .hwb => isPart t.b && isPart t.c
  | _ => true

/-- The color with every channel cut to what can be shown. -/
def clipped (s : Space) (t : Tone) : Tone :=
  let cut (x : Float32) : Float32 := max 0.0 (min 1.0 x)
  match s with
  | .srgb | .srgbLinear | .displayP3 | .a98 | .prophoto | .rec2020 => ⟨cut t.a, cut t.b, cut t.c, t.alpha⟩
  | .hsl | .hwb => ⟨t.a, cut t.b, cut t.c, t.alpha⟩
  | _ => t

/-- How far apart two colors look. -/
def distance (s : Space) (x y : Tone) : Float32 :=
  let p := x.convert s .oklab
  let q := y.convert .oklch .oklab
  let square (z : Float32) := z * z
  (square (p.a - q.a) + square (p.b - q.b) + square (p.c - q.c)).sqrt

/-- Lowers the chroma of a color until it can be shown; at most `fuel` halvings. -/
def lowerChroma : Nat → Space → Float32 → Float32 → Tone → Tone
  | 0, s, _, _, t => t.convert .oklch s
  | fuel + 1, s, low, high, t =>
    if high - low ≤ 0.00001 then t.convert .oklch s
    else
      let mid := (low + high) / 2.0
      let t := { t with b := mid }
      let shown := t.convert .oklch s
      if inGamut s shown then lowerChroma fuel s mid high t
      else if distance s (clipped s shown) t < 0.02 then clipped s shown
      else lowerChroma fuel s low mid t

/-- The nearest color that can be shown. -/
def mapped (s : Space) (t : Tone) : Tone :=
  if inGamut s t then t
  else
    let o := t.convert s .oklch
    if (o.a - 1.0).abs < 0.00001 || 1.0 < o.a then (⟨1.0, 0.0, 0.0, o.alpha⟩ : Tone).convert .oklch s
    else if o.a < 0.00001 then (⟨0.0, 0.0, 0.0, o.alpha⟩ : Tone).convert .oklch s
    else lowerChroma 64 s 0.0 o.b o

end StyleBump.Color
