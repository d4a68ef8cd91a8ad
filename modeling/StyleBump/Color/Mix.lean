import StyleBump.Color.Space

/-! # Mixtures of colors

A mixture weighs the channels of two colors of one space. Colors count by how opaque they are, and a hue
goes around the circle in the direction that was asked for. -/

namespace StyleBump.Color

/-- The way from one hue to another. -/
inductive Route
  | shorter
  | longer
  | increasing
  | decreasing
  deriving DecidableEq, Repr

namespace Space

/-- Which channel of a space is a hue. -/
def hueAt : Space → Option Nat
  | hsl | hwb => some 0
  | lch | oklch => some 2
  | _ => none

end Space

namespace Tone

/-- Channels that say nothing because of the others are set to missing. -/
def withoutPowerless (s : Space) (t : Tone) : Tone :=
  let tiny (x : Float32) : Bool := x.abs < 1.1920929e-7
  match s with
  | .lab | .oklab => if tiny t.a then { t with b := missing, c := missing } else t
  | .lch | .oklch =>
    let t := if tiny t.b then { t with c := missing } else t
    if tiny t.a then { t with b := missing, c := missing } else t
  | .hsl =>
    let t := if tiny t.b then { t with a := missing } else t
    if tiny t.c || tiny (t.c - 1.0) then { t with a := missing, b := missing } else t
  | .hwb => if tiny (t.b + t.c - 1.0) then { t with a := missing } else t
  | _ => t

/-- The channels that are missing, taken from another color. -/
def filledFrom (t u : Tone) : Tone :=
  let pick (x y : Float32) : Float32 := if x.isNaN then y else x
  ⟨pick t.a u.a, pick t.b u.b, pick t.c u.c, pick t.alpha u.alpha⟩

/-- Applies a function to the channels that are no hue. -/
def mapAmounts (s : Space) (f : Float32 → Float32) (t : Tone) : Tone :=
  match s.hueAt with
  | some 0 => { t with b := f t.b, c := f t.c }
  | some _ => { t with a := f t.a, b := f t.b }
  | none => { t with a := f t.a, b := f t.b, c := f t.c }

def hue (s : Space) (t : Tone) : Float32 := if s.hueAt = some 0 then t.a else t.c

def withHue (s : Space) (h : Float32) (t : Tone) : Tone :=
  match s.hueAt with
  | some 0 => { t with a := h }
  | some _ => { t with c := h }
  | none => t

end Tone

/-- Two hues with turns added so that the way between them is the route. -/
def route (r : Route) (h k : Float32) : Float32 × Float32 :=
  let h := turn h
  let k := turn k
  let d := k - h
  match r with
  | .shorter => if 180.0 < d then (h + 360.0, k) else if d < -180.0 then (h, k + 360.0) else (h, k)
  | .longer =>
    if 0.0 < d && d < 180.0 then (h + 360.0, k)
    else if -180.0 < d && d ≤ 0.0 then (h, k + 360.0)
    else (h, k)
  | .increasing => if d < 0.0 then (h, k + 360.0) else (h, k)
  | .decreasing => if 0.0 < d then (h + 360.0, k) else (h, k)

/-- A mixture of two colors of one space by their weights. -/
def blend (s : Space) (r : Route) (p : Float32) (t : Tone) (q : Float32) (u : Tone) : Tone :=
  let t' := t.filledFrom u
  let u' := u.filledFrom t
  let (h, k) := if s.hueAt.isSome then route r (t'.hue s) (u'.hue s) else (0.0, 0.0)
  let weigh (t : Tone) := if t.alpha.isNaN then t else t.mapAmounts s (· * t.alpha)
  let x := weigh (t'.withHue s h)
  let y := weigh (u'.withHue s k)
  let total := p + q
  let p' := if total == 1.0 then p else p / total
  let q' := if total == 1.0 then q else q / total
  let m : Tone := ⟨x.a * p' + y.a * q', x.b * p' + y.b * q', x.c * p' + y.c * q',
    x.alpha * p' + y.alpha * q'⟩
  if m.alpha.isNaN || m.alpha == 0.0 then m
  else { m.mapAmounts s (· / m.alpha) with alpha := m.alpha * (if 1.0 < total then 1.0 else total) }

/-- A color of a space made ready for a mixture in another. -/
def prepared (source target : Space) (t : Tone) : Tone :=
  if source = target then t
  else (mapped target (t.convert source target)).withoutPowerless target

end StyleBump.Color
