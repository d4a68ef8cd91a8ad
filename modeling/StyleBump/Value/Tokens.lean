import StyleBump.Color.Reader
import StyleBump.Css.Raw

/-! # Values as runs of tokens

A value that has no form of its own is read as a run of tokens. The white space and the comments between
them stay; colors, addresses and numbers are written in one way. White space at either end of the run,
or of the arguments of a function, is left out, unless there is nothing else. -/

namespace StyleBump.Value
open Css Css.Component
open Text (Position)

/-- An address as text. -/
def urlText (address : String) : String := "url(" ++ writeString address ++ ")"

/-- The color that a hash stands for, or the hash itself. -/
def hashText (name plain : String) : String :=
  match Rgba.ofHash? name with
  | some c => c.text
  | none => plain

/-- The text of a token by itself. -/
def leafText : Token → String
  | .hash n => hashText n ("#" ++ writeName n.toList)
  | .idHash n => hashText n ("#" ++ writeName n.toList)
  | .url u => urlText u
  | .dimension n u => dimensionText n.single u
  | .number n => Decimal.terse n.single
  | t => t.write

/-- Names of variables and of other values that an author makes up start with two hyphens. -/
def isDashed (name : String) : Bool := ['-', '-'].isPrefixOf name.toList

/-- The address in the body of `url()`. -/
def urlBody (p : Position) (body : List Component) : Except Refusal String :=
  Parse.run Parse.expectString body p

/-- White space, comments aside. -/
def isSpace (c : Component) : Bool :=
  match c.token with
  | .whitespace _ => true
  | _ => false

/-- Functions that may give a color. -/
def isColorFunction (name : String) : Bool :=
  ["rgb", "rgba", "hsl", "hsla", "hwb", "lab", "lch", "oklab", "oklch", "color", "color-mix",
   "light-dark"].contains name.toLower

/-- The color that a function gives. -/
def colorOf? (c : Component) : Option Color :=
  match c with
  | .block _ ⟨.function f, _⟩ _ _ =>
    if isColorFunction f then (Parse.run Color.read [c] Position.start).toOption else none
  | _ => none

/-- A color that depends on references, as what its text starts with. -/
structure OpenColor where
  opening : String
  /-- How many component values the opening stands for. -/
  taken : Nat
  /-- How many commas divide the rest. -/
  commas : Nat

/-- A color whose alpha channel is not known, or whose two sides are not. -/
def openColor? (name : String) (body : List Component) : Option OpenColor :=
  let channels (p : Css.Parse String) : Option OpenColor :=
    match (do let s ← p; Parse.expectToken (.delim '/'); pure s : Css.Parse String)
        (Cursor.of body Position.start) with
    | .ok (s, rest) => some ⟨s, body.length - rest.rest.length, 0⟩
    | .error _ => none
  match name.toLower with
  | "rgb" => channels do
    let (r, g, b, _) ← Color.rgbChannels (some Color.noNames)
    let byte (x : Float32) : String := toString (Rgba.byte (x * 255.0)).toNat
    if r.isNaN || g.isNaN || b.isNaN then Parse.refuse .value
    else pure ("rgb(" ++ byte r ++ " " ++ byte g ++ " " ++ byte b ++ " / ")
  | "hsl" => channels do
    let (h, s, l, _) ← Color.hueChannels false (some Color.noNames)
    if h.isNaN || s.isNaN || l.isNaN then Parse.refuse .value
    else pure ("hsl(" ++ Decimal.terse h ++ " " ++ percentText s ++ " " ++ percentText l ++ " / ")
  | "light-dark" => if body.any Parse.isComma then some ⟨"light-dark(", 0, 1⟩ else none
  | _ => none

/-- How a run of tokens is read: how many component values are passed over first, whether the run is
at its start, how many commas divide it, and whether white space at its ends is left out. -/
structure Run where
  taken : Nat
  atStart : Bool
  commas : Nat
  trimmed : Bool

namespace Run

/-- A run that is written as it stands. -/
def whole : Run := ⟨0, true, 0, false⟩

/-- A run without the white space at its ends. -/
def inner : Run := ⟨0, true, 0, true⟩

/-- Whether white space in front of the given rest is left out. -/
def drops (r : Run) (rest : List Component) : Bool :=
  let last := rest.isEmpty || (0 < r.commas && (rest.head?.map Parse.isComma).getD false)
  r.trimmed && r.atStart != last

end Run

/-- Names of the values that a program sets by itself. -/
def environmentNames : List String :=
  ["safe-area-inset-top", "safe-area-inset-right", "safe-area-inset-bottom", "safe-area-inset-left",
   "viewport-segment-width", "viewport-segment-height", "viewport-segment-top",
   "viewport-segment-left", "viewport-segment-bottom", "viewport-segment-right"]

/-- The name in a reference. A name that a program knows is written in lower case. -/
def referenceName (dashed : Bool) (name : String) : String :=
  if !dashed && environmentNames.contains name.toLower then name.toLower else writeIdent name

mutual
/-- The text of a run of component values that starts at a position. -/
def textFrom (r : Run) (depth : Nat) (p : Position) : List Component → Except Refusal String
  | [] => .ok ""
  | c :: cs =>
    let q := p.advance c.text
    if 0 < r.taken then textFrom { r with taken := r.taken - 1 } depth q cs
    else if 0 < r.commas && Parse.isComma c then do
      let rest ← textFrom { r with commas := r.commas - 1, atStart := true } depth q cs
      .ok (", " ++ rest)
    else if isSpace c && r.drops cs then textFrom { r with atStart := false } depth q cs
    else do
      let front ← textOf depth p c
      let rest ← textFrom { r with atStart := false } depth q cs
      .ok (front ++ rest)

/-- The text of one component value. -/
def textOf (depth : Nat) (p : Position) : Component → Except Refusal String
  | .leaf l => if l.token.isMalformed then .error ⟨.unexpected l.token, p⟩ else .ok (leafText l.token)
  | .block b o body e =>
    let q := afterOpener p o
    match o.token with
    | .function f =>
      match colorOf? (.block b o body e), openColor? f body with
      | some c, _ => .ok c.text
      | none, some open_ => do
        let inner ← textFrom ⟨open_.taken, true, open_.commas, true⟩ 0 q body
        .ok (open_.opening ++ inner ++ ")")
      | none, none =>
        if f == "url" then do
          let address ← urlBody q body
          .ok (urlText address)
        else if depthLimit ≤ depth then .error ⟨.tooDeep, q⟩
        else if f == "var" || f == "env" then do
          let inner ← reference (f == "var") (depth + 1) q q body
          .ok (f ++ "(" ++ inner ++ ")")
        else do
          let inner ← textFrom .inner (depth + 1) q body
          .ok (writeIdent f ++ "(" ++ inner ++ ")")
    | _ =>
      if depthLimit ≤ depth then .error ⟨.tooDeep, q⟩
      else do
        let inner ← textFrom .whole (depth + 1) q body
        .ok (b.opener ++ inner ++ b.closer)

/-- A reference to a variable by its name, with what stands for it if it is not set; `dashed` says
that the name is one that an author made up. -/
def reference (dashed : Bool) (depth : Nat) (h p : Position) : List Component → Except Refusal String
  | [] => .error ⟨.endOfInput, p⟩
  | c :: cs =>
    let q := p.advance c.text
    if c.isGap then reference dashed depth h q cs
    else match c with
      | .leaf ⟨.ident n, _⟩ =>
        if dashed && !isDashed n then .error ⟨.unexpected (.ident n), h⟩
        else do
          let rest ← afterReference (!dashed) depth q q cs
          .ok (referenceName dashed n ++ rest)
      | c => .error ⟨.unexpected c.token, h⟩

/-- The rest of a reference: numbers, if `indexed` allows them, and what follows a comma. -/
def afterReference (indexed : Bool) (depth : Nat) (h p : Position) : List Component → Except Refusal String
  | [] => .ok ""
  | c :: cs =>
    let q := p.advance c.text
    if c.isGap then afterReference indexed depth h q cs
    else match c with
      | .leaf ⟨.comma, _⟩ => do
        let inner ← textFrom .inner depth q cs
        .ok (", " ++ inner)
      | .leaf ⟨.number n, t⟩ =>
        match indexed, n.integer? with
        | true, some i => do
          let rest ← afterReference true depth q q cs
          .ok (" " ++ toString i ++ rest)
        | _, _ => .error ⟨.unexpected (Lexeme.token ⟨.number n, t⟩), h⟩
      | c => .error ⟨.unexpected c.token, h⟩
end

/-- The text of a run of component values that starts at a position. -/
def tokensText (p : Position) (cs : List Component) : Except Refusal String := textFrom .inner 0 p cs

/-- All that is left, as a run of tokens. -/
def tokens : Parse String := do
  let (cs, p) ← Parse.remainder
  Parse.ofResult (tokensText p cs)

end StyleBump.Value
