import StyleBump.Statement.Block

/-! # Fonts of the author's own

The descriptions of fonts that a sheet brings along, of their palettes, and of the names that it gives to
their features. -/

namespace StyleBump.Statement
open Css Css.Parse Value

/-! ## Sources -/

/-- Formats of fonts that are written in lower case. -/
def fontFormats : List String :=
  ["woff", "woff2", "truetype", "opentype", "embedded-opentype", "collection", "svg"]

/-- Technologies that a font may need. -/
def fontTechnologies : List String :=
  ["features-opentype", "features-aat", "features-graphite", "color-colrv0", "color-colrv1",
   "color-svg", "color-sbix", "color-cbdt", "variations", "palettes", "incremental"]

/-- The address of a font with its format and the technologies that it needs. -/
def remoteSource : Parse String := do
  let url ← address
  let format ← match ← attempt (expectFunction "format") with
    | some body => do
      let name ← within body expectIdentOrString
      let known := fontFormats.contains name.toLower
      pure (" format(" ++ writeString (if known then name.toLower else name) ++ ")")
    | none => pure ""
  let technologies ← match ← attempt (expectFunction "tech") with
    | some body => do
      let names ← within body (commaSeparated (expectWord fontTechnologies))
      pure (" tech(" ++ listed names ++ ")")
    | none => pure ""
  pure (url ++ format ++ technologies)

/-- Where a font is taken from. -/
def fontSource : Parse String :=
  orElse remoteSource do
    let body ← expectFunction "local"
    let name ← within body Property.family
    pure ("local(" ++ name ++ ")")

/-! ## Ranges of characters -/

/-- The value of a digit of a number in base sixteen. -/
def hexValue? (c : Char) : Option Nat :=
  if c.isDigit then some (c.toNat - '0'.toNat)
  else if 'a' ≤ c && c ≤ 'f' then some (c.toNat - 'a'.toNat + 10)
  else if 'A' ≤ c && c ≤ 'F' then some (c.toNat - 'A'.toNat + 10)
  else none

/-- The number that a text starts with in base sixteen, how many digits it has, and what follows. -/
def hexNumber : List Char → Nat → Nat → Nat × Nat × List Char
  | c :: cs, value, count =>
    match hexValue? c with
    | some d => hexNumber cs (16 * value + d) (count + 1)
    | none => (value, count, c :: cs)
  | [], value, count => (value, count, [])

/-- How many characters a run of marks stands for, where a mark stands for any digit. -/
def choices (marks : Nat) : Nat := Nat.pow 16 marks

/-- The first and the last character of a range behind `U`. -/
def codeRange? : List Char → Option (Nat × Nat)
  | '+' :: cs =>
    let (first, digits, rest) := hexNumber cs 0 0
    let marks := (rest.takeWhile (· = '?')).length
    let rest := rest.dropWhile (· = '?')
    if digits + marks = 0 || 6 < digits + marks then none
    else match marks, rest with
      | 0, [] => some (first, first)
      | 0, '-' :: rest =>
        let (last, digits, rest) := hexNumber rest 0 0
        if 0 < digits && digits ≤ 6 && rest.isEmpty then some (first, last) else none
      | marks, [] => some (first * choices marks, (first + 1) * choices marks - 1)
      | _, _ => none
  | _ => none

/-- A number in base sixteen with capital letters. -/
def hexText (n : Nat) : String := (String.ofList (Nat.toDigits 16 n)).toUpper

/-- How many of the last six digits may be marks: the least number of which all before agree, if the
first character ends in zeros there and the last one in the greatest digits. -/
def markCount? (first last : Nat) : Option Nat :=
  (List.range 7).find? (fun k => 0 < k && first / choices k == last / choices k) |>.bind fun k =>
    if first % choices k == 0 && last % choices k + 1 == choices k then some k else none

/-- A range of characters as text. -/
def rangeText (first last : Nat) : String :=
  if first = last then "U+" ++ hexText first
  else match markCount? first last with
    | some k =>
      let front := first / choices k
      "U+" ++ (if front = 0 then "" else hexText front) ++ String.ofList (List.replicate k '?')
    | none => "U+" ++ hexText first ++ "-" ++ hexText last

/-- Whether a component value may be a part of a range. -/
def isRangePart (c : Component) : Bool :=
  match c with
  | .leaf l =>
    match l.token with
    | .ident _ | .number _ | .dimension _ _ | .delim '+' | .delim '?' => true
    | _ => false
  | _ => false

/-- A range of characters. -/
def characterRange : Parse String := do
  expectKeyword "u"
  let text ← fun s =>
    let front := s.rest.takeWhile isRangePart
    let text := Component.textAll front
    .ok (text, Cursor.of (s.rest.dropWhile isRangePart) (s.position.advance text))
  match codeRange? text with
  | some (first, last) => if last ≤ 0x10FFFF && first ≤ last then pure (rangeText first last) else refuse .value
  | none => refuse .value

/-! ## Descriptions -/

/-- Two values, the second one left out if it is the same. -/
def twice (p : Parse String) : Parse String := pairText id <$> pair p

/-- The slope of a font, or the range of slopes that it has. -/
def slopes : Parse String := do
  match ← expectWord ["normal", "italic", "oblique"] with
  | "oblique" => do
    match ← attempt angle with
    | none => pure "oblique"
    | some a => do
      let b ← attempt angle
      let b := b.getD a
      let usual (q : Quantity) : Bool := Property.degrees q == Property.usualSlope
      let same := Property.degrees a == Property.degrees b
      pure (if usual a && usual b then "oblique"
        else spaced ["oblique", a.text false, if same then "" else b.text false])
  | w => pure w

/-- The value of a property of a font. -/
def fontValue (property : String) : Parse Descriptor :=
  match property with
  | "src" => Descriptor.knownOrTokens (commaList fontSource)
  | "font-family" => Descriptor.knownOrTokens Property.family
  | "font-weight" => Descriptor.knownOrTokens (twice Property.fontWeight)
  | "font-style" => Descriptor.knownOrTokens slopes
  | "font-stretch" => Descriptor.knownOrTokens (twice Property.fontStretch)
  | "unicode-range" => Descriptor.knownOrTokens (commaList characterRange)
  | _ => Descriptor.tokens

/-! ## Palettes -/

/-- An integer that is not negative. -/
def index : Parse String := do
  let i ← integer
  if i < 0 then refuse .value else pure (toString i)

/-- A color in place of one of a palette. -/
def replacedColor : Parse String := do
  let i ← index
  let c ← color
  pure (i ++ " " ++ c)

/-- The family of a font that has a palette; generic ones have none. -/
def paletteFamily : Parse Descriptor := do
  let f ← Property.family
  if Property.genericFamilies.contains f then refuse .declaration else pure ⟨true, f⟩

/-- The value of a property of a palette. -/
def paletteValue (property : String) : Parse Descriptor :=
  match property with
  | "font-family" => do
    match ← attempt (lookahead Property.family) with
    | some _ => paletteFamily
    | none => Descriptor.tokens
  | "base-palette" => Descriptor.knownOrTokens (orElse index (expectWord ["light", "dark"]))
  | "override-colors" => Descriptor.knownOrTokens (commaList replacedColor)
  | _ => refuse .declaration

/-! ## Names of features -/

/-- Kinds of features that an author may name. -/
def featureKinds : List String :=
  ["stylistic", "historical-forms", "styleset", "character-variant", "swash", "ornaments", "annotation"]

/-- A kind of features, and the numbers behind the names that are given to them. -/
structure FeatureNames where
  kind : String
  names : List (String × String)

namespace FeatureNames

/-- The lines of the names of one kind. -/
def lines (f : FeatureNames) : List String :=
  ("@" ++ f.kind ++ "\x7b") :: (f.names.map fun (n, v) => "  " ++ writeIdent n ++ ": " ++ v ++ ";") ++
    ["\x7d"]

/-- Gives a name anew, or adds it. -/
def set (name value : String) (names : List (String × String)) : List (String × String) :=
  if names.any (·.1 == name) then names.map fun p => if p.1 == name then (name, value) else p
  else names ++ [(name, value)]

/-- Numbers up to the first component value that is none, which is passed over. -/
def numbers : Nat → Parse (List String)
  | 0 => pure []
  | fuel + 1 => do
    match ← attempt integer with
    | some i => do
      let rest ← numbers fuel
      pure (toString i :: rest)
    | none => do
      let _ ← attempt next
      pure []

/-- The numbers behind a name; there is one at least. -/
def value : Parse String := do
  expectToken .colon
  let ns ← fun s => numbers (s.rest.length + 1) s
  if ns.isEmpty then refuse .value else pure (spaced ns)

/-- The names of a kind behind those that were read; at most `fuel` items. -/
def readNames : Nat → List (String × String) → Parse (List (String × String))
  | 0, names => pure names
  | fuel + 1, names => do
    match ← peekItem with
    | none => pure names
    | some c => do
      let p ← here
      let _ ← next
      match c.token with
      | .ident name => do
        let v ← before isSemicolon value
        let _ ← attempt next
        readNames fuel (set name v names)
      | .atKeyword name => refuse (.unknownAtRule name)
      | t => refuseAt p (.unexpected t)

/-- The kinds of features behind those that were read; at most `fuel` of them. -/
def readKinds : Nat → List FeatureNames → Parse (List FeatureNames)
  | 0, kinds => pure kinds
  | fuel + 1, kinds => do
    match ← peekItem with
    | none => pure kinds
    | some c => do
      let p ← here
      let _ ← next
      match c.token with
      | .atKeyword name => do
        let kind := name.toLower
        if !featureKinds.contains kind then refuse (.unknownAtRule name)
        else
          before endsPrelude (pure ())
          let earlier := kinds.find? (·.kind == kind)
          match ← next with
          | .block .curly _ body _ => do
            let names ← within body (readNames (body.length + 1) ((earlier.map (·.names)).getD []))
            readKinds fuel (if earlier.isSome then
                kinds.map fun f => if f.kind == kind then ⟨kind, names⟩ else f
              else kinds ++ [⟨kind, names⟩])
          | _ => refuse (.unexpected .semicolon)
      | t => refuseAt p (.unexpected t)

end FeatureNames

/-- The lines of the names of features, each kind at the margin. -/
def featureNames (heading : String) : Parse (List String) := do
  let kinds ← fun s => FeatureNames.readKinds (s.rest.length + 1) [] s
  let front := heading ++ " \x7b"
  pure (if kinds.isEmpty then [front ++ "\x7d"] else front :: kinds.flatMap FeatureNames.lines ++ ["\x7d"])

/-! ## Transitions of a page -/

/-- The value of a property of the transitions between pages. -/
def transitionValue (property : String) : Parse Descriptor :=
  match property with
  | "navigation" => Descriptor.known (expectWord ["none", "auto"])
  | "types" => Descriptor.known Property.customNames
  | _ => refuse .declaration

end StyleBump.Statement
