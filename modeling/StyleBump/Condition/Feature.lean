import StyleBump.Condition.Basic
import StyleBump.Property.Box
import StyleBump.Value.Image

/-! # Features of a page

A feature in parentheses is named alone, with a value, or in comparison with one value or two. The
older spelling of a comparison, by `min-` and `max-` in front of the name, is written as one. -/

namespace StyleBump.Condition
open Css Css.Parse

/-- What the value of a feature can be. -/
inductive ValueKind
  | length
  | number
  | integer
  | boolean
  | resolution
  | ratio
  | ident
  | unknown
  deriving DecidableEq, Repr

/-- Whether a feature with such values can be compared. -/
def ValueKind.isOrdered : ValueKind → Bool
  | boolean => false
  | ident => false
  | _ => true

inductive Comparison
  | equal
  | greater
  | greaterEqual
  | less
  | lessEqual
  deriving DecidableEq, Repr

def Comparison.text : Comparison → String
  | equal => " = "
  | greater => " > "
  | greaterEqual => " >= "
  | less => " < "
  | lessEqual => " <= "

/-- The comparison with its sides exchanged. -/
def Comparison.flip : Comparison → Comparison
  | equal => equal
  | greater => less
  | greaterEqual => lessEqual
  | less => greater
  | lessEqual => greaterEqual

/-- The comparison that holds where this one does not; that of equality is not told. -/
def Comparison.opposite : Comparison → Comparison
  | equal => equal
  | greater => lessEqual
  | greaterEqual => less
  | less => greaterEqual
  | lessEqual => greater

/-- Whether two comparisons can bound a value from both sides. -/
def Comparison.agrees : Comparison → Comparison → Bool
  | greater, greater | greater, greaterEqual | greaterEqual, greater | greaterEqual, greaterEqual => true
  | less, less | less, lessEqual | lessEqual, less | lessEqual, lessEqual => true
  | _, _ => false

/-- Features by name with the kind of their values. -/
abbrev FeatureTable := List (String × ValueKind)

/-- The features of a medium. -/
def mediaFeatures : FeatureTable :=
  [("width", .length), ("height", .length), ("aspect-ratio", .ratio), ("orientation", .ident),
   ("overflow-block", .ident), ("overflow-inline", .ident),
   ("horizontal-viewport-segments", .integer), ("vertical-viewport-segments", .integer),
   ("display-mode", .ident), ("resolution", .resolution), ("scan", .ident), ("grid", .boolean),
   ("update", .ident), ("environment-blending", .ident), ("color", .integer),
   ("color-index", .integer), ("monochrome", .integer), ("color-gamut", .ident),
   ("dynamic-range", .ident), ("inverted-colors", .ident), ("pointer", .ident), ("hover", .ident),
   ("any-pointer", .ident), ("any-hover", .ident), ("nav-controls", .ident),
   ("video-color-gamut", .ident), ("video-dynamic-range", .ident), ("scripting", .ident),
   ("prefers-reduced-motion", .ident), ("prefers-reduced-transparency", .ident),
   ("prefers-contrast", .ident), ("forced-colors", .ident), ("prefers-color-scheme", .ident),
   ("prefers-reduced-data", .ident), ("device-width", .length), ("device-height", .length),
   ("device-aspect-ratio", .ratio), ("-webkit-device-pixel-ratio", .number),
   ("-moz-device-pixel-ratio", .number)]

/-- The features of an element that holds others. -/
def containerFeatures : FeatureTable :=
  [("width", .length), ("height", .length), ("inline-size", .length), ("block-size", .length),
   ("aspect-ratio", .ratio), ("orientation", .ident)]

/-- The features of an element that scrolls. -/
def scrollFeatures : FeatureTable :=
  [("stuck", .ident), ("snapped", .ident), ("scrollable", .ident), ("scrolled", .ident)]

/-- A feature as it is named, and the comparison that a mark in front of the name stands for. -/
structure FeatureName where
  text : String
  kind : ValueKind
  comparison : Option Comparison

/-- A name without `start` in front of it. -/
def after? (start name : String) : Option String :=
  if start.toList.isPrefixOf name.toList then some (String.ofList (name.toList.drop start.length)) else none

/-- The feature of a name. -/
def FeatureName.of (table : FeatureTable) (name : String) : FeatureName :=
  if Value.isDashed name then ⟨writeIdent name, .unknown, none⟩
  else
    let low := name.toLower
    let (vendor, low) := match after? "-webkit-" low with
      | some rest => ("-webkit-", rest)
      | none => ("", low)
    let (comparison, low) := match after? "min-" low, after? "max-" low with
      | some rest, _ => (some Comparison.greaterEqual, rest)
      | _, some rest => (some Comparison.lessEqual, rest)
      | _, _ => (none, low)
    match table.lookup (vendor ++ low) with
    | some kind => ⟨vendor ++ low, kind, comparison⟩
    | none => ⟨writeIdent name, .unknown, none⟩

/-- A value as text with its kind. -/
structure FeatureValue where
  text : String
  kind : ValueKind

/-- Whether a value fits a kind. -/
def FeatureValue.fits (v : FeatureValue) (k : ValueKind) : Bool :=
  k == .unknown || v.kind == .unknown || v.kind == k

def featureName (table : FeatureTable) : Parse FeatureName := do
  let n ← expectIdent
  pure (FeatureName.of table n)

/-- Two numbers with a slash, which may not be left out. -/
def fullRatio : Parse String := do
  let a ← Value.number
  expectToken (.delim '/')
  let b ← Value.number
  pure (Property.ratioText a b)

/-- A value of the kind that a feature takes. -/
def valueOfKind (k : ValueKind) : Parse FeatureValue :=
  match k with
  | .boolean => do
    let i ← Value.integer
    if i = 0 ∨ i = 1 then pure ⟨toString i, .boolean⟩ else refuse .value
  | .number => do pure ⟨← Value.numberText, .number⟩
  | .integer => do pure ⟨← Value.integerText, .integer⟩
  | .length => do pure ⟨← Value.lengthText, .length⟩
  | .resolution => do pure ⟨← Value.resolution, .resolution⟩
  | .ratio => do pure ⟨← Property.ratio, .ratio⟩
  | .ident => do pure ⟨writeIdent (← expectIdent), .ident⟩
  | .unknown => refuse .value

/-- A value set from outside the page. -/
def environment : Parse FeatureValue := do
  let p ← here
  let c ← next
  match c with
  | .block _ ⟨.function f, _⟩ body _ =>
    if sameName f "env" then do
      let s ← within body fun s =>
        (Value.reference false 0 s.head s.position s.rest).map fun t => (t, Cursor.of [] s.position)
      pure ⟨"env(" ++ s ++ ")", .unknown⟩
    else Parse.unexpected p c
  | c => Parse.unexpected p c

/-- A value of any kind. -/
def valueOfAnyKind : Parse FeatureValue :=
  Value.firstOf [
    do pure ⟨← fullRatio, .ratio⟩,
    do pure ⟨← Value.numberText, .number⟩,
    do pure ⟨← Value.lengthText, .length⟩,
    do pure ⟨← Value.resolution, .resolution⟩,
    environment,
    do pure ⟨writeIdent (← expectIdent), .ident⟩]

def featureValue (k : ValueKind) : Parse FeatureValue := orElse (valueOfKind k) valueOfAnyKind

/-- A comparison, or a colon if `colon` allows one, which compares nothing. -/
def comparison (colon : Bool) : Parse (Option Comparison) := do
  let p ← here
  let c ← next
  if colon && c.isLeaf .colon then pure none
  else if c.isLeaf (.delim '=') then pure (some .equal)
  else if c.isLeaf (.delim '>') then
    pure (some (if (← attempt (expectToken (.delim '='))).isSome then .greaterEqual else .greater))
  else if c.isLeaf (.delim '<') then
    pure (some (if (← attempt (expectToken (.delim '='))).isSome then .lessEqual else .less))
  else Parse.unexpected p c

/-- A feature in comparison with a value. -/
def compared (name : FeatureName) (c : Comparison) (value : FeatureValue) : Condition :=
  let shown (c : Comparison) : String := "(" ++ name.text ++ c.text ++ value.text ++ ")"
  .feature (shown c) (some (shown c.opposite))

/-- A feature that starts with its name. -/
def nameFirst (table : FeatureTable) : Parse Condition := do
  let name ← featureName table
  match ← attempt (comparison true) with
  | none => pure (.feature ("(" ++ name.text ++ ")") none)
  | some c =>
    if c.isSome && name.comparison.isSome then refuse .mediaFeature
    else
      let value ← featureValue name.kind
      if !value.fits name.kind then refuse .mediaFeature
      else match c.or name.comparison with
        | none => pure (.feature ("(" ++ name.text ++ ": " ++ value.text ++ ")") none)
        | some c => if !name.kind.isOrdered then refuse .mediaFeature else pure (compared name c value)

/-- The first name in what is left; at most `fuel` component values stand in front of it. -/
def firstName (table : FeatureTable) : Nat → Parse FeatureName
  | 0 => refuse .mediaFeature
  | fuel + 1 => do
    let p ← attempt (lookahead next)
    let name ← attempt (featureName table)
    match name with
    | some n => if n.comparison.isSome then refuse .mediaFeature else pure n
    | none =>
      if p.isSome then (do let _ ← next) else skipGaps
      if ← exhausted then refuse .mediaFeature else firstName table fuel

/-- A feature that starts with a value. -/
def valueFirst (table : FeatureTable) : Parse Condition := do
  let name ← lookahead fun s => firstName table (s.rest.length + 1) s
  let value ← featureValue name.kind
  let c ← comparison false
  let _ ← featureName table
  if !name.kind.isOrdered || !value.fits name.kind then refuse .mediaFeature
  else
    let c := c.getD .equal
    match ← attempt (comparison false) with
    | some d =>
      let d := d.getD .equal
      if !c.agrees d then refuse .mediaFeature
      else
        let last ← featureValue name.kind
        if !last.fits name.kind then refuse .mediaFeature
        else pure (.feature ("(" ++ value.text ++ c.text ++ name.text ++ d.text ++ last.text ++ ")") none)
    | none => pure (compared name c.flip value)

/-- The content of a feature's parentheses. -/
def readFeature (table : FeatureTable) : Parse Condition := fun s =>
  match nameFirst table s with
  | .ok r => .ok r
  | .error e => if e.cause = .mediaFeature then .error e else valueFirst table s

end StyleBump.Condition
