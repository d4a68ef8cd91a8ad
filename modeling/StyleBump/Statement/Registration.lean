import StyleBump.Statement.Block

/-! # Registered properties

A property of the author's own can be registered with the form of its values, with whether it is inherited,
and with the value that it has at first. A form is a choice of components, each a kind of value or a word,
alone or in a list. -/

namespace StyleBump.Statement
open Css Css.Parse Value

/-! ## Forms -/

/-- How often a component may stand. -/
inductive Repetition
  | once
  | spaces
  | commas
  deriving DecidableEq, Repr

/-- A component of a form; a word of its own is written without angle brackets. -/
structure FormComponent where
  isWord : Bool
  name : String
  repetition : Repetition
  deriving DecidableEq, Repr

/-- A form: any tokens, or one of several components. -/
inductive Form
  | anything
  | choice (components : List FormComponent)
  deriving DecidableEq, Repr

/-- Kinds of values. -/
def valueKinds : List String :=
  ["length", "number", "percentage", "length-percentage", "string", "color", "image", "url",
   "integer", "angle", "time", "resolution", "transform-function", "transform-list", "custom-ident"]

namespace FormComponent

def text (c : FormComponent) : String :=
  (if c.isWord then c.name else "<" ++ c.name ++ ">") ++
    match c.repetition with
    | .once => ""
    | .spaces => "+"
    | .commas => "#"

def isSpace (c : Char) : Bool := c = ' ' || c = '\t'
def startsWord (c : Char) : Bool := c.isAlpha || c = '_' || 0x80 ≤ c.toNat
def continuesWord (c : Char) : Bool := startsWord c || c.isDigit || c = '-'

/-- The mark of a list that a text starts with. A list of transforms is no part of another list. -/
def listMark (name : String) : List Char → Repetition × List Char
  | '+' :: cs => if name == "transform-list" then (.once, '+' :: cs) else (.spaces, cs)
  | '#' :: cs => if name == "transform-list" then (.once, '#' :: cs) else (.commas, cs)
  | cs => (.once, cs)

/-- The component that a text starts with. -/
def of? (cs : List Char) : Option (FormComponent × List Char) :=
  match cs.dropWhile isSpace with
  | '<' :: cs =>
    let name := (String.ofList (cs.takeWhile (· != '>'))).toLower
    match cs.dropWhile (· != '>') with
    | '>' :: rest =>
      if valueKinds.contains name then
        let (r, rest) := listMark name rest
        some (⟨false, name, r⟩, rest)
      else none
    | _ => none
  | c :: cs =>
    if startsWord c then
      let name := String.ofList (c :: cs.takeWhile continuesWord)
      let (r, rest) := listMark "" (cs.dropWhile continuesWord)
      some (⟨true, name, r⟩, rest)
    else none
  | [] => none

end FormComponent

namespace Form

def text : Form → String
  | anything => "\"*\""
  | choice cs => "\"" ++ " | ".intercalate (cs.map FormComponent.text) ++ "\""

/-- Components with bars between them; at most `fuel` of them. -/
def components? : Nat → List Char → Option (List FormComponent)
  | 0, _ => none
  | fuel + 1, cs => do
    let (c, rest) ← FormComponent.of? cs
    match rest.dropWhile FormComponent.isSpace with
    | [] => some [c]
    | '|' :: rest => (components? fuel rest).map (c :: ·)
    | _ => none

/-- The form that a text describes. -/
def of? (s : String) : Option Form :=
  let cs := s.toList.dropWhile FormComponent.isSpace
  let cs := (cs.reverse.dropWhile FormComponent.isSpace).reverse
  if cs = ['*'] then some anything else (components? (cs.length + 1) cs).map choice

end Form

/-! ## Values of a form -/

/-- A value of a component by itself. -/
def componentValue (c : FormComponent) : Parse String :=
  if c.isWord then do
    let p ← here
    let n ← expectIdent
    if n == c.name then pure (writeIdent n) else refuseAt p (.unexpected (.ident n))
  else match c.name with
    | "length" => lengthText
    | "number" => numberText
    | "percentage" => Property.portionText
    | "length-percentage" => extentText
    | "string" => writeString <$> expectString
    | "color" => color
    | "image" => image
    | "url" => address
    | "integer" => integerText
    | "angle" => (fun q => q.text false) <$> angle
    | "time" => Property.quantityText <$> time
    | "resolution" => resolution
    | "transform-function" => Property.transformFunction
    | "transform-list" => Property.transform
    | _ => writeIdent <$> Property.customName

/-- Values with spaces between them, to the end; at most `fuel` of them. -/
def spacedValues (p : Parse String) : Nat → Parse (List String)
  | 0 => refuse .value
  | fuel + 1 => do
    let s ← p
    if ← exhausted then pure [s]
    else
      let ss ← spacedValues p fuel
      pure (s :: ss)

/-- Values with commas between them, to the end; at most `fuel` of them. -/
def listedValues (p : Parse String) : Nat → Parse (List String)
  | 0 => refuse .value
  | fuel + 1 => do
    let s ← p
    if ← exhausted then pure [s]
    else
      expectToken .comma
      let ss ← listedValues p fuel
      pure (s :: ss)

/-- The values of a component, as often as it may stand. What follows a single one is left alone. -/
def componentValues (c : FormComponent) : Parse String := fun s =>
  let fuel := s.rest.length + 1
  (match c.repetition with
    | .once => componentValue c
    | .spaces => spaced <$> spacedValues (componentValue c) fuel
    | .commas => listed <$> listedValues (componentValue c) fuel : Parse String) s

/-- A value of a form. -/
def formValue : Form → Parse String
  | .anything => tokens
  | .choice cs => do
    let v ← attempt (firstOf (cs.map componentValues))
    match v with
    | some v => pure v
    | none => do
      let c ← next
      refuse (.unexpected c.token)

/-! ## Registrations -/

/-- What is said about a property that an author registers; its first value is read once its form is
known. -/
structure Registration where
  form : Option Form
  inherits : Option Bool
  initial : Option (List Component)

/-- One thing that is said. -/
def Registration.readItem (name : String) (r : Registration) : Parse Registration := do
  expectToken .colon
  match name with
  | "syntax" => do
    match Form.of? (← expectString) with
    | some f => pure { r with form := some f }
    | none => refuse .value
  | "inherits" => do
    let v ← expectWord ["true", "false"]
    pure { r with inherits := some (v == "true") }
  | "initial-value" => do
    let (cs, _) ← remainder
    pure { r with initial := some cs }
  | _ => refuse .declaration

/-- Reads what is said about a registered property; at most `fuel` items. -/
def registrationAux : Nat → Registration → Parse Registration
  | 0, r => pure r
  | n + 1, r => do
    match ← peekItem with
    | none => pure r
    | some c => do
      let p ← here
      let _ ← next
      match c.token with
      | .ident name => do
        let r ← before isSemicolon (r.readItem name.toLower)
        let _ ← attempt next
        registrationAux n r
      | .atKeyword name => refuse (.unknownAtRule name)
      | t => refuseAt p (.unexpected t)

/-- The first value as text; positions in it count from its start. A form other than any tokens needs
one. -/
def initialValue (f : Form) : Option (List Component) → Parse (Option String)
  | some cs => do
    let (v, _) ← ofResult (formValue f (Cursor.of cs Text.Position.start))
    pure (some v)
  | none => if f = .anything then pure none else refuse .noBodyAllowed

/-- The lines of a registered property. -/
def registration (name : String) : Parse (List String) := do
  let r ← fun s => registrationAux (s.rest.length + 1) ⟨none, none, none⟩ s
  match r.form, r.inherits with
  | some form, some inherits => do
    let first := "syntax: " ++ form.text ++ ";"
    let second := "inherits: " ++ (if inherits then "true" else "false")
    let v ← initialValue form r.initial
    pure (wrapTight ("@property " ++ name) (match v with
      | some v => [first, second ++ ";", "initial-value: " ++ v ++ ";"]
      | none => [first, second]))
  | _, _ => refuse .noBodyAllowed

end StyleBump.Statement
