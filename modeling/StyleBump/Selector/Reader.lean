import StyleBump.Css.Raw
import StyleBump.Selector.Basic
import StyleBump.Selector.Names

/-! # Reading selectors

`prelude` reads the list of selectors in front of a block. What a compound may go on with depends on
what it holds already; a `Mode` keeps track of that. -/

namespace StyleBump.Selector
open Css Css.Parse

/-- What stands in front of the place that is read. -/
structure Mode where
  afterElement : Bool
  afterSlotted : Bool
  afterPart : Bool
  afterScrollbar : Bool
  afterViewTransition : Bool
  afterNesting : Bool
  plainOnly : Bool
  single : Bool

namespace Mode

/-- At the front of a selector. -/
def initial : Mode := ⟨false, false, false, false, false, false, false, false⟩

/-- Behind an element that is none of the document's own. -/
def afterPseudo (m : Mode) : Bool := m.afterElement || m.afterSlotted || m.afterPart

/-- Inside a pseudo-class that takes no pseudo-elements. -/
def plain (m : Mode) : Mode := { m with plainOnly := true }

/-- Inside a pseudo-class that takes one compound. -/
def compoundOnly (m : Mode) : Mode := { m with plainOnly := true, single := true }

end Mode

/-- What a selector starts from: nothing, the rule that it is nested in, or the element that a
relative selector is about. A linked one starts from nothing but has to refer to the rule around it. -/
inductive Origin
  | free
  | linked
  | nested
  | relative
  deriving DecidableEq

/-! ## Names and attributes -/

/-- The next component value that is no comment, without taking it. -/
def peek : Parse (Option Component) := do
  match ← attempt (lookahead nextOrSpace) with
  | some c => pure (some c)
  | none => pure none

/-- A name behind a bar; `forAttribute` says that it is the name of an attribute. -/
def nameAfterBar (forAttribute : Bool) : Parse (Option String) := do
  let p ← here
  match ← nextOrSpace with
  | .leaf ⟨.ident n, _⟩ => pure (some n)
  | c =>
    if forAttribute then refuseAt p (.attributeQualifiedName c.token)
    else if c.isLeaf (.delim '*') then pure none
    else refuseAt p (.namespacedName c.token)

/-- Whether a bar comes next; it is taken then. -/
def takeBar : Parse Bool := do
  match ← peek with
  | some c => if c.isLeaf (.delim '|') then (do let _ ← nextOrSpace; pure true) else pure false
  | none => pure false

/-- A name with the namespace in front of it; `*` has no name. `none` if neither comes next. -/
def qualifiedName (forAttribute : Bool) : Parse (Option (Namespace × Option String)) := do
  match ← peek with
  | none => pure none
  | some (.leaf ⟨.ident n, _⟩) => do
    let _ ← nextOrSpace
    if ← takeBar then
      let name ← nameAfterBar forAttribute
      pure (some (.named n, name))
    else pure (some (.implied, some n))
  | some c =>
    if c.isLeaf (.delim '*') then do
      let _ ← nextOrSpace
      let p ← here
      if ← takeBar then
        let name ← nameAfterBar forAttribute
        pure (some (.any, name))
      else if forAttribute then
        let c ← nextOrSpace
        refuseAt p (.attributeBar c.token)
      else pure (some (.implied, none))
    else if c.isLeaf (.delim '|') then do
      let _ ← nextOrSpace
      let name ← nameAfterBar forAttribute
      pure (some (.none, name))
    else pure none

/-- Reads a name that the text may break off in the middle of. -/
def typeName : Parse (Option (Namespace × Option String)) := fun s =>
  match qualifiedName false s with
  | .ok r => .ok r
  | .error ⟨.endOfInput, p⟩ => .ok (none, Cursor.of [] p)
  | .error e => .error e

/-- The type selector that a compound starts with. -/
def typeSelector (m : Mode) : Parse (Option Simple) := do
  match ← typeName with
  | none => pure none
  | some (ns, name) =>
    if m.afterPseudo then refuse .selectorState
    else match name with
      | some n => pure (some (.type ns n))
      | none => pure (some (.universal ns))

/-- The text of an attribute's operator. -/
def operator? : Token → Option String
  | .delim '=' => some "="
  | .includeMatch => some "~="
  | .dashMatch => some "|="
  | .prefixMatch => some "^="
  | .suffixMatch => some "$="
  | .substringMatch => some "*="
  | _ => none

/-- The letter behind an attribute's value. -/
def attributeFlag : Parse (Option Char) := do
  if ← exhausted then pure none
  else
    let p ← here
    match ← next with
    | .leaf ⟨.ident n, t⟩ =>
      if sameName n "i" then pure (some 'i')
      else if sameName n "s" then pure (some 's')
      else Parse.unexpected p (.leaf ⟨.ident n, t⟩)
    | c => Parse.unexpected p c

/-- The content of an attribute selector. -/
def attributeBody : Parse Simple := do
  skipGaps
  match ← qualifiedName true with
  | some (ns, some name) => do
    let ns := if ns = .none then .implied else ns
    if ← exhausted then pure (.hasAttribute ns name none)
    else
      let p ← here
      let c ← next
      match operator? c.token with
      | none => refuseAt p (.attributeToken c.token)
      | some op => do
        let p ← here
        match ← next with
        | .leaf ⟨.ident v, _⟩ => do
          let flag ← attributeFlag
          pure (.hasAttribute ns name (some ⟨op, v, flag⟩))
        | .leaf ⟨.string v, _⟩ => do
          let flag ← attributeFlag
          pure (.hasAttribute ns name (some ⟨op, v, flag⟩))
        | c => refuseAt p (.attributeValue c.token)
  | _ => do
    let c ← lookahead nextOrSpace
    refuse (.attributeName c.token)

/-! ## Position formulas -/

/-- The number that ends a name such as `n-3`. -/
def dashDigits? (cs : List Char) : Option Int :=
  match cs with
  | n :: '-' :: d :: ds =>
    if (n = 'n' || n = 'N') && (d :: ds).all Char.isDigit then
      some (max (-2147483648) (-(digitsValue (d :: ds) : Int)))
    else none
  | _ => none

/-- The number behind a sign. -/
def unsignedOffset (step sign : Int) : Parse (Int × Int) := do
  match ← next with
  | .leaf ⟨.number v, t⟩ =>
    match v.signed, v.integer? with
    | false, some b => pure (step, sign * b)
    | _, _ => refuse (.unexpected (Lexeme.token ⟨.number v, t⟩))
  | c => refuse (.unexpected c.token)

/-- What follows `n`. -/
def signedOffset (step : Int) : Parse (Int × Int) := do
  match ← attempt (lookahead next) with
  | some (.leaf ⟨.delim '+', _⟩) => do let _ ← next; unsignedOffset step 1
  | some (.leaf ⟨.delim '-', _⟩) => do let _ ← next; unsignedOffset step (-1)
  | some (.leaf ⟨.number v, _⟩) =>
    match v.signed, v.integer? with
    | true, some b => do let _ ← next; pure (step, b)
    | _, _ => pure (step, 0)
  | _ => pure (step, 0)

/-- A formula that starts with a name; `minus` says that the name may start with a hyphen. -/
def namedFormula (name : String) (minus : Bool) : Parse (Int × Int) :=
  if sameName name "even" then pure (2, 0)
  else if sameName name "odd" then pure (2, 1)
  else if sameName name "n" then signedOffset 1
  else if minus && sameName name "-n" then signedOffset (-1)
  else if sameName name "n-" then unsignedOffset 1 (-1)
  else if minus && sameName name "-n-" then unsignedOffset (-1) (-1)
  else
    let (step, rest) := match name.toList with
      | '-' :: cs => if minus then (-1, cs) else (1, name.toList)
      | cs => (1, cs)
    match dashDigits? rest with
    | some b => pure (step, b)
    | none => refuse (.unexpected (.ident name))

/-- The formula `step · n + offset`. -/
def readFormula : Parse (Int × Int) := do
  match ← next with
  | .leaf ⟨.number v, t⟩ =>
    match v.integer? with
    | some b => pure (0, b)
    | none => refuse (.unexpected (Lexeme.token ⟨.number v, t⟩))
  | .leaf ⟨.dimension v u, t⟩ =>
    match v.integer? with
    | some a =>
      if sameName u "n" then signedOffset a
      else if sameName u "n-" then unsignedOffset a (-1)
      else match dashDigits? u.toList with
        | some b => pure (a, b)
        | none => refuse (.unexpected (.ident u))
    | none => refuse (.unexpected (Lexeme.token ⟨.dimension v u, t⟩))
  | .leaf ⟨.ident n, _⟩ => namedFormula n true
  | .leaf ⟨.delim '+', _⟩ => do
    match ← nextOrSpace with
    | .leaf ⟨.ident n, _⟩ => namedFormula n false
    | c => refuse (.unexpected c.token)
  | c => refuse (.unexpected c.token)

/-! ## Pseudo-classes and pseudo-elements without arguments -/

/-- A pseudo-class by its name alone; `p` is where the name starts. -/
def pseudoClass (m : Mode) (p : Text.Position) (name : String) : Parse Simple := do
  let low := name.toLower
  if m.afterSlotted then refuseAt p .selectorState
  else if !m.afterPseudo && structural.contains low then
    if low == "host" then pure (.host [])
    else if low == "scope" then pure .scope
    else pure (.pseudoClass low)
  else if m.afterViewTransition && low == "only-child" then pure (.pseudoClass low)
  else
    let known := knownClasses.contains low
    if m.afterScrollbar then
      if known && scrollbarStates.contains low then pure (.pseudoClass low)
      else refuseAt p .pseudoClassAfterScrollbar
    else if m.afterElement then
      if known && userActions.contains low then pure (.pseudoClass low)
      else refuseAt p .pseudoClassAfterPseudoElement
    else if scrollbarClasses.contains low then refuseAt p .pseudoClassBeforeScrollbar
    else pure (.pseudoClass (if known then (classSpellings.lookup low).getD low else name))

/-- A pseudo-element by its name alone. -/
def pseudoElement (name : String) : Simple :=
  let low := name.toLower
  if oneColon.contains low then .pseudoElement (":" ++ low) true
  else if knownElements.contains low then
    .pseudoElement ("::" ++ (elementSpellings.lookup low).getD low) true
  else .pseudoElement ("::" ++ name) false

/-- What stands in front of the place behind a pseudo-element. -/
def Mode.behindElement (m : Mode) (name : String) (known : Bool) : Mode :=
  let low := name.toLower
  { m with
    afterElement := m.afterElement || known
    afterScrollbar := m.afterScrollbar || scrollbarElements.contains low
    afterViewTransition := m.afterViewTransition || (known && isViewTransition low) }

/-- The parts that a pseudo-element names. -/
def partNames : Nat → Parse (List String)
  | 0 => pure []
  | n + 1 => do
    let name ← expectIdent
    if ← exhausted then pure [name]
    else
      let names ← partNames n
      pure (name :: names)

/-- The languages that an element may be in. -/
def languages : Parse String := do
  let names ← commaSeparated expectIdentOrString
  pure ("lang(" ++ ", ".intercalate (names.map writeIdent) ++ ")")

/-- The direction that the text of an element may run in. -/
def direction : Parse String := do
  let p ← here
  let n ← expectIdent
  if sameName n "ltr" then pure "dir(ltr)"
  else if sameName n "rtl" then pure "dir(rtl)"
  else refuseAt p (.unexpected (.ident n))

/-- A name that is none of the words any property understands. -/
def ownName : Parse String := do
  let p ← here
  let n ← expectIdent
  if ["initial", "inherit", "unset", "default", "revert", "revert-layer"].contains n.toLower then
    refuseAt p (.unexpected (.ident n))
  else pure (writeIdent n)

/-- The classes that a part of a transition is limited to; at most `fuel` of them. -/
def transitionClasses : Nat → Parse String
  | 0 => pure ""
  | fuel + 1 => do
    if (← peek).any (·.isLeaf (.delim '.')) then
      let _ ← nextOrSpace
      match ← nextOrSpace with
      | .leaf ⟨.ident n, _⟩ => do
        let rest ← transitionClasses fuel
        pure ("." ++ writeIdent n ++ rest)
      | _ => refuse .selectorState
    else pure ""

/-- The parts of a transition that a pseudo-element stands for: those of a name or of any name, with
some classes. -/
def transitionPart : Parse String := do
  skipGaps
  let name ← attempt (orElse (do expectToken (.delim '*'); pure "*") ownName)
  let classes ← fun s => transitionClasses (s.rest.length + 1) s
  skipGaps
  let done ← exhausted
  let text := name.getD "" ++ classes
  if done && !text.isEmpty then pure text else refuse .selectorState

/-- A pseudo-class that this module has no form for keeps its arguments as they are. -/
def otherClass (m : Mode) (name : String) : Parse Simple := do
  if m.afterPseudo then refuse .selectorState
  else if sameName name "lang" then .pseudoClass <$> languages
  else if sameName name "dir" then .pseudoClass <$> direction
  else if sameName name "state" then do pure (.pseudoClass ("state(" ++ (← ownName) ++ ")"))
  else if sameName name "active-view-transition-type" then do
    let names ← commaSeparated ownName
    pure (.pseudoClass ("active-view-transition-type(" ++ ", ".intercalate names ++ ")"))
  else
    let inner ← raw
    pure (.pseudoClass (name ++ "(" ++ inner ++ ")"))

/-! ## Compounds, selectors and lists -/

/-- The combinator between two compounds, if the selector goes on. -/
def combinator? : Parse (Option Combinator) := do
  let space := (← peek).any fun c => match c.token with
    | .whitespace _ => true
    | _ => false
  match ← attempt (lookahead next) with
  | none => do skipGaps; pure none
  | some c =>
    if c.isLeaf (.delim '>') then do let _ ← next; pure (some .child)
    else if c.isLeaf (.delim '+') then do let _ ← next; pure (some .nextSibling)
    else if c.isLeaf (.delim '~') then do let _ ← next; pure (some .laterSibling)
    else if space then do skipGaps; pure (some .descendant)
    else pure none

/-- Puts a combinator in front of a selector. -/
def lead (c : Combinator) : List Step → List Step
  | .mk _ compound :: steps => .mk (some c) compound :: steps
  | [] => []

/-- Whether `&` stands between two positions; the components start at the first. -/
def mentionsParent (p limit : Text.Position) : List Component → Bool
  | [] => false
  | c :: cs =>
    (p.line < limit.line || (p.line == limit.line && p.column < limit.column)) &&
      (c.isLeaf (.delim '&') || mentionsParent (p.advance c.text) limit cs)

mutual
/-- Selectors between commas, and whether one of them refers to the rule around it. A lenient list
passes over what it cannot read. -/
def readList : Nat → Mode → Origin → Bool → Parse (List (List Step) × Bool)
  | 0, _, _, _ => refuse .tooDeep
  | n + 1, m, origin, lenient => do
    let start ← fun s => .ok (s, s)
    let r ← beforeResult isComma (readSelector n m origin)
    let (first, nesting) ← match r with
      | .ok (steps, nesting) => pure ([steps], nesting)
      | .error e =>
        if lenient then pure ([], mentionsParent start.position e.position start.rest)
        else ofResult (.error e)
    match ← attempt next with
    | none => pure (first, nesting)
    | some _ => do
      let (rest, nesting') ← readList n m origin lenient
      pure (first ++ rest, nesting || nesting')

/-- A selector, and whether it refers to the rule around it. -/
def readSelector : Nat → Mode → Origin → Parse (List Step × Bool)
  | 0, _, _ => refuse .tooDeep
  | n + 1, m, .free => do
    let (steps, m) ← readSteps n m none
    pure (steps, m.afterNesting)
  | n + 1, m, .linked => do
    let (steps, m) ← readSteps n m none
    if m.afterNesting then pure (steps, true) else refuse .nestingMissing
  | n + 1, m, origin => do
    let c ← lookahead next
    let leading ←
      if c.isLeaf (.delim '>') || c.isLeaf (.delim '+') || c.isLeaf (.delim '~') then combinator?
      else pure none
    let (steps, m) ← readSteps n m none
    match leading, origin with
    | some c, .nested => pure (.mk none [.nesting] :: lead c steps, true)
    | some c, _ => pure (.mk none [.scope] :: lead c steps, m.afterNesting)
    | none, .nested =>
      if m.afterNesting then pure (steps, true)
      else pure (.mk none [.nesting] :: lead .descendant steps, false)
    | none, _ => pure (steps, m.afterNesting)

/-- Compounds and the combinators between them; `c` stands in front of the first. -/
def readSteps : Nat → Mode → Option Combinator → Parse (List Step × Mode)
  | 0, _, _ => refuse .tooDeep
  | n + 1, m, c => do
    let (compound, m) ← readCompound n m
    if compound.isEmpty then
      refuse (if c.isSome then .danglingCombinator else .emptySelector)
    else if m.afterPseudo then
      let p ← here
      match ← attempt next with
      | some d => refuseAt p (.afterPseudoElement d.token)
      | none => pure ([.mk c compound], m)
    else
      match ← combinator? with
      | none => pure ([.mk c compound], m)
      | some d =>
        if m.single then refuse .selectorState
        else
          let (steps, m) ← readSteps n m (some d)
          pure (.mk c compound :: steps, m)

/-- A compound. -/
def readCompound : Nat → Mode → Parse (List Simple × Mode)
  | 0, _ => refuse .tooDeep
  | n + 1, m => do
    skipGaps
    let nesting := (← peek).any (·.isLeaf (.delim '&'))
    let (front, m) ← if nesting then do
        let _ ← nextOrSpace
        pure ([Simple.nesting], { m with afterNesting := true })
      else pure ([], m)
    let type ← typeSelector m
    let (rest, m) ← readSimples n m
    pure (front ++ type.toList ++ rest, m)

/-- The simple selectors behind the type. -/
def readSimples : Nat → Mode → Parse (List Simple × Mode)
  | 0, _ => refuse .tooDeep
  | n + 1, m => do
    match ← readSimple n m with
    | none => pure ([], m)
    | some (s, m) => do
      let (rest, m) ← readSimples n m
      pure (s :: rest, m)

/-- A simple selector, unless something else comes next. -/
def readSimple : Nat → Mode → Parse (Option (Simple × Mode))
  | 0, _ => refuse .tooDeep
  | n + 1, m => do
    let p ← here
    match ← peek with
    | some (.leaf ⟨.idHash name, _⟩) => do
      let _ ← nextOrSpace
      if m.afterPseudo then refuseAt p (.afterPseudoElement (.idHash name))
      else pure (some (.id name, m))
    | some (.block .square o body e) => do
      let _ ← nextOrSpace
      if m.afterPseudo then refuseAt p (.afterPseudoElement (Component.block .square o body e).token)
      else
        let s ← within body attributeBody
        pure (some (s, m))
    | some (.leaf ⟨.colon, _⟩) => do
      let _ ← nextOrSpace
      let p ← here
      let c ← nextOrSpace
      if c.isLeaf .colon then
        let c ← nextOrSpace
        some <$> readPseudo n m p false c
      else some <$> readPseudo n m p true c
    | some c =>
      if c.isLeaf (.delim '.') then do
        let _ ← nextOrSpace
        if m.afterPseudo then refuseAt p (.afterPseudoElement c.token)
        else
          let p ← here
          match ← nextOrSpace with
          | .leaf ⟨.ident name, _⟩ => pure (some (.className name, m))
          | c => refuseAt p (.className c.token)
      else if c.isLeaf (.delim '&') then do
        let _ ← nextOrSpace
        pure (some (.nesting, { m with afterNesting := true }))
      else pure none
    | none => pure none

/-- What follows the colons. -/
def readPseudo : Nat → Mode → Text.Position → Bool → Component → Parse (Simple × Mode)
  | 0, _, _, _, _ => refuse .tooDeep
  | n + 1, m, p, oneColonOnly, c => do
    match c with
    | .leaf ⟨.ident name, _⟩ =>
      if oneColonOnly && !oneColon.contains name.toLower then do
        let s ← pseudoClass m p name
        pure (s, m)
      else if m.afterElement || m.plainOnly then refuse .selectorState
      else match pseudoElement name with
        | .pseudoElement t known => pure (.pseudoElement t known, m.behindElement name known)
        | s => pure (s, m)
    | .block _ ⟨.function name, _⟩ body _ =>
      if oneColonOnly && !oneColon.contains name.toLower then
        within body (readClassFunction n m name)
      else if m.afterElement || m.plainOnly then refuse .selectorState
      else if sameName name "part" then
        if m.afterPseudo then refuse .selectorState
        else
          let names ← within body (partNames (body.length + 1))
          pure (.part names, { m with afterPart := true })
      else if sameName name "slotted" then
        if m.afterPseudo then refuse .selectorState
        else
          let (steps, nesting) ← within body (readSelector n m.compoundOnly .free)
          pure (.slotted steps, { m with afterSlotted := true, afterNesting := m.afterNesting || nesting })
      else
        let low := name.toLower
        if low == "cue" || low == "cue-region" then
          let (steps, _) ← within body (readSelector n .initial .free)
          pure (.pseudoElement ("::" ++ low ++ "(" ++ text steps ++ ")") true, m.behindElement name true)
        else
          let inner ← within body (
            if knownElementFunctions.transitionParts.contains low then transitionPart
            else if low == "picker" then writeIdent <$> expectIdent
            else raw)
          let known := knownElementFunctions.contains low
          let shown := if known then low else name
          pure (.pseudoElement ("::" ++ shown ++ "(" ++ inner ++ ")") known, m.behindElement name known)
    | c => refuse (.pseudoName c.token)

/-- The arguments of a pseudo-class. -/
def readClassFunction : Nat → Mode → String → Parse (Simple × Mode)
  | 0, _, _ => refuse .tooDeep
  | n + 1, m, name => do
    let low := name.toLower
    if nthNames.contains low then
      if m.afterPseudo then refuse .selectorState
      else
        let (step, offset) ← readFormula
        let done ← exhausted
        if done || !nthAmongNames.contains low then pure (.nth low step offset none, m)
        else
          expectKeyword "of"
          let (list, _) ← readList n m.plain .free true
          pure (.nth low step offset (some list), m)
    else if matchingNames.contains low then
      let (list, nesting) ← readList n m.plain .free true
      pure (.matching low list, { m with afterNesting := m.afterNesting || nesting })
    else if low == "has" then
      let (list, nesting) ← readList n m .relative true
      pure (.matching low list, { m with afterNesting := m.afterNesting || nesting })
    else if low == "not" then
      let (list, nesting) ← readList n m.plain .free false
      pure (.matching low list, { m with afterNesting := m.afterNesting || nesting })
    else if low == "host" then
      if m.afterPseudo then refuse .selectorState
      else
        let (steps, nesting) ← readSelector n m.compoundOnly .free
        pure (.host steps, { m with afterNesting := m.afterNesting || nesting })
    else
      let s ← otherClass m name
      pure (s, m)
end

/-- More steps than any reading of the components takes. -/
def fuelFor (cs : List Component) : Nat := 8 * (Component.sizeAll cs + 2)

/-- A list of selectors with the given origin. -/
def list (origin : Origin) (lenient : Bool) : Parse (List (List Step)) := fun s =>
  (readList (fuelFor s.rest) .initial origin lenient s).map fun r => (r.1.1, r.2)

/-- The selectors in front of a block; inside another style rule they refer to that rule. -/
def prelude (nested : Bool) : Parse (List (List Step)) := list (if nested then .nested else .free) false

end StyleBump.Selector
