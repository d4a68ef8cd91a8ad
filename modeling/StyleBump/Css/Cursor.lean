import StyleBump.Css.Component
import StyleBump.Css.Writing

/-! # Reading component values

A reader takes component values from the front of a run and keeps track of where it stands, so that a
refusal can say where it happened. A reader that refuses leaves no trace: `attempt` goes on from
where it started. -/

namespace StyleBump.Css
open Text (Position)

/-- Why a text is refused. -/
inductive Cause
  | endOfInput
  | unexpected (t : Token)
  | unknownAtRule (name : String)
  | noBodyAllowed
  | tooDeep
  | mediaFeature
  | emptyBrackets
  | value
  | pageSelector
  | declaration
  | importTooLate
  | namespaceTooLate
  | emptySelector
  | danglingCombinator
  | selectorState
  | className (t : Token)
  | namespacedName (t : Token)
  | attributeName (t : Token)
  | attributeQualifiedName (t : Token)
  | attributeBar (t : Token)
  | attributeToken (t : Token)
  | attributeValue (t : Token)
  | pseudoName (t : Token)
  | afterPseudoElement (t : Token)
  | pseudoClassAfterPseudoElement
  | pseudoClassAfterScrollbar
  | pseudoClassBeforeScrollbar
  | nestingMissing
  deriving DecidableEq, Repr

/-- The wording of a refusal. -/
def Cause.message : Cause → String
  | endOfInput => "Unexpected end of input"
  | unexpected t => "Unexpected token " ++ t.report
  | unknownAtRule n => "Unknown at rule: @" ++ n
  | noBodyAllowed => "Invalid @ rule body"
  | tooDeep => "Overflowed the maximum nesting depth"
  | mediaFeature => "Invalid media query"
  | emptyBrackets => "The brackets cannot be empty"
  | value => "Invalid value"
  | pageSelector => "Invalid page selector"
  | declaration => "Invalid declaration"
  | importTooLate => "@import rules must precede all rules aside from @charset and @layer statements"
  | namespaceTooLate =>
    "@namespaces rules must precede all rules aside from @charset, @import, and @layer statements"
  | emptySelector => "Invalid empty selector"
  | danglingCombinator => "Invalid dangling combinator in selector"
  | selectorState => "Invalid state"
  | className t => "Expected identifier in class selector, got " ++ t.report
  | namespacedName t => "Unexpected token in namespace selector: " ++ t.report
  | attributeName t => "No qualified name in attribute selector: " ++ t.report ++ "."
  | attributeQualifiedName t => "Invalid qualified name in attribute selector: " ++ t.report
  | attributeBar t => "Expected | in attribute, got " ++ t.report
  | attributeToken t => "Unexpected token in attribute selector: " ++ t.report
  | attributeValue t => "Invalid value in attribute selector: " ++ t.report
  | pseudoName t => "Invalid token in pseudo element: " ++ t.report
  | afterPseudoElement t =>
    "Pseudo-elements like '::before' or '::after' can't be followed by selectors like '" ++ t.report ++ "'"
  | pseudoClassAfterPseudoElement =>
    "Invalid pseudo class after pseudo element, only user action pseudo classes (e.g. :hover, :active) are allowed"
  | pseudoClassAfterScrollbar => "Invalid pseudo class after ::-webkit-scrollbar pseudo element"
  | pseudoClassBeforeScrollbar =>
    "Pseudo class must be prefixed by a ::-webkit-scrollbar pseudo element"
  | nestingMissing => "A nesting selector (&) is required in each selector of the list"

/-- A refusal and where it happened. -/
structure Refusal where
  cause : Cause
  position : Position
  deriving DecidableEq, Repr

/-- What is left to read, where it starts, and where the last token that was read ended: behind the
opening token, if that token opened a block. -/
structure Cursor where
  rest : List Component
  position : Position
  head : Position

namespace Cursor

/-- At the front of a run of component values that starts at a position. -/
def of (cs : List Component) (p : Position) : Cursor := ⟨cs, p, p⟩

/-- Past the component values that pass a test, up to the first that does not. -/
def past (t : Component → Bool) (p : Position) : List Component → Cursor
  | [] => of [] p
  | c :: cs => if t c then past t (p.advance c.text) cs else of (c :: cs) p

def skip (t : Component → Bool) (s : Cursor) : Cursor := past t s.position s.rest

/-- Past the white space and the comments that come next. -/
def skipGaps (s : Cursor) : Cursor := s.skip Component.isGap

end Cursor

/-- A reader of component values. -/
abbrev Parse := StateT Cursor (Except Refusal)

namespace Parse
variable {α : Type}

/-- Refuses at a position. -/
def refuseAt (p : Position) (c : Cause) : Parse α := fun _ => .error ⟨c, p⟩

/-- Refuses behind the last token. -/
def refuse (c : Cause) : Parse α := fun s => .error ⟨c, s.head⟩

/-- The position behind the last token. -/
def here : Parse Position := fun s => .ok (s.head, s)

/-- Past all that passes a test. -/
def skip (t : Component → Bool) : Parse Unit := fun s => .ok ((), s.skip t)

def skipGaps : Parse Unit := skip Component.isGap

/-- The next component value, white space and comments included. -/
def nextItem : Parse Component := fun s =>
  match s.rest with
  | [] => .error ⟨.endOfInput, s.position⟩
  | c :: cs =>
    let opener := match c with
      | .leaf l => l.text
      | .block _ o _ _ => o.text
    .ok (c, ⟨cs, s.position.advance c.text, s.position.advance opener⟩)

/-- The next component value that is no white space and no comment. -/
def next : Parse Component := do skipGaps; nextItem

/-- The next component value that is no comment. -/
def nextOrSpace : Parse Component := fun s =>
  let rec skip (s : Cursor) : List Component → Cursor
    | c :: cs =>
      match c.token with
      | .comment _ => skip (Cursor.of cs (s.position.advance c.text)) cs
      | _ => s
    | [] => s
  nextItem (skip s s.rest)

/-- Reads with `p`, or nothing if it refuses. -/
def attempt (p : Parse α) : Parse (Option α) := fun s =>
  match p s with
  | .ok (a, s') => .ok (some a, s')
  | .error _ => .ok (none, s)

/-- Reads with `p`; if it refuses, with `q`. -/
def orElse (p q : Parse α) : Parse α := fun s =>
  match p s with
  | .ok r => .ok r
  | .error _ => q s

/-- Reads with `p`, then goes back to where it started. -/
def lookahead (p : Parse α) : Parse α := fun s =>
  match p s with
  | .ok (a, _) => .ok (a, s)
  | .error e => .error e

/-- Whether nothing but white space and comments is left. -/
def exhausted : Parse Bool := fun s => .ok (s.skipGaps.rest.isEmpty, s)

/-- Refuses whatever is left. -/
def expectExhausted : Parse Unit := fun s =>
  match s.skipGaps.rest with
  | [] => .ok ((), s)
  | c :: _ => .error ⟨.unexpected c.token, s.head⟩

/-- Reads with `p` and leaves nothing. -/
def entirely (p : Parse α) : Parse α := do
  let a ← p
  expectExhausted
  pure a

/-- Reads the body of a block, and leaves nothing of it. -/
def within (body : List Component) (p : Parse α) : Parse α := fun s =>
  match entirely p (Cursor.of body s.head) with
  | .ok (a, _) => .ok (a, { s with head := s.position })
  | .error e => .error e

/-- What `p` makes of the part before the first component value that stops; that value comes next. -/
def beforeResult (stop : Component → Bool) (p : Parse α) : Parse (Except Refusal α) := fun s =>
  let front := s.rest.takeWhile (!stop ·)
  let after := s.position.advance (Component.textAll front)
  let r := (entirely p { s with rest := front }).map (·.1)
  .ok (r, Cursor.of (s.rest.dropWhile (!stop ·)) after)

/-- Reads the part before the first component value that stops, and leaves nothing of it. -/
def before (stop : Component → Bool) (p : Parse α) : Parse α := do
  match ← beforeResult stop p with
  | .ok a => pure a
  | .error e => fun _ => .error e

/-- Refuses the component value that was just read, at a position. -/
def unexpected (p : Position) (c : Component) : Parse α := refuseAt p (.unexpected c.token)

def expectIdent : Parse String := do
  let p ← here
  match ← next with
  | .leaf ⟨.ident n, _⟩ => pure n
  | c => unexpected p c

def expectKeyword (k : String) : Parse Unit := do
  let p ← here
  match ← next with
  | .leaf ⟨.ident n, t⟩ => if sameName n k then pure () else unexpected p (.leaf ⟨.ident n, t⟩)
  | c => unexpected p c

/-- One of the given words, in lower case. -/
def expectWord (ws : List String) : Parse String := do
  let p ← here
  let n ← expectIdent
  let low := n.toLower
  if ws.contains low then pure low else refuseAt p (.unexpected (.ident n))

def expectToken (t : Token) : Parse Unit := do
  let p ← here
  let c ← next
  if c.isLeaf t then pure () else unexpected p c

def expectString : Parse String := do
  let p ← here
  match ← next with
  | .leaf ⟨.string v, _⟩ => pure v
  | c => unexpected p c

def expectIdentOrString : Parse String := do
  let p ← here
  match ← next with
  | .leaf ⟨.ident n, _⟩ => pure n
  | .leaf ⟨.string v, _⟩ => pure v
  | c => unexpected p c

/-- The body of a function of the given name. -/
def expectFunction (f : String) : Parse (List Component) := do
  let p ← here
  match ← next with
  | .block b ⟨.function n, t⟩ body e =>
    if sameName n f then pure body else unexpected p (.block b ⟨.function n, t⟩ body e)
  | c => unexpected p c

/-- The body of a block in plain parentheses. -/
def expectParens : Parse (List Component) := do
  let p ← here
  match ← next with
  | .block _ ⟨.opening .round, _⟩ body _ => pure body
  | c => unexpected p c

/-- An address: unquoted, or a string inside `url()`. -/
def expectUrl : Parse String := do
  let p ← here
  match ← next with
  | .leaf ⟨.url v, _⟩ => pure v
  | .block b ⟨.function n, t⟩ body e =>
    if sameName n "url" then within body expectString
    else unexpected p (.block b ⟨.function n, t⟩ body e)
  | c => unexpected p c

/-- An address or a string. -/
def expectUrlOrString : Parse String := do
  let p ← here
  match ← next with
  | .leaf ⟨.url v, _⟩ => pure v
  | .leaf ⟨.string v, _⟩ => pure v
  | .block b ⟨.function n, t⟩ body e =>
    if sameName n "url" then within body expectString
    else unexpected p (.block b ⟨.function n, t⟩ body e)
  | c => unexpected p c

def isComma (c : Component) : Bool := c.isLeaf .comma

/-- Items between commas; at most `fuel` of them. -/
def commaSeparatedAux (p : Parse α) : Nat → Parse (List α)
  | 0 => pure []
  | fuel + 1 => do
    skipGaps
    let a ← before isComma p
    match ← attempt next with
    | none => pure [a]
    | some _ => do
      let rest ← commaSeparatedAux p fuel
      pure (a :: rest)

/-- One or more items between commas. -/
def commaSeparated (p : Parse α) : Parse (List α) := fun s =>
  commaSeparatedAux p (s.rest.length + 1) s

/-- Runs a reader on a run of component values and leaves nothing. -/
def run (p : Parse α) (cs : List Component) (start : Position) : Except Refusal α :=
  (entirely p (Cursor.of cs start)).map (·.1)

end Parse

end StyleBump.Css
