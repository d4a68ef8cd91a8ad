import StyleBump.Condition.Basic
import StyleBump.Css.Cursor
import StyleBump.Property.Names

/-! # Conditions on what a program supports

A declaration in parentheses asks whether it is understood, `selector()` whether a selector is. What
has neither form is kept as it stands. Conditions that are joined name a declaration once; the marks
of vendors on its property are collected. -/

namespace StyleBump.Condition
open Css Css.Parse

/-- A declaration that is asked for. A property that vendors have variants of carries the marks of those
that are asked for, the empty one for no vendor. -/
structure Asked where
  vendors : Option (List String)
  property : String
  value : String
  deriving DecidableEq, Repr

namespace Asked

/-- The order in which the marks of vendors are written. -/
def vendorOrder : List String := Property.vendors ++ [""]

/-- A property in a condition. -/
def of (name value : String) : Asked :=
  match Property.ofName? name with
  | some p => ⟨if p.isVendored then some [p.vendor] else none, p.stem, value⟩
  | none => ⟨none, name, value⟩

/-- Whether two declarations differ in the marks of vendors at most. -/
def agrees (a b : Asked) : Bool :=
  a.property == b.property && a.value == b.value && a.vendors.isSome == b.vendors.isSome

/-- The declaration without the mark of a vendor. -/
def unmarked (a : Asked) : Asked := { a with vendors := a.vendors.map fun _ => [""] }

/-- The declaration, which may be without the mark of a vendor as well. -/
def orUnmarked (a : Asked) : Asked :=
  { a with vendors := a.vendors.map fun vs => vendorOrder.filter fun v => v.isEmpty || vs.contains v }

/-- A declaration without parentheses; one with marks of vendors asks for any of its variants. -/
def text (a : Asked) : String :=
  let variant (v : String) := v ++ writeName a.property.toList ++ ": " ++ a.value
  match a.vendors with
  | none | some [""] => variant ""
  | some vs => "(" ++ ") or (".intercalate (vs.map variant) ++ ")"

end Asked

/-- A declaration, which takes part in merging, a block that is kept as it stands, or another
condition. -/
inductive Claim
  | asked (a : Asked)
  | kept (text : String)
  | other (c : Condition)

def Claim.condition : Claim → Condition
  | asked a => .feature ("(" ++ a.text ++ ")") none
  | kept t => .feature t none
  | other c => c

/-- Adds a condition to those it is joined with. A declaration that was asked for before is not asked
for again, but then it may be without the mark of a vendor. -/
def Claim.addTo (claims : List Claim) (c : Claim) : List Claim :=
  match c with
  | asked a =>
    let hits : Claim → Bool := fun
      | asked b => b.agrees a
      | _ => false
    match claims.findIdx? hits with
    | none => claims ++ [asked a.unmarked]
    | some i => claims.modify i fun
      | asked b => asked b.orUnmarked
      | d => d
  | c => claims ++ [c]

/-- Refuses the first malformed token, behind it. -/
def soundness (p : Text.Position) : List Lexeme → Except Refusal Unit
  | [] => .ok ()
  | l :: ls =>
    let q := p.advance l.text
    if l.token.isMalformed then .error ⟨.unexpected l.token, q⟩ else soundness q ls

mutual
/-- The lexemes inside the blocks of a run, the closing brackets left out. -/
def contents : List Component → List Lexeme
  | [] => []
  | c :: cs => contentsOf c ++ contents cs

/-- The lexemes of a component value, the one that closes it made harmless. -/
def contentsOf : Component → List Lexeme
  | .leaf l => [l]
  | .block _ o body c => o :: (contents body ++ (c.toList.map fun l => ⟨.whitespace "", l.text⟩))
end

/-- All that is left, as it stands, if no token of it is malformed. -/
def verbatim : Parse String := fun s =>
  match soundness s.position (contents s.rest) with
  | .ok () =>
    let t := Component.textAll s.rest
    .ok (String.ofList t, Cursor.of [] (s.position.advance t))
  | .error e => .error e

/-- The declaration in a condition. -/
def askedDeclaration : Parse Asked := do
  let name ← expectIdent
  expectToken .colon
  skipGaps
  let value ← verbatim
  pure (Asked.of name value)

/-- A block that is kept as it stands. -/
def readUnknown (body : List Component) (c : Component) : Parse Claim := do
  let _ ← within body verbatim
  pure (.kept (String.ofList c.text))

/-- The word between two conditions; `word` is the one that stood between earlier ones. -/
def sameJunction (word : Option Junction) : Parse Junction := do
  let p ← here
  let w ← expectIdent
  let j ← if sameName w "and" then pure Junction.and
    else if sameName w "or" then pure Junction.or
    else refuseAt p (.unexpected (.ident w))
  if word.any (· != j) then refuseAt p (.unexpected (.ident w)) else pure j

mutual
/-- A condition on what is supported. -/
def readSupports : Nat → Parse Claim
  | 0 => refuse .tooDeep
  | n + 1 => do
    match ← attempt (expectKeyword "not") with
    | some _ => do
      let c ← readClaim n
      pure (.other (.negation c.condition))
    | none => do
      let c ← readClaim n
      readClaims n none [c]

/-- Further conditions; `word` stands between those that were read. -/
def readClaims : Nat → Option Junction → List Claim → Parse Claim
  | 0, _, _ => refuse .tooDeep
  | n + 1, word, claims => do
    let more ← attempt do
      let j ← sameJunction word
      let c ← readClaim n
      pure (j, c)
    match more with
    | some (j, c) => readClaims n (some j) (Claim.addTo claims c)
    | none =>
      match word, claims with
      | _, [c] => pure c
      | some j, cs => pure (.other (.joined j (cs.map Claim.condition)))
      | none, _ => refuse .endOfInput

/-- One condition. -/
def readClaim : Nat → Parse Claim
  | 0 => refuse .tooDeep
  | n + 1 => do
    skipGaps
    let p ← here
    let c ← next
    match c with
    | .block _ ⟨.function f, _⟩ body _ =>
      let found ← attempt do
        if sameName f "selector" then do
          let t ← within body verbatim
          pure (Claim.other (.feature ("selector(" ++ t ++ ")") none))
        else Parse.unexpected p c
      match found with
      | some c => pure c
      | none => readUnknown body c
    | .block _ ⟨.opening .round, _⟩ body _ =>
      match ← attempt (within body (readParenthesized n)) with
      | some c => pure c
      | none => readUnknown body c
    | c => Parse.unexpected p c

/-- A condition or a declaration in parentheses. -/
def readParenthesized : Nat → Parse Claim
  | 0 => refuse .tooDeep
  | n + 1 => do
    match ← attempt (readSupports n) with
    | some c => pure c
    | none => .asked <$> askedDeclaration

end

/-- More steps than any reading of the components takes. -/
def supportsFuel (s : Cursor) : Nat := 8 * (Component.sizeAll s.rest + 2)

/-- The condition of a group of rules. -/
def supports : Parse Condition := fun s =>
  (readSupports (supportsFuel s) s).map fun r => (r.1.condition, r.2)

/-- The text of the condition on an imported sheet: a condition, or a declaration by itself, in one
pair of parentheses. -/
def importedSupports : Parse String := fun s =>
  match readSupports (supportsFuel s) s with
  | .ok (.asked a, s') => .ok ("(" ++ a.text ++ ")", s')
  | .ok (.kept t, s') => .ok (t, s')
  | .ok (.other c, s') => .ok ("(" ++ c.text false ++ ")", s')
  | .error _ => (askedDeclaration s).map fun r => ("(" ++ r.1.text ++ ")", r.2)

end StyleBump.Condition
