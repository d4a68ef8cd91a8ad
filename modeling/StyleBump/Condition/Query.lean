import StyleBump.Condition.Feature
import StyleBump.Property.Value

/-! # Conditions from features

`condition` reads features in parentheses, with `not` in front of one or with `and` or `or` between
several. A junction does not mix with another one at the same depth. -/

namespace StyleBump.Condition
open Css Css.Parse

/-- What a condition may be made of: features, queries of a container's style or of its scrolling as
well, and alternatives outside parentheses. -/
structure Scope where
  feature : Parse Condition
  queries : Bool
  alternatives : Bool

namespace Scope

/-- Conditions on features. -/
def features (table : FeatureTable) : Scope := ⟨readFeature table, false, true⟩

/-- Conditions on a container. -/
def container : Scope := ⟨readFeature containerFeatures, true, true⟩

/-- A declaration that a container may hold, or a property that it may set. -/
def readStyle : Parse Condition := do
  let name := Property.spelling (← expectIdent)
  match ← attempt (expectToken .colon) with
  | some _ => do
    skipGaps
    let value ← Property.value name
    pure (.feature ("(" ++ name ++ ": " ++ "\n".intercalate value ++ ")") none)
  | none => pure (.feature ("(" ++ name ++ ")") none)

/-- The conditions in a query of a container, by the name of the query. -/
def inner? (s : Scope) (name : String) : Option Scope :=
  if !s.queries then none
  else if sameName name "style" then some ⟨readStyle, false, true⟩
  else if sameName name "scroll-state" then some ⟨readFeature scrollFeatures, false, true⟩
  else none

end Scope

/-- A query of a container as a feature of it. -/
def queryOf (name : String) (c : Condition) : Condition :=
  let text := match c with
    | .feature s _ => s
    | c => "(" ++ c.text false ++ ")"
  .feature (name.toLower ++ text) none

/-- The word between joined conditions. -/
def junction : Parse Junction := do
  let p ← here
  let n ← expectIdent
  if sameName n "and" then pure .and
  else if sameName n "or" then pure .or
  else refuseAt p (.unexpected (.ident n))

mutual
/-- A condition that holds. -/
def readCondition : Nat → Scope → Parse Condition
  | 0, _ => refuse .tooDeep
  | n + 1, scope => do
    let p ← here
    match ← next with
    | .leaf ⟨.ident w, t⟩ =>
      if sameName w "not" then do
        let c ← readOperand n scope
        pure (.negation c)
      else Parse.unexpected p (.leaf ⟨.ident w, t⟩)
    | .block _ ⟨.opening .round, _⟩ body _ => do
      let c ← within body (readParens n scope)
      readJoined n scope p c
    | .block b ⟨.function f, t⟩ body e =>
      match scope.inner? f with
      | some inner => do
        let c ← within body (readInner n inner)
        readJoined n scope p (queryOf f c)
      | none => Parse.unexpected p (.block b ⟨.function f, t⟩ body e)
    | c => Parse.unexpected p c

/-- What is joined with the first condition. -/
def readJoined : Nat → Scope → Text.Position → Condition → Parse Condition
  | 0, _, _, _ => refuse .tooDeep
  | n + 1, scope, p, first => do
    match ← attempt junction with
    | none => pure first
    | some j =>
      if !scope.alternatives && j = .or then refuseAt p (.unexpected (.ident "or"))
      else do
        let c ← readOperand n scope
        let cs ← readMore n scope j
        pure (.joined j (first :: c :: cs))

/-- Further conditions behind the same word. -/
def readMore : Nat → Scope → Junction → Parse (List Condition)
  | 0, _, _ => refuse .tooDeep
  | n + 1, scope, j => do
    match ← attempt (expectKeyword j.word) with
    | none => pure []
    | some _ => do
      let c ← readOperand n scope
      let cs ← readMore n scope j
      pure (c :: cs)

/-- A condition in parentheses, or a query for styles. -/
def readOperand : Nat → Scope → Parse Condition
  | 0, _ => refuse .tooDeep
  | n + 1, scope => do
    let p ← here
    match ← next with
    | .block _ ⟨.opening .round, _⟩ body _ => within body (readParens n scope)
    | .block b ⟨.function f, t⟩ body e =>
      match scope.inner? f with
      | some inner => do
        let c ← within body (readInner n inner)
        pure (queryOf f c)
      | none => Parse.unexpected p (.block b ⟨.function f, t⟩ body e)
    | c => Parse.unexpected p c

/-- The content of parentheses. -/
def readParens : Nat → Scope → Parse Condition
  | 0, _ => refuse .tooDeep
  | n + 1, scope => do
    if ← exhausted then refuse .emptyBrackets else readInner n scope

/-- A condition or a feature. -/
def readInner : Nat → Scope → Parse Condition
  | 0, _ => refuse .tooDeep
  | n + 1, scope => do
    match ← attempt (readCondition n { scope with alternatives := true }) with
    | some c => pure c
    | none => scope.feature
end

/-- A condition; no more steps are taken than the component values allow. -/
def condition (scope : Scope) : Parse Condition := fun s =>
  readCondition (8 * (Component.sizeAll s.rest + 2)) scope s

/-! ## Queries for media -/

/-- What a query asks of the medium: a word in front, the type of the medium, and a condition. -/
structure MediaQuery where
  qualifier : Option String
  medium : Option String
  condition : Option Condition

/-- The types of media whose names are written in lower case. -/
def knownMedia : List String := ["all", "print", "screen"]

/-- A query as text. -/
def MediaQuery.text (q : MediaQuery) : String :=
  let medium := q.medium.getD "all"
  let front := (q.qualifier.map (· ++ " ")).getD ""
  match q.condition with
  | none => front ++ medium
  | some c =>
    if medium == "all" && q.qualifier.isNone then c.text true
    else front ++ medium ++ " and " ++ parens c.isOr (c.text true)

/-- The word in front of the type of the medium. -/
def qualifier : Parse String := do
  let p ← here
  let n ← expectIdent
  if sameName n "only" then pure "only"
  else if sameName n "not" then pure "not"
  else refuseAt p (.unexpected (.ident n))

/-- The type of the medium, and the word in front of it, if there is one. -/
def medium : Parse (Option String × String) := do
  let q ← attempt qualifier
  let n ← expectIdent
  let low := n.toLower
  pure (q, if knownMedia.contains low then low else n)

def mediaQuery : Parse MediaQuery := do
  match ← attempt medium with
  | none => do
    let c ← condition (.features mediaFeatures)
    pure ⟨none, none, some c⟩
  | some (q, m) => do
    match ← attempt (expectKeyword "and") with
    | none => pure ⟨q, some m, none⟩
    | some _ => do
      let c ← condition { Scope.features mediaFeatures with alternatives := false }
      pure ⟨q, some m, some c⟩

/-- Queries between commas. A query that breaks off ends the list. -/
def mediaQueriesAux : Nat → Parse (List MediaQuery)
  | 0 => pure []
  | fuel + 1 => do
    match ← beforeResult isComma mediaQuery with
    | .ok q => do
      match ← attempt next with
      | none => pure [q]
      | some _ => do
        let qs ← mediaQueriesAux fuel
        pure (q :: qs)
    | .error e => if e.cause = .endOfInput then pure [] else ofResult (.error e)

/-- The text of a list of queries; an empty list asks for what no medium is. -/
def queriesText (qs : List MediaQuery) : String :=
  if qs.isEmpty then "not all" else ", ".intercalate (qs.map MediaQuery.text)

/-- Queries for media. -/
def mediaQueries : Parse (List MediaQuery) := fun s => mediaQueriesAux (s.rest.length + 1) s

/-! ## Queries for containers -/

/-- The name that a query for containers starts with. -/
def containerName : Parse String := do
  let p ← here
  let n ← expectIdent
  let low := n.toLower
  if ["none", "and", "not", "or", "initial", "inherit", "unset", "default", "revert",
      "revert-layer"].contains low then refuseAt p (.unexpected (.ident n))
  else pure (writeIdent n)

/-- The text of a query for containers. -/
def containerQuery : Parse String := do
  let name ← attempt containerName
  match name with
  | none => do
    let c ← condition .container
    pure (c.text false)
  | some n =>
    if ← exhausted then pure n
    else
      let c ← condition .container
      pure (n ++ " " ++ c.text false)

end StyleBump.Condition
