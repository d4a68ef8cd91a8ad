import StyleBump.Condition.Query
import StyleBump.Condition.Supports
import StyleBump.Selector.Reader
import StyleBump.Statement.Font
import StyleBump.Statement.Frames
import StyleBump.Statement.Page
import StyleBump.Statement.Registration

/-! # Reading statements

`sheet` reads the statements of a style sheet. Style rules nest; inside one, declarations may follow
nested rules, and groups of rules may hold declarations of their own. The first fault ends the
reading. -/

namespace StyleBump.Statement
open Css Css.Parse

/-- How far a style sheet has come. Some statements may stand at its front only. -/
inductive Stage
  | start
  | layers
  | imports
  | namespaces
  | body
  deriving DecidableEq, Repr

def Stage.rank : Stage → Nat
  | start => 0
  | layers => 1
  | imports => 2
  | namespaces => 3
  | body => 4

/-- Where a statement stands: inside a style rule, where declarations may stand, or at the top level,
where the sheet is at some stage. -/
structure Place where
  insideStyle : Bool
  takesDeclarations : Bool
  stage : Option Stage

namespace Place

/-- At the top level. -/
def top (s : Stage) : Place := ⟨false, false, some s⟩

/-- In the block of a style rule. -/
def inStyle : Place := ⟨true, true, none⟩

/-- In the block of a group of rules. -/
def inGroup (p : Place) : Place := ⟨p.insideStyle, p.takesDeclarations || p.insideStyle, none⟩

end Place

/-- What stands between the name of a statement and its block or its semicolon. -/
inductive Prelude
  | imported (line : String)
  | namespaced (line : String)
  | charset
  | media (queries : String)
  | supports (condition : String)
  | layer (names : List String)
  | described (heading : String) (value : String → Parse Descriptor)
  | features (heading : String)
  | settings (heading : String)
  | frames (heading : String)
  | page (selectors : List String)
  | registration (name : String)
  | rules (heading : String)
  | nest (selectors : List (List Selector.Step))
  | unknown (heading : String)

/-- Whether a statement may stand in a style rule. -/
def Prelude.nests : Prelude → Bool
  | media _ | supports _ | layer _ | registration _ | rules _ | nest _ | unknown _ => true
  | _ => false

/-- The stage behind a statement. -/
def Prelude.stageAfter (hasBlock : Bool) (before : Stage) : Prelude → Stage
  | imported _ => if hasBlock then .body else .imports
  | namespaced _ => if hasBlock then .body else .namespaces
  | layer _ => if hasBlock then .body else if before = .start then .layers else before
  | _ => if hasBlock then .body else before

/-! ## Preludes -/

/-- Further parts of the name of a layer. -/
def layerParts : Nat → Parse (List String)
  | 0 => pure []
  | n + 1 => do
    let part ← attempt do
      let dot ← nextOrSpace
      match dot, ← nextOrSpace with
      | .leaf ⟨.delim '.', _⟩, .leaf ⟨.ident part, _⟩ => pure part
      | _, c => refuse (.unexpected c.token)
    match part with
    | some part => do
      let parts ← layerParts n
      pure (part :: parts)
    | none => pure []

/-- The name of a layer: parts with points between them. -/
def layerName : Parse String := do
  let first ← expectIdent
  let parts ← fun s => layerParts (s.rest.length + 1) s
  pure (".".intercalate ((first :: parts).map writeIdent))

/-- The names of layers. A list that breaks off names none. -/
def layerNames : Parse (List String) := fun s =>
  match commaSeparated layerName s with
  | .ok r => .ok r
  | .error e =>
    if e.cause = .endOfInput then .ok ([], Cursor.of [] (s.position.advance (Component.textAll s.rest)))
    else .error e

/-- An imported sheet: its address, its layer, and the conditions under which it counts. -/
def importLine : Parse String := do
  let address ← expectUrlOrString
  let line := "@import " ++ writeString address
  let word ← attempt (expectKeyword "layer")
  let function ← if word.isSome then pure none else attempt (expectFunction "layer")
  let line ← match word, function with
    | some _, _ => pure (line ++ " layer")
    | none, some body => do
      let name ← within body layerName
      pure (line ++ " layer(" ++ name ++ ")")
    | none, none => pure line
  let line ← match ← attempt (expectFunction "supports") with
    | some body => do
      let c ← within body Condition.importedSupports
      pure (line ++ " supports" ++ c)
    | none => pure line
  let queries ← Condition.mediaQueries
  pure (line ++ (if queries.isEmpty then "" else " " ++ Condition.queriesText queries) ++ ";")

/-- A namespace and the name it is given. -/
def namespaceLine : Parse String := do
  let name ← attempt expectIdent
  let address ← expectUrlOrString
  pure ("@namespace " ++ (name.map fun n => writeIdent n ++ " ").getD "" ++ writeString address ++ ";")

/-- A name of the author's own. -/
def dashedName : Parse String := do
  let p ← here
  let n ← expectIdent
  if Value.isDashed n then pure (writeIdent n) else refuseAt p (.unexpected (.ident n))

/-- A name that is none of the words any property understands. -/
def customName : Parse String := do
  let p ← here
  let n ← expectIdent
  if (Property.wideWords ++ ["default"]).contains n.toLower then refuseAt p (.unexpected (.ident n))
  else pure (writeIdent n)

/-- Selectors in parentheses; the ones that cannot be read are passed over. -/
def scopeSelectors (body : List Component) : Parse String := do
  let selectors ← within body (Selector.list .relative true)
  pure ("(" ++ ", ".intercalate (selectors.map Selector.text) ++ ")")

/-- The elements that rules are limited to. -/
def scopeHeading : Parse String := do
  let root ← match ← attempt expectParens with
    | some body => do
      let s ← scopeSelectors body
      pure (" " ++ s)
    | none => pure ""
  let limit ← match ← attempt (expectKeyword "to") with
    | some _ => do
      let body ← expectParens
      let s ← scopeSelectors body
      pure (" to " ++ s)
    | none => pure ""
  pure ("@scope" ++ root ++ limit)

/-- The argument of a condition on the program itself: nothing, or the empty string. -/
def emptyArgument : Parse Unit := do
  let _ ← attempt do
    let s ← expectString
    if s.isEmpty then pure () else refuse .value

/-- A name behind a heading. -/
def named (heading : String) (p : Parse String) : Parse String := do
  let n ← p
  pure (heading ++ " " ++ n)

/-- A statement that may stand in any block, by its name in lower case; `name` is how it is written. -/
def innerPrelude (insideStyle : Bool) (low name : String) : Parse Prelude :=
  match low with
  | "media" => do
    let q ← Condition.mediaQueries
    pure (.media (Condition.queriesText q))
  | "supports" => do
    let c ← Condition.supports
    pure (.supports (c.text false))
  | "layer" => .layer <$> layerNames
  | "font-face" => pure (.described "@font-face" fontValue)
  | "font-palette-values" => do
    let heading ← named "@font-palette-values" dashedName
    pure (.described heading paletteValue)
  | "font-feature-values" =>
    .features <$> named "@font-feature-values" (Value.commaList Property.plainFamily)
  | "view-transition" => pure (.described "@view-transition" transitionValue)
  | "position-try" => .settings <$> named "@position-try" dashedName
  | "property" => .registration <$> dashedName
  | "counter-style" => .settings <$> named "@counter-style" customName
  | "viewport" | "-ms-viewport" => pure (.settings ("@" ++ low))
  | "keyframes" | "-webkit-keyframes" | "-moz-keyframes" | "-o-keyframes" | "-ms-keyframes" =>
    .frames <$> named ("@" ++ low) framesName
  | "page" => .page <$> pageSelectors
  | "-moz-document" => do
    let body ← expectFunction "url-prefix"
    within body emptyArgument
    pure (.rules "@-moz-document url-prefix()")
  | "container" => .rules <$> named "@container" Condition.containerQuery
  | "starting-style" => pure (.rules "@starting-style")
  | "scope" => .rules <$> scopeHeading
  | _ =>
    if low == "nest" && insideStyle then .nest <$> Selector.list .linked false
    else do
      skipGaps
      let t ← Value.tokens
      pure (.unknown ("@" ++ name ++ (if t.isEmpty then "" else " " ++ t)))

/-- A statement at the top level. -/
def topPrelude (stage : Stage) (low name : String) : Parse Prelude :=
  match low with
  | "import" =>
    if Stage.imports.rank < stage.rank then refuse .importTooLate else .imported <$> importLine
  | "namespace" =>
    if Stage.namespaces.rank < stage.rank then refuse .namespaceTooLate
    else .namespaced <$> namespaceLine
  | "charset" => do
    let _ ← expectString
    pure .charset
  | _ => innerPrelude false low name

/-- What follows the name of a statement. -/
def readPrelude (place : Place) (name : String) : Parse Prelude := do
  let low := name.toLower
  let p ← match place.stage with
    | some stage => topPrelude stage low name
    | none => innerPrelude place.insideStyle low name
  if place.insideStyle && !p.nests then refuse (.unknownAtRule name) else pure p

/-! ## Statements -/

/-- A statement without a block. -/
def withoutBlock (insideStyle : Bool) : Prelude → Parse (Option Statement)
  | .imported line => pure (some (.other [line] true))
  | .namespaced line => pure (some (.other [line] true))
  | .charset => pure none
  | .layer names =>
    if insideStyle || names.isEmpty then refuse (.unexpected .semicolon)
    else pure (some (.other ["@layer " ++ ", ".intercalate names ++ ";"] true))
  | .unknown heading => pure (some (.other [heading ++ ";"] false))
  | _ => refuse (.unexpected .semicolon)

/-- Reads with `p` and tells why it refused, if it did. -/
def capture {α : Type} (p : Parse α) : Parse (Except Refusal α) := fun s =>
  match p s with
  | .ok (a, s') => .ok (.ok a, s')
  | .error e => .ok (.error e, s)

/-- Adds a setting behind statements that are held last first. In front of all of them it belongs to the
block; behind one it is a statement of its own, together with those next to it. -/
def addSetting (s : Setting) (settings : List Setting) : List Statement → List Setting × List Statement
  | [] => (settings ++ [s], [])
  | .loose ss :: done => (settings, .loose (ss ++ [s]) :: done)
  | done => (settings, .loose [s] :: done)

/-- What starts the block of a style rule, or ends what would have been one. -/
def endsSelectors (nested : Bool) (c : Component) : Bool := c.isCurly || (nested && isSemicolon c)

mutual
/-- The settings and the statements of a block; those read before are given, statements last first. -/
def readBody : Nat → Place → List Setting → List Statement → Parse (List Setting × List Statement)
  | 0, _, _, _ => refuse .tooDeep
  | n + 1, place, ss, done => do
    match ← peekItem with
    | none => pure (ss, done.reverse)
    | some c =>
      match c.token, place.takesDeclarations with
      | .atKeyword name, _ => do
        let p ← here
        let _ ← next
        let (s, _) ← readAtRule n place name p
        readBody n place ss (s.toList ++ done)
      | .ident name, true => do
        match ← capture (do let _ ← next; settingAfter name) with
        | .ok s =>
          let (ss, done) := addSetting s ss done
          readBody n place ss done
        | .error e =>
          match ← attempt (readStyle n place true) with
          | some s => readBody n place ss (s :: done)
          | none => ofResult (.error e)
      | _, _ => do
        let s ← readStyle n place place.takesDeclarations
        readBody n place ss (s :: done)

/-- A style rule; `nested` says that a semicolon ends what would have been its selectors. -/
def readStyle : Nat → Place → Bool → Parse Statement
  | 0, _, _ => refuse .tooDeep
  | n + 1, place, nested => do
    let p ← here
    let selectors ← beforeResult (endsSelectors nested) (Selector.prelude place.insideStyle)
    let q ← here
    match ← next with
    | .block .curly _ body _ => do
      let selectors ← ofResult selectors
      let (ss, children) ← within body (readBody n .inStyle [] [])
      pure (.style selectors ss children p)
    | c => Parse.unexpected q c

/-- A statement behind its name, which starts at a position, and the stage that it leads to. -/
def readAtRule : Nat → Place → String → Text.Position → Parse (Option Statement × Stage)
  | 0, _, _, _ => refuse .tooDeep
  | n + 1, place, name, p => do
    let heading ← before endsPrelude (readPrelude place name)
    let stage := place.stage.getD .body
    match ← attempt next with
    | some (.block .curly _ body _) => do
      let s ← within body (readBlock n place p heading)
      pure (some s, heading.stageAfter true stage)
    | _ => do
      let s ← withoutBlock place.insideStyle heading
      pure (s, heading.stageAfter false stage)

/-- The block of a statement that is no style rule. -/
def readBlock : Nat → Place → Text.Position → Prelude → Parse Statement
  | 0, _, _, _ => refuse .tooDeep
  | n + 1, place, p, heading => do
    match heading with
    | .media q => do
      let children ← readGroup n place
      pure (.group .media ("@media " ++ q) (some q) children p)
    | .supports c => do
      let children ← readGroup n place
      pure (.group .supports ("@supports " ++ c) (some c) children p)
    | .layer names =>
      match names with
      | [] => do
        let children ← readGroup n place
        pure (.group .layer "@layer" none children p)
      | [name] => do
        let children ← readGroup n place
        pure (.group .layer ("@layer " ++ name) (some name) children p)
      | _ => refuse .noBodyAllowed
    | .described heading value => do
      let ls ← Descriptor.lines value
      pure (.other (wrapTight heading ls) false)
    | .features heading => do
      let ls ← featureNames heading
      pure (.other ls false)
    | .settings heading => do
      let ss ← settings
      pure (.other (settingsBlock heading ss) false)
    | .frames heading => do
      let ls ← frames heading
      pure (.other ls false)
    | .page selectors => do
      let ls ← page selectors
      pure (.other ls false)
    | .registration name => do
      let ls ← registration name
      pure (.other ls false)
    | .rules heading => do
      let children ← readGroup n place
      pure (.other (wrap heading (linesAll children)) false)
    | .nest selectors => do
      let (ss, children) ← readBody n .inStyle [] []
      match lines (.style selectors ss children p) with
      | l :: ls => pure (.other (("@nest " ++ l) :: ls) false)
      | [] => pure (.other [] false)
    | .unknown heading => do
      let t ← Value.tokens
      pure (.other (wrap heading (if t.isEmpty then [] else [t])) false)
    | .imported _ | .namespaced _ | .charset => refuse (.unexpected (.opening .curly))

/-- The statements in the block of a group. Its own declarations come first. -/
def readGroup : Nat → Place → Parse (List Statement)
  | 0, _ => refuse .tooDeep
  | n + 1, place => do
    let (ss, children) ← readBody n place.inGroup [] []
    pure (if ss.isEmpty then children else .loose ss :: children)
end

/-- Drops all up to a component value that stops, and that one. -/
def discard (stop : Component → Bool) : Parse Unit := fun s =>
  let front := s.rest.takeWhile (!stop ·)
  let behind := Cursor.of (s.rest.dropWhile (!stop ·)) (s.position.advance (Component.textAll front))
  (attempt next behind).map fun r => ((), r.2)

/-- White space, comments and the marks that hide a sheet from old programs. -/
def isMark (c : Component) : Bool := c.isGap || c.isLeaf .cdo || c.isLeaf .cdc

/-- The statements at the top level. The character set that a sheet may start with is passed over. -/
def readTop : Nat → Stage → Bool → Parse (List Statement)
  | 0, _, _ => refuse .tooDeep
  | n + 1, stage, isFirst => do
    skip isMark
    match ← attempt (lookahead next) with
    | none => pure []
    | some c =>
      match c.token with
      | .atKeyword name => do
        let p ← here
        let _ ← next
        if isFirst && sameName name "charset" then
          discard endsPrelude
          readTop n stage false
        else
          let (s, stage) ← readAtRule n (.top stage) name p
          let rest ← readTop n stage false
          pure (s.toList ++ rest)
      | _ => do
        let s ← readStyle n (.top stage) false
        let rest ← readTop n .body false
        pure (s :: rest)

/-- The statements of a style sheet. -/
def sheet (cs : List Component) : Except Refusal (List Statement) :=
  run (fun s => readTop (8 * (Component.sizeAll cs + 2)) .start true s) cs Text.Position.start

end StyleBump.Statement
