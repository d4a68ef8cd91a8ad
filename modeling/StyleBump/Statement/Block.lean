import StyleBump.Css.Raw
import StyleBump.Statement.Basic

/-! # Blocks of declarations

The blocks of statements that hold declarations only. Some are read strictly: the first item that is
none refuses the sheet. In others an item that cannot be read is left out. -/

namespace StyleBump.Statement
open Css Css.Parse

/-- A semicolon by itself. -/
def isSemicolon (c : Component) : Bool := c.isLeaf .semicolon

/-- What ends a statement without a block, or starts the block of one. -/
def endsPrelude (c : Component) : Bool := c.isCurly || isSemicolon c

/-- What stands between items and says nothing. -/
def isFiller (c : Component) : Bool :=
  c.isGap || isSemicolon c || c.isLeaf (.closing .curly)

/-- The next component value that says something. -/
def peekItem : Parse (Option Component) := do
  skip isFiller
  attempt (lookahead next)

/-- A setting up to its semicolon, its name already taken. -/
def settingAfter (name : String) : Parse Setting := do
  let s ← before isSemicolon (Setting.afterName name)
  let _ ← attempt next
  pure s

/-- The settings of a block that holds nothing else; at most `fuel` of them. -/
def settingsAux : Nat → Parse (List Setting)
  | 0 => pure []
  | n + 1 => do
    match ← peekItem with
    | none => pure []
    | some c => do
      let p ← here
      let _ ← next
      match c.token with
      | .ident name => do
        let s ← settingAfter name
        let ss ← settingsAux n
        pure (s :: ss)
      | .atKeyword name => refuse (.unknownAtRule name)
      | t => refuseAt p (.unexpected t)

/-- The settings of a block that holds nothing else. -/
def settings : Parse (List Setting) := fun s => settingsAux (s.rest.length + 1) s

/-- A block of settings with a heading. -/
def settingsBlock (heading : String) (ss : List Setting) : List String := wrap heading (Setting.lines ss)

/-! ## Blocks that pass over what they cannot read -/

/-- What such a block starts with: a name and what stands between it and the semicolon. The rest
follows. -/
def lenientItem (cs : List Component) : Option (String × List Component) × List Component :=
  let item := cs.takeWhile (!isSemicolon ·)
  let rest := (cs.dropWhile (!isSemicolon ·)).drop 1
  match cs with
  | .leaf ⟨.ident name, _⟩ :: _ => (some (name, item.drop 1), rest)
  | .leaf ⟨.atKeyword _, _⟩ :: _ => (none, (cs.dropWhile (!endsPrelude ·)).drop 1)
  | _ => (none, rest)

/-- A value as text, and whether its property is known by its name. -/
structure Descriptor where
  isKnown : Bool
  value : String

namespace Descriptor

/-- A value of a known property. -/
def known (p : Parse String) : Parse Descriptor := do pure ⟨true, ← p⟩

/-- Any other value, as its tokens. -/
def tokens : Parse Descriptor := do pure ⟨false, ← Value.tokens⟩

/-- A value that its property understands, or any other one. -/
def knownOrTokens (p : Parse String) : Parse Descriptor := orElse (known (entirely p)) tokens

/-- A property behind its name; a known one is written in lower case. -/
def line (value : String → Parse Descriptor) (name : String) : Parse String := do
  expectToken .colon
  let d ← before (·.isLeaf (.delim '!')) (value name.toLower)
  pure ((if d.isKnown then name.toLower else writeIdent name) ++ ": " ++ d.value ++ ";")

/-- The lines of the properties of a block; at most `fuel` items. -/
def linesAux (value : String → Parse Descriptor) : Nat → List Component → List String
  | 0, _ => []
  | n + 1, cs =>
    match cs.dropWhile isFiller with
    | [] => []
    | c :: rest =>
      let (item, rest) := lenientItem (c :: rest)
      let line := item.bind fun (name, cs) => (run (line value name) cs Text.Position.start).toOption
      line.toList ++ linesAux value n rest

/-- The lines of the properties of a block. -/
def lines (value : String → Parse Descriptor) : Parse (List String) := do
  let (body, _) ← remainder
  pure (linesAux value (body.length + 1) body)

end Descriptor

end StyleBump.Statement
