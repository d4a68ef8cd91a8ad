import StyleBump.Statement.Block

/-! # Key frames

The frames of an animation, each for some moments of it. A frame that cannot be read is left out. -/

namespace StyleBump.Statement
open Css Css.Parse

/-- The moment that a frame is for. -/
def moment : Parse String :=
  Value.firstOf [Property.portionText, expectWord ["from", "to"], do
    let name ← expectWord Property.rangeNames
    let share ← Property.portionText
    pure (name ++ " " ++ share)]

/-- The lines of key frames; at most `fuel` items. -/
def frameLines : Nat → List Component → List (List String)
  | 0, _ => []
  | n + 1, cs =>
    match cs.dropWhile isFiller with
    | [] => []
    | .leaf ⟨.atKeyword a, t⟩ :: rest =>
      frameLines n (((.leaf ⟨.atKeyword a, t⟩ :: rest).dropWhile (!endsPrelude ·)).drop 1)
    | c :: rest =>
      let front := (c :: rest).takeWhile (!·.isCurly)
      match (c :: rest).dropWhile (!·.isCurly) with
      | .block _ _ body _ :: rest =>
        let frame : Option (List String) := do
          let moments ← (run (commaSeparated moment) front Text.Position.start).toOption
          let ss ← (run settings body Text.Position.start).toOption
          some (settingsBlock (", ".intercalate moments) ss)
        frame.toList ++ frameLines n rest
      | _ => []

/-- The lines of the frames of an animation. -/
def frames (heading : String) : Parse (List String) := do
  let (body, _) ← remainder
  pure (wrapTight heading ([""].intercalate (frameLines (body.length + 1) body)))

/-- The name of an animation. -/
def framesName : Parse String := do
  let c ← next
  match c.token with
  | .ident n => if Property.reservedNames.contains n.toLower then refuse (.unexpected (.ident n)) else pure (writeIdent n)
  | .string v => pure (Property.animationNameText v)
  | t => refuse (.unexpected t)

end StyleBump.Statement
