import StyleBump.Css.Cursor

/-! # Text taken as it is

The tokens of a run, each written again by itself. Nothing between them changes, comments and white
space included; blocks that the text leaves open are closed. -/

namespace StyleBump.Css
open Text (Position)

/-- How deep blocks may nest where any tokens are allowed. -/
def depthLimit : Nat := 500

/-- Behind the token that opens a block. -/
def afterOpener (p : Position) (opener : Lexeme) : Position := p.advance opener.text

mutual
/-- A component value at a depth, written from a position on. -/
def rawOne (depth : Nat) (p : Position) : Component → Except Refusal String
  | .leaf l =>
    if l.token.isMalformed then .error ⟨.unexpected l.token, p⟩ else .ok l.token.write
  | .block b o body _ =>
    if depthLimit ≤ depth then .error ⟨.tooDeep, afterOpener p o⟩
    else do
      let inner ← rawAll (depth + 1) (afterOpener p o) body
      .ok (o.token.write ++ inner ++ b.closer)

/-- A run of component values, written from a position on. -/
def rawAll (depth : Nat) (p : Position) : List Component → Except Refusal String
  | [] => .ok ""
  | c :: cs => do
    let s ← rawOne depth p c
    let t ← rawAll depth (p.advance c.text) cs
    .ok (s ++ t)
end

namespace Parse

/-- All that is left, with its position. -/
def remainder : Parse (List Component × Position) := fun s =>
  let p := s.position.advance (Component.textAll s.rest)
  .ok ((s.rest, s.position), Cursor.of [] p)

/-- Ends with what a pure reader answers. -/
def ofResult {α : Type} : Except Refusal α → Parse α
  | .ok a => pure a
  | .error e => fun _ => .error e

/-- All that is left, written again. -/
def raw : Parse String := do
  let (cs, p) ← remainder
  ofResult (rawAll 0 p cs)

end Parse

end StyleBump.Css
