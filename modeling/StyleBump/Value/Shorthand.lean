import StyleBump.Css.Cursor

/-! # Values of several parts

Readers that are put together: one of several, a run of one kind, parts in any order, and the four
sides of a box, of which those that follow from earlier ones are not written. -/

namespace StyleBump.Value
open Css Css.Parse

variable {α σ : Type}

/-- Words with single spaces between them; empty ones are left out. -/
def spaced (ws : List String) : String := " ".intercalate (ws.filter (!·.isEmpty))

/-- Parts with commas between them. -/
def listed (ss : List String) : String := ", ".intercalate ss

/-- A text, unless it is the one that is meant anyway. -/
def unlessIs (initial text : String) : String := if text == initial then "" else text

/-- A text, or another one if it is empty. -/
def orText (fallback text : String) : String := if text.isEmpty then fallback else text

/-- Reads with the first reader that accepts. -/
def firstOf : List (Parse α) → Parse α
  | [] => refuse .value
  | [p] => p
  | p :: ps => orElse p (firstOf ps)

/-- At most `fuel` values. -/
def manyAux (p : Parse α) : Nat → Parse (List α)
  | 0 => pure []
  | fuel + 1 => do
    match ← attempt p with
    | none => pure []
    | some a => do
      let rest ← manyAux p fuel
      pure (a :: rest)

/-- As many values as there are. -/
def many (p : Parse α) : Parse (List α) := fun s => manyAux p (s.rest.length + 1) s

/-- A reader with whether it accepts. -/
def accepts (p : Parse α) : Parse Bool := do pure (← attempt p).isSome

/-- Reads with the first reader that accepts, and gives the other ones. -/
def pick : List (Parse α) → Parse (Option (α × List (Parse α)))
  | [] => pure none
  | p :: ps => do
    match ← attempt p with
    | some a => pure (some (a, ps))
    | none => do
      match ← pick ps with
      | some (a, rest) => pure (some (a, p :: rest))
      | none => pure none

/-- Lets the readers change a value in any order, each of them once at most; at most `fuel` of them.
The answer tells whether one of them accepted. -/
def anyOrderAux : Nat → List (Parse (σ → σ)) → σ → Bool → Parse (σ × Bool)
  | 0, _, s, found => pure (s, found)
  | fuel + 1, ps, s, found => do
    match ← pick ps with
    | none => pure (s, found)
    | some (f, rest) => anyOrderAux fuel rest (f s) true

/-- Parts in any order, each of them once at most; there may be none. -/
def anyOrder (ps : List (Parse (σ → σ))) (initial : σ) : Parse σ := do
  pure (← anyOrderAux ps.length ps initial false).1

/-- Parts in any order, each of them once at most, and one of them at least. -/
def someOrder (ps : List (Parse (σ → σ))) (initial : σ) : Parse σ := do
  let (s, found) ← anyOrderAux ps.length ps initial false
  if found then pure s else refuse .value

/-- What stands behind a slash, if one comes next and it can be read. -/
def behindSlash (p : Parse α) : Parse (Option α) :=
  attempt do
    expectToken (.delim '/')
    p

/-- Two values, the second one equal to the first if it is left out. -/
def pair (p : Parse α) : Parse (α × α) := do
  let a ← p
  let b ← attempt p
  pure (a, b.getD a)

/-- Two values as text; the second one is left out if it equals the first. -/
def pairText [BEq α] (text : α → String) (v : α × α) : String :=
  if v.2 == v.1 then text v.1 else text v.1 ++ " " ++ text v.2

/-- The sides of a box, or its corners. -/
structure Sides (α : Type) where
  top : α
  right : α
  bottom : α
  left : α
  deriving BEq

namespace Sides

def all (a : α) : Sides α := ⟨a, a, a, a⟩

/-- One to four values; sides that are left out are like those across. -/
def read (p : Parse α) : Parse (Sides α) := do
  let a ← p
  match ← attempt p with
  | none => pure ⟨a, a, a, a⟩
  | some b =>
    match ← attempt p with
    | none => pure ⟨a, b, a, b⟩
    | some c =>
      match ← attempt p with
      | none => pure ⟨a, b, c, b⟩
      | some d => pure ⟨a, b, c, d⟩

/-- The sides as text. -/
def text [BEq α] (text : α → String) (s : Sides α) : String :=
  let vertical := s.top == s.bottom
  let horizontal := s.right == s.left
  " ".intercalate <| List.map text <|
    if vertical && horizontal && s.top == s.right then [s.top]
    else if vertical && horizontal then [s.top, s.right]
    else if horizontal then [s.top, s.right, s.bottom]
    else [s.top, s.right, s.bottom, s.left]

end Sides

/-- A list between commas as text. -/
def commaList (p : Parse String) : Parse String := do pure (listed (← commaSeparated p))

end StyleBump.Value
