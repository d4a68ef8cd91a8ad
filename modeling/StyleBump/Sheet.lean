import StyleBump.Statement.Reader
import StyleBump.Statement.Rules

/-! # Style sheets from text

A sheet starts with a rule for each comment at its front that is marked as a license. The rules of
its statements follow in source order. -/

namespace StyleBump
open Css Text

/-- The license comments that lexemes start with: nothing but white space stands in front of them and
between them. -/
def licenses : List Lexeme → List String
  | ⟨.whitespace _, _⟩ :: ls => licenses ls
  | ⟨.comment t, _⟩ :: ls => if t.toList.head? = some '!' then t :: licenses ls else []
  | _ => []

/-- The statements of a text, or why it is none. -/
def Statement.ofChars (cs : List Char) : Except Refusal (List Statement) := sheet (componentsOf cs)

/-- A refusal on one side of a comparison. -/
def Fault.ofRefusal (side : Side) (r : Refusal) : Fault :=
  .parse side r.cause.message (some (r.position.line + 1)) (some r.position.column)

/-- The sheet of a text on one side of a comparison. -/
def Sheet.ofChars (side : Side) (cs : List Char) (w : Printer := .plain) : Except Fault Sheet := do
  let statements ← (Statement.ofChars cs).mapError (Fault.ofRefusal side)
  let rules ← Statement.toRules w side cs statements
  .ok ((licenses (lexemes cs)).map (Rule.opaqueText .comment) ++ rules)

/-- Whether a side has something to read. An absent text and a blank one are the empty sheet. -/
def hasText (text : Option String) : Bool :=
  match text with
  | none => false
  | some t => !blank t.toList

/-- The sheet of one side of a comparison. -/
def Sheet.read (side : Side) (text : Option String) (w : Printer := .plain) : Except Fault Sheet :=
  if hasText text then Sheet.ofChars side (text.getD "").toList w else .ok []

end StyleBump
