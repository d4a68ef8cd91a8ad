import StyleBump.Css.Component
import StyleBump.Declaration.Basic
import StyleBump.General
import StyleBump.Text.Blank

/-! # The declarations of a block

A block is read in passes. Each pass takes what stands before the next semicolon as a declaration;
if it is none, the pass skips one item instead, that is, all up to a block in curly brackets or a
semicolon. Either way it leaves less than it found (`pass_length_lt`), so reading ends with the
block. -/

namespace StyleBump.Declaration
open Css Css.Component

/-- Whether a property is the author's own, which may hold blocks in curly brackets. -/
def isCustom (property : String) : Bool :=
  ['-', '-'].isPrefixOf property.toList

/-- What follows the mark of an important declaration, if the components start with one. -/
def afterMark? : List Component → Option (List Component)
  | c :: cs =>
    if c.isLeaf (.delim '!') then
      match cs.dropWhile isGap with
      | .leaf ⟨.ident n, _⟩ :: rest => if sameName n "important" then some rest else none
      | _ => none
    else none
  | [] => none

/-- The components before the mark, and what follows it, if there is one. -/
def splitMark : List Component → List Component × Option (List Component)
  | [] => ([], none)
  | c :: cs =>
    match afterMark? (c :: cs) with
    | some rest => ([], some rest)
    | none => (c :: (splitMark cs).1, (splitMark cs).2)

/-- The characters of a value up to its last token. A block that comes last gives its opening
token only. -/
def valueText : List Component → List Char
  | [] => []
  | c :: cs =>
    if cs.all isGap then
      match c with
      | .leaf l => if l.token.isGap then [] else l.text
      | .block _ opener _ _ => opener.text
    else c.text ++ valueText cs

/-- A declaration without its semicolon: name, colon and value. -/
def ofComponents? (cs : List Component) : Option Declaration :=
  match cs.dropWhile isGap with
  | .leaf ⟨.ident property, _⟩ :: rest =>
    match rest.dropWhile isGap with
    | .leaf ⟨.colon, _⟩ :: value =>
      let (value, mark) := splitMark value
      if value.any isCurly && !isCustom property then none
      else
        let text := String.ofList (Text.tidy (valueText value))
        match mark with
        | none => some ⟨property, text, false⟩
        | some rest => if rest.all isGap then some ⟨property, text, true⟩ else none
    | _ => none
  | _ => none

def isSemicolon (c : Component) : Bool := c.isLeaf .semicolon

/-- What ends an item that is no declaration. -/
def endsItem (c : Component) : Bool := c.isCurly || isSemicolon c

/-- One pass over the rest of a block: the declaration it starts with, if any, and what is left. -/
def pass (cs : List Component) : Option Declaration × List Component :=
  match ofComponents? (cs.takeWhile (!isSemicolon ·)) with
  | some d => (some d, (cs.dropWhile (!isSemicolon ·)).drop 1)
  | none => (none, (cs.dropWhile (!endsItem ·)).drop 1)

/-- A pass leaves less than it found. -/
theorem pass_length_lt (c : Component) (cs : List Component) :
    (pass (c :: cs)).2.length < (c :: cs).length := by
  unfold pass
  split <;> exact length_drop_dropWhile_lt _ _ _

/-- The declarations of a block, in order. -/
def ofBlock (cs : List Component) : List Declaration :=
  match _h : cs.dropWhile isGap with
  | [] => []
  | d :: ds => (pass (d :: ds)).1.toList ++ ofBlock (pass (d :: ds)).2
termination_by cs.length
decreasing_by
  have h₁ := pass_length_lt d ds
  have h₂ := (List.dropWhile_suffix isGap (l := cs)).length_le
  rw [_h] at h₂
  omega

/-- The content of the first block in curly brackets. -/
def firstBlock? : List Component → Option (List Component)
  | [] => none
  | .block .curly _ body _ :: _ => some body
  | _ :: cs => firstBlock? cs

/-- The declarations of the first block from a position of a text on. -/
def atPosition? (text : List Char) (p : Text.Position) : Option (List Declaration) :=
  (Text.seek? text p).bind fun rest => (firstBlock? (componentsOf rest)).map ofBlock

end StyleBump.Declaration
