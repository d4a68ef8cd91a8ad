import StyleBump.Css.Lexer

/-! # Component values

The lexemes of a style sheet nest: an opening bracket or the name of a function starts a block that
runs to its own closing bracket, or to the end of the text. A closing bracket that matches no
innermost open block is a leaf like any other. Flattening gives the lexemes back. -/

namespace StyleBump.Css

/-- A lexeme by itself, or a block with what it holds and its closing bracket, if it has one. -/
inductive Component
  | leaf (lexeme : Lexeme)
  | block (bracket : Bracket) (opener : Lexeme) (body : List Component) (closer : Option Lexeme)
  deriving Repr

/-- An open block: its start, and what stands before it in the enclosing one, last first. -/
structure Frame where
  bracket : Bracket
  opener : Lexeme
  earlier : List Component

/-- Closes the open blocks at the end of the text; `done` is the innermost content, last first. -/
def closeFrames (done : List Component) : List Frame → List Component
  | [] => done.reverse
  | f :: fs => closeFrames (.block f.bracket f.opener done.reverse none :: f.earlier) fs

/-- Nests lexemes into the innermost of the open blocks. -/
def nestInto : List Lexeme → List Component → List Frame → List Component
  | [], done, frames => closeFrames done frames
  | l :: ls, done, frames =>
    match l.token.opens? with
    | some b => nestInto ls [] (⟨b, l, done⟩ :: frames)
    | none =>
      match l.token.closes?, frames with
      | some b, f :: fs =>
        if f.bracket = b then nestInto ls (.block b f.opener done.reverse (some l) :: f.earlier) fs
        else nestInto ls (.leaf l :: done) (f :: fs)
      | _, _ => nestInto ls (.leaf l :: done) frames

/-- The component values of a run of lexemes. -/
def components (ls : List Lexeme) : List Component := nestInto ls [] []

/-- The component values of a text. -/
def componentsOf (cs : List Char) : List Component := components (lexemes cs)

namespace Component

mutual
/-- The lexemes of a component value. -/
def leaves : Component → List Lexeme
  | leaf l => [l]
  | block _ o body c => o :: (leavesAll body ++ c.toList)

/-- The lexemes of a run of component values. -/
def leavesAll : List Component → List Lexeme
  | [] => []
  | c :: cs => leaves c ++ leavesAll cs
end

mutual
/-- The characters of a component value in front of others. -/
def textOnto : Component → List Char → List Char
  | leaf l, rest => l.text ++ rest
  | block _ o body none, rest => o.text ++ textAllOnto body rest
  | block _ o body (some c), rest => o.text ++ textAllOnto body (c.text ++ rest)

/-- The characters of a run of component values in front of others. -/
def textAllOnto : List Component → List Char → List Char
  | [], rest => rest
  | c :: cs, rest => textOnto c (textAllOnto cs rest)
end

/-- The characters of a component value. -/
def text (c : Component) : List Char := textOnto c []

/-- The characters of a run of component values. -/
def textAll (cs : List Component) : List Char := textAllOnto cs []

/-- How many lexemes a component value has. -/
def size (c : Component) : Nat := c.leaves.length

/-- How many lexemes a run of component values has. -/
def sizeAll (cs : List Component) : Nat := (leavesAll cs).length

/-- The token of a leaf, or the one that opens the block. -/
def token : Component → Token
  | leaf l => l.token
  | block _ o _ _ => o.token

/-- White space and comments. -/
def isGap (c : Component) : Bool := c.token.isGap

/-- Whether this is a block in curly brackets. -/
def isCurly : Component → Bool
  | block .curly _ _ _ => true
  | _ => false

/-- Whether this is the given token by itself. -/
def isLeaf (t : Token) : Component → Bool
  | leaf l => l.token == t
  | block _ _ _ _ => false

mutual
theorem textOnto_eq : ∀ (c : Component) (rest : List Char),
    textOnto c rest = Lexeme.textOf c.leaves ++ rest
  | leaf l, rest => by simp [textOnto, leaves, Lexeme.textOf]
  | block _ o body none, rest => by
    simp [textOnto, leaves, Lexeme.textOf, textAllOnto_eq body]
  | block _ o body (some c), rest => by
    simp [textOnto, leaves, Lexeme.textOf, textAllOnto_eq body]

theorem textAllOnto_eq : ∀ (cs : List Component) (rest : List Char),
    textAllOnto cs rest = Lexeme.textOf (leavesAll cs) ++ rest
  | [], rest => by simp [textAllOnto, leavesAll, Lexeme.textOf]
  | c :: cs, rest => by
    simp [textAllOnto, leavesAll, Lexeme.textOf, textOnto_eq c, textAllOnto_eq cs]
end

/-- A component value is written as its lexemes are. -/
theorem text_eq (c : Component) : c.text = Lexeme.textOf c.leaves := by simp [text, textOnto_eq]

theorem textAll_eq (cs : List Component) : textAll cs = Lexeme.textOf (leavesAll cs) := by
  simp [textAll, textAllOnto_eq]

theorem leavesAll_append (a b : List Component) :
    leavesAll (a ++ b) = leavesAll a ++ leavesAll b := by
  induction a with
  | nil => rfl
  | cons c cs ih => simp [leavesAll, ih]

end Component

open Component

/-- The lexemes already read, in the order of the text. -/
def readSoFar (done : List Component) : List Frame → List Lexeme
  | [] => leavesAll done.reverse
  | f :: fs => readSoFar f.earlier fs ++ f.opener :: leavesAll done.reverse

theorem readSoFar_push (c : Component) (done : List Component) (frames : List Frame) :
    readSoFar (c :: done) frames = readSoFar done frames ++ c.leaves := by
  cases frames <;> simp [readSoFar, leavesAll_append, leavesAll]

theorem leavesAll_closeFrames (done : List Component) (frames : List Frame) :
    leavesAll (closeFrames done frames) = readSoFar done frames := by
  induction frames generalizing done with
  | nil => rfl
  | cons f fs ih => simp [closeFrames, ih, readSoFar, readSoFar_push, leaves]

theorem leavesAll_nestInto (ls : List Lexeme) (done : List Component) (frames : List Frame) :
    leavesAll (nestInto ls done frames) = readSoFar done frames ++ ls := by
  fun_induction nestInto ls done frames with
  | case1 => simp [leavesAll_closeFrames]
  | case2 l ls done frames b _ ih => simp [ih, readSoFar, leavesAll]
  | case3 => simp_all [readSoFar, readSoFar_push, leaves]
  | case4 => simp_all [readSoFar_push, leaves]
  | case5 => simp_all [readSoFar_push, leaves]

/-- Flattening undoes nesting. -/
theorem leavesAll_components (ls : List Lexeme) : leavesAll (components ls) = ls := by
  simp [components, leavesAll_nestInto, readSoFar, leavesAll]

end StyleBump.Css
