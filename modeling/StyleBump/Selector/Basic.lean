import StyleBump.Css.Writing

/-! # Selectors

A selector is a chain of compounds, each of simple selectors; between two compounds stands a
combinator. The text of a selector has one form: the spaces around combinators, the quotes of
attribute values and the case of known names do not depend on how it was written. -/

namespace StyleBump.Selector
open Css

inductive Combinator
  | descendant
  | child
  | nextSibling
  | laterSibling
  deriving DecidableEq, Repr

def Combinator.text : Combinator → String
  | descendant => " "
  | child => " > "
  | nextSibling => " + "
  | laterSibling => " ~ "

/-- The namespace in front of a name. -/
inductive Namespace
  | implied
  | none
  | any
  | named (name : String)
  deriving DecidableEq, Repr

def Namespace.text : Namespace → String
  | implied => ""
  | none => "|"
  | any => "*|"
  | named n => writeIdent n ++ "|"

/-- What the value of an attribute is tested for. -/
structure AttributeTest where
  operator : String
  value : String
  flag : Option Char
  deriving DecidableEq, Repr

def AttributeTest.text (t : AttributeTest) : String :=
  t.operator ++ writeString t.value ++ (t.flag.map fun c => " " ++ String.singleton c).getD ""

mutual
/-- A simple selector. -/
inductive Simple
  | nesting
  | scope
  | type (ns : Namespace) (name : String)
  | universal (ns : Namespace)
  | id (name : String)
  | className (name : String)
  | hasAttribute (ns : Namespace) (name : String) (test : Option AttributeTest)
  | pseudoClass (text : String)
  | nth (name : String) (step offset : Int) (among : Option (List (List Step)))
  | matching (name : String) (list : List (List Step))
  | host (of : List Step)
  | pseudoElement (text : String) (known : Bool)
  | slotted (of : List Step)
  | part (names : List String)

/-- A compound and the combinator in front of it; the first compound has none. -/
inductive Step
  | mk (combinator : Option Combinator) (compound : List Simple)
end

/-- The name of a list of selectors that stands for itself if it says no more than its only member. -/
def isName : String := "is"

/-- The name of a list of relative selectors. -/
def hasName : String := "has"

/-- The position formula of a child, in its shortest form. -/
def formula (step offset : Int) : String :=
  let signed (b : Int) : String := if b < 0 then toString b else "+" ++ toString b
  if step = 2 ∧ offset = 1 then "odd"
  else if offset = 0 then
    if step = 0 then "0" else if step = 1 then "n" else if step = -1 then "-n" else toString step ++ "n"
  else if step = 0 then toString offset
  else if step = 1 then "n" ++ signed offset
  else if step = -1 then "-n" ++ signed offset
  else toString step ++ "n" ++ signed offset

namespace Simple

def isType : Simple → Bool
  | type _ _ => true
  | universal _ => true
  | _ => false

/-- Pseudo-elements, which stand behind the element that they belong to. -/
def isElement : Simple → Bool
  | pseudoElement _ known => known
  | slotted _ => true
  | part _ => true
  | _ => false

/-- A universal selector that other simple selectors follow says nothing, unless it names a
namespace or only the parts of the element follow. -/
def isIdle : List Simple → Bool
  | universal .implied :: part _ :: _ => false
  | universal .implied :: _ :: _ => true
  | _ => false

end Simple

/-- Whether a list of selectors can be written as its only member: a compound that names no type and
no pseudo-element. -/
def isPlain : List (List Step) → Bool
  | [[.mk _ compound]] => !(compound.head?.map Simple.isType).getD false && !compound.any Simple.isElement
  | _ => false

/-- The name of a first child and its like, which the formula `1` stands for. -/
def edgeNames : List (String × String) :=
  [("nth-child", "first-child"), ("nth-last-child", "last-child"), ("nth-of-type", "first-of-type"),
   ("nth-last-of-type", "last-of-type"), ("nth-col", "nth-col("), ("nth-last-col", "nth-last-col(")]

/-- A pseudo-class that counts siblings; the one that means the first of them has a name of its own. -/
def countText (name : String) (step offset : Int) : String :=
  let plain := name ++ "(" ++ formula step offset ++ ")"
  if step = 0 ∧ offset = 1 then (edgeNames.lookup name).getD plain else plain

/-- A compound as text with the combinator in front of it, and what is left of it if the scope that a
relative selector starts from is taken away, if it starts with it. -/
structure StepText where
  combinator : Option Combinator
  text : String
  behindScope : Option String

/-- The combinator in front of a compound as text. -/
def StepText.front (s : StepText) : String := (s.combinator.map Combinator.text).getD ""

/-- Compounds with the combinators in front of them. -/
def joinSteps (steps : List StepText) : String := String.join (steps.map fun s => s.front ++ s.text)

/-- Compounds of a relative selector, with the combinators that are left; each goes behind one of them.
The scope that the selector starts from is not written: the first compound that begins with it gives up
its place in front of a combinator. -/
def joinRelative : List StepText → List String → String
  | [], _ => ""
  | s :: ss, combinators =>
    match s.behindScope with
    | none => s.text ++ combinators.headD "" ++ joinRelative ss (combinators.drop 1)
    | some "" => combinators.headD "" ++ joinRest ss (combinators.drop 1)
    | some t => combinators.headD "" ++ t ++ (combinators.drop 1).headD "" ++ joinRest ss (combinators.drop 2)
where
  joinRest : List StepText → List String → String
    | [], _ => ""
    | s :: ss, combinators => s.text ++ combinators.headD "" ++ joinRest ss (combinators.drop 1)

/-- A relative selector. -/
def relativeText (steps : List StepText) : String :=
  joinRelative steps ((steps.drop 1).map StepText.front)

mutual
def simpleText : Simple → String
  | .nesting => "&"
  | .scope => ":scope"
  | .type ns n => ns.text ++ writeIdent n
  | .universal ns => ns.text ++ "*"
  | .id n => "#" ++ writeIdent n
  | .className n => "." ++ writeIdent n
  | .hasAttribute ns n test => "[" ++ ns.text ++ writeIdent n ++ (test.map AttributeTest.text).getD "" ++ "]"
  | .pseudoClass t => ":" ++ t
  | .nth n step offset none => ":" ++ countText n step offset
  | .nth n step offset (some among) =>
    ":" ++ n ++ "(" ++ formula step offset ++ " of " ++ ", ".intercalate (listTexts true among) ++ ")"
  | .matching n list =>
    let inner := ", ".intercalate (listTexts (n == hasName) list)
    if n == isName && isPlain list then inner else ":" ++ n ++ "(" ++ inner ++ ")"
  | .host [] => ":host"
  | .host (s :: ss) => ":host(" ++ joinSteps (stepTexts (s :: ss)) ++ ")"
  | .pseudoElement t _ => t
  | .slotted s => "::slotted(" ++ joinSteps (stepTexts s) ++ ")"
  | .part names => "::part(" ++ " ".intercalate (names.map writeIdent) ++ ")"

/-- The texts of the simple selectors of a compound; an idle one has none. -/
def compoundTexts : List Simple → List String
  | [] => []
  | s :: ss => (if Simple.isIdle (s :: ss) then "" else simpleText s) :: compoundTexts ss

/-- The texts of compounds. -/
def stepTexts : List Step → List StepText
  | [] => []
  | .mk c compound :: steps =>
    let texts := compoundTexts compound
    let behind := match compound with
      | .scope :: _ => some (String.join (texts.drop 1))
      | _ => none
    ⟨c, String.join texts, behind⟩ :: stepTexts steps

/-- The texts of selectors; `relative` says that they start from the scope without naming it. -/
def listTexts (relative : Bool) : List (List Step) → List String
  | [] => []
  | s :: ss =>
    (if relative then relativeText (stepTexts s) else joinSteps (stepTexts s)) :: listTexts relative ss
end

/-- The text of a selector. -/
def text (steps : List Step) : String := joinSteps (stepTexts steps)

end StyleBump.Selector
