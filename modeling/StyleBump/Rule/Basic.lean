import StyleBump.Declaration.Basic

/-! # Rules

A style sheet is a list of rules in source order. Style rules carry selectors and declarations; the
other kinds carry one text, their prelude. -/

namespace StyleBump

inductive RuleKind
  | style
  | comment
  | media
  | supports
  | layer
  | atRule
  deriving DecidableEq, Repr, Inhabited

def RuleKind.name : RuleKind → String
  | style => "rule"
  | comment => "comment"
  | media => "media"
  | supports => "supports"
  | layer => "layer"
  | atRule => "at-rule"

/-- Where a rule starts: the line counts from 1, the column in UTF-16 units from 1. -/
structure Location where
  line : Nat
  column : Nat
  deriving DecidableEq, Repr

/-- A rule with the rules nested in it. -/
structure Rule where
  kind : RuleKind
  selectors : Option (List String)
  prelude : Option String
  declarations : Option (List Declaration)
  rules : List Rule
  location : Option Location
  deriving Repr, Inhabited

/-- The rules of a style sheet. -/
abbrev Sheet := List Rule

namespace Rule

def style (selectors : List String) (declarations : List Declaration) (rules : List Rule)
    (location : Option Location) : Rule :=
  ⟨.style, some selectors, none, some declarations, rules, location⟩

def group (kind : RuleKind) (prelude : String) (rules : List Rule) (location : Option Location) : Rule :=
  ⟨kind, none, some prelude, none, rules, location⟩

/-- A rule of one text, with nothing in it. -/
def opaqueText (kind : RuleKind) (text : String) : Rule := group kind text [] none

end Rule

end StyleBump
