import StyleBump.Rule.Basic
import StyleBump.Text.Quoted

/-! # Rules as text

One line for the selectors or the prelude of a rule, one for each declaration, and the nested rules
after them, two spaces further in at each level. -/

namespace StyleBump.Rule

/-- The first line of a rule. -/
def heading : Option (List String) → Option String → RuleKind → String
  | some selectors, _, _ => "Selectors: " ++ Text.quoteList selectors
  | none, some prelude, kind => "@" ++ kind.name ++ " " ++ prelude
  | none, none, kind => "@" ++ kind.name

/-- The line of a declaration. -/
def declarationLine (d : Declaration) : String :=
  "  " ++ d.property ++ ": " ++ d.effectiveValue

mutual
/-- The lines of a rule and of those in it. -/
def lines : Rule → List String
  | ⟨kind, selectors, prelude, declarations, rules, _⟩ =>
    heading selectors prelude kind :: ((declarations.getD []).map declarationLine ++
      (linesAll rules).map ("  " ++ ·))

/-- The lines of a run of rules. -/
def linesAll : List Rule → List String
  | [] => []
  | r :: rs => lines r ++ linesAll rs
end

/-- A rule as text; every line ends in a line feed. -/
def dump (r : Rule) : String := String.join (r.lines.map (· ++ "\n"))

end StyleBump.Rule
