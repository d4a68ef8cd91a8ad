/-! # Conditions

A condition on the page or on the program that shows it is built from features by negation and by
joining with `and` or with `or`. Its text has parentheses only where they are needed. Where negations are
folded, the opposite of a comparison is a comparison, and two negations say nothing. -/

namespace StyleBump

/-- The two ways to join conditions. -/
inductive Junction
  | and
  | or
  deriving DecidableEq, Repr

def Junction.word : Junction → String
  | .and => "and"
  | .or => "or"

/-- A condition; a feature is held as its text and that of its opposite, if it has one. -/
inductive Condition
  | feature (text : String) (opposite : Option String)
  | negation (c : Condition)
  | joined (j : Junction) (cs : List Condition)
  deriving Repr

namespace Condition

/-- Whether a condition inside another one needs parentheses; `within` is what joins the other. -/
def needsParens (within : Option Junction) : Condition → Bool
  | feature _ _ => false
  | negation _ => true
  | joined j _ => some j != within

/-- Parentheses around a text where they are needed. -/
def parens (needed : Bool) (s : String) : String := if needed then "(" ++ s ++ ")" else s

/-- Whether a condition is joined with `or`. -/
def isOr : Condition → Bool
  | joined .or _ => true
  | _ => false

mutual
/-- The text of a condition; `folds` says whether negations are folded. -/
def text (folds : Bool) : Condition → String
  | feature s _ => s
  | negation c => negatedText folds c
  | joined j cs => (" " ++ j.word ++ " ").intercalate (texts folds j cs)

/-- The text of the negation of a condition. -/
def negatedText (folds : Bool) : Condition → String
  | feature s none => "not " ++ s
  | feature s (some t) => if folds then t else "not " ++ s
  | negation c => if folds then text folds c else "not (" ++ negatedText folds c ++ ")"
  | joined j cs => "not (" ++ (" " ++ j.word ++ " ").intercalate (texts folds j cs) ++ ")"

/-- The texts of conditions that are joined. -/
def texts (folds : Bool) (j : Junction) : List Condition → List String
  | [] => []
  | c :: cs => parens (c.needsParens (some j)) (text folds c) :: texts folds j cs
end

end Condition

end StyleBump
