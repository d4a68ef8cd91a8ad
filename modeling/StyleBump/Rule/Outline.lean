import StyleBump.Rule.Basic

/-! # Structural equality

Two sheets are structurally equal if they differ in locations at most. The outline of a rule is what
takes part in the comparison. Main statement: `Outline.same_iff`, the comparison decides equality. -/

namespace StyleBump

/-- A rule without its location, at every depth. -/
structure Outline where
  kind : RuleKind
  selectors : Option (List String)
  prelude : Option String
  declarations : Option (List Declaration)
  rules : List Outline
  deriving Repr

namespace Rule

mutual
def outline : Rule → Outline
  | ⟨kind, selectors, prelude, declarations, rules, _⟩ =>
    ⟨kind, selectors, prelude, declarations, outlines rules⟩

/-- The outlines of the rules of a sheet. -/
def outlines : List Rule → List Outline
  | [] => []
  | r :: rs => outline r :: outlines rs
end

theorem outlines_eq_map (rs : List Rule) : outlines rs = rs.map outline := by
  induction rs with
  | nil => rfl
  | cons r rs ih => simp [outlines, ih]

end Rule

namespace Outline

mutual
def same : Outline → Outline → Bool
  | ⟨k, s, p, d, rs⟩, ⟨k', s', p', d', rs'⟩ =>
    k == k' && s == s' && p == p' && d == d' && sameAll rs rs'

def sameAll : List Outline → List Outline → Bool
  | [], [] => true
  | a :: as, b :: bs => same a b && sameAll as bs
  | _, _ => false
end

mutual
theorem same_iff : ∀ a b : Outline, same a b = true ↔ a = b
  | ⟨k, s, p, d, rs⟩, ⟨k', s', p', d', rs'⟩ => by
    simp [same, sameAll_iff rs rs', and_assoc]

theorem sameAll_iff : ∀ as bs : List Outline, sameAll as bs = true ↔ as = bs
  | [], [] => by simp [sameAll]
  | [], _ :: _ => by simp [sameAll]
  | _ :: _, [] => by simp [sameAll]
  | a :: as, b :: bs => by simp [sameAll, same_iff a b, sameAll_iff as bs]
end

instance : DecidableEq Outline := fun a b => decidable_of_iff _ (same_iff a b)

end Outline

/-- Whether two sheets have the same rules in the same order, locations apart. -/
def structurallyEqual (old changed : Sheet) : Bool :=
  Outline.sameAll (Rule.outlines old) (Rule.outlines changed)

end StyleBump
