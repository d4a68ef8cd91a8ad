import StyleBump.Proofs.Selectors

/-! # Structural equality forgets locations and nothing else

Rules are compared by their outlines, which are built anew at every level. Two rules have the same outline
exactly if they are the same once all locations are taken away (`Rule.outline_eq_iff`), so locations may change
everywhere and at will (`Rule.outline_relocate`). A rule is found by its path, and outlines differ as soon as
one path leads to rules that differ in a field of their own, or to a rule on one side only
(`Rule.outlines_eq_of_ruleAt?`). -/

namespace StyleBump

/-- What a rule says by itself, apart from its location and the rules in it. -/
structure RuleHead where
  kind : RuleKind
  selectors : Option (List String)
  prelude : Option String
  declarations : Option (List Declaration)
  deriving DecidableEq, Repr

/-- The rule at a path: which rule of a run of rules, which of the rules in that one, and so on. -/
def Sheet.ruleAt? (rules : List Rule) (i : Nat) : List Nat → Option Rule
  | [] => rules[i]?
  | j :: path => rules[i]?.bind fun r => Sheet.ruleAt? r.rules j path

namespace Rule

def head (r : Rule) : RuleHead := ⟨r.kind, r.selectors, r.prelude, r.declarations⟩

mutual
/-- A rule without locations, neither its own nor those of the rules in it. -/
def unplaced : Rule → Rule
  | ⟨kind, selectors, prelude, declarations, rules, _⟩ =>
    ⟨kind, selectors, prelude, declarations, unplacedAll rules, none⟩

def unplacedAll : List Rule → List Rule
  | [] => []
  | r :: rs => unplaced r :: unplacedAll rs
end

mutual
/-- A rule with other locations, for itself and for every rule in it. `place` gives them by the path that
leads to a rule from here. -/
def relocate (place : List Nat → Option Location) : Rule → Rule
  | ⟨kind, selectors, prelude, declarations, rules, _⟩ =>
    ⟨kind, selectors, prelude, declarations, relocateFrom place 0 rules, place []⟩

/-- Rules with other locations, where the first of them is number `i`. -/
def relocateFrom (place : List Nat → Option Location) (i : Nat) : List Rule → List Rule
  | [] => []
  | r :: rs => relocate (fun path => place (i :: path)) r :: relocateFrom place (i + 1) rs
end

mutual
theorem outline_eq_iff : ∀ a b : Rule, a.outline = b.outline ↔ a.unplaced = b.unplaced
  | ⟨k, s, p, d, rs, _⟩, ⟨k', s', p', d', rs', _⟩ => by
    simp [outline, unplaced, outlines_eq_iff rs rs']

theorem outlines_eq_iff : ∀ as bs : List Rule, outlines as = outlines bs ↔ unplacedAll as = unplacedAll bs
  | [], [] => iff_of_true rfl rfl
  | [], _ :: _ => by simp [outlines, unplacedAll]
  | _ :: _, [] => by simp [outlines, unplacedAll]
  | a :: as, b :: bs => by simp [outlines, unplacedAll, outline_eq_iff a b, outlines_eq_iff as bs]
end

mutual
theorem outline_relocate : ∀ (r : Rule) (place : List Nat → Option Location), (r.relocate place).outline = r.outline
  | ⟨k, s, p, d, rs, _⟩, place => by rw [relocate, outline, outline, outlines_relocateFrom rs place 0]

theorem outlines_relocateFrom : ∀ (rs : List Rule) (place : List Nat → Option Location) (i : Nat),
    outlines (relocateFrom place i rs) = outlines rs
  | [], _, _ => rfl
  | r :: rs, place, i => by
    rw [relocateFrom, outlines, outlines, outline_relocate r, outlines_relocateFrom rs place (i + 1)]
end

theorem location_relocate (place : List Nat → Option Location) (r : Rule) : (relocate place r).location = place [] := by
  cases r
  rfl

theorem rules_relocate (place : List Nat → Option Location) (r : Rule) :
    (relocate place r).rules = relocateFrom place 0 r.rules := by
  cases r
  rfl

theorem getElem?_relocateFrom (place : List Nat → Option Location) (rs : List Rule) (n i : Nat) :
    (relocateFrom place n rs)[i]? = rs[i]?.map (relocate fun path => place ((n + i) :: path)) := by
  induction rs generalizing n i with
  | nil => rfl
  | cons r rs ih =>
    cases i with
    | zero => rfl
    | succ i =>
      rw [relocateFrom, List.getElem?_cons_succ, List.getElem?_cons_succ, ih, Nat.add_right_comm]
      rfl

/-- Every rule has the location that is given for its path. -/
theorem map_location_ruleAt? (place : List Nat → Option Location) (rs : List Rule) (i : Nat) (path : List Nat) :
    (Sheet.ruleAt? (relocateFrom place 0 rs) i path).map location =
      (Sheet.ruleAt? rs i path).map fun _ => place (i :: path) := by
  induction path generalizing place rs i with
  | nil =>
    rw [Sheet.ruleAt?, Sheet.ruleAt?, getElem?_relocateFrom, Nat.zero_add]
    cases rs[i]? with
    | none => rfl
    | some r => exact congrArg some (location_relocate _ r)
  | cons j path ih =>
    rw [Sheet.ruleAt?, Sheet.ruleAt?, getElem?_relocateFrom, Nat.zero_add]
    cases rs[i]? with
    | none => rfl
    | some r =>
      rw [Option.map_some, Option.bind_some, Option.bind_some, rules_relocate]
      exact ih (fun path => place (i :: path)) r.rules j

theorem outline_eq_iff_head {a b : Rule} :
    a.outline = b.outline ↔ a.head = b.head ∧ outlines a.rules = outlines b.rules := by
  obtain ⟨k, s, p, d, rs, l⟩ := a
  obtain ⟨k', s', p', d', rs', l'⟩ := b
  simp [outline, head, and_assoc]

/-- Rules with the same outlines stand in the same places. -/
theorem getElem?_of_outlines_eq {as bs : List Rule} (h : outlines as = outlines bs) (i : Nat) :
    (as[i]? = none ∧ bs[i]? = none) ∨
      ∃ a b, as[i]? = some a ∧ bs[i]? = some b ∧ a.head = b.head ∧ outlines a.rules = outlines b.rules := by
  have hi : as[i]?.map outline = bs[i]?.map outline := by
    rw [outlines_eq_map, outlines_eq_map] at h
    rw [← List.getElem?_map, ← List.getElem?_map, h]
  cases ha : as[i]? with
  | none =>
    rw [ha] at hi
    exact .inl ⟨rfl, Option.map_eq_none_iff.1 hi.symm⟩
  | some a =>
    rw [ha] at hi
    obtain ⟨b, hb, hab⟩ := Option.map_eq_some_iff.1 hi.symm
    exact .inr ⟨a, b, rfl, hb, outline_eq_iff_head.1 hab.symm⟩

theorem map_head_ruleAt? {as bs : List Rule} (h : outlines as = outlines bs) (i : Nat) (path : List Nat) :
    (Sheet.ruleAt? as i path).map head = (Sheet.ruleAt? bs i path).map head := by
  induction path generalizing as bs i with
  | nil =>
    rw [Sheet.ruleAt?, Sheet.ruleAt?]
    rcases getElem?_of_outlines_eq h i with ⟨ha, hb⟩ | ⟨a, b, ha, hb, hhead, -⟩
    · rw [ha, hb]
    · rw [ha, hb, Option.map_some, Option.map_some, hhead]
  | cons j path ih =>
    rw [Sheet.ruleAt?, Sheet.ruleAt?]
    rcases getElem?_of_outlines_eq h i with ⟨ha, hb⟩ | ⟨a, b, ha, hb, -, hrules⟩
    · rw [ha, hb]
    · rw [ha, hb]
      exact ih hrules j

theorem ruleAt?_cons_succ (r : Rule) (rs : List Rule) (i : Nat) (path : List Nat) :
    Sheet.ruleAt? (r :: rs) (i + 1) path = Sheet.ruleAt? rs i path := by
  cases path <;> rfl

mutual
theorem outline_eq_of_ruleAt? : ∀ a b : Rule, a.head = b.head →
    (∀ i path, (Sheet.ruleAt? a.rules i path).map head = (Sheet.ruleAt? b.rules i path).map head) →
    a.outline = b.outline
  | ⟨_, _, _, _, rs, _⟩, b, hhead, hin => outline_eq_iff_head.2 ⟨hhead, outlines_eq_of_ruleAt? rs b.rules hin⟩

theorem outlines_eq_of_ruleAt? : ∀ as bs : List Rule,
    (∀ i path, (Sheet.ruleAt? as i path).map head = (Sheet.ruleAt? bs i path).map head) →
    outlines as = outlines bs
  | [], [], _ => rfl
  | [], _ :: _, h => nomatch h 0 []
  | _ :: _, [], h => nomatch h 0 []
  | a :: as, b :: bs, h => by
    have hhead : a.head = b.head := Option.some.inj (h 0 [])
    have hin : a.outline = b.outline := outline_eq_of_ruleAt? a b hhead fun j path => h 0 (j :: path)
    have hrest : outlines as = outlines bs := outlines_eq_of_ruleAt? as bs fun i path => by
      rw [← ruleAt?_cons_succ a as, ← ruleAt?_cons_succ b bs]
      exact h (i + 1) path
    rw [outlines, outlines, hin, hrest]
end

end Rule

namespace Sheet

/-- Two sheets are structurally equal exactly if they are the same without locations, or, what comes to the
same, if at every path both have a rule of the same kind, selectors, prelude and declarations or neither has
one. Whatever locations the rules of both sheets are given, at every path the one that is wanted there, the
answer stays the same. Structural equality is an equivalence. -/
theorem structural_equality (old changed : Sheet) :
    (structurallyEqual old changed = true ↔ Rule.unplacedAll old = Rule.unplacedAll changed) ∧
    (∀ place place' : List Nat → Option Location,
      structurallyEqual (Rule.relocateFrom place 0 old) (Rule.relocateFrom place' 0 changed) =
        structurallyEqual old changed) ∧
    (∀ (place : List Nat → Option Location) (i : Nat) (path : List Nat),
      (ruleAt? (Rule.relocateFrom place 0 old) i path).map Rule.location =
        (ruleAt? old i path).map fun _ => place (i :: path)) ∧
    (structurallyEqual old changed = true ↔
      ∀ i path, (ruleAt? old i path).map Rule.head = (ruleAt? changed i path).map Rule.head) ∧
    Equivalence fun a b : Sheet => structurallyEqual a b = true := by
  have hequal (a b : Sheet) : structurallyEqual a b = true ↔ Rule.outlines a = Rule.outlines b :=
    Outline.sameAll_iff _ _
  refine ⟨?unplaced, fun place place' => ?relocated, fun place => Rule.map_location_ruleAt? place old, ?paths,
    ?equivalence⟩
  case unplaced => exact (hequal _ _).trans (Rule.outlines_eq_iff _ _)
  case relocated =>
    rw [structurallyEqual, Rule.outlines_relocateFrom, Rule.outlines_relocateFrom, structurallyEqual]
  case paths => exact (hequal _ _).trans ⟨Rule.map_head_ruleAt?, Rule.outlines_eq_of_ruleAt? _ _⟩
  case equivalence =>
    exact {
      refl := fun a => (hequal a a).2 rfl
      symm := fun {a b} h => (hequal b a).2 ((hequal a b).1 h).symm
      trans := fun {a b c} h h' => (hequal a c).2 (((hequal a b).1 h).trans ((hequal b c).1 h')) }

end Sheet

end StyleBump
