import StyleBump.Proofs.AuthoredValue
import StyleBump.Proofs.Classification
import StyleBump.Proofs.LoneRule

/-! # Edits of one value

Two rules that differ in one value have the same declarations if the same is kept of both values, and only
then. So an edit behind the bracket that the last block of a value starts with goes unnoticed
(`authored_value_exact`). -/

namespace StyleBump
open Css Css.Component Text Declaration

theorem licenses_of_not_gap {l : Lexeme} (h : l.token.isGap = false) (ls : List Lexeme) :
    licenses (l :: ls) = [] := by
  obtain ⟨t, text⟩ := l
  cases t <;> first | rfl | cases h

/-- No license stands behind a lexeme that says something. -/
theorem licenses_append {l : Lexeme} (h : l.token.isGap = false) (ls rest : List Lexeme) :
    licenses (ls ++ l :: rest) = licenses ls := by
  induction ls with
  | nil => exact licenses_of_not_gap h rest
  | cons x ls ih =>
    obtain ⟨t, text⟩ := x
    cases hg : t.isGap with
    | false => rw [List.cons_append, licenses_of_not_gap hg, licenses_of_not_gap hg]
    | true =>
      cases t <;> try cases hg
      · exact ih
      · rw [List.cons_append, licenses, licenses, ih]

theorem outline_style (selectors : List String) (declarations : List Declaration) (rules : List Rule)
    (location : Option Location) :
    (Rule.style selectors declarations rules location).outline =
      ⟨.style, some selectors, .none, some declarations, Rule.outlines rules⟩ := rfl

theorem Statement.writtenSelectors_plain (side : Side) (selectors : List (List Selector.Step)) :
    writtenSelectors .plain side selectors = .ok (selectors.map Selector.text) := by
  induction selectors with
  | nil => rfl
  | cons s ss ih =>
    rw [writtenSelectors, ih]
    rfl

section
variable {s p : List Char}

/-- The sheet of a rule with one declaration, if it can be read. Only the declarations and the rules in the
block depend on the value. -/
theorem ofChars_ruleText (hs : SelectorText s) (hp : PlainName p) :
    ∃ front sel location, ∀ side v important sheet, ClosedTokens v →
      Sheet.ofChars side (ruleText s p v important) = .ok sheet →
      ∃ rules, sheet = front ++ [Rule.style sel (ofBlock (bodyOf p (componentsOf v) important)) rules location] ∧
        ((∀ x ∈ componentsOf v, x.isCurly = false ∧ isSemicolon x = false) → rules = []) := by
  obtain ⟨sel, head, hlone⟩ := Statement.ofChars_of_closedBlock hs.flat hs.selects
  refine ⟨(licenses (lexemes s)).map (Rule.opaqueText .comment), sel.map Selector.text,
    some (Statement.location head), fun side v important sheet hv hread => ?_⟩
  have hcomponents : componentsOf (ruleText s p v important) =
      componentsOf s ++ [closedBlock (bodyOf p (componentsOf v) important)] :=
    componentsOf_ruleText hs hp hv important
  have hlicenses : licenses (lexemes (ruleText s p v important)) = licenses (lexemes s) := by
    have hfront : leavesAll (componentsOf s) = lexemes s := leavesAll_components _
    rw [lexemes_ruleText hs hp hv, leavesAll_append, hfront]
    exact licenses_append rfl _ _
  cases hstatements : Statement.ofChars (ruleText s p v important) with
  | error e =>
    rw [Sheet.ofChars, hstatements] at hread
    cases hread
  | ok sts =>
    obtain ⟨hfound, st, rfl, settings, children, m, q, s', rfl, hbody⟩ := hlone _ _ _ hcomponents hstatements
    simp only [Sheet.ofChars, hstatements, hlicenses, Except.mapError, bind, Except.bind, Statement.toRules,
      Statement.toRule, Statement.writtenSelectors_plain, Statement.declarations, hfound] at hread
    cases hrules : Statement.toRules .plain side (ruleText s p v important) children with
    | error e =>
      rw [hrules] at hread
      cases hread
    | ok rules =>
      rw [hrules] at hread
      cases hread
      refine ⟨rules, rfl, fun hflat => ?_⟩
      have hplain : ∀ x ∈ .leaf ⟨.colon, [':']⟩ :: (componentsOf v ++ markOf important),
          x.isCurly = false ∧ Statement.isSemicolon x = false := by
        intro x hx
        simp only [List.mem_cons, List.mem_append] at hx
        rcases hx with rfl | hx | hx
        · exact ⟨rfl, rfl⟩
        · exact hflat x hx
        · revert x
          cases important <;> decide
      rw [Statement.readBody_of_flat hplain hbody] at hrules
      cases hrules
      rfl

variable {v v' : List Char} {important important' : Bool}

theorem hasText_ruleText (s p v : List Char) (important : Bool) :
    hasText (some (String.ofList (ruleText s p v important))) = true := by
  have hblank : blank (ruleText s p v important) = false := by
    rw [blank, List.all_eq_false]
    exact ⟨'\x7b', by simp [ruleText], by decide⟩
  rw [hasText, String.toList_ofList, hblank]
  rfl

theorem read_ruleText {side : Side} {sheet : Sheet}
    (h : Sheet.read side (some (String.ofList (ruleText s p v important))) = .ok sheet) :
    Sheet.ofChars side (ruleText s p v important) = .ok sheet := by
  rw [Sheet.read, if_pos (hasText_ruleText s p v important), Option.getD_some, String.toList_ofList] at h
  exact h

theorem predict_eq_ok {old changed : Option String} {verbose : Bool} {r : Report}
    (h : Report.predict old changed verbose = .ok r) :
    ∃ a b, Sheet.read .old old = .ok a ∧ Sheet.read .changed changed = .ok b ∧ r = Report.between a b verbose := by
  cases ha : Sheet.read .old old with
  | error e =>
    rw [Report.predict, ha] at h
    cases h
  | ok a =>
    cases hb : Sheet.read .changed changed with
    | error e =>
      rw [Report.predict, ha, hb] at h
      cases h
    | ok b =>
      rw [Report.predict_of_read ha hb] at h
      cases h
      exact ⟨a, b, rfl, rfl, rfl⟩

/-- Two rules in front of which the same stands. -/
theorem structurallyEqual_concat_iff (front : Sheet) (sel : List String) (ds ds' : List Declaration)
    (rules rules' : List Rule) (location : Option Location) :
    structurallyEqual (front ++ [Rule.style sel ds rules location])
        (front ++ [Rule.style sel ds' rules' location]) = true ↔
      ds = ds' ∧ Rule.outlines rules = Rule.outlines rules' := by
  rw [structurallyEqual_iff, List.map_append, List.map_append, List.append_cancel_left_eq]
  simp [outline_style]

theorem declaration_eq_iff {k k' : List Char} :
    (⟨String.ofList p, String.ofList k, important⟩ : Declaration) = ⟨String.ofList p, String.ofList k', important'⟩ ↔
      k = k' ∧ important = important' := by
  simp [String.ofList_inj]

/-- An edit of one value is no change only if the block has the same declarations, and always if no block stands
in the values. -/
theorem predict_closed (hs : SelectorText s) (hp : PlainName p) (hv : ClosedTokens v) (hv' : ClosedTokens v')
    {verbose : Bool} {r : Report}
    (h : Report.predict (some (String.ofList (ruleText s p v important)))
      (some (String.ofList (ruleText s p v' important'))) verbose = .ok r) :
    (r.bump = .none →
        ofBlock (bodyOf p (componentsOf v) important) = ofBlock (bodyOf p (componentsOf v') important')) ∧
      ((∀ x ∈ componentsOf v ++ componentsOf v', x.isCurly = false ∧ isSemicolon x = false) →
        ofBlock (bodyOf p (componentsOf v) important) = ofBlock (bodyOf p (componentsOf v') important') →
          r.bump = .none) := by
  obtain ⟨old, changed, hold, hchanged, rfl⟩ := predict_eq_ok h
  obtain ⟨front, sel, location, hread⟩ := ofChars_ruleText hs hp
  obtain ⟨rules, rfl, hrules⟩ := hread .old v important old hv (read_ruleText hold)
  obtain ⟨rules', rfl, hrules'⟩ := hread .changed v' important' changed hv' (read_ruleText hchanged)
  rw [Report.bump_eq_iff, Report.Asks, structurallyEqual_concat_iff]
  refine ⟨fun hsame => hsame.1, fun hflat hblocks => ⟨hblocks, ?_⟩⟩
  rw [hrules fun x hx => hflat x (List.mem_append_left _ hx), hrules' fun x hx => hflat x (List.mem_append_right _ hx)]

/-- What a comparison says of an edit of one value, if both texts can be read. -/
theorem predict_ruleText (hs : SelectorText s) (hp : PlainName p) (hv : PlainValue p v) (hv' : PlainValue p v')
    {verbose : Bool} {r : Report}
    (h : Report.predict (some (String.ofList (ruleText s p v important)))
      (some (String.ofList (ruleText s p v' important'))) verbose = .ok r) :
    (r.bump = .none → kept (componentsOf v) = kept (componentsOf v') ∧ important = important') ∧
      ((∀ x ∈ componentsOf v ++ componentsOf v', x.isCurly = false) →
        kept (componentsOf v) = kept (componentsOf v') ∧ important = important' → r.bump = .none) := by
  have hpredict := predict_closed hs hp hv.closed hv'.closed h
  rw [hv.ofBlock_eq, hv'.ofBlock_eq, List.singleton_inj, declaration_eq_iff] at hpredict
  have hdivide : ∀ x ∈ componentsOf v ++ componentsOf v', isSemicolon x = false :=
    List.forall_mem_append.2 ⟨hv.undivided, hv'.undivided⟩
  exact ⟨hpredict.1, fun hflat => hpredict.2 fun x hx => ⟨hflat x hx, hdivide x hx⟩⟩

end

namespace Declaration
variable {s p v v' : List Char}

/-- A value is read to its end unless it ends with a block. Then it is cut behind the bracket that the block
starts with, and two values are told apart by what is left of them only. -/
theorem authored_value_exact (hs : SelectorText s) (hp : PlainName p) (hv : PlainValue p v) (hv' : PlainValue p v')
    (important important' : Bool) :
    (atPosition? (ruleText s p v important) ⟨0, 1⟩ = some [⟨String.ofList p, String.ofList v, important⟩] ↔
      endsInBlock (componentsOf v) = false) ∧
    atPosition? (ruleText s p v important) ⟨0, 1⟩ =
      some [⟨String.ofList p, String.ofList (kept (componentsOf v)), important⟩] ∧
    (atPosition? (ruleText s p v important) ⟨0, 1⟩ = atPosition? (ruleText s p v' important') ⟨0, 1⟩ ↔
      kept (componentsOf v) = kept (componentsOf v') ∧ important = important') ∧
    ∀ verbose r, Report.predict (some (String.ofList (ruleText s p v important)))
        (some (String.ofList (ruleText s p v' important'))) verbose = .ok r →
      (r.bump = .none → kept (componentsOf v) = kept (componentsOf v') ∧ important = important') ∧
      ((∀ x ∈ componentsOf v ++ componentsOf v', x.isCurly = false) →
        kept (componentsOf v) = kept (componentsOf v') ∧ important = important' → r.bump = .none) := by
  have hread := atPosition?_ruleText hs hp hv important
  have hread' := atPosition?_ruleText hs hp hv' important'
  refine ⟨?_, hread, ?_, fun verbose r hr => predict_ruleText hs hp hv hv' hr⟩
  · rw [hread, Option.some_inj, List.singleton_inj, declaration_eq_iff, and_iff_left rfl]
    exact kept_eq_iff hv.toPlainTokens
  · rw [hread, hread', Option.some_inj, List.singleton_inj, declaration_eq_iff]

/-- Colors that differ in their arguments only. -/
theorem authored_value_exact_rgb :
    atPosition? (ruleText ".a".toList "color".toList "rgb(1, 2, 3)".toList false) ⟨0, 1⟩ =
      atPosition? (ruleText ".a".toList "color".toList "rgb(4, 5, 6)".toList false) ⟨0, 1⟩ := by
  have hs : SelectorText ".a".toList :=
    ⟨by decide +kernel, by decide +kernel, by decide +kernel, by decide +kernel⟩
  have hp : PlainName "color".toList := ⟨by decide +kernel, by decide +kernel⟩
  have htokens : PlainTokens "rgb(1, 2, 3)".toList :=
    ⟨mt (marked_iff _).1 (by decide +kernel), by decide +kernel, by decide +kernel⟩
  have htokens' : PlainTokens "rgb(4, 5, 6)".toList :=
    ⟨mt (marked_iff _).1 (by decide +kernel), by decide +kernel, by decide +kernel⟩
  have hv : PlainValue "color".toList "rgb(1, 2, 3)".toList :=
    ⟨htokens, by decide +kernel, by decide +kernel, fun _ => by decide +kernel,
      (spaced_iff _).2 (by decide +kernel), by decide +kernel⟩
  have hv' : PlainValue "color".toList "rgb(4, 5, 6)".toList :=
    ⟨htokens', by decide +kernel, by decide +kernel, fun _ => by decide +kernel,
      (spaced_iff _).2 (by decide +kernel), by decide +kernel⟩
  exact (authored_value_exact hs hp hv hv' false false).2.2.1.2 ⟨by decide +kernel, rfl⟩

/-- A color loses its arguments, and the edit of a reference is no change. -/
theorem value_lost_behind_bracket :
    atPosition? ".a\x7bcolor:rgb(1, 2, 3)\x7d".toList ⟨0, 1⟩ ≠ some [⟨"color", "rgb(1, 2, 3)", false⟩] ∧
    (Report.predict (some ".a\x7bcolor:var(--x)\x7d") (some ".a\x7bcolor:var(--y)\x7d") false).toOption =
      some ⟨.none, []⟩ := by
  constructor
  · decide +kernel
  · decide +kernel

end Declaration

end StyleBump
