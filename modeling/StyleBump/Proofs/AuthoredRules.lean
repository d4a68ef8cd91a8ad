import StyleBump.Journal
import StyleBump.Proofs.OwnBlocks

/-! # Rules and the blocks they are written as

The declarations of a style rule are always taken from its own block, so each rule of a sheet has the
declarations that the text has behind its location (`Statement.authored_of_toRules`). Their normal form is
never asked for: the sheet is the same however settings are printed (`Statement.toRules_printer`), and a log
has nothing to warn of (`Journal.shown_predict`). -/

namespace StyleBump

namespace Rule

mutual
/-- A rule and those nested in it, in source order. -/
def parts : Rule → List Rule
  | ⟨kind, selectors, prelude, declarations, rules, location⟩ =>
    ⟨kind, selectors, prelude, declarations, rules, location⟩ :: partsAll rules

def partsAll : List Rule → List Rule
  | [] => []
  | r :: rs => parts r ++ partsAll rs
end

theorem mem_partsAll {x : Rule} {rs : List Rule} : x ∈ partsAll rs ↔ ∃ r ∈ rs, x ∈ parts r := by
  induction rs with
  | nil => simp [partsAll]
  | cons r rs ih => simp [partsAll, ih]

/-- The declarations of a rule and of those nested in it are those of blocks where these rules stand. -/
def Authored (text : List Char) (r : Rule) : Prop :=
  ∀ x ∈ parts r, ∀ ds, x.declarations = some ds →
    ∃ b : Statement.FoundBlock text, x.location = some (Statement.location b.position) ∧ ds = Declaration.ofBlock b.body

section
variable {text : List Char} {rules : List Rule}

theorem authored_style (b : Statement.FoundBlock text) (h : ∀ r ∈ rules, Authored text r) (selectors : List String) :
    Authored text (style selectors (Declaration.ofBlock b.body) rules (some (Statement.location b.position))) := by
  intro x hx ds hds
  rcases List.mem_cons.1 hx with rfl | hx
  · cases hds
    exact ⟨b, rfl, rfl⟩
  · obtain ⟨r, hr, hx⟩ := mem_partsAll.1 hx
    exact h r hr x hx ds hds

theorem authored_group (h : ∀ r ∈ rules, Authored text r) (kind : RuleKind) (prelude : String) (p : Option Location) :
    Authored text (group kind prelude rules p) := by
  intro x hx ds hds
  rcases List.mem_cons.1 hx with rfl | hx
  · cases hds
  · obtain ⟨r, hr, hx⟩ := mem_partsAll.1 hx
    exact h r hr x hx ds hds

end

end Rule

namespace Statement
open Declaration (ofBlock)
open Text (Position)

section
variable {text : List Char} {children : List Statement}

mutual
theorem withoutText_eq_nil : ∀ s : Statement, Owns text s → withoutText text s = []
  | style selectors settings children p, h => by
    obtain ⟨⟨b, hb⟩, hchildren⟩ := owns_style_iff.1 h
    rw [withoutText, atPosition?_of_gives hb, withoutTextAll_eq_nil children hchildren]
    rfl
  | group kind heading prelude children p, h => by
    rw [withoutText, withoutTextAll_eq_nil children (owns_group_iff.1 h)]
  | loose settings, _ => rfl
  | other ls short, _ => rfl

theorem withoutTextAll_eq_nil : ∀ ss : List Statement, (∀ s ∈ ss, Owns text s) → withoutTextAll text ss = []
  | [], _ => rfl
  | s :: ss, h => by
    obtain ⟨hs, hss⟩ := List.forall_mem_cons.1 h
    rw [withoutTextAll, withoutText_eq_nil s hs, withoutTextAll_eq_nil ss hss]
    rfl
end

theorem declarations_of_gives {selectors : List (List Selector.Step)} {settings : List Setting} {p : Position}
    {b : FoundBlock text} (h : b.Gives (.style selectors settings children p)) (w : Printer) (side : Side) :
    declarations w side text settings p = .ok (ofBlock b.body) := by
  rw [declarations, atPosition?_of_gives h]

theorem authored_of_opaqueRule {w : Printer} {side : Side} {s : Statement} {r : Rule}
    (h : opaqueRule w side s = .ok r) : r.Authored text := by
  obtain ⟨t, -, h⟩ := exists_of_bind_eq_ok h
  cases h
  exact Rule.authored_group (by simp) _ _ _

mutual
theorem authored_of_toRule {w : Printer} {side : Side} : ∀ (s : Statement) {r : Rule}, Owns text s →
    toRule w side text s = .ok r → r.Authored text
  | style selectors settings children p, r, hs, h => by
    obtain ⟨⟨b, hb⟩, hchildren⟩ := owns_style_iff.1 hs
    rw [toRule, declarations_of_gives hb, hb.1] at h
    obtain ⟨ts, -, h⟩ := exists_of_bind_eq_ok h
    obtain ⟨ds, hds, h⟩ := exists_of_bind_eq_ok h
    obtain ⟨rules, hrules, h⟩ := exists_of_bind_eq_ok h
    cases hds
    cases h
    exact Rule.authored_style b (authored_of_toRules children hchildren hrules) ts
  | group kind heading prelude children p, r, hs, h => by
    have hrules : ∃ t rules, toRules w side text children = .ok rules ∧ r = .group kind t rules (some (location p)) := by
      cases prelude <;>
      · simp only [toRule] at h
        obtain ⟨t, -, h⟩ := exists_of_bind_eq_ok h
        obtain ⟨rules, hrules, h⟩ := exists_of_bind_eq_ok h
        exact ⟨t, rules, hrules, (Except.ok.inj h).symm⟩
    obtain ⟨t, rules, hrules, rfl⟩ := hrules
    exact Rule.authored_group (authored_of_toRules children (owns_group_iff.1 hs) hrules) _ _ _
  | loose settings, r, _, h => authored_of_opaqueRule h
  | other ls short, r, _, h => authored_of_opaqueRule h

/-- Rules have the declarations of the blocks that stand at their locations. -/
theorem authored_of_toRules {w : Printer} {side : Side} : ∀ (ss : List Statement) {rs : List Rule},
    (∀ s ∈ ss, Owns text s) → toRules w side text ss = .ok rs → ∀ r ∈ rs, r.Authored text
  | [], rs, _, h => by
    cases h
    simp
  | s :: ss, rs, hs, h => by
    obtain ⟨hs, hss⟩ := List.forall_mem_cons.1 hs
    obtain ⟨r, hr, h⟩ := exists_of_bind_eq_ok h
    obtain ⟨rest, hrest, h⟩ := exists_of_bind_eq_ok h
    cases h
    exact List.forall_mem_cons.2 ⟨authored_of_toRule s hs hr, authored_of_toRules ss hss hrest⟩
end

section
variable (w : Printer) (property value : Setting → Except String String) (side : Side)

theorem writtenSelectors_printer (selectors : List (List Selector.Step)) :
    writtenSelectors { w with property := property, value := value } side selectors = writtenSelectors w side selectors := by
  induction selectors with
  | nil => rfl
  | cons s ss ih => rw [writtenSelectors, writtenSelectors, ih]

mutual
/-- The rules are the same however settings are printed, also where printing them fails. -/
theorem toRule_printer : ∀ s : Statement, Owns text s →
    toRule { w with property := property, value := value } side text s = toRule w side text s
  | style selectors settings children p, h => by
    obtain ⟨⟨b, hb⟩, hchildren⟩ := owns_style_iff.1 h
    simp only [toRule, writtenSelectors_printer, declarations_of_gives hb, toRules_printer children hchildren]
  | group kind heading prelude children p, h => by
    cases prelude with
    | none => simp only [toRule, toRules_printer children (owns_group_iff.1 h)]
    | some t => simp only [toRule, toRules_printer children (owns_group_iff.1 h)]
  | loose settings, _ => rfl
  | other ls short, _ => rfl

theorem toRules_printer : ∀ ss : List Statement, (∀ s ∈ ss, Owns text s) →
    toRules { w with property := property, value := value } side text ss = toRules w side text ss
  | [], _ => rfl
  | s :: ss, h => by
    obtain ⟨hs, hss⟩ := List.forall_mem_cons.1 h
    simp only [toRules, toRule_printer s hs, toRules_printer ss hss]
end

end

end

end Statement

namespace Journal
variable {side : Side} {e : Entry}

theorem not_isShown_of_mem_sheet {sheet : Sheet} (h : e ∈ Journal.sheet side sheet) : e.level.isShown = false := by
  rcases List.mem_cons.1 h with rfl | h
  · rfl
  · obtain ⟨r, -, rfl⟩ := List.mem_map.1 h
    rfl

/-- A block that is missing would be shown, and none is. -/
theorem not_isShown_of_mem_reading {text : Option String} (h : e ∈ reading side text) : e.level.isShown = false := by
  unfold reading at h
  split at h
  · dsimp only at h
    split at h
    · cases h
    · rename_i statements hread
      rw [Statement.withoutTextAll_eq_nil statements (Statement.owns_of_ofChars hread)] at h
      split at h
      · cases h
      · exact not_isShown_of_mem_sheet h
  · cases h

theorem not_isShown_of_mem_predict {old changed : Option String} (h : e ∈ predict old changed) :
    e.level.isShown = false := by
  rcases List.mem_append.1 h with h | h
  · exact not_isShown_of_mem_reading h
  split at h
  · cases h
  rcases List.mem_append.1 h with h | h
  · exact not_isShown_of_mem_reading h
  split at h
  · cases h
  · obtain rfl := List.mem_singleton.1 h
    unfold comparison
    split <;> rfl

theorem shown_predict (old changed : Option String) : shown (predict old changed) = [] := by
  refine List.filter_eq_nil_iff.2 fun e he => ?_
  simp [not_isShown_of_mem_predict he]

end Journal

namespace Sheet
open Statement

/-- Every style rule of a text is found again at its position, with the block that it was read from. So the
rules of the sheet have the declarations of the blocks at their locations, no journal warns of a missing block,
and the sheet does not depend on how declarations are printed in normal form. -/
theorem own_blocks_found {text : String} {statements : List Statement}
    (h : Statement.ofChars text.toList = .ok statements) :
    (∀ selectors settings children p, .style selectors settings children p ∈ partsAll statements →
      ∃ b : FoundBlock text.toList, b.Gives (.style selectors settings children p) ∧
        Declaration.atPosition? text.toList p = some (Declaration.ofBlock b.body)) ∧
    (∀ side w sheet, ofChars side text.toList w = .ok sheet →
      ∀ r ∈ Rule.partsAll sheet, ∀ ds, r.declarations = some ds →
      ∃ b : FoundBlock text.toList, r.location = some (location b.position) ∧ ds = Declaration.ofBlock b.body) ∧
    (∀ side, ∀ e ∈ Journal.reading side (some text), e.level ≠ .warn) ∧
    ∀ (side : Side) (w : Printer) (property value : Setting → Except String String),
      ofChars side text.toList { w with property := property, value := value } = ofChars side text.toList w := by
  have howns := owns_of_ofChars h
  refine ⟨fun selectors settings children p hmem => ?blocks, fun side w sheet hsheet r hr => ?rules,
    fun side e he => ?journal, fun side w property value => ?printer⟩
  case blocks =>
    obtain ⟨st, hst, hmem⟩ := mem_partsAll.1 hmem
    obtain ⟨b, hb⟩ := howns st hst _ hmem trivial
    exact ⟨b, hb, atPosition?_of_gives hb⟩
  case rules =>
    rw [ofChars, h] at hsheet
    obtain ⟨rules, hrules, hsheet⟩ := exists_of_bind_eq_ok (x := toRules w side text.toList statements) hsheet
    cases hsheet
    obtain ⟨r', hr', hr⟩ := Rule.mem_partsAll.1 hr
    rcases List.mem_append.1 hr' with hlicense | hrule
    · obtain ⟨t, -, rfl⟩ := List.mem_map.1 hlicense
      exact Rule.authored_group (by simp) _ _ _ r hr
    · exact authored_of_toRules statements howns hrules r' hrule r hr
  case journal =>
    intro hwarn
    have hshown := Journal.not_isShown_of_mem_reading he
    rw [hwarn] at hshown
    cases hshown
  case printer =>
    simp only [ofChars, h, Except.mapError, bind, Except.bind, toRules_printer w property value side statements howns]

/-- A rule in a rule in a group, behind breaks of each kind, with brackets of blocks in a comment, a string and
a value, and with a character of two units. -/
def nestedText : String :=
  "/*!\x7b*/\r\n@media print \x7b\r\t[a='\x7b'] \x7b--x:\x7b\x7d;\n😀 &:is(b) \x7bcolor: red\x7d\x7d\x7d"

theorem own_blocks_found_nested :
    ∃ statements, Statement.ofChars nestedText.toList = .ok statements ∧ (partsAll statements).length = 3 ∧
      ∀ side w property value,
        ofChars side nestedText.toList { w with property := property, value := value } =
          ofChars side nestedText.toList w := by
  have hread : (Statement.ofChars nestedText.toList).toOption.map (fun ss => (partsAll ss).length) = some 3 := by
    decide +kernel
  cases h : Statement.ofChars nestedText.toList with
  | error e =>
    rw [h] at hread
    cases hread
  | ok statements =>
    rw [h] at hread
    exact ⟨statements, rfl, Option.some.inj hread, (own_blocks_found h).2.2.2⟩

end Sheet

end StyleBump
