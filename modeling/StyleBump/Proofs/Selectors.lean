import StyleBump.Notice
import StyleBump.Rule.Outline

/-! # The selectors that a sheet lists

`Sheet.Lists` says what a selector set is about, without the set: a style rule at the top of the sheet
has the selector in its list. Sets and their differences are described through it, and sheets that
are structurally equal are shown to agree in all that a comparison looks at: selectors and settings. -/

namespace StyleBump

namespace Sheet

/-- A style rule at the top of the sheet has `x` among its selectors. -/
def Lists (sheet : Sheet) (x : String) : Prop :=
  ∃ r ∈ sheet, r.kind = .style ∧ ∃ ss, r.selectors = some ss ∧ x ∈ ss

theorem mem_selectorSet (sheet : Sheet) (x : String) :
    x ∈ sheet.selectorSet.toList ↔ sheet.Lists x := by
  rw [selectorSet, SelectorSet.mem_ofList, List.mem_flatMap]
  constructor
  · rintro ⟨r, hr, hx⟩
    obtain ⟨hmem, hkind⟩ := List.mem_filter.1 hr
    cases hs : r.selectors with
    | none => simp [hs] at hx
    | some ss => exact ⟨r, hmem, eq_of_beq hkind, ss, hs, by simpa [hs] using hx⟩
  · rintro ⟨r, hmem, hkind, ss, hs, hx⟩
    exact ⟨r, List.mem_filter.2 ⟨hmem, by simp [hkind]⟩, by simpa [hs] using hx⟩

/-- Some selector of the first sheet is listed by the first alone. -/
def Loses (old changed : Sheet) : Prop := ∃ x, old.Lists x ∧ ¬ changed.Lists x

theorem difference_eq_nil_iff (old changed : Sheet) :
    old.selectorSet.difference changed.selectorSet = [] ↔ ¬ old.Loses changed := by
  rw [List.eq_nil_iff_forall_not_mem, Loses, not_exists]
  simp only [SelectorSet.mem_difference, mem_selectorSet]

theorem not_loses_iff (old changed : Sheet) :
    ¬ old.Loses changed ↔ ∀ x, old.Lists x → changed.Lists x := by
  simp [Loses]

end Sheet

/-! ### Structurally equal sheets -/

namespace Rule

@[simp] theorem outline_kind (r : Rule) : r.outline.kind = r.kind := by cases r; rfl
@[simp] theorem outline_selectors (r : Rule) : r.outline.selectors = r.selectors := by cases r; rfl
@[simp] theorem outline_declarations (r : Rule) : r.outline.declarations = r.declarations := by
  cases r; rfl

end Rule

theorem structurallyEqual_iff (old changed : Sheet) :
    structurallyEqual old changed = true ↔ old.map Rule.outline = changed.map Rule.outline := by
  rw [structurallyEqual, Outline.sameAll_iff, Rule.outlines_eq_map, Rule.outlines_eq_map]

theorem structurallyEqual_comm (a b : Sheet) : structurallyEqual a b = structurallyEqual b a :=
  Bool.eq_iff_iff.2 <| by rw [structurallyEqual_iff, structurallyEqual_iff, eq_comm]

namespace Sheet
variable {old changed : Sheet}

theorem styleRules_map_outline (sheet : Sheet) :
    sheet.styleRules.map Rule.outline = (sheet.map Rule.outline).filter (·.kind == .style) := by
  rw [List.filter_map]
  congr 1
  exact List.filter_congr fun r _ => by simp

/-- The style rules of structurally equal sheets have the same outlines. -/
theorem styleRules_congr (h : structurallyEqual old changed = true) :
    old.styleRules.map Rule.outline = changed.styleRules.map Rule.outline := by
  rw [styleRules_map_outline, styleRules_map_outline, (structurallyEqual_iff _ _).1 h]

theorem selectorSet_congr (h : structurallyEqual old changed = true) :
    old.selectorSet = changed.selectorSet := by
  have view (sheet : Sheet) : sheet.selectorSet =
      .ofList ((sheet.styleRules.map Rule.outline).flatMap fun o => o.selectors.getD []) := by
    simp [selectorSet, List.flatMap_map]
  rw [view old, view changed, styleRules_congr h]

theorem lists_congr (h : structurallyEqual old changed = true) (x : String) :
    old.Lists x ↔ changed.Lists x := by
  rw [← mem_selectorSet, ← mem_selectorSet, selectorSet_congr h]

theorem settings_congr (h : structurallyEqual old changed = true) :
    old.settings = changed.settings := by
  have view (sheet : Sheet) : sheet.settings =
      (sheet.styleRules.map Rule.outline).foldl (fun bySelector o =>
        (o.selectors.getD []).foldl (fun m s =>
          m.update s fun old => Settings.apply (old.getD .empty) (o.declarations.getD [])) bySelector)
        .empty := by
    simp [settings, List.foldl_map]
  rw [view old, view changed, styleRules_congr h]

end Sheet

end StyleBump
