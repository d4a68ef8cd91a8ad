import StyleBump.Proofs.Selectors
import StyleBump.Report

/-! # Which bump an edit asks for

The early answer for structurally equal sheets and the answer from the selectors are described by one
table, `bump_eq_iff`. It reads three things off a pair of sheets: whether they are structurally equal,
whether a listed selector is lost, and whether one is gained. -/

namespace StyleBump

namespace SelectorDiff

theorem classify_eq_major_iff (d : SelectorDiff) : d.classify = .major ↔ d.removed ≠ [] := by
  unfold classify
  cases d.removed <;> cases d.added <;> simp

theorem classify_eq_minor_iff (d : SelectorDiff) :
    d.classify = .minor ↔ d.removed = [] ∧ d.added ≠ [] := by
  unfold classify
  cases d.removed <;> cases d.added <;> simp

theorem classify_eq_patch_iff (d : SelectorDiff) :
    d.classify = .patch ↔ d.removed = [] ∧ d.added = [] := by
  unfold classify
  cases d.removed <;> cases d.added <;> simp

theorem classify_ne_none (d : SelectorDiff) : d.classify ≠ .none := by
  unfold classify
  cases d.removed <;> cases d.added <;> simp

end SelectorDiff

namespace Settings

/-- Settings that are the same on both sides have no changes. -/
theorem changes_self (m : Settings) : m.changes m = [] := by
  simp [changes]

end Settings

namespace Report
variable {old changed : Sheet} {verbose : Bool}

theorem between_of_equal (h : structurallyEqual old changed = true) :
    between old changed verbose = ⟨.none, []⟩ := by
  simp [between, h]

theorem bump_of_different (h : structurallyEqual old changed = false) :
    (between old changed verbose).bump =
      (SelectorDiff.between old.selectorSet changed.selectorSet).classify := by
  simp [between, h]

/-- The bump that the answers to three questions lead to. -/
def Asks (equal lost gained : Prop) : Bump → Prop
  | .none => equal
  | .patch => ¬ equal ∧ ¬ lost ∧ ¬ gained
  | .minor => ¬ equal ∧ ¬ lost ∧ gained
  | .major => ¬ equal ∧ lost

theorem bump_eq_iff (old changed : Sheet) (verbose : Bool) (b : Bump) :
    (between old changed verbose).bump = b ↔
      Asks (structurallyEqual old changed = true) (old.Loses changed) (changed.Loses old) b := by
  have removed := Sheet.difference_eq_nil_iff old changed
  have added := Sheet.difference_eq_nil_iff changed old
  cases h : structurallyEqual old changed with
  | true =>
    rw [between_of_equal h]
    cases b <;> simp [Asks]
  | false =>
    rw [bump_of_different h]
    cases b with
    | none => simp [Asks, SelectorDiff.classify_ne_none]
    | patch => simp [Asks, SelectorDiff.classify_eq_patch_iff, SelectorDiff.between, removed, added]
    | minor => simp [Asks, SelectorDiff.classify_eq_minor_iff, SelectorDiff.between, removed, added]
    | major => simp [Asks, SelectorDiff.classify_eq_major_iff, SelectorDiff.between, removed]

/-- Structurally equal sheets have no selectors to tell apart. -/
theorem diff_of_equal (h : structurallyEqual old changed = true) :
    SelectorDiff.between old.selectorSet changed.selectorSet = ⟨[], []⟩ := by
  rw [Sheet.selectorSet_congr h, SelectorDiff.between, SelectorSet.difference_self]

/-- Structurally equal sheets have nothing to notice. -/
theorem notices_of_equal (h : structurallyEqual old changed = true) :
    Notice.collect old changed (SelectorDiff.between old.selectorSet changed.selectorSet) = [] := by
  simp [diff_of_equal h, Notice.collect, Notice.collectOr, Sheet.settings_congr h, Settings.changes_self]

theorem loses_congr {old' changed' : Sheet} (ho : ∀ x, old'.Lists x ↔ old.Lists x)
    (hc : ∀ x, changed'.Lists x ↔ changed.Lists x) : old'.Loses changed' ↔ old.Loses changed := by
  simp only [Sheet.Loses, ho, hc]

theorem predict_of_read {t u : Option String} {w : Printer} (ht : Sheet.read .old t w = .ok old)
    (hu : Sheet.read .changed u w = .ok changed) :
    predict t u verbose w = .ok (between old changed verbose) := by
  rw [predict, ht, hu]
  rfl

/-- The bump of two sheets is none exactly if they are structurally equal; for the others a lost
selector makes it major, else a gained one makes it minor, else it is a patch. Structurally equal
sheets lose and gain nothing and have no notices, and between sheets that differ nothing but the
selectors that they list decides. This is the bump that is predicted for texts of the two sheets. -/
theorem bump_classification (old changed : Sheet) (verbose : Bool) :
    ((between old changed verbose).bump = .none ↔ structurallyEqual old changed = true) ∧
    ((between old changed verbose).bump = .major ↔
      structurallyEqual old changed = false ∧ ∃ x, old.Lists x ∧ ¬ changed.Lists x) ∧
    ((between old changed verbose).bump = .minor ↔
      structurallyEqual old changed = false ∧ (¬ ∃ x, old.Lists x ∧ ¬ changed.Lists x) ∧
        ∃ x, changed.Lists x ∧ ¬ old.Lists x) ∧
    ((between old changed verbose).bump = .patch ↔
      structurallyEqual old changed = false ∧ (¬ ∃ x, old.Lists x ∧ ¬ changed.Lists x) ∧
        ¬ ∃ x, changed.Lists x ∧ ¬ old.Lists x) ∧
    (structurallyEqual old changed = true →
      (SelectorDiff.between old.selectorSet changed.selectorSet).removed = [] ∧
      (SelectorDiff.between old.selectorSet changed.selectorSet).added = [] ∧
      Notice.collect old changed (SelectorDiff.between old.selectorSet changed.selectorSet) = []) ∧
    (∀ (old' changed' : Sheet) (verbose' : Bool),
      structurallyEqual old changed = false → structurallyEqual old' changed' = false →
      (∀ x, old'.Lists x ↔ old.Lists x) → (∀ x, changed'.Lists x ↔ changed.Lists x) →
      (between old' changed' verbose').bump = (between old changed verbose).bump) ∧
    (∀ t u, Sheet.read .old t = .ok old → Sheet.read .changed u = .ok changed →
      predict t u verbose = .ok (between old changed verbose)) := by
  refine ⟨?none, ?major, ?minor, ?patch, ?equal, ?selectors, ?texts⟩
  case none => exact bump_eq_iff old changed verbose .none
  case major => simpa [Asks, Sheet.Loses] using bump_eq_iff old changed verbose .major
  case minor => simpa [Asks, Sheet.Loses] using bump_eq_iff old changed verbose .minor
  case patch => simpa [Asks, Sheet.Loses] using bump_eq_iff old changed verbose .patch
  case equal =>
    intro h
    rw [notices_of_equal h, diff_of_equal h]
    exact ⟨rfl, rfl, rfl⟩
  case selectors =>
    intro old' changed' verbose' h h' ho hc
    rw [bump_eq_iff, loses_congr ho hc, loses_congr hc ho, h', ← h]
    exact (bump_eq_iff old changed verbose _).1 rfl
  case texts => exact fun t u ht hu => predict_of_read ht hu

end Report

end StyleBump
