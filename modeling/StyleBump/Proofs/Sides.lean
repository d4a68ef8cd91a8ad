import StyleBump.General
import StyleBump.Proofs.Classification

/-! # The side of a text

On which side of a comparison a text stands does not matter to how it is read: either way it has the same
sheet, or the same fault up to the side that the fault names (`Sheet.read_onSide`). This holds of every
printer, also of one that fails. What is predicted of two texts follows from how each of them is read:
the first side that cannot be read decides the fault (`Report.predict_sides`). -/

namespace StyleBump

/-- The same fault on a side. -/
def Fault.onSide (side : Side) : Fault → Fault
  | parse _ detail line column => parse side detail line column
  | print _ detail => print side detail

namespace Statement
variable (w : Printer) (side side' : Side) (text : List Char)

theorem written_onSide (r : Except String String) :
    (written side r).mapError (Fault.onSide side') = written side' r := by
  cases r <;> rfl

theorem writtenSelectors_onSide (selectors : List (List Selector.Step)) :
    (writtenSelectors w side selectors).mapError (Fault.onSide side') = writtenSelectors w side' selectors := by
  induction selectors with
  | nil => rfl
  | cons s ss ih => simp only [writtenSelectors, mapError_bind, written_onSide, ih, mapError_ok]

theorem printedInOrder_onSide (settings : List Setting) :
    (printedInOrder w side settings).mapError (Fault.onSide side') = printedInOrder w side' settings := by
  induction settings with
  | nil => rfl
  | cons s ss ih => simp only [printedInOrder, mapError_bind, written_onSide, ih, mapError_ok]

theorem declarations_onSide (settings : List Setting) (p : Text.Position) :
    (declarations w side text settings p).mapError (Fault.onSide side') = declarations w side' text settings p := by
  unfold declarations
  split
  · rfl
  · exact printedInOrder_onSide w side side' _

theorem opaqueRule_onSide (s : Statement) :
    (opaqueRule w side s).mapError (Fault.onSide side') = opaqueRule w side' s := by
  simp only [opaqueRule, mapError_bind, written_onSide, mapError_ok]

mutual
theorem toRule_onSide : ∀ s : Statement,
    (toRule w side text s).mapError (Fault.onSide side') = toRule w side' text s
  | style selectors settings children p => by
    simp only [toRule, mapError_bind, writtenSelectors_onSide, declarations_onSide, toRules_onSide children,
      mapError_ok]
  | group kind heading prelude children p => by
    cases prelude with
    | none => simp only [toRule, mapError_bind, toRules_onSide children, mapError_ok]
    | some t => simp only [toRule, mapError_bind, written_onSide, toRules_onSide children, mapError_ok]
  | loose settings => by rw [toRule, toRule, opaqueRule_onSide]
  | other ls short => by rw [toRule, toRule, opaqueRule_onSide]

/-- The statements become the same rules on either side, or fail in the same way. -/
theorem toRules_onSide : ∀ ss : List Statement,
    (toRules w side text ss).mapError (Fault.onSide side') = toRules w side' text ss
  | [] => rfl
  | s :: ss => by
    simp only [toRules, mapError_bind, toRule_onSide s, toRules_onSide ss, mapError_ok]
end

end Statement

namespace Sheet
variable (w : Printer) (side side' : Side)

theorem ofRefusal_onSide {α : Type} (r : Except Css.Refusal α) :
    (r.mapError (Fault.ofRefusal side)).mapError (Fault.onSide side') = r.mapError (Fault.ofRefusal side') := by
  cases r <;> rfl

theorem ofChars_onSide (cs : List Char) :
    (ofChars side cs w).mapError (Fault.onSide side') = ofChars side' cs w := by
  simp only [ofChars, mapError_bind, ofRefusal_onSide, Statement.toRules_onSide, mapError_ok]

/-- A text is read on one side as it is on the other; a fault tells the side. -/
theorem read_onSide (t : Option String) : (read side t w).mapError (Fault.onSide side') = read side' t w := by
  unfold read
  split
  · exact ofChars_onSide w side side' _
  · rfl

variable {w side} {t : Option String}

theorem read_of_ok {sheet : Sheet} (h : read side t w = .ok sheet) (side' : Side) : read side' t w = .ok sheet := by
  rw [← read_onSide w side side', h]
  rfl

theorem read_of_error {f : Fault} (h : read side t w = .error f) (side' : Side) :
    read side' t w = .error (f.onSide side') := by
  rw [← read_onSide w side side', h]
  rfl

theorem onSide_side (f : Fault) : (f.onSide side).side = side := by
  cases f <;> rfl

/-- A fault of reading names the side. -/
theorem side_of_read {f : Fault} (h : read side t w = .error f) : f.side = side := by
  have hself := read_of_error h side
  rw [h] at hself
  rw [Except.error.inj hself]
  exact onSide_side f

end Sheet

namespace Report
variable (old changed : Option String) (verbose : Bool) (w : Printer)

theorem predict_eq :
    predict old changed verbose w =
      match Sheet.read .old old w with
      | .error f => .error f
      | .ok a =>
        match Sheet.read .changed changed w with
        | .error f => .error f
        | .ok b => .ok (between a b verbose) := by
  unfold predict
  cases Sheet.read .old old w with
  | error f => rfl
  | ok a => cases Sheet.read .changed changed w <;> rfl

variable {old changed verbose w}

theorem predict_of_old_error {f : Fault} (h : Sheet.read .old old w = .error f) :
    predict old changed verbose w = .error f := by
  rw [predict_eq, h]

theorem predict_of_changed_error {a : Sheet} {f : Fault} (h : Sheet.read .old old w = .ok a)
    (h' : Sheet.read .changed changed w = .error f) : predict old changed verbose w = .error f := by
  rw [predict_eq, h, h']

theorem between_self (a : Sheet) (verbose : Bool) : between a a verbose = ⟨.none, []⟩ :=
  between_of_equal ((structurallyEqual_iff a a).2 rfl)

/-- The bump does not depend on whether notices are collected. -/
theorem bump_between (a b : Sheet) (verbose verbose' : Bool) :
    (between a b verbose).bump = (between a b verbose').bump := by
  unfold between
  split <;> rfl

variable (old changed verbose w)

theorem predict_eq_error_iff :
    (∃ f, predict old changed verbose w = .error f) ↔
      (∃ f, Sheet.read .old old w = .error f) ∨ ∃ f, Sheet.read .changed changed w = .error f := by
  rw [predict_eq]
  cases Sheet.read .old old w with
  | error f => simp
  | ok a => cases Sheet.read .changed changed w <;> simp

theorem lenient_eq_none_iff :
    lenient old changed verbose w = none ↔
      (∃ f, predict old changed verbose w = .error f) ∨ ∃ r, predict old changed verbose w = .ok r ∧ r.bump = .none := by
  unfold lenient
  cases predict old changed verbose w with
  | error f => simp
  | ok r =>
    by_cases hr : r.bump = .none
    · simp [isUnchanged, hr]
    · simp [isUnchanged, hr]

theorem lenient_verbose (verbose' : Bool) :
    lenient old changed verbose' w = lenient old changed verbose w := by
  unfold lenient
  rw [predict_eq, predict_eq]
  cases Sheet.read .old old w with
  | error f => rfl
  | ok a =>
    cases Sheet.read .changed changed w with
    | error f => rfl
    | ok b =>
      show (if (between a b verbose').bump == .none then none else some (between a b verbose').bump) = _
      rw [bump_between a b verbose' verbose]
      rfl

/-- A text is read alike on both sides, up to the side that a fault names. A prediction fails exactly if one
of the two texts cannot be read; a fault of the old one comes first, whatever the other text is, and a fault
of the changed one is the fault wherever the old one can be read. A text is no change of itself. The bump alone
is missing exactly if the prediction fails or finds no change, and it is the same with and without notices. -/
theorem predict_sides :
    (∀ t, (∃ sheet, Sheet.read .old t w = .ok sheet ∧ Sheet.read .changed t w = .ok sheet) ∨
      ∃ f, f.side = .old ∧ Sheet.read .old t w = .error f ∧ Sheet.read .changed t w = .error (f.onSide .changed)) ∧
    ((∃ f, predict old changed verbose w = .error f) ↔
      (∃ f, Sheet.read .old old w = .error f) ∨ ∃ f, Sheet.read .changed changed w = .error f) ∧
    (∀ f, Sheet.read .old old w = .error f → f.side = .old ∧ ∀ other, predict old other verbose w = .error f) ∧
    (∀ f, Sheet.read .changed changed w = .error f → f.side = .changed ∧
      ∀ other sheet, Sheet.read .old other w = .ok sheet → predict other changed verbose w = .error f) ∧
    (∀ t sheet, Sheet.read .old t w = .ok sheet → predict t t verbose w = .ok ⟨.none, []⟩) ∧
    (lenient old changed verbose w = none ↔
      (∃ f, predict old changed verbose w = .error f) ∨
        ∃ r, predict old changed verbose w = .ok r ∧ r.bump = .none) ∧
    ∀ verbose', lenient old changed verbose' w = lenient old changed verbose w := by
  refine ⟨fun t => ?alike, predict_eq_error_iff old changed verbose w, fun f hf => ?first, fun f hf => ?second,
    fun t sheet ht => ?same, lenient_eq_none_iff old changed verbose w, lenient_verbose old changed verbose w⟩
  case alike =>
    cases ht : Sheet.read .old t w with
    | ok sheet => exact .inl ⟨sheet, rfl, Sheet.read_of_ok ht .changed⟩
    | error f => exact .inr ⟨f, Sheet.side_of_read ht, rfl, Sheet.read_of_error ht .changed⟩
  case first => exact ⟨Sheet.side_of_read hf, fun other => predict_of_old_error hf⟩
  case second => exact ⟨Sheet.side_of_read hf, fun other sheet hother => predict_of_changed_error hother hf⟩
  case same => rw [predict_of_read ht (Sheet.read_of_ok ht .changed), between_self]

end Report

end StyleBump
