import Mathlib.Data.List.MinMax
import Mathlib.Tactic.Choose
import StyleBump.Proofs.Sides

/-! # Bumps along a history

The bump of two sheets is at most `m` exactly if a relation `AtMost m` holds between them: equality up
to locations, equal selector sets, growing selector sets, or any two sheets. All four are reflexive and
transitive, so the total bump of a history is at most `m` as soon as each step is. -/

namespace StyleBump

namespace Bump

theorem rank_injective : Function.Injective rank := fun a b h => by
  cases a <;> cases b <;> first | rfl | cases h

/-- Bumps are ordered as their ranks are. -/
instance : LinearOrder Bump where
  __ := PartialOrder.lift rank rank_injective
  le_total a b := Nat.le_total a.rank b.rank
  toMax := inferInstance
  toDecidableLE := inferInstance
  toDecidableEq := inferInstance

theorem le_def (a b : Bump) : a ≤ b ↔ a.rank ≤ b.rank := Iff.rfl

/-- The largest answer of a list, no change if there is none. -/
def largest (bs : List Bump) : Bump := (largest? bs).getD .none

theorem le_largest {bs : List Bump} {b : Bump} (h : b ∈ bs) : b ≤ largest bs := by
  obtain ⟨m, hm⟩ := Option.isSome_iff_exists.1 (List.isSome_max?_of_mem h)
  rw [largest, largest?, hm]
  exact (List.max?_eq_some_iff.1 hm).2 b h

end Bump

namespace Sheet

/-- What two sheets have in common when their bump is at most the given one. -/
def AtMost : Bump → Sheet → Sheet → Prop
  | .none, a, b => structurallyEqual a b = true
  | .patch, a, b => ∀ x, a.Lists x ↔ b.Lists x
  | .minor, a, b => ∀ x, a.Lists x → b.Lists x
  | .major, _, _ => True

namespace AtMost

theorem refl (m : Bump) (a : Sheet) : AtMost m a a := by
  cases m with
  | none => exact (structurallyEqual_iff a a).2 rfl
  | patch => exact fun _ => Iff.rfl
  | minor => exact fun _ h => h
  | major => trivial

theorem trans {m : Bump} {a b c : Sheet} (h : AtMost m a b) (h' : AtMost m b c) : AtMost m a c := by
  cases m with
  | none =>
    have hab := (structurallyEqual_iff a b).1 h
    have hbc := (structurallyEqual_iff b c).1 h'
    exact (structurallyEqual_iff a c).2 (hab.trans hbc)
  | patch => exact fun x => (h x).trans (h' x)
  | minor => exact fun x hx => h' x (h x hx)
  | major => trivial

/-- What holds of each step holds of the whole run. -/
theorem run {m : Bump} {n : Nat} {s : Nat → Sheet} (h : ∀ i < n, AtMost m (s i) (s (i + 1))) :
    AtMost m (s 0) (s n) := by
  induction n with
  | zero => exact refl m (s 0)
  | succ n ih =>
    have front : AtMost m (s 0) (s n) := ih fun i hi => h i (Nat.lt_succ_of_lt hi)
    exact front.trans (h n (Nat.lt_succ_self n))

end AtMost

end Sheet

namespace Report
variable {old changed : Sheet} {verbose : Bool}

theorem bump_le_iff (old changed : Sheet) (verbose : Bool) (m : Bump) :
    (between old changed verbose).bump ≤ m ↔ Sheet.AtMost m old changed := by
  have same : structurallyEqual old changed = true → ¬ old.Loses changed ∧ ¬ changed.Loses old :=
    fun h => ⟨(Sheet.not_loses_iff _ _).2 fun x => (Sheet.lists_congr h x).1,
      (Sheet.not_loses_iff _ _).2 fun x => (Sheet.lists_congr h x).2⟩
  -- For each bump `asks` says what holds of the two sheets, which leaves a table of four by four to check.
  have asks := (bump_eq_iff old changed verbose _).1 rfl
  generalize (between old changed verbose).bump = b at asks ⊢
  cases m with
  | none =>
    show b ≤ .none ↔ structurallyEqual old changed = true
    cases b <;> simp_all [Asks, Bump.le_def, Bump.rank]
  | patch =>
    have sets : Sheet.AtMost .patch old changed ↔ ¬ old.Loses changed ∧ ¬ changed.Loses old := by
      rw [Sheet.not_loses_iff, Sheet.not_loses_iff, ← forall_and]
      exact forall_congr' fun _ => iff_iff_implies_and_implies
    rw [sets]
    cases b <;> simp_all [Asks, Bump.le_def, Bump.rank]
  | minor =>
    rw [show Sheet.AtMost .minor old changed ↔ ¬ old.Loses changed from
      (Sheet.not_loses_iff old changed).symm]
    cases b <;> simp_all [Asks, Bump.le_def, Bump.rank]
  | major => exact iff_of_true (by cases b <;> decide) trivial

theorem bump_run_le (n : Nat) (s : Nat → Sheet) (verbose : Bool) :
    (between (s 0) (s n) verbose).bump ≤
      Bump.largest ((List.range n).map fun i => (between (s i) (s (i + 1)) verbose).bump) := by
  refine (bump_le_iff _ _ _ _).2 (Sheet.AtMost.run fun i hi => ?_)
  refine (bump_le_iff _ _ verbose _).1 (Bump.le_largest ?_)
  exact List.mem_map.2 ⟨i, List.mem_range.2 hi, rfl⟩

/-- On which side a text stands does not matter to how it is read. -/
theorem read_changed_of_read_old {t : Option String} {sheet : Sheet}
    (h : Sheet.read .old t = .ok sheet) : Sheet.read .changed t = .ok sheet :=
  Sheet.read_of_ok h .changed

/-- The total bump of a history is at most the largest bump of its steps. This holds of any sequence of
sheets, and of any sequence of texts that can all be read. -/
theorem total_bump_le_largest_step (n : Nat) (verbose : Bool) :
    (∀ s : Nat → Sheet,
      (between (s 0) (s n) verbose).bump ≤
        Bump.largest ((List.range n).map fun i => (between (s i) (s (i + 1)) verbose).bump)) ∧
    (∀ t : Nat → Option String, (∀ i ≤ n, ∃ sheet, Sheet.read .old (t i) = .ok sheet) →
      ∃ (total : Report) (steps : Nat → Report),
        predict (t 0) (t n) verbose = .ok total ∧
        (∀ i < n, predict (t i) (t (i + 1)) verbose = .ok (steps i)) ∧
        total.bump ≤ Bump.largest ((List.range n).map fun i => (steps i).bump)) := by
  refine ⟨fun s => bump_run_le n s verbose, fun t ht => ?_⟩
  choose! s hs using ht
  have predicted {i j : Nat} (hi : i ≤ n) (hj : j ≤ n) :
      predict (t i) (t j) verbose = .ok (between (s i) (s j) verbose) :=
    predict_of_read (hs i hi) (read_changed_of_read_old (hs j hj))
  refine ⟨_, fun i => between (s i) (s (i + 1)) verbose, predicted n.zero_le n.le_refl,
    fun i hi => predicted (Nat.le_of_lt hi) hi, bump_run_le n s verbose⟩

end Report

end StyleBump
