import Mathlib.Data.List.Sort
import StyleBump.Proofs.Notices
import StyleBump.Proofs.Sides

/-! # Reports the other way round

The report on two sheets says what the report on them in the other order is (`Report.mirror`): what was
added is removed, what was removed is added, and changes lead back. Only for a major bump the notices are
needed: it stays major if something was added as well. The two runs walk over different sets, the selectors
of either sheet, but in ascending order; so they meet the shared selectors in the same order
(`Notice.edited_comm`), and likewise the properties of one selector. -/

namespace StyleBump

/-- The change that leads back. -/
def PropertyChange.mirror (c : PropertyChange) : PropertyChange := ⟨c.property, c.new, c.old⟩

namespace Settings

theorem properties_comm (before after : Settings) :
    (properties before after).keys = (properties after before).keys := by
  refine (Keyed.keys_ascending _).eq_of_mem_iff (Keyed.keys_ascending _) fun p => ?_
  rw [mem_properties, mem_properties, or_comm]

theorem changes_mirror (before after : Settings) :
    changes after before = (changes before after).map PropertyChange.mirror := by
  have hdiffer : (fun p => decide (after.get? p ≠ before.get? p)) = fun p => decide (before.get? p ≠ after.get? p) := by
    funext p
    exact decide_eq_decide.2 ne_comm
  rw [changes_eq, changes_eq, properties_comm, hdiffer, List.map_map]
  rfl

end Settings

/-- The bump the other way round, where it is known whether something was added. -/
def Bump.mirror (anyAdded : Bool) : Bump → Bump
  | .none => .none
  | .patch => .patch
  | .minor => .major
  | .major => if anyAdded then .major else .minor

namespace SelectorDiff

def mirror (d : SelectorDiff) : SelectorDiff := ⟨d.added, d.removed⟩

theorem classify_mirror (d : SelectorDiff) : d.mirror.classify = d.classify.mirror (!d.added.isEmpty) := by
  obtain ⟨removed, added⟩ := d
  cases removed <;> cases added <;> rfl

end SelectorDiff

namespace Notice

def isAdded : Notice → Bool
  | added _ => true
  | _ => false

def isRemoved : Notice → Bool
  | removed _ => true
  | _ => false

def isChanged : Notice → Bool
  | changed _ _ => true
  | _ => false

/-- The notice of the same selector the other way round. -/
def mirror : Notice → Notice
  | added s => removed s
  | removed s => added s
  | changed s cs => changed s (cs.map PropertyChange.mirror)

/-- The notices the other way round: what was removed, what was added, what was changed, each part in its
order. -/
def mirrorAll (ns : List Notice) : List Notice :=
  (ns.filter isRemoved).map mirror ++ (ns.filter isAdded).map mirror ++ (ns.filter isChanged).map mirror

section
variable (plus minus edits : List String) (cs : String → List PropertyChange)

/-- Notices in the order in which they are collected. -/
def inParts : List Notice := plus.map added ++ minus.map removed ++ edits.map fun x => changed x (cs x)

theorem filter_isAdded_inParts : (inParts plus minus edits cs).filter isAdded = plus.map added := by
  simp [inParts, List.filter_map, Function.comp_def, isAdded]

theorem any_isAdded_inParts : (inParts plus minus edits cs).any isAdded = !plus.isEmpty := by
  cases plus <;> simp [inParts, isAdded]

theorem filter_isRemoved_inParts : (inParts plus minus edits cs).filter isRemoved = minus.map removed := by
  simp [inParts, List.filter_map, Function.comp_def, isRemoved]

theorem filter_isChanged_inParts :
    (inParts plus minus edits cs).filter isChanged = edits.map fun x => changed x (cs x) := by
  simp [inParts, List.filter_map, Function.comp_def, isChanged]

theorem mirrorAll_inParts :
    mirrorAll (inParts plus minus edits cs) = inParts minus plus edits fun x => (cs x).map PropertyChange.mirror := by
  rw [mirrorAll, filter_isAdded_inParts, filter_isRemoved_inParts, filter_isChanged_inParts, List.map_map, List.map_map,
    List.map_map]
  rfl

end

variable (old new : Sheet)

/-- The selectors that both sheets list and set differently are met in the same order on either side. -/
theorem edited_comm : edited old new = edited new old := by
  have hascending (a b : Sheet) : (edited a b).Pairwise (· < ·) :=
    ((Keyed.keys_ascending _).filter _).filter _
  refine (hascending old new).eq_of_mem_iff (hascending new old) fun x => ?_
  rw [mem_edited, mem_edited, ne_comm, and_left_comm]

theorem collect_eq_inParts :
    collect old new (.between old.selectorSet new.selectorSet) =
      inParts (new.selectorSet.difference old.selectorSet) (old.selectorSet.difference new.selectorSet)
        (edited old new) fun x => Settings.changes (old.settingsFor x) (new.settingsFor x) :=
  collect_eq old new

/-- The notices on two sheets and those the other way round have the same parts. -/
theorem collect_parts :
    ∃ edits : List (String × List PropertyChange),
      collect old new (.between old.selectorSet new.selectorSet) =
        (new.selectorSet.difference old.selectorSet).map added ++
          (old.selectorSet.difference new.selectorSet).map removed ++ edits.map (fun e => changed e.1 e.2) ∧
      collect new old (.between new.selectorSet old.selectorSet) =
        (old.selectorSet.difference new.selectorSet).map added ++
          (new.selectorSet.difference old.selectorSet).map removed ++
          edits.map fun e => changed e.1 (e.2.map PropertyChange.mirror) := by
  refine ⟨(edited old new).map fun x => (x, Settings.changes (old.settingsFor x) (new.settingsFor x)), ?_, ?_⟩
  · rw [collect_eq_inParts, List.map_map]
    rfl
  · rw [collect_eq_inParts, edited_comm new old, List.map_map]
    simp only [Settings.changes_mirror (Sheet.settingsFor old _)]
    rfl

theorem collect_mirror :
    collect new old (.between new.selectorSet old.selectorSet) =
      mirrorAll (collect old new (.between old.selectorSet new.selectorSet)) := by
  rw [collect_eq_inParts, collect_eq_inParts, mirrorAll_inParts, edited_comm]
  congr 1
  funext x
  exact Settings.changes_mirror _ _

end Notice

namespace Report

/-- The report the other way round. -/
def mirror (r : Report) : Report where
  bump := r.bump.mirror (r.notices.any Notice.isAdded)
  notices := Notice.mirrorAll r.notices

variable (a b : Sheet)

/-- A selector that was added has a notice, and no other selector has such a notice. -/
theorem any_isAdded_between :
    (between a b true).notices.any Notice.isAdded =
      !(SelectorDiff.between a.selectorSet b.selectorSet).added.isEmpty := by
  cases h : structurallyEqual a b with
  | true =>
    rw [between_of_equal h, diff_of_equal h]
    rfl
  | false =>
    have hnotices : (between a b true).notices = Notice.collect a b (.between a.selectorSet b.selectorSet) := by
      simp [between, h]
    rw [hnotices, Notice.collect_eq_inParts, Notice.any_isAdded_inParts]
    rfl

theorem bump_mirror (verbose : Bool) :
    (between b a verbose).bump =
      (between a b verbose).bump.mirror (!(SelectorDiff.between a.selectorSet b.selectorSet).added.isEmpty) := by
  cases h : structurallyEqual a b with
  | true =>
    rw [between_of_equal h, between_of_equal ((structurallyEqual_comm b a).trans h)]
    rfl
  | false =>
    rw [bump_of_different h, bump_of_different ((structurallyEqual_comm b a).trans h), ← SelectorDiff.classify_mirror]
    rfl

theorem notices_mirror (verbose : Bool) :
    (between b a verbose).notices = Notice.mirrorAll (between a b verbose).notices := by
  unfold between
  rw [structurallyEqual_comm b a]
  split
  · rfl
  cases verbose with
  | false => rfl
  | true => exact Notice.collect_mirror a b

theorem between_mirror : between b a true = (between a b true).mirror := by
  have hbump := bump_mirror a b true
  have hnotices := notices_mirror a b true
  rw [← any_isAdded_between] at hbump
  cases hb : between b a true with
  | mk bump notices =>
    rw [hb] at hbump hnotices
    rw [mirror, ← hbump, ← hnotices]

/-- The report on two sheets the other way round is the mirror of the report on them, and its mirror is that
report again. What is removed on the one way is added on the other, and changes lead back, each part of the
notices in the same order. No change and a patch stay, a minor bump becomes major, and a major one stays only if
something was added. The same holds of the reports on texts. -/
theorem report_mirror :
    between b a true = (between a b true).mirror ∧
    (between a b true).mirror.mirror = between a b true ∧
    SelectorDiff.between b.selectorSet a.selectorSet = (SelectorDiff.between a.selectorSet b.selectorSet).mirror ∧
    (∃ edits : List (String × List PropertyChange),
      Notice.collect a b (.between a.selectorSet b.selectorSet) =
        (b.selectorSet.difference a.selectorSet).map .added ++ (a.selectorSet.difference b.selectorSet).map .removed ++
          edits.map (fun e => .changed e.1 e.2) ∧
      Notice.collect b a (.between b.selectorSet a.selectorSet) =
        (a.selectorSet.difference b.selectorSet).map .added ++ (b.selectorSet.difference a.selectorSet).map .removed ++
          edits.map fun e => .changed e.1 (e.2.map PropertyChange.mirror)) ∧
    (∀ verbose, (between b a verbose).bump =
      (between a b verbose).bump.mirror (!(SelectorDiff.between a.selectorSet b.selectorSet).added.isEmpty)) ∧
    ∀ (t u : Option String) (w : Printer), Sheet.read .old t w = .ok a → Sheet.read .changed u w = .ok b →
      predict t u true w = .ok (between a b true) ∧ predict u t true w = .ok (between a b true).mirror := by
  refine ⟨between_mirror a b, ?again, rfl, Notice.collect_parts a b, bump_mirror a b, fun t u w ht hu => ?texts⟩
  case again => rw [← between_mirror a b, ← between_mirror b a]
  case texts =>
    have hswapped : predict u t true w = .ok (between b a true) :=
      predict_of_read (Sheet.read_of_ok hu .old) (Sheet.read_of_ok ht .changed)
    exact ⟨predict_of_read ht hu, hswapped.trans (congrArg Except.ok (between_mirror a b))⟩

end Report

end StyleBump
