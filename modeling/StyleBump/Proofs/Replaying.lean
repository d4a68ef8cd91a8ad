import Mathlib.Data.List.Sort
import StyleBump.Proofs.ByteOrder
import StyleBump.Proofs.Notices

/-! # What a diff of selectors says

A set of selectors is told by its members, so it does not matter how a sheet groups them or how often it lists
one. The diff between two sets holds what only one of them has, and this is enough to
get from the one to the other: `SelectorDiff.applyTo` takes away what was removed and puts in what was added. -/

namespace StyleBump
open Text

namespace SelectorSet

/-- What two sets share is met in the same order in both. -/
theorem shared_comm (s t : SelectorSet) : s.toList.filter t.contains = t.toList.filter s.contains := by
  refine (s.toList_ascending.filter _).eq_of_mem_iff (t.toList_ascending.filter _) fun x => ?_
  simp [contains, and_comm]

/-- A set has what it shares with another and what the other lacks. -/
theorem size_eq (s t : SelectorSet) : s.size = (s.toList.filter t.contains).length + (s.difference t).length :=
  List.length_eq_length_filter_add _

/-- Ascending selectors are ascending in their bytes. -/
theorem pairwise_utf8 {l : List String} (h : l.Pairwise (· < ·)) : l.Pairwise fun x y => utf8 x < utf8 y :=
  h.imp fun {x y} => (lt_iff_utf8_lt x y).1

end SelectorSet

namespace SelectorDiff

/-- The set that a diff leads to. -/
def applyTo (d : SelectorDiff) (s : SelectorSet) : SelectorSet :=
  d.added.foldl .insert (d.removed.foldl .erase s)

/-- What a diff between two sets has to be. -/
structure Exact (d : SelectorDiff) (old changed : SelectorSet) : Prop where
  removed_ascending : d.removed.Pairwise fun x y => utf8 x < utf8 y
  added_ascending : d.added.Pairwise fun x y => utf8 x < utf8 y
  disjoint : ∀ x ∈ d.removed, x ∉ d.added
  removed : ∀ x ∈ d.removed, x ∈ old.toList ∧ x ∉ changed.toList
  added : ∀ x ∈ d.added, x ∈ changed.toList ∧ x ∉ old.toList
  replayed : d.applyTo old = changed
  counted : old.size + d.added.length = changed.size + d.removed.length

theorem exact_between (old changed : SelectorSet) : (between old changed).Exact old changed where
  removed_ascending := SelectorSet.pairwise_utf8 (SelectorSet.difference_ascending old changed)
  added_ascending := SelectorSet.pairwise_utf8 (SelectorSet.difference_ascending changed old)
  disjoint x hr ha := ((SelectorSet.mem_difference _ _ _).1 ha).2 ((SelectorSet.mem_difference _ _ _).1 hr).1
  removed x hx := (SelectorSet.mem_difference old changed x).1 hx
  added x hx := (SelectorSet.mem_difference changed old x).1 hx
  replayed := by
    refine SelectorSet.ext_mem fun x => ?_
    rw [applyTo, SelectorSet.mem_foldl_insert, SelectorSet.mem_foldl_erase]
    simp only [between, SelectorSet.mem_difference]
    by_cases ho : x ∈ old.toList <;> by_cases hc : x ∈ changed.toList <;> simp [ho, hc]
  counted := by
    have hold := old.size_eq changed
    have hchanged := changed.size_eq old
    rw [old.shared_comm changed] at hold
    simp only [between]
    omega

/-- The selector set of a sheet holds what its top-level style rules list and nothing else, each selector once
and in the order of the bytes, so sheets whose rules list the same have equal sets. The diff between two sets has
what only the old one holds and what only the new one holds, in the same order; replayed on the old set it gives
the new one, and the sizes add up. -/
theorem selectors_canonical_and_replayed :
    (∀ sheet : Sheet,
      (sheet.selectorSet.toList.Pairwise fun x y => utf8 x < utf8 y) ∧ sheet.selectorSet.toList.Nodup ∧
      ∀ x, x ∈ sheet.selectorSet.toList ↔
        ∃ r ∈ sheet, r.kind = .style ∧ ∃ ss, r.selectors = some ss ∧ x ∈ ss) ∧
    (∀ a b : Sheet, (∀ x, a.Lists x ↔ b.Lists x) → a.selectorSet = b.selectorSet) ∧
    ∀ old changed : SelectorSet, (between old changed).Exact old changed := by
  refine ⟨fun sheet => ⟨?ascending, ?once, Sheet.mem_selectorSet sheet⟩, fun a b h => ?same, exact_between⟩
  case ascending => exact SelectorSet.pairwise_utf8 sheet.selectorSet.toList_ascending
  case once => exact sheet.selectorSet.toList_nodup
  case same =>
    refine SelectorSet.ext_mem fun x => ?_
    rw [Sheet.mem_selectorSet, Sheet.mem_selectorSet, h]

end SelectorDiff

end StyleBump
