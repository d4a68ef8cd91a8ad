import StyleBump.Rule.Basic
import StyleBump.Keyed

/-! # The selectors of a sheet

A sheet defines the selectors that its top-level style rules list. A set of them is held in strictly
ascending order, so it is told by its members (`SelectorSet.ext_mem`); rules inside other rules add
nothing to it. -/

namespace StyleBump

/-- Selectors in ascending order, each once. -/
structure SelectorSet where
  entries : Keyed Unit

namespace SelectorSet

def empty : SelectorSet := ⟨.empty⟩

def insert (s : SelectorSet) (selector : String) : SelectorSet := ⟨s.entries.set selector ()⟩

/-- Takes a selector away. -/
def erase (s : SelectorSet) (selector : String) : SelectorSet := ⟨s.entries.erase selector⟩

def ofList (selectors : List String) : SelectorSet := selectors.foldl insert empty

/-- The selectors in ascending order. -/
def toList (s : SelectorSet) : List String := s.entries.keys

def contains (s : SelectorSet) (selector : String) : Bool := s.toList.contains selector

def size (s : SelectorSet) : Nat := s.toList.length

def isEmpty (s : SelectorSet) : Bool := s.toList.isEmpty

/-- The selectors of `s` that `t` lacks, in ascending order. -/
def difference (s t : SelectorSet) : List String := s.toList.filter fun x => !t.contains x

/-- Whether two sets hold the same selectors. -/
def same (s t : SelectorSet) : Bool := s.toList == t.toList

/-! ### Members -/

theorem toList_ascending (s : SelectorSet) : s.toList.Pairwise (· < ·) := Keyed.keys_ascending s.entries

theorem toList_nodup (s : SelectorSet) : s.toList.Nodup := s.toList_ascending.imp fun {x y} hlt => by
  rintro rfl
  exact String.lt_irrefl x hlt

theorem ext_mem {s t : SelectorSet} (h : ∀ x, x ∈ s.toList ↔ x ∈ t.toList) : s = t := by
  refine congrArg SelectorSet.mk (Keyed.ext_get? fun x => ?_)
  have hx : s.entries.get? x ≠ none ↔ t.entries.get? x ≠ none := by
    rw [← Keyed.mem_keys_iff, ← Keyed.mem_keys_iff]
    exact h x
  cases hs : s.entries.get? x <;> cases ht : t.entries.get? x <;> simp_all

theorem mem_insert (s : SelectorSet) (y x : String) : x ∈ (s.insert y).toList ↔ x = y ∨ x ∈ s.toList :=
  Keyed.mem_keys_set s.entries y x ()

theorem mem_foldl_insert (l : List String) (s : SelectorSet) (x : String) :
    x ∈ (l.foldl insert s).toList ↔ x ∈ l ∨ x ∈ s.toList := by
  induction l generalizing s with
  | nil => simp
  | cons y l ih => rw [List.foldl_cons, ih, mem_insert, List.mem_cons, or_left_comm, or_assoc]

theorem mem_ofList (l : List String) (x : String) : x ∈ (ofList l).toList ↔ x ∈ l := by
  rw [ofList, mem_foldl_insert]
  simp [empty, toList]

theorem mem_erase (s : SelectorSet) (y x : String) : x ∈ (s.erase y).toList ↔ x ≠ y ∧ x ∈ s.toList := by
  rw [toList, toList, erase, Keyed.mem_keys_iff, Keyed.mem_keys_iff, Keyed.get?_erase]
  by_cases hx : x = y <;> simp [hx]

theorem mem_foldl_erase (l : List String) (s : SelectorSet) (x : String) :
    x ∈ (l.foldl erase s).toList ↔ x ∉ l ∧ x ∈ s.toList := by
  induction l generalizing s with
  | nil => simp
  | cons y l ih => rw [List.foldl_cons, ih, mem_erase, List.mem_cons, not_or, and_left_comm, and_assoc]

theorem mem_difference (s t : SelectorSet) (x : String) :
    x ∈ s.difference t ↔ x ∈ s.toList ∧ x ∉ t.toList := by
  simp [difference, contains]

theorem difference_self (s : SelectorSet) : s.difference s = [] :=
  List.eq_nil_iff_forall_not_mem.2 fun x hx => by
    obtain ⟨h, hn⟩ := (mem_difference s s x).1 hx
    exact hn h

theorem difference_ascending (s t : SelectorSet) : (s.difference t).Pairwise (· < ·) :=
  s.toList_ascending.filter _

end SelectorSet

/-- The style rules at the top of a sheet. -/
def Sheet.styleRules (sheet : Sheet) : List Rule := sheet.filter (·.kind == .style)

/-- The selectors that a sheet defines. -/
def Sheet.selectorSet (sheet : Sheet) : SelectorSet :=
  .ofList (sheet.styleRules.flatMap fun r => r.selectors.getD [])

end StyleBump
