import Mathlib.Tactic.ByContra
import StyleBump.Proofs.Settings

/-! # Notices are exact

The changes between two settings are the properties on which they differ, each once and in ascending
order, and replaying them turns the old settings into the new ones (`turns_changes`). The notices for two
sheets name every selector that came, went or is set differently, and no other (`collect_exact`). -/

namespace StyleBump

namespace Settings

/-- A change made to settings. -/
def amend (m : Settings) (c : PropertyChange) : Settings :=
  match c.new with
  | some v => m.set c.property v
  | none => m.erase c.property

/-- Changes made to settings, one after the other. -/
def replay (m : Settings) (cs : List PropertyChange) : Settings := cs.foldl amend m

/-- The changes that turn settings into others. -/
structure Turns (before after : Settings) (cs : List PropertyChange) : Prop where
  ascending : (cs.map (·.property)).Pairwise (· < ·)
  differ : ∀ p, p ∈ cs.map (·.property) ↔ before.get? p ≠ after.get? p
  sides : ∀ c ∈ cs, c.old = before.get? c.property ∧ c.new = after.get? c.property
  replayed : replay before cs = after

theorem get?_amend (m : Settings) (c : PropertyChange) (p : String) :
    (amend m c).get? p = if p = c.property then c.new else m.get? p := by
  unfold amend
  cases hc : c.new with
  | some v => exact Keyed.get?_set m c.property p v
  | none => exact Keyed.get?_erase m c.property p

/-- Changes to the values that `after` has set what they name to that value, and nothing else. -/
theorem get?_replay {after : Settings} {cs : List PropertyChange} (h : ∀ c ∈ cs, c.new = after.get? c.property)
    (m : Settings) (p : String) :
    (replay m cs).get? p = if p ∈ cs.map (·.property) then after.get? p else m.get? p := by
  induction cs generalizing m with
  | nil => rfl
  | cons c cs ih =>
    obtain ⟨hc, hcs⟩ := List.forall_mem_cons.1 h
    have hstep : replay m (c :: cs) = replay (amend m c) cs := rfl
    rw [hstep, ih hcs, get?_amend]
    by_cases hp : p = c.property
    · subst hp
      simp [hc]
    · simp [hp]

/-- The properties that one of two settings has, in ascending order. -/
def properties (before after : Settings) : Keyed Unit :=
  (before.keys ++ after.keys).foldl (fun s p => Keyed.set s p ()) .empty

theorem mem_properties (before after : Settings) (p : String) :
    p ∈ (properties before after).keys ↔ before.get? p ≠ none ∨ after.get? p ≠ none := by
  rw [properties, Keyed.mem_keys_foldl_set, List.mem_append, Keyed.mem_keys_iff, Keyed.mem_keys_iff]
  simp

theorem changes_eq (before after : Settings) :
    changes before after =
      ((properties before after).keys.filter fun p => before.get? p ≠ after.get? p).map
        fun p => ⟨p, before.get? p, after.get? p⟩ := by
  show (properties before after).keys.filterMap (fun p =>
    if before.get? p = after.get? p then none else some (⟨p, before.get? p, after.get? p⟩ : PropertyChange)) = _
  induction (properties before after).keys with
  | nil => rfl
  | cons p ps ih =>
    rw [List.filterMap_cons, ih]
    by_cases hp : before.get? p = after.get? p
    · rw [List.filter_cons_of_neg (by simp [hp]), if_pos hp]
    · rw [List.filter_cons_of_pos (by simp [hp]), if_neg hp, List.map_cons]

theorem map_property_changes (before after : Settings) :
    (changes before after).map (·.property) =
      (properties before after).keys.filter fun p => before.get? p ≠ after.get? p := by
  rw [changes_eq, List.map_map]
  exact List.map_id _

theorem mem_property_changes (before after : Settings) (p : String) :
    p ∈ (changes before after).map (·.property) ↔ before.get? p ≠ after.get? p := by
  rw [map_property_changes, List.mem_filter, mem_properties, decide_eq_true_eq]
  refine and_iff_right_of_imp fun hne => ?_
  by_contra hnone
  obtain ⟨hb, ha⟩ := not_or.1 hnone
  exact hne ((not_not.1 hb).trans (not_not.1 ha).symm)

theorem turns_changes (before after : Settings) : Turns before after (changes before after) := by
  have hsides : ∀ c ∈ changes before after, c.old = before.get? c.property ∧ c.new = after.get? c.property := by
    intro c hc
    rw [changes_eq] at hc
    obtain ⟨p, -, rfl⟩ := List.mem_map.1 hc
    exact ⟨rfl, rfl⟩
  refine ⟨?_, mem_property_changes before after, hsides, Keyed.ext_get? fun p => ?_⟩
  · rw [map_property_changes]
    exact (Keyed.keys_ascending _).filter _
  · rw [get?_replay fun c hc => (hsides c hc).2]
    by_cases hp : before.get? p = after.get? p
    · rw [if_neg fun hmem => (mem_property_changes before after p).1 hmem hp, hp]
    · rw [if_pos ((mem_property_changes before after p).2 hp)]

theorem changes_eq_nil_iff (before after : Settings) : changes before after = [] ↔ before = after := by
  constructor
  · intro h
    refine Keyed.ext_get? fun p => ?_
    by_contra hp
    have hmem := (mem_property_changes before after p).2 hp
    rw [h] at hmem
    cases hmem
  · rintro rfl
    refine List.eq_nil_iff_forall_not_mem.2 fun c hc => ?_
    exact (mem_property_changes before before c.property).1 (List.mem_map.2 ⟨c, hc, rfl⟩) rfl

end Settings

namespace Notice
variable (old changed : Sheet)

/-- The selectors on both sides that are set differently. -/
def edited : List String :=
  (old.selectorSet.toList.filter changed.selectorSet.contains).filter
    fun x => !(Settings.changes (old.settingsFor x) (changed.settingsFor x)).isEmpty

theorem mem_edited (x : String) :
    x ∈ edited old changed ↔ old.Lists x ∧ changed.Lists x ∧ old.settingsFor x ≠ changed.settingsFor x := by
  rw [edited, List.mem_filter, List.mem_filter, Sheet.mem_selectorSet, SelectorSet.contains, List.contains_iff_mem,
    Sheet.mem_selectorSet, Bool.not_eq_true', List.isEmpty_eq_false_iff, Ne, Settings.changes_eq_nil_iff, and_assoc]

theorem collect_eq :
    collect old changed (.between old.selectorSet changed.selectorSet) =
      (changed.selectorSet.difference old.selectorSet).map added ++
        (old.selectorSet.difference changed.selectorSet).map removed ++
        (edited old changed).map fun x =>
          Notice.changed x (Settings.changes (old.settingsFor x) (changed.settingsFor x)) := by
  rw [collect, collectOr, edited]
  congr 1
  induction old.selectorSet.toList.filter changed.selectorSet.contains with
  | nil => rfl
  | cons x xs ih =>
    cases hx : (Settings.changes (old.settingsFor x) (changed.settingsFor x)).isEmpty with
    | true =>
      rw [List.filter_cons_of_neg (by simp [hx]), ← ih]
      exact List.filterMap_cons_none (if_pos hx)
    | false =>
      rw [List.filter_cons_of_pos (by simp [hx]), List.map_cons, ← ih]
      exact List.filterMap_cons_some (if_neg (Bool.eq_false_iff.1 hx))

/-- The notices are the selectors that only the new sheet lists, then those that only the old one lists,
then those that both list and set differently, each part in ascending order. A notice of the last kind has
the changes that turn the old settings of its selector into the new ones. The settings of a selector are
what the last declaration of each property says, among those that the sheet gives the selector. -/
theorem collect_exact :
    ∃ plus minus : List String, ∃ edits : List (String × List PropertyChange),
      collect old changed (.between old.selectorSet changed.selectorSet) =
        plus.map added ++ minus.map removed ++ edits.map (fun e => Notice.changed e.1 e.2) ∧
      (plus.Pairwise (· < ·) ∧ ∀ x, x ∈ plus ↔ changed.Lists x ∧ ¬ old.Lists x) ∧
      (minus.Pairwise (· < ·) ∧ ∀ x, x ∈ minus ↔ old.Lists x ∧ ¬ changed.Lists x) ∧
      ((edits.map (·.1)).Pairwise (· < ·) ∧ ∀ x, x ∈ edits.map (·.1) ↔
        old.Lists x ∧ changed.Lists x ∧ old.settingsFor x ≠ changed.settingsFor x) ∧
      (∀ e ∈ edits, e.2 ≠ [] ∧ Settings.Turns (old.settingsFor e.1) (changed.settingsFor e.1) e.2) ∧
      ∀ sheet : Sheet, ∀ x p, (sheet.settingsFor x).get? p = lastValue? (sheet.declarationsFor x) p := by
  have hkeys : ((edited old changed).map fun x =>
      (x, Settings.changes (old.settingsFor x) (changed.settingsFor x))).map (·.1) = edited old changed := by
    rw [List.map_map]
    exact List.map_id _
  refine ⟨changed.selectorSet.difference old.selectorSet, old.selectorSet.difference changed.selectorSet,
    (edited old changed).map fun x => (x, Settings.changes (old.settingsFor x) (changed.settingsFor x)),
    ?notices, ?plus, ?minus, ?edits, ?changes, Sheet.get?_settingsFor⟩
  case notices =>
    rw [collect_eq, List.map_map]
    rfl
  case plus =>
    refine ⟨SelectorSet.difference_ascending _ _, fun x => ?_⟩
    rw [SelectorSet.mem_difference, Sheet.mem_selectorSet, Sheet.mem_selectorSet]
  case minus =>
    refine ⟨SelectorSet.difference_ascending _ _, fun x => ?_⟩
    rw [SelectorSet.mem_difference, Sheet.mem_selectorSet, Sheet.mem_selectorSet]
  case edits =>
    rw [hkeys]
    exact ⟨((Keyed.keys_ascending _).filter _).filter _, mem_edited old changed⟩
  case changes =>
    intro e he
    obtain ⟨x, hx, rfl⟩ := List.mem_map.1 he
    have hdiffer := ((mem_edited old changed x).1 hx).2.2
    exact ⟨mt (Settings.changes_eq_nil_iff _ _).1 hdiffer, Settings.turns_changes _ _⟩

end Notice

end StyleBump
