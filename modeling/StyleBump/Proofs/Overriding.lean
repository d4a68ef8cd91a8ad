import Mathlib.Data.List.Sort
import StyleBump.Proofs.Regrouping

/-! # Settings of a sheet in two parts

The settings of a sheet are kept for the selectors of its selector set and for no other (`keys_settings`), also
for those whose rules declare nothing. So whoever goes through the set finds settings for each selector, and what
is taken for missing ones does not matter (`Notice.collectOr_eq`). A sheet in two parts has the settings of the
first part with those of the second over them (`get?_settings_append`). -/

namespace StyleBump

namespace Settings

/-- Settings with others over them. -/
def override (m upper : Settings) : Settings := upper.entries.foldl (fun m e => m.set e.1 e.2) m

/-- Each property is set as the upper settings say, or else as the lower ones do. -/
theorem get?_override (m upper : Settings) (p : String) : (m.override upper).get? p = (upper.get? p).or (m.get? p) := by
  obtain ⟨l, h⟩ := upper
  show (l.foldl (fun m e => m.set e.1 e.2) m).get? p = (l.lookup p).or (m.get? p)
  induction l generalizing m with
  | nil => rfl
  | cons e rest ih =>
    obtain ⟨k, v⟩ := e
    obtain ⟨hlt, hrest⟩ := List.pairwise_cons.1 h
    rw [List.foldl_cons, ih _ hrest, Keyed.lookup_cons, Keyed.get?_set]
    by_cases hp : p = k
    · subst hp
      have hnone : rest.lookup p = none := Keyed.lookup_eq_none_of_lt hlt
      simp [hnone]
    · simp [hp]

/-- Settings that there are if one of two others is there, and that say what the second of these says, or else
the first. -/
theorem eq_merge {whole front back : Option Settings} (h : whole.isSome ↔ front.isSome ∨ back.isSome)
    (hvalues : ∀ p, (whole.getD .empty).get? p = ((back.getD .empty).get? p).or ((front.getD .empty).get? p)) :
    whole = Option.merge override front back := by
  cases whole with
  | none =>
    obtain ⟨hfront, hback⟩ := not_or.1 (mt h.2 Bool.false_ne_true)
    rw [Option.not_isSome_iff_eq_none.1 hfront, Option.not_isSome_iff_eq_none.1 hback]
    rfl
  | some whole =>
    cases front with
    | none =>
      cases back with
      | none => simp at h
      | some back => exact congrArg some (Keyed.ext_get? fun p => by simpa using hvalues p)
    | some front =>
      cases back with
      | none => exact congrArg some (Keyed.ext_get? fun p => by simpa using hvalues p)
      | some back => exact congrArg some (Keyed.ext_get? fun p => (hvalues p).trans (get?_override front back p).symm)

end Settings

namespace Sheet

theorem mem_keys_addRule (m : Keyed Settings) (r : Rule) (x : String) :
    x ∈ (addRule m r).keys ↔ x ∈ r.selectors.getD [] ∨ x ∈ m.keys := by
  rw [addRule]
  induction r.selectors.getD [] generalizing m with
  | nil => simp
  | cons s selectors ih => rw [List.foldl_cons, ih, Keyed.mem_keys_update, List.mem_cons, or_left_comm, or_assoc]

theorem mem_keys_settings (sheet : Sheet) (x : String) : x ∈ sheet.settings.keys ↔ sheet.Lists x := by
  have run (rs : List Rule) (m : Keyed Settings) :
      x ∈ (rs.foldl addRule m).keys ↔ x ∈ rs.flatMap (fun r => r.selectors.getD []) ∨ x ∈ m.keys := by
    induction rs generalizing m with
    | nil => simp
    | cons r rs ih => rw [List.foldl_cons, ih, mem_keys_addRule, List.flatMap_cons, List.mem_append, or_left_comm, or_assoc]
  rw [settings_eq_foldl, run, ← mem_selectorSet, selectorSet, SelectorSet.mem_ofList]
  simp

/-- There are settings for the selectors of the sheet, and in the same order. -/
theorem keys_settings (sheet : Sheet) : sheet.settings.keys = sheet.selectorSet.toList := by
  refine (Keyed.keys_ascending _).eq_of_mem_iff (Keyed.keys_ascending _) fun x => ?_
  exact (mem_keys_settings sheet x).trans (mem_selectorSet sheet x).symm

example : (settings [⟨.style, some ["a"], none, none, [], none⟩, ⟨.media, some ["b"], none, some [], [], none⟩]).keys =
    ["a"] := by decide

theorem get?_settings_isSome_iff (sheet : Sheet) (x : String) :
    (sheet.settings.get? x).isSome ↔ x ∈ sheet.selectorSet.toList := by
  rw [← keys_settings, Keyed.mem_keys_iff, Option.isSome_iff_ne_none]

theorem get?_settingsFor_append (front back : Sheet) (x p : String) :
    (settingsFor (front ++ back) x).get? p = ((back.settingsFor x).get? p).or ((front.settingsFor x).get? p) := by
  rw [get?_settingsFor, get?_settingsFor, get?_settingsFor, declarationsFor_append, lastValue?_append]

/-- The settings of a sheet in two parts. -/
theorem get?_settings_append (front back : Sheet) (x : String) :
    (settings (front ++ back)).get? x = Option.merge .override (front.settings.get? x) (back.settings.get? x) := by
  refine Settings.eq_merge ?_ (get?_settingsFor_append front back x)
  simp only [get?_settings_isSome_iff, mem_selectorSet, lists_append]

end Sheet

namespace Notice

/-- It does not matter what missing settings are taken for. -/
theorem collectOr_eq (missing : Settings) (old changed : Sheet) (diff : SelectorDiff) :
    collectOr missing old changed diff = collect old changed diff := by
  have found {sheet : Sheet} {x : String} (hx : x ∈ sheet.selectorSet.toList) (m m' : Settings) :
      (sheet.settings.get? x).getD m = (sheet.settings.get? x).getD m' := by
    obtain ⟨n, hn⟩ := Option.isSome_iff_exists.1 ((Sheet.get?_settings_isSome_iff sheet x).2 hx)
    rw [hn]
    rfl
  rw [collect, collectOr, collectOr]
  congr 1
  refine List.filterMap_congr fun x hx => ?_
  obtain ⟨hold, hchanged⟩ := List.mem_filter.1 hx
  rw [found hold missing .empty, found (List.contains_iff_mem.1 hchanged) missing .empty]

end Notice

namespace Sheet

/-- The settings of a sheet are those of the selectors in its set, in the same order, whatever its rules carry or
lack. So settings are found for each selector that both of two sheets have, and the notices are the same whatever
is put in the place of missing ones. The settings of a selector in a sheet of two parts are those in the first
part, overridden property by property by those in the second. -/
theorem settings_agree_with_selectors :
    (∀ sheet : Sheet, sheet.settings.keys = sheet.selectorSet.toList ∧
      ∀ x, (sheet.settings.get? x).isSome ↔ x ∈ sheet.selectorSet.toList) ∧
    (∀ (missing : Settings) (old changed : Sheet) (diff : SelectorDiff),
      Notice.collectOr missing old changed diff = Notice.collect old changed diff) ∧
    (∀ (front back : Sheet) (x : String),
      (settings (front ++ back)).get? x = Option.merge .override (front.settings.get? x) (back.settings.get? x)) ∧
    ∀ (m upper : Settings) (p : String), (m.override upper).get? p = (upper.get? p).or (m.get? p) :=
  ⟨fun sheet => ⟨keys_settings sheet, get?_settings_isSome_iff sheet⟩, Notice.collectOr_eq, get?_settings_append,
    Settings.get?_override⟩

end Sheet

end StyleBump
