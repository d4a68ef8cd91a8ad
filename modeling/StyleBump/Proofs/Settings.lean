import StyleBump.Proofs.Selectors

/-! # What a sheet sets for a selector

The settings of a sheet are built rule by rule and selector by selector. What they come to for one
selector is described without them: the style rules at the top of the sheet that list the selector give
it declarations, and the last declaration of a property says what the property is set to
(`get?_settingsFor`). -/

namespace StyleBump

/-- What the last declaration of a property sets it to. -/
def lastValue? (ds : List Declaration) (property : String) : Option String :=
  ((ds.filter (·.property = property)).getLast?).map (·.effectiveValue)

theorem lastValue?_append (ds es : List Declaration) (p : String) :
    lastValue? (ds ++ es) p = (lastValue? es p).or (lastValue? ds p) := by
  rw [lastValue?, lastValue?, lastValue?, List.filter_append, List.getLast?_append]
  cases (es.filter (·.property = p)).getLast? <;> rfl

theorem lastValue?_singleton (d : Declaration) (p : String) :
    lastValue? [d] p = if p = d.property then some d.effectiveValue else none := by
  by_cases hp : p = d.property
  · simp [lastValue?, hp]
  · simp [lastValue?, hp, Ne.symm hp]

namespace Settings

theorem get?_apply (m : Settings) (ds : List Declaration) (p : String) :
    (m.apply ds).get? p = (lastValue? ds p).or (m.get? p) := by
  induction ds generalizing m with
  | nil => rfl
  | cons d ds ih =>
    have hstep : m.apply (d :: ds) = Settings.apply (m.set d.property d.effectiveValue) ds := rfl
    have hcons : lastValue? (d :: ds) p = (lastValue? ds p).or (lastValue? [d] p) := lastValue?_append [d] ds p
    rw [hstep, ih, hcons, lastValue?_singleton, Keyed.get?_set]
    by_cases hp : p = d.property <;> simp [hp]

end Settings

namespace Sheet

/-- The declarations that a rule gives a selector. -/
def givenBy (x : String) (r : Rule) : List Declaration :=
  if r.kind = .style ∧ x ∈ r.selectors.getD [] then r.declarations.getD [] else []

/-- The declarations that a sheet gives a selector: those of the style rules at its top that list it. -/
def declarationsFor (sheet : Sheet) (x : String) : List Declaration := sheet.flatMap (givenBy x)

/-- The settings of a selector, empty if the sheet does not list it. -/
def settingsFor (sheet : Sheet) (x : String) : Settings := (sheet.settings.get? x).getD .empty

/-- The settings by selector with the declarations of one more rule. -/
def addRule (m : Keyed Settings) (r : Rule) : Keyed Settings :=
  (r.selectors.getD []).foldl (fun m s =>
    m.update s fun old => Settings.apply (old.getD .empty) (r.declarations.getD [])) m

theorem settings_eq_foldl (sheet : Sheet) : sheet.settings = sheet.styleRules.foldl addRule .empty := rfl

/-- A selector that is listed more than once is given the same declarations again, which changes nothing. -/
theorem get?_foldl_update (selectors : List String) (ds : List Declaration) (m : Keyed Settings) (x p : String) :
    (((selectors.foldl (fun m s => m.update s fun old => Settings.apply (old.getD .empty) ds) m).get? x).getD
        .empty).get? p =
      (lastValue? (if x ∈ selectors then ds else []) p).or (((m.get? x).getD .empty).get? p) := by
  induction selectors generalizing m with
  | nil => simp [lastValue?]
  | cons s selectors ih =>
    rw [List.foldl_cons, ih, Keyed.get?_update]
    by_cases hs : x = s
    · subst hs
      rw [if_pos rfl, if_pos List.mem_cons_self, Option.getD_some, Settings.get?_apply]
      by_cases hx : x ∈ selectors
      · rw [if_pos hx]
        cases lastValue? ds p <;> rfl
      · rw [if_neg hx]
        rfl
    · simp [hs]

theorem get?_addRule (m : Keyed Settings) {r : Rule} (hr : r.kind = .style) (x p : String) :
    (((addRule m r).get? x).getD .empty).get? p =
      (lastValue? (givenBy x r) p).or (((m.get? x).getD .empty).get? p) := by
  rw [addRule, get?_foldl_update, givenBy]
  by_cases hx : x ∈ r.selectors.getD [] <;> simp [hx, hr]

theorem flatMap_styleRules (sheet : Sheet) (x : String) :
    sheet.styleRules.flatMap (givenBy x) = sheet.declarationsFor x := by
  rw [styleRules, declarationsFor]
  induction sheet with
  | nil => rfl
  | cons r rest ih =>
    by_cases hr : r.kind = .style
    · rw [List.filter_cons_of_pos (by simp [hr]), List.flatMap_cons, List.flatMap_cons, ih]
    · have hnone : givenBy x r = [] := by simp [givenBy, hr]
      rw [List.filter_cons_of_neg (by simp [hr]), List.flatMap_cons, hnone, ih, List.nil_append]

/-- The settings of a selector are what the last declarations that it is given say. -/
theorem get?_settingsFor (sheet : Sheet) (x p : String) :
    (sheet.settingsFor x).get? p = lastValue? (sheet.declarationsFor x) p := by
  have run (rs : List Rule) (m : Keyed Settings) (hrs : ∀ r ∈ rs, r.kind = .style) :
      (((rs.foldl addRule m).get? x).getD .empty).get? p =
        (lastValue? (rs.flatMap (givenBy x)) p).or (((m.get? x).getD .empty).get? p) := by
    induction rs generalizing m with
    | nil => rfl
    | cons r rs ih =>
      obtain ⟨hr, hrs⟩ := List.forall_mem_cons.1 hrs
      rw [List.foldl_cons, ih _ hrs, get?_addRule m hr, List.flatMap_cons, lastValue?_append, Option.or_assoc]
  have hstyle : ∀ r ∈ sheet.styleRules, r.kind = .style := fun r hr => by
    simpa using (List.mem_filter.1 hr).2
  rw [settingsFor, settings_eq_foldl, run _ _ hstyle, flatMap_styleRules]
  simp

end Sheet

end StyleBump
