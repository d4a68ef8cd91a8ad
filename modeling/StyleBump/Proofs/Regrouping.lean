import Mathlib.Logic.Relation
import StyleBump.Proofs.Classification
import StyleBump.Proofs.Notices

/-! # Regrouping a sheet

Selectors may be grouped in other ways, and rules that have nothing to do with each other may change places:
each selector is listed as before, and the last declaration of each property that it is given says the same
(`Sheet.Alike`). An edit of a few rules keeps this wherever it is made in a sheet (`Sheet.Alike.around`), and
so does any number of edits (`Sheet.Alike.of_regroups`). Two style rules that share a selector may not change
places, since the later one decides what both set. -/

namespace StyleBump

namespace Rule

/-- The rule gives its declarations to `x`. -/
def Styles (r : Rule) (x : String) : Prop := r.kind = .style ∧ ∃ ss, r.selectors = some ss ∧ x ∈ ss

/-- A style rule and two others that share its selectors among them. What they hold otherwise is free. -/
structure Splits (r r₁ r₂ : Rule) (s₁ s₂ : List String) : Prop where
  kind : r.kind = .style ∧ r₁.kind = .style ∧ r₂.kind = .style
  selectors : r.selectors = some (s₁ ++ s₂) ∧ r₁.selectors = some s₁ ∧ r₂.selectors = some s₂
  declarations : r₁.declarations = r.declarations ∧ r₂.declarations = r.declarations

end Rule

namespace Sheet

/-- Edits of a few rules that regroup selectors or reorder what is independent. -/
inductive Rewrites : List Rule → List Rule → Prop
  | split {r r₁ r₂ : Rule} {s₁ s₂ : List String} (h : r.Splits r₁ r₂ s₁ s₂) : Rewrites [r] [r₁, r₂]
  | merge {r r₁ r₂ : Rule} {s₁ s₂ : List String} (h : r.Splits r₁ r₂ s₁ s₂) : Rewrites [r₁, r₂] [r]
  | permute {r : Rule} {ss ss' : List String} (h : r.selectors = some ss) (hp : ss.Perm ss') :
      Rewrites [r] [{ r with selectors := some ss' }]
  | swap {r r' : Rule} (h : ∀ x, ¬ (r.Styles x ∧ r'.Styles x)) : Rewrites [r, r'] [r', r]
  | insert {r : Rule} (h : r.kind ≠ .style) : Rewrites [] [r]
  | delete {r : Rule} (h : r.kind ≠ .style) : Rewrites [r] []
  | alter {r r' : Rule} (h : r.kind ≠ .style) (h' : r'.kind ≠ .style) : Rewrites [r] [r']
  | nested (r : Rule) (rules : List Rule) : Rewrites [r] [{ r with rules := rules }]

/-- One edit at the top of a sheet. -/
inductive Regroups : Sheet → Sheet → Prop
  | edit (front : List Rule) {rs rs' : List Rule} (h : Rewrites rs rs') (back : List Rule) :
      Regroups (front ++ rs ++ back) (front ++ rs' ++ back)

/-- Two sheets list the same selectors and set them alike. -/
structure Alike (a b : Sheet) : Prop where
  lists : ∀ x, a.Lists x ↔ b.Lists x
  values : ∀ x p, lastValue? (a.declarationsFor x) p = lastValue? (b.declarationsFor x) p

theorem lists_iff (a : Sheet) (x : String) : a.Lists x ↔ ∃ r ∈ a, r.Styles x := Iff.rfl

theorem lists_append (a b : Sheet) (x : String) : Lists (a ++ b) x ↔ a.Lists x ∨ b.Lists x := by
  simp only [lists_iff, List.mem_append, or_and_right, exists_or]

theorem declarationsFor_append (a b : Sheet) (x : String) :
    declarationsFor (a ++ b) x = a.declarationsFor x ++ b.declarationsFor x := List.flatMap_append

theorem givenBy_of_styles {r : Rule} {x : String} (h : r.Styles x) : givenBy x r = r.declarations.getD [] := by
  obtain ⟨hkind, ss, hss, hx⟩ := h
  simp [givenBy, hkind, hss, hx]

theorem givenBy_of_not_styles {r : Rule} {x : String} (h : ¬ r.Styles x) : givenBy x r = [] := by
  refine if_neg fun hx => h ?_
  obtain ⟨hkind, hx⟩ := hx
  cases hs : r.selectors with
  | none => simp [hs] at hx
  | some ss => exact ⟨hkind, ss, hs, by simpa [hs] using hx⟩

namespace Alike
variable {a b c : Sheet}

theorem refl (a : Sheet) : Alike a a := ⟨fun _ => Iff.rfl, fun _ _ => rfl⟩

theorem symm (h : Alike a b) : Alike b a := ⟨fun x => (h.lists x).symm, fun x p => (h.values x p).symm⟩

theorem trans (h : Alike a b) (h' : Alike b c) : Alike a c :=
  ⟨fun x => (h.lists x).trans (h'.lists x), fun x p => (h.values x p).trans (h'.values x p)⟩

/-- What stands around an edit does not matter. -/
theorem around (h : Alike a b) (front back : Sheet) : Alike (front ++ a ++ back) (front ++ b ++ back) where
  lists x := by simp only [lists_append, h.lists x]
  values x p := by simp only [declarationsFor_append, lastValue?_append, h.values x p]

/-- Rules that give each selector the same declarations are alike. -/
theorem of_styles_iff {r r' : Rule} (h : ∀ x, r.Styles x ↔ r'.Styles x) (hd : r'.declarations = r.declarations) :
    Alike [r] [r'] where
  lists x := by simp only [lists_iff, List.mem_singleton, exists_eq_left, h x]
  values x p := by
    by_cases hx : r.Styles x
    · simp [declarationsFor, givenBy_of_styles hx, givenBy_of_styles ((h x).1 hx), hd]
    · simp [declarationsFor, givenBy_of_not_styles hx, givenBy_of_not_styles (mt (h x).2 hx)]

theorem of_other {r : Rule} (h : r.kind ≠ .style) : Alike [r] [] where
  lists x := by simp [lists_iff, Rule.Styles, h]
  values x p := by simp [declarationsFor, givenBy_of_not_styles (r := r) (x := x) fun hx => h hx.1]

theorem of_splits {r r₁ r₂ : Rule} {s₁ s₂ : List String} (h : r.Splits r₁ r₂ s₁ s₂) : Alike [r] [r₁, r₂] := by
  obtain ⟨⟨hk, hk₁, hk₂⟩, ⟨hs, hs₁, hs₂⟩, hd₁, hd₂⟩ := h
  have hstyles (x : String) : r.Styles x ↔ r₁.Styles x ∨ r₂.Styles x := by
    simp [Rule.Styles, hk, hk₁, hk₂, hs, hs₁, hs₂]
  refine ⟨fun x => ?_, fun x p => ?_⟩
  · simp [lists_iff, hstyles]
  · -- A selector that stands in both parts is given the declarations twice, and the last ones count.
    by_cases h₁ : r₁.Styles x
    · have hr : r.Styles x := (hstyles x).2 (.inl h₁)
      by_cases h₂ : r₂.Styles x
      · simp [declarationsFor, givenBy_of_styles hr, givenBy_of_styles h₁, givenBy_of_styles h₂, hd₁, hd₂,
          lastValue?_append]
      · simp [declarationsFor, givenBy_of_styles hr, givenBy_of_styles h₁, givenBy_of_not_styles h₂, hd₁]
    · by_cases h₂ : r₂.Styles x
      · have hr : r.Styles x := (hstyles x).2 (.inr h₂)
        simp [declarationsFor, givenBy_of_styles hr, givenBy_of_not_styles h₁, givenBy_of_styles h₂, hd₂]
      · have hr : ¬ r.Styles x := mt (hstyles x).1 (not_or.2 ⟨h₁, h₂⟩)
        simp [declarationsFor, givenBy_of_not_styles hr, givenBy_of_not_styles h₁, givenBy_of_not_styles h₂]

theorem of_independent {r r' : Rule} (h : ∀ x, ¬ (r.Styles x ∧ r'.Styles x)) : Alike [r, r'] [r', r] where
  lists x := by simp [lists_iff, or_comm]
  values x p := by
    by_cases hx : r.Styles x
    · have hx' : ¬ r'.Styles x := fun hx' => h x ⟨hx, hx'⟩
      simp [declarationsFor, givenBy_of_not_styles hx']
    · simp [declarationsFor, givenBy_of_not_styles hx]

theorem of_rewrites {rs rs' : List Rule} (h : Rewrites rs rs') : Alike rs rs' := by
  cases h with
  | split h => exact of_splits h
  | merge h => exact (of_splits h).symm
  | permute h hp => exact of_styles_iff (fun x => by simp [Rule.Styles, h, hp.mem_iff]) rfl
  | swap h => exact of_independent h
  | insert h => exact (of_other h).symm
  | delete h => exact of_other h
  | alter h h' => exact (of_other h).trans (of_other h').symm
  | nested r rules => exact of_styles_iff (fun _ => Iff.rfl) rfl

theorem of_regroups (h : Regroups a b) : Alike a b := by
  obtain ⟨front, hrs, back⟩ := h
  exact (of_rewrites hrs).around front back

/-- Any number of edits. -/
theorem of_run (h : Relation.ReflTransGen Regroups a b) : Alike a b := by
  induction h with
  | refl => exact refl a
  | tail _ hstep ih => exact ih.trans (of_regroups hstep)

/-- Nothing that a comparison looks at tells such sheets apart, but for their structure. -/
theorem difference_eq_nil (h : Alike a b) : a.selectorSet.difference b.selectorSet = [] :=
  (difference_eq_nil_iff a b).2 fun ⟨x, hx, hnot⟩ => hnot ((h.lists x).1 hx)

theorem settingsFor_eq (h : Alike a b) (x : String) : a.settingsFor x = b.settingsFor x := by
  refine Keyed.ext_get? fun p => ?_
  rw [get?_settingsFor, get?_settingsFor, h.values]

theorem between_eq (h : Alike a b) : SelectorDiff.between a.selectorSet b.selectorSet = ⟨[], []⟩ := by
  rw [SelectorDiff.between, h.difference_eq_nil, h.symm.difference_eq_nil]

theorem collect_eq_nil (h : Alike a b) : Notice.collect a b (.between a.selectorSet b.selectorSet) = [] := by
  have hedited : Notice.edited a b = [] := by
    refine List.eq_nil_iff_forall_not_mem.2 fun x hx => ?_
    exact ((Notice.mem_edited a b x).1 hx).2.2 (h.settingsFor_eq x)
  rw [Notice.collect_eq, h.difference_eq_nil, h.symm.difference_eq_nil, hedited]
  rfl

theorem bump_eq (h : Alike a b) (verbose : Bool) :
    (Report.between a b verbose).bump = if structurallyEqual a b then .none else .patch := by
  split
  · rename_i hequal
    rw [Report.between_of_equal hequal]
  · rename_i hdiffer
    rw [Report.bump_of_different (Bool.eq_false_iff.2 hdiffer), h.between_eq]
    rfl

end Alike

end Sheet

namespace Report
open Sheet

/-- Any number of edits that regroup selectors, reorder independent rules and change what is no style rule or
is nested in one asks for a patch at most: no selector comes or goes, and there is nothing to notice. -/
theorem regrouping_is_silent {a b : Sheet} (h : Relation.ReflTransGen Regroups a b) (verbose : Bool) :
    ((between a b verbose).bump = .none ∨ (between a b verbose).bump = .patch) ∧
    SelectorDiff.between a.selectorSet b.selectorSet = ⟨[], []⟩ ∧
    Notice.collect a b (.between a.selectorSet b.selectorSet) = [] ∧ (between a b verbose).notices = [] := by
  have halike := Alike.of_run h
  refine ⟨?bump, halike.between_eq, halike.collect_eq_nil, ?notices⟩
  case bump =>
    rw [halike.bump_eq]
    split
    · exact .inl rfl
    · exact .inr rfl
  case notices =>
    unfold between
    split
    · rfl
    cases verbose with
    | false => rfl
    | true => exact halike.collect_eq_nil

/-- A rule that sets the color of a selector. -/
def colored (selector value : String) : Rule := .style [selector] [⟨"color", value, false⟩] [] .none

theorem styles_colored (selector value x : String) : (colored selector value).Styles x ↔ x = selector := by
  simp [colored, Rule.style, Rule.Styles]

/-- A rule of two selectors is split, its second part goes behind the next rule, and a comment comes in front. -/
theorem regrouping_is_silent_split_swap_insert :
    let old := [.style [".a", ".b"] [⟨"color", "red", false⟩] [] .none, colored ".c" "blue"]
    let changed := [.opaqueText .comment "!", colored ".a" "red", colored ".c" "blue", colored ".b" "red"]
    Relation.ReflTransGen Regroups old changed ∧ (between old changed true).notices = [] := by
  have hsplits : Rule.Splits (.style [".a", ".b"] [⟨"color", "red", false⟩] [] .none) (colored ".a" "red")
      (colored ".b" "red") [".a"] [".b"] := ⟨⟨rfl, rfl, rfl⟩, ⟨rfl, rfl, rfl⟩, rfl, rfl⟩
  have hswap : Rewrites [colored ".b" "red", colored ".c" "blue"] [colored ".c" "blue", colored ".b" "red"] := by
    refine .swap fun x => ?_
    rw [styles_colored, styles_colored]
    rintro ⟨rfl, hx⟩
    exact absurd hx (by decide)
  have hinsert : Rewrites [] [.opaqueText .comment "!"] := .insert nofun
  have hrun := ((Relation.ReflTransGen.single (Regroups.edit [] (.split hsplits) [colored ".c" "blue"])).tail
    (.edit [colored ".a" "red"] hswap [])).tail
    (.edit [] hinsert [colored ".a" "red", colored ".c" "blue", colored ".b" "red"])
  exact ⟨hrun, (regrouping_is_silent hrun true).2.2.2⟩

/-- Rules that share a selector are told apart when they change places. -/
example : (between [colored ".a" "red", colored ".a" "blue"] [colored ".a" "blue", colored ".a" "red"] true).notices =
    [.changed ".a" [⟨"color", some "blue", some "red"⟩]] := by decide

end Report

end StyleBump
