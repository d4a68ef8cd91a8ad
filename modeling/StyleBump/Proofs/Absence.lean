import StyleBump.Proofs.Classification
import StyleBump.Proofs.Shape
import StyleBump.Proofs.Sides

/-! # A sheet against nothing

What an edit asks for when one side is absent or blank depends on whether the other one has a style rule at its
top. If it has, then the sheet lists a selector, since there is no style rule without one
(`Sheet.exists_mem_selectors`), and that selector is lost or gained. Groups, statements that are compared by their
text and license comments list nothing, so a sheet of those alone is a patch away from nothing. -/

namespace StyleBump

namespace Selector
open Css Css.Parse

/-- Only a lenient reader can give a list without a selector. -/
theorem readList_ne_nil {n : Nat} {m : Mode} {origin : Origin} {s s' : Cursor} {r : List (List Step) × Bool}
    (h : readList n m origin false s = .ok (r, s')) : r.1 ≠ [] := by
  cases n with
  | zero => cases h
  | succ n =>
    rw [readList] at h
    obtain ⟨start, s₁, -, h⟩ := bind_eq_ok h
    obtain ⟨first?, s₂, -, h⟩ := bind_eq_ok h
    cases first? with
    | error e => cases h
    | ok first =>
      obtain ⟨_, s₃, hfirst, h⟩ := bind_eq_ok h
      cases hfirst
      obtain ⟨comma?, s₄, -, h⟩ := bind_eq_ok h
      cases comma? with
      | none =>
        cases h
        exact List.cons_ne_nil _ _
      | some c =>
        obtain ⟨more, s₅, -, h⟩ := bind_eq_ok h
        cases h
        exact List.cons_ne_nil _ _

theorem prelude_ne_nil {nested : Bool} {s s' : Cursor} {selectors : List (List Step)}
    (h : prelude nested s = .ok (selectors, s')) : selectors ≠ [] := by
  rw [prelude, list] at h
  cases hlist : readList (fuelFor s.rest) .initial (if nested then .nested else .free) false s with
  | error e =>
    rw [hlist] at h
    cases h
  | ok r =>
    rw [hlist] at h
    cases h
    exact readList_ne_nil hlist

end Selector

namespace Statement
variable {text : List Char} {w : Printer} {s : Statement} {r : Rule}

/-- A style rule that was read names a selector. -/
theorem exists_mem_selectors (hs : ReadFrom text s) (h : StandsFor w s r) (hr : r.kind = .style) :
    ∃ ss, r.selectors = some ss ∧ ∃ x, x ∈ ss := by
  cases h with
  | @style _ texts _ _ ht =>
    cases hs with | style hb _ => ?_
    obtain ⟨-, ⟨nested, s', hread⟩, -⟩ := hb
    obtain ⟨s'', hread⟩ := Css.Parse.entirely_eq_ok hread
    refine ⟨texts, rfl, List.exists_mem_of_ne_nil texts ?_⟩
    rintro rfl
    cases ht
    exact Selector.prelude_ne_nil hread rfl
  | group _ _ kind heading p =>
    cases hs with | group hk => ?_
    rw [show kind = .style from hr] at hk
    exact absurd hk (by decide)
  | kept => cases hr

end Statement

namespace Sheet
variable {side : Side} {text other : Option String} {w : Printer} {sheet : Sheet}

theorem exists_mem_selectors (h : read side text w = .ok sheet) {r : Rule} (hr : r ∈ sheet) (hstyle : r.kind = .style) :
    ∃ ss, r.selectors = some ss ∧ ∃ x, x ∈ ss := by
  rcases (shape_of_read h).2.1 with ⟨-, rfl⟩ | ⟨-, statements, rules, hread, rfl, -, hstand⟩
  · cases hr
  · rcases List.mem_append.1 hr with hlicense | hrule
    · obtain ⟨t, -, rfl⟩ := List.mem_map.1 hlicense
      cases hstyle
    · obtain ⟨i, hi, rfl⟩ := List.mem_iff_getElem.1 hrule
      have hi' : i < statements.length := hstand.length_eq ▸ hi
      exact Statement.exists_mem_selectors (Statement.readFrom_of_ofChars hread _ (List.getElem_mem hi'))
        (hstand.get hi' hi) hstyle

/-- A sheet lists a selector exactly if it has a style rule at its top. -/
theorem exists_lists_iff (h : read side text w = .ok sheet) : (∃ x, sheet.Lists x) ↔ ∃ r ∈ sheet, r.kind = .style := by
  constructor
  · rintro ⟨x, r, hr, hstyle, -⟩
    exact ⟨r, hr, hstyle⟩
  · rintro ⟨r, hr, hstyle⟩
    obtain ⟨ss, hss, x, hx⟩ := exists_mem_selectors h hr hstyle
    exact ⟨x, r, hr, hstyle, ss, hss, hx⟩

theorem read_of_absent (h : hasText other = false) (side : Side) (w : Printer) : read side other w = .ok [] := by
  rw [read, h]
  rfl

theorem not_lists_nil (x : String) : ¬ Sheet.Lists [] x := by
  rintro ⟨r, hr, -⟩
  cases hr

theorem structurallyEqual_nil_iff (sheet : Sheet) : structurallyEqual sheet [] = true ↔ sheet = [] := by
  rw [structurallyEqual_iff, List.map_nil, List.map_eq_nil_iff]

end Sheet

namespace Report
variable {text other : Option String} {w : Printer} {sheet : Sheet}

theorem bump_nil_iff (sheet : Sheet) (verbose : Bool) (b : Bump) :
    (between sheet [] verbose).bump = b ↔ Asks (sheet = []) (∃ x, sheet.Lists x) False b := by
  rw [bump_eq_iff, Sheet.structurallyEqual_nil_iff]
  simp only [Sheet.Loses, Sheet.not_lists_nil, not_false_eq_true, and_true, false_and, exists_false]

theorem bump_of_nil_iff (sheet : Sheet) (verbose : Bool) (b : Bump) :
    (between [] sheet verbose).bump = b ↔ Asks (sheet = []) False (∃ x, sheet.Lists x) b := by
  rw [bump_eq_iff, structurallyEqual_comm, Sheet.structurallyEqual_nil_iff]
  simp only [Sheet.Loses, Sheet.not_lists_nil, not_false_eq_true, and_true, false_and, exists_false]

/-- Against a side without text, absent or blank, a sheet with a style rule at its top is a major bump where it goes
and a minor one where it comes. A sheet without such a rule is a patch both ways, whatever else it consists of, and
one without any rule is no change. -/
theorem predict_absent (h : Sheet.read .old text w = .ok sheet) (hother : hasText other = false) (verbose : Bool) :
    ∃ gone come, predict text other verbose w = .ok gone ∧ predict other text verbose w = .ok come ∧
      ((∃ r ∈ sheet, r.kind = .style) → gone.bump = .major ∧ come.bump = .minor) ∧
      (sheet ≠ [] → (∀ r ∈ sheet, r.kind ≠ .style) → gone.bump = .patch ∧ come.bump = .patch) ∧
      (sheet = [] → gone = ⟨.none, []⟩ ∧ come = ⟨.none, []⟩) := by
  refine ⟨between sheet [] verbose, between [] sheet verbose,
    predict_of_read h (Sheet.read_of_absent hother .changed w),
    predict_of_read (Sheet.read_of_absent hother .old w) (Sheet.read_of_ok h .changed), ?styled, ?other, ?empty⟩
  case styled =>
    intro hstyle
    have hlists : ∃ x, sheet.Lists x := (Sheet.exists_lists_iff h).2 hstyle
    have hne : sheet ≠ [] := by
      rintro rfl
      obtain ⟨r, hr, -⟩ := hstyle
      cases hr
    exact ⟨(bump_nil_iff _ _ _).2 ⟨hne, hlists⟩, (bump_of_nil_iff _ _ _).2 ⟨hne, id, hlists⟩⟩
  case other =>
    intro hne hother
    have hlists : ¬ ∃ x, sheet.Lists x := by
      rw [Sheet.exists_lists_iff h]
      rintro ⟨r, hr, hstyle⟩
      exact hother r hr hstyle
    exact ⟨(bump_nil_iff _ _ _).2 ⟨hne, hlists, id⟩, (bump_of_nil_iff _ _ _).2 ⟨hne, id, hlists⟩⟩
  case empty =>
    rintro rfl
    exact ⟨between_self [] verbose, between_self [] verbose⟩

/-- A style rule with a group and a license beside it, against a blank side. -/
theorem predict_absent_styled :
    ∃ gone come, predict (some "/*!a*/@media print\x7b\x7d.a\x7b\x7d") (some " \n") true = .ok gone ∧
      predict (some " \n") (some "/*!a*/@media print\x7b\x7d.a\x7b\x7d") true = .ok come ∧
      gone.bump = .major ∧ come.bump = .minor := by
  have hkinds : (Sheet.read .old (some "/*!a*/@media print\x7b\x7d.a\x7b\x7d")).toOption.map (·.map (·.kind)) =
      some [.comment, .media, .style] := by
    decide +kernel
  cases h : Sheet.read .old (some "/*!a*/@media print\x7b\x7d.a\x7b\x7d") with
  | error f =>
    rw [h] at hkinds
    cases hkinds
  | ok sheet =>
    rw [h] at hkinds
    have hblank : hasText (some " \n") = false := by decide
    obtain ⟨gone, come, hgone, hcome, hstyled, -⟩ := predict_absent h hblank true
    have hstyle : RuleKind.style ∈ sheet.map (·.kind) := by simp [Option.some.inj hkinds]
    exact ⟨gone, come, hgone, hcome, hstyled (List.mem_map.1 hstyle)⟩

/-- A group alone goes and comes with a patch, although a style rule stands in it. -/
theorem predict_group_absent :
    (Sheet.read .old (some "@media print\x7b.a\x7bcolor:red\x7d\x7d")).toOption.map (·.map (·.kind)) = some [.media] ∧
    (predict (some "@media print\x7b.a\x7bcolor:red\x7d\x7d") none false).toOption.map (·.bump) = some .patch ∧
    (predict none (some "@media print\x7b.a\x7bcolor:red\x7d\x7d") false).toOption.map (·.bump) = some .patch := by
  decide +kernel

end Report

end StyleBump
