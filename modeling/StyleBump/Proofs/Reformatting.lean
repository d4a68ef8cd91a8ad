import StyleBump.Proofs.Gapless

/-! # Reformatting

Two texts whose solid tokens are written the same, with gaps in the same places inside the values of their
declarations, are read to the same declarations (`atPosition?_eq_of_reformats`). All other gaps are free: around
names, colons, marks and semicolons, between items, next to brackets, and outside the block. -/

namespace StyleBump.Declaration
open Css Css.Component Text

/-! ### The part of a value that is kept -/

/-- What is kept of the component that a value ends with: a lexeme unless it is a gap, of a block what opens it. -/
def endLeaves : Component → List Lexeme
  | .leaf l => if l.token.isGap then [] else [l]
  | .block _ opener _ _ => [opener]

/-- The lexemes that are kept of a value. -/
def keptLeaves : List Component → List Lexeme
  | [] => []
  | c :: cs => if cs.all isGap then endLeaves c else c.leaves ++ keptLeaves cs

theorem endLeaves_isPrefix (c : Component) : endLeaves c <+: c.leaves := by
  cases c with
  | leaf l =>
    rw [endLeaves, leaves]
    split
    · exact List.nil_prefix
    · exact List.prefix_refl _
  | block b o body c => exact ⟨leavesAll body ++ c.toList, rfl⟩

theorem textOf_keptLeaves (value : List Component) : Lexeme.textOf (keptLeaves value) = valueText value := by
  induction value with
  | nil => rfl
  | cons c cs ih =>
    rw [keptLeaves]
    cases hall : cs.all isGap with
    | false =>
      have hstep : valueText (c :: cs) = c.text ++ valueText cs := if_neg (by simp [hall])
      rw [if_neg (by simp), hstep, textOf_append, ih, text_eq]
    | true =>
      rw [if_pos rfl]
      cases c with
      | leaf l =>
        have hstep : valueText (leaf l :: cs) = if l.token.isGap then [] else l.text := if_pos hall
        rw [hstep, endLeaves]
        split
        · rfl
        · exact List.append_nil _
      | block b o body c =>
        have hstep : valueText (block b o body c :: cs) = o.text := if_pos hall
        rw [hstep]
        exact List.append_nil _

theorem keptLeaves_isPrefix (value : List Component) : keptLeaves value <+: leavesAll value := by
  induction value with
  | nil => exact List.prefix_refl _
  | cons c cs ih =>
    rw [keptLeaves, leavesAll]
    split
    · exact (endLeaves_isPrefix c).trans (List.prefix_append _ _)
    · exact (List.prefix_append_right_inj _).2 ih

theorem all_isGap_of_keptLeaves {value : List Component} (h : keptLeaves value = []) : value.all isGap = true := by
  induction value with
  | nil => rfl
  | cons c cs ih =>
    rw [keptLeaves] at h
    split at h
    · rename_i hall
      rw [List.all_cons, hall, Bool.and_true]
      cases c with
      | block b o body c => cases h
      | leaf l =>
        rw [endLeaves] at h
        split at h
        · rename_i hg
          exact hg
        · cases h
    · rename_i hall
      exact absurd (ih (List.append_eq_nil_iff.1 h).2) hall

section
variable {e : Option Bracket}

theorem isGap_of_mem_endLeaves {c : Component} (h : c.fits e = true) {l : Lexeme} (hl : l ∈ endLeaves c) :
    l.token.isGap = false := by
  cases c with
  | leaf k =>
    rw [endLeaves] at hl
    split at hl
    · cases hl
    · rename_i hg
      obtain rfl := List.mem_singleton.1 hl
      simpa using hg
  | block b o body c =>
    obtain rfl := List.mem_singleton.1 hl
    exact isGap_of_fits h

/-- What is kept ends with a solid lexeme. -/
theorem isGap_getLast_keptLeaves {value : List Component} (h : fitsAll e value = true) :
    ∀ l ∈ (keptLeaves value).getLast?, l.token.isGap = false := by
  induction value with
  | nil => exact nofun
  | cons c cs ih =>
    obtain ⟨hc, hcs⟩ := Bool.and_eq_true_iff.1 h
    intro l hl
    rw [keptLeaves] at hl
    split at hl
    · exact isGap_of_mem_endLeaves hc (List.mem_of_getLast? hl)
    · rename_i hall
      have hne : keptLeaves cs ≠ [] := fun hnil => hall (all_isGap_of_keptLeaves hnil)
      rw [List.getLast?_append_of_ne_nil _ hne] at hl
      exact ih hcs l hl

theorem endLeaves_bare {c : Component} (hg : c.isGap = false) :
    endLeaves (bare c) = (solid (endLeaves c)).map Lexeme.normal := by
  cases c with
  | leaf l =>
    have hl : l.token.isGap = false := hg
    have hl' : l.normal.token.isGap = false := (Token.isGap_role _).trans hl
    rw [bare, endLeaves, endLeaves, if_neg (by simp [hl']), if_neg (by simp [hl]), solid,
      List.filter_cons_of_pos (by simp [hl])]
    rfl
  | block b o body c =>
    have ho : o.token.isGap = false := hg
    rw [bare, endLeaves, endLeaves, solid, List.filter_cons_of_pos (by simp [ho])]
    rfl

theorem keptLeaves_bareAll {value : List Component} (h : fitsAll e value = true) :
    keptLeaves (bareAll value) = (solid (keptLeaves value)).map Lexeme.normal := by
  induction value with
  | nil => rfl
  | cons c cs ih =>
    obtain ⟨hc, hcs⟩ := Bool.and_eq_true_iff.1 h
    have ih := ih hcs
    cases hg : c.isGap with
    | true =>
      obtain ⟨l, rfl, hl⟩ := leaf_of_isGap hc hg
      rw [bareAll_cons_of_gap hg, keptLeaves]
      split
      · rename_i hall
        rw [bareAll_eq_nil_iff.2 hall, endLeaves, if_pos hl]
        rfl
      · rw [ih, leaves, List.singleton_append, solid, solid, List.filter_cons_of_neg (by simp [hl])]
    | false =>
      obtain ⟨hleaves, -⟩ := leavesAll_bare e c hc hg
      rw [bareAll_cons_of_solid hg, keptLeaves, keptLeaves, all_isGap_bareAll]
      split
      · exact endLeaves_bare hg
      · rw [hleaves, ih, solid_append, List.map_append]

end

/-! ### Where a value stands -/

/-- Components that stand in front of some text, in which `/*` starts comments only. -/
def Placed (cs : List Component) : Prop :=
  ∃ back, Lexed (leavesAll cs ++ back) ∧ commentsMarked (leavesAll cs ++ back) = true

theorem Placed.of_infix {cs ds : List Component} (h : Placed ds) (hin : cs <:+: ds) : Placed cs := by
  obtain ⟨back, hlex, hmark⟩ := h
  obtain ⟨a, b, rfl⟩ := hin
  rw [leavesAll_append, leavesAll_append, List.append_assoc, List.append_assoc] at hlex hmark
  exact ⟨leavesAll b ++ back, hlex.of_append, commentsMarked_append hmark⟩

theorem Placed.of_block {b : Bracket} {o : Lexeme} {body : List Component} {c : Option Lexeme}
    (h : Placed [.block b o body c]) : Placed body := by
  obtain ⟨back, hlex, hmark⟩ := h
  have hleaves : leavesAll [.block b o body c] ++ back = [o] ++ (leavesAll body ++ (c.toList ++ back)) := by
    simp [leavesAll, leaves]
  rw [hleaves] at hlex hmark
  exact ⟨c.toList ++ back, hlex.of_append, commentsMarked_append hmark⟩

/-- The text of a value is told by its solid components and the gaps between them. -/
theorem words_valueText_eq {e : Option Bracket} {v w : List Component} (hv : Placed v) (hw : Placed w)
    (hfv : fitsAll e v = true) (hfw : fitsAll e w = true) (hbare : bareAll v = bareAll w)
    (hgaps : Agree (gapsWithin (leavesAll v)) (gapsWithin (leavesAll w))) :
    words (dropComments false (valueText v)) = words (dropComments false (valueText w)) := by
  obtain ⟨back, hlex, hmark⟩ := hv
  obtain ⟨back', hlex', hmark'⟩ := hw
  obtain ⟨rest, hrest⟩ := keptLeaves_isPrefix v
  obtain ⟨rest', hrest'⟩ := keptLeaves_isPrefix w
  have hlast := isGap_getLast_keptLeaves hfv
  have hlast' := isGap_getLast_keptLeaves hfw
  -- The kept parts end with solid lexemes, so gaps behind them do not count.
  have hnormal : (solid (keptLeaves v)).map Lexeme.normal = (solid (keptLeaves w)).map Lexeme.normal := by
    rw [← keptLeaves_bareAll hfv, ← keptLeaves_bareAll hfw, hbare]
  have htext : (solid (keptLeaves v)).map (·.text) = (solid (keptLeaves w)).map (·.text) := by
    have h := congrArg (List.map (·.text)) hnormal
    rw [List.map_map, List.map_map] at h
    exact h
  rw [← hrest, List.append_assoc] at hlex hmark
  rw [← hrest', List.append_assoc] at hlex' hmark'
  rw [← hrest, ← hrest'] at hgaps
  rw [← textOf_keptLeaves, ← textOf_keptLeaves, words_dropComments hlex hmark hlast, words_dropComments hlex' hmark' hlast',
    spacing_eq_of_agree hlast hlast' htext hgaps]

theorem read_eq {e : Option Bracket} {p q : Parts} (hp : Placed p.value) (hq : Placed q.value)
    (hfp : fitsAll e p.value = true) (hfq : fitsAll e q.value = true) (hbare : p.bare = q.bare)
    (hgaps : Agree (gapsWithin (leavesAll p.value)) (gapsWithin (leavesAll q.value))) : p.read = q.read := by
  obtain ⟨hproperty, hvalue, himportant⟩ := Parts.mk.inj hbare
  rw [Parts.read, Parts.read, tidy, tidy, squeeze, squeeze, words_valueText_eq hp hq hfp hfq hvalue hgaps, hproperty,
    himportant]

/-- Whether the values of declarations have the same gaps, one by one. -/
def SameGaps (ps qs : List Parts) : Prop :=
  ∀ x ∈ ps.zip qs, Agree (gapsWithin (leavesAll x.1.value)) (gapsWithin (leavesAll x.2.value))

instance (ps qs : List Parts) : Decidable (SameGaps ps qs) := List.decidableBAll _ _

theorem map_read_eq {e : Option Bracket} {ps qs : List Parts} (hp : ∀ p ∈ ps, Placed p.value ∧ fitsAll e p.value = true)
    (hq : ∀ q ∈ qs, Placed q.value ∧ fitsAll e q.value = true) (hbare : ps.map Parts.bare = qs.map Parts.bare)
    (hgaps : SameGaps ps qs) : ps.map Parts.read = qs.map Parts.read := by
  induction ps generalizing qs with
  | nil => rw [List.map_eq_nil_iff.1 hbare.symm]
  | cons p ps ih =>
    obtain ⟨q, qs, rfl, hqp, hrest⟩ := List.map_eq_cons_iff.1 hbare.symm
    obtain ⟨⟨hpp, hfp⟩, hps⟩ := List.forall_mem_cons.1 hp
    obtain ⟨⟨hpq, hfq⟩, hqs⟩ := List.forall_mem_cons.1 hq
    obtain ⟨hg, hgs⟩ := List.forall_mem_cons.1 hgaps
    rw [List.map_cons, List.map_cons, read_eq hpp hpq hfp hfq hqp.symm hg, ih hps hqs hrest.symm hgs]

/-! ### The first block -/

theorem exists_of_firstBlock? {cs body : List Component} (h : firstBlock? cs = some body) :
    ∃ o c, .block .curly o body c ∈ cs := by
  fun_induction firstBlock? cs with
  | case1 => cases h
  | case2 o body' c cs =>
    obtain rfl := Option.some.inj h
    exact ⟨o, c, List.mem_cons_self⟩
  | case3 d cs _ ih =>
    obtain ⟨o, c, hmem⟩ := ih h
    exact ⟨o, c, List.mem_cons_of_mem d hmem⟩

theorem firstBlock?_bareAll {e : Option Bracket} {cs : List Component} (h : fitsAll e cs = true) :
    firstBlock? (bareAll cs) = (firstBlock? cs).map bareAll := by
  induction cs with
  | nil => rfl
  | cons c cs ih =>
    obtain ⟨hc, hcs⟩ := Bool.and_eq_true_iff.1 h
    cases c with
    | leaf l =>
      cases hg : (leaf l).isGap with
      | true =>
        rw [bareAll_cons_of_gap hg, ih hcs]
        rfl
      | false =>
        rw [bareAll_cons_of_solid hg]
        exact ih hcs
    | block b o body c =>
      rw [bareAll_cons_of_solid (isGap_of_fits hc)]
      cases b with
      | curly => rfl
      | round => exact ih hcs
      | square => exact ih hcs

/-- A text that is read lexeme by lexeme: it has no escapes, each `/*` outside comments starts one, and its blocks
are closed. Strings may be left open at the end of a line. -/
structure Legible (t : List Char) : Prop where
  unescaped : '\\' ∉ t
  marked : commentsMarked (lexemes t) = true
  closed : fitsAll none (componentsOf t) = true

theorem Legible.placed {t : List Char} (h : Legible t) : Placed (componentsOf t) := by
  refine ⟨[], ?_, ?_⟩
  · rw [List.append_nil, componentsOf, leavesAll_components]
    exact lexed_lexemes t
  · rw [List.append_nil, componentsOf, leavesAll_components]
    exact h.marked

/-- The declarations of the first block of a text, with the components of their values. -/
def partsOfText (t : List Char) : List Parts := ((firstBlock? (componentsOf t)).map partsOf).getD []

theorem Legible.value {t : List Char} (h : Legible t) {body : List Component}
    (hbody : firstBlock? (componentsOf t) = some body) :
    fitsAll (some .curly) body = true ∧ ∀ p ∈ partsOf body, Placed p.value ∧ fitsAll (some .curly) p.value = true := by
  obtain ⟨o, c, hmem⟩ := exists_of_firstBlock? hbody
  have hfit := fitsAll_iff.1 h.closed _ hmem
  have hfits : fitsAll (some .curly) body = true := by
    cases c with
    | none => exact absurd hfit (by simp [fits])
    | some c => exact (block_fits.1 hfit).1.2
  have hplaced : Placed body := by
    obtain ⟨a, b, hab⟩ := List.append_of_mem hmem
    refine (h.placed.of_infix ?_ : Placed [.block .curly o body c]).of_block
    exact ⟨a, b, by rw [hab]; simp⟩
  refine ⟨hfits, fun p hp => ?_⟩
  have hin := value_infix_of_mem_partsOf hp
  exact ⟨hplaced.of_infix hin, fitsAll_of_subset hfits hin.subset⟩

/-- Two texts that differ in their gaps only: their solid tokens are written the same, and two tokens that stand
side by side in the value of a declaration, at any depth, are parted in both texts or in neither. -/
structure Reformats (t u : List Char) : Prop where
  tokens : (solid (lexemes t)).map (·.text) = (solid (lexemes u)).map (·.text)
  values : SameGaps (partsOfText t) (partsOfText u)

/-- Reformatting does not change what is read. -/
theorem atPosition?_eq_of_reformats {t u : List Char} (ht : Legible t) (hu : Legible u) (h : Reformats t u) :
    atPosition? t ⟨0, 1⟩ = atPosition? u ⟨0, 1⟩ := by
  -- The solid tokens have the same roles, so they nest in the same way, and to the same first block.
  have hnormal : (solid (lexemes t)).map Lexeme.normal = (solid (lexemes u)).map Lexeme.normal := by
    refine map_normal_solid_eq (lexed_lexemes t) (lexed_lexemes u) ?_ ?_ h.tokens
    · rw [textOf_lexemes]
      exact ht.unescaped
    · rw [textOf_lexemes]
      exact hu.unescaped
  have hbare : bareAll (componentsOf t) = bareAll (componentsOf u) := by
    rw [componentsOf, componentsOf, ← components_solid ht.closed, ← components_solid hu.closed, hnormal]
  have hblock : (firstBlock? (componentsOf t)).map bareAll = (firstBlock? (componentsOf u)).map bareAll := by
    rw [← firstBlock?_bareAll ht.closed, ← firstBlock?_bareAll hu.closed, hbare]
  have hvalues := h.values
  rw [atPosition?, atPosition?, seek?_start, seek?_start, Option.bind_some, Option.bind_some]
  rw [partsOfText, partsOfText] at hvalues
  cases hft : firstBlock? (componentsOf t) with
  | none =>
    rw [hft] at hblock
    rw [Option.map_eq_none_iff.1 hblock.symm]
  | some a =>
    rw [hft] at hblock hvalues
    obtain ⟨b, hfu, hab⟩ := Option.map_eq_some_iff.1 hblock.symm
    rw [hfu] at hvalues ⊢
    -- Its declarations have the same parts but for the gaps, and gaps inside the values agree.
    obtain ⟨hfa, hpa⟩ := ht.value hft
    obtain ⟨hfb, hpb⟩ := hu.value hfu
    have hparts : (partsOf a).map Parts.bare = (partsOf b).map Parts.bare := by
      rw [← partsOf_bareAll hfa, ← partsOf_bareAll hfb, hab]
    rw [Option.map_some, Option.map_some, ofBlock_eq_map_read, ofBlock_eq_map_read, map_read_eq hpa hpb hparts hvalues]

/-- Comments come and go around a colon, a mark and a semicolon, and one stands for a space in a value. -/
theorem atPosition?_eq_of_reformats_comments :
    atPosition? ".a\x7bcolor:red;--x: f(a, \"b\") c!important\x7d".toList ⟨0, 1⟩ =
      atPosition? ".a \x7b\n color/**/: red ;\n --x:f(a,/* , */\"b\") c /**/ ! important\n\x7d".toList ⟨0, 1⟩ :=
  atPosition?_eq_of_reformats ⟨by decide +kernel, by decide +kernel, by decide +kernel⟩
    ⟨by decide +kernel, by decide +kernel, by decide +kernel⟩ ⟨by decide +kernel, by decide +kernel⟩

end StyleBump.Declaration
