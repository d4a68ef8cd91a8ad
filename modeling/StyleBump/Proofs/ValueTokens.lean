import StyleBump.Proofs.AuthoredEdit
import StyleBump.Proofs.Joining
import StyleBump.Proofs.Reformatting

/-! # Values and their tokens

A value is kept as its characters without what looks like a comment, with each run of blanks as one space. That is
its tokens with a space in each gap if only gaps look like gaps (`Distinct`), and then two values are told apart by
their tokens (`value_edit_exact`). Inside of strings and addresses the characters are taken for gaps all the same. -/

namespace StyleBump.Declaration
open Css Css.Component Text

/-! ### Values that end with a token -/

/-- Whether a component is a block. -/
def isBlock : Component → Bool
  | .block _ _ _ _ => true
  | .leaf _ => false

/-- The last component that is no gap. -/
def lastSolid? (value : List Component) : Option Component := value.reverse.find? (!isGap ·)

/-- A value that stands by itself: it reaches into nothing behind it, its blocks are closed and its strings and
addresses sound. No semicolon, no block in curly brackets and no mark stands between its components, and it
does not end with a block. -/
structure SoundValue (v : List Char) : Prop where
  apart : lexemes (v ++ ['\x7d']) = lexemes v ++ lexemes ['\x7d']
  balanced : fitsAll (some .curly) (componentsOf v) = true
  sound : ∀ l ∈ lexemes v, l.token.isSpoiled = false
  undivided : ∀ x ∈ componentsOf v, isSemicolon x = false
  flat : ∀ x ∈ componentsOf v, x.isCurly = false
  unmarked : (splitMark (componentsOf v)).2 = none
  ended : (lastSolid? (componentsOf v)).any isBlock = false

/-- A value in which only gaps look like gaps: no token but a comment holds `/*`, a token holds no blanks but
single spaces, and no gap stands right behind an escape, strings apart. -/
structure Distinct (v : List Char) : Prop where
  marked : commentsMarked (lexemes v) = true
  spaced : ∀ l ∈ lexemes v, l.token.isGap = false → Spaced l.text
  held : escapesHeld (lexemes v) = true

theorem lastSolid?_cons (c : Component) (cs : List Component) :
    lastSolid? (c :: cs) = (lastSolid? cs).or (if c.isGap then none else some c) := by
  rw [lastSolid?, List.reverse_cons, List.find?_append, lastSolid?]
  cases hg : c.isGap with
  | true => simp [hg]
  | false => simp [hg]

theorem lastSolid?_eq_none_iff {cs : List Component} : lastSolid? cs = none ↔ cs.all isGap = true := by
  simp [lastSolid?, List.all_eq_true]

theorem isGap_of_mem_leavesAll {e : Option Bracket} {cs : List Component} (h : fitsAll e cs = true)
    (hgaps : cs.all isGap = true) : ∀ l ∈ leavesAll cs, l.token.isGap = true := by
  induction cs with
  | nil => nofun
  | cons c cs ih =>
    obtain ⟨hc, hcs⟩ := Bool.and_eq_true_iff.1 h
    obtain ⟨hg, hgs⟩ := Bool.and_eq_true_iff.1 hgaps
    obtain ⟨l, rfl, hl⟩ := leaf_of_isGap hc hg
    exact List.forall_mem_cons.2 ⟨hl, ih hcs hgs⟩

/-- Behind what is kept of a value that does not end with a block are gaps only. -/
theorem leavesAll_eq_keptLeaves {e : Option Bracket} {value : List Component} (h : fitsAll e value = true)
    (hended : (lastSolid? value).any isBlock = false) :
    ∃ gaps, leavesAll value = keptLeaves value ++ gaps ∧ ∀ l ∈ gaps, l.token.isGap = true := by
  induction value with
  | nil => exact ⟨[], rfl, nofun⟩
  | cons c cs ih =>
    obtain ⟨hc, hcs⟩ := Bool.and_eq_true_iff.1 h
    rw [lastSolid?_cons] at hended
    rw [leavesAll, keptLeaves]
    cases hall : cs.all isGap with
    | true =>
      have hgaps := isGap_of_mem_leavesAll hcs hall
      rw [lastSolid?_eq_none_iff.2 hall, Option.none_or] at hended
      rw [if_pos rfl]
      cases c with
      | block b o body c =>
        rw [if_neg (by simp [isGap_of_fits hc])] at hended
        cases hended
      | leaf l =>
        cases hl : l.token.isGap with
        | true =>
          rw [endLeaves, if_pos hl]
          exact ⟨l :: leavesAll cs, rfl, List.forall_mem_cons.2 ⟨hl, hgaps⟩⟩
        | false =>
          rw [endLeaves, if_neg (by simp [hl])]
          exact ⟨leavesAll cs, rfl, hgaps⟩
    | false =>
      obtain ⟨last, hlast⟩ : ∃ last, lastSolid? cs = some last := by
        rw [← Option.ne_none_iff_exists', Ne, lastSolid?_eq_none_iff, hall]
        simp
      rw [hlast, Option.some_or, ← hlast] at hended
      obtain ⟨gaps, hleaves, hgaps⟩ := ih hcs hended
      rw [if_neg (by simp), hleaves]
      exact ⟨gaps, (List.append_assoc ..).symm, hgaps⟩

/-! ### What a value is told by -/

variable {v v' : List Char}

/-- The lexeme of the bracket behind a block. -/
def closer : Lexeme := ⟨.closing .curly, ['\x7d']⟩

theorem lexemes_closer : lexemes closer.text = [closer] := by
  rw [closer, lexemes_of_scan (t := .closing .curly) rfl, lexemes]

/-- Gaps in front of the bracket behind a block. -/
theorem ends_of_gaps {gaps : List Lexeme} (h : Lexed (gaps ++ [closer])) (hgaps : ∀ l ∈ gaps, l.token.isGap = true) :
    Ends (gaps ++ [closer]) := by
  induction gaps with
  | nil => exact ⟨.closer [], rfl, fun _ => rfl⟩
  | cons l gaps ih =>
    obtain ⟨hl, hgaps⟩ := List.forall_mem_cons.1 hgaps
    have hlex : Lexed (l :: (gaps ++ [closer])) := h
    have ih := ih (h.of_append (a := [l])) hgaps
    refine ⟨hlex.parts_of_gap hl, ?_, fun hgap => absurd (hl.symm.trans hgap) (by decide)⟩
    rw [Bool.eq_false_iff]
    intro hq
    have hnext := hlex.quoteNext_of_gap hl hq
    rw [ih.unquoted] at hnext
    cases hnext

theorem spacing_of_gaps {gaps : List Lexeme} (h : ∀ l ∈ gaps, l.token.isGap = true) : spacing gaps = [] := by
  induction gaps with
  | nil => rfl
  | cons l gaps ih =>
    obtain ⟨hl, hgaps⟩ := List.forall_mem_cons.1 h
    rw [spacing_of_gap hl, ih hgaps]

/-- Gaps behind the last solid lexeme stand within no more than the end does. -/
theorem gapsWithin_append {a gaps : List Lexeme} (hlast : ∀ l ∈ a.getLast?, l.token.isGap = false)
    (hgaps : ∀ l ∈ gaps, l.token.isGap = true) : gapsWithin (a ++ gaps) = gapsWithin a := by
  rcases List.eq_nil_or_concat a with rfl | ⟨a, k, rfl⟩
  · rw [List.nil_append, gapsWithin, spacing_of_gaps hgaps]
    rfl
  rw [List.concat_eq_append] at hlast ⊢
  obtain ⟨front, h, h'⟩ := spacing_append (hlast k (by simp)) a gaps
  rw [gapsWithin, gapsWithin, List.append_assoc, List.singleton_append, h, h', spacing_of_gaps hgaps, List.map_append,
    List.map_append]
  simp

theorem SoundValue.closed (h : SoundValue v) : ClosedTokens v :=
  ⟨.of_fence (.of_fence (by decide) []) h.apart, h.balanced⟩

/-- The parts of the tokens of a value: those that are kept, and gaps behind them. -/
theorem SoundValue.exists_gaps (h : SoundValue v) :
    ∃ gaps, lexemes v = keptLeaves (componentsOf v) ++ gaps ∧ (∀ l ∈ gaps, l.token.isGap = true) ∧
      Lexed (keptLeaves (componentsOf v) ++ (gaps ++ [closer])) ∧ Ends (gaps ++ [closer]) := by
  obtain ⟨gaps, hleaves, hgaps⟩ := leavesAll_eq_keptLeaves h.balanced h.ended
  have hlexemes : lexemes v = keptLeaves (componentsOf v) ++ gaps := by
    rw [← hleaves, componentsOf, leavesAll_components]
  have hlexed : Lexed (keptLeaves (componentsOf v) ++ (gaps ++ [closer])) := by
    rw [← List.append_assoc, ← hlexemes, Lexed, textOf_append, textOf_lexemes]
    exact h.apart.trans (congrArg _ lexemes_closer)
  exact ⟨gaps, hlexemes, hgaps, hlexed, ends_of_gaps hlexed.of_append hgaps⟩

/-- What is kept of a value is its tokens with a space in each gap. -/
theorem SoundValue.tidy_valueText (h : SoundValue v) (hd : Distinct v) :
    tidy (valueText (componentsOf v)) = joined (spacing (keptLeaves (componentsOf v))) := by
  obtain ⟨gaps, hlexemes, -⟩ := h.exists_gaps
  have hlexed : Lexed (keptLeaves (componentsOf v) ++ gaps) := hlexemes ▸ lexed_lexemes v
  have hspaced : ∀ l ∈ keptLeaves (componentsOf v), l.token.isGap = false → Spaced l.text := fun l hl =>
    hd.spaced l (hlexemes ▸ List.mem_append_left gaps hl)
  rw [← textOf_keptLeaves]
  exact tidy_textOf hlexed (isGap_getLast_keptLeaves h.balanced) hspaced (hlexemes ▸ hd.marked)

theorem escapesHeld_closer (ls : List Lexeme) : escapesHeld (ls ++ [closer]) = escapesHeld ls := by
  induction ls with
  | nil => rfl
  | cons l ls ih =>
    have hnext : startsGap (ls ++ [closer]) = startsGap ls := by
      cases ls <;> rfl
    rw [List.cons_append, escapesHeld, escapesHeld, ih, hnext]

theorem SoundValue.fair (h : SoundValue v) (hd : Distinct v) : Fair (lexemes v ++ [closer]) := by
  refine ⟨List.forall_mem_append.2 ⟨h.sound, by decide⟩, ?_⟩
  rw [escapesHeld_closer]
  exact hd.held

/-- Two values with the same tokens, parted in the same places. -/
structure SameTokens (v v' : List Char) : Prop where
  tokens : (solid (lexemes v)).map (·.text) = (solid (lexemes v')).map (·.text)
  gaps : gapsWithin (lexemes v) = gapsWithin (lexemes v')

theorem SoundValue.spacing_eq_iff (h : SoundValue v) (h' : SoundValue v') :
    spacing (keptLeaves (componentsOf v)) = spacing (keptLeaves (componentsOf v')) ↔ SameTokens v v' := by
  obtain ⟨gaps, hlexemes, hgaps, -⟩ := h.exists_gaps
  obtain ⟨gaps', hlexemes', hgaps', -⟩ := h'.exists_gaps
  have hlast := isGap_getLast_keptLeaves h.balanced
  have hlast' := isGap_getLast_keptLeaves h'.balanced
  have htokens {gaps : List Lexeme} (hgaps : ∀ l ∈ gaps, l.token.isGap = true) (a : List Lexeme) :
      (solid (a ++ gaps)).map (·.text) = (spacing a).map Prod.fst := by
    rw [map_fst_spacing, solid_append, List.map_append, ← map_fst_spacing gaps, spacing_of_gaps hgaps, List.map_nil,
      List.append_nil]
  constructor
  · intro heq
    refine ⟨?_, ?_⟩
    · rw [hlexemes, hlexemes', htokens hgaps, htokens hgaps', heq]
    · rw [hlexemes, hlexemes', gapsWithin_append hlast hgaps, gapsWithin_append hlast' hgaps', gapsWithin, gapsWithin,
        heq]
  · rintro ⟨hsame, hwithin⟩
    rw [hlexemes, hlexemes', htokens hgaps, htokens hgaps', map_fst_spacing, map_fst_spacing] at hsame
    rw [hlexemes, hlexemes'] at hwithin
    have hagree := Agree.refl (gapsWithin (keptLeaves (componentsOf v') ++ gaps'))
    nth_rewrite 1 [← hwithin] at hagree
    exact spacing_eq_of_agree hlast hlast' hsame hagree

/-- Values in which only gaps look like gaps are kept the same if they have the same tokens, and only then. -/
theorem SoundValue.tidy_eq_iff (h : SoundValue v) (h' : SoundValue v') (hd : Distinct v) (hd' : Distinct v') :
    tidy (valueText (componentsOf v)) = tidy (valueText (componentsOf v')) ↔ SameTokens v v' := by
  obtain ⟨gaps, hlexemes, -, hlexed, hends⟩ := h.exists_gaps
  obtain ⟨gaps', hlexemes', -, hlexed', hends'⟩ := h'.exists_gaps
  have hfair := h.fair hd
  have hfair' := h'.fair hd'
  rw [hlexemes, List.append_assoc] at hfair
  rw [hlexemes', List.append_assoc] at hfair'
  rw [h.tidy_valueText hd, h'.tidy_valueText hd', ← h.spacing_eq_iff h']
  exact ⟨spacing_inj hlexed hfair hends hlexed' hfair' hends', congrArg joined⟩

/-! ### Edits of a value -/

theorem splitMark_eq_self {cs : List Component} (h : (splitMark cs).2 = none) : splitMark cs = (cs, none) := by
  induction cs with
  | nil => rfl
  | cons c cs ih =>
    rw [splitMark] at h ⊢
    cases hc : afterMark? (c :: cs) with
    | some rest =>
      rw [hc] at h
      cases h
    | none =>
      rw [hc] at h
      rw [ih h]

/-- The declaration of the block of a rule with one declaration. -/
theorem SoundValue.ofBlock_eq (h : SoundValue v) (p : List Char) :
    ofBlock (bodyOf p (componentsOf v) false) =
      [⟨String.ofList p, String.ofList (tidy (valueText (componentsOf v))), false⟩] := by
  have hsplit : splitMark (componentsOf v ++ markOf false) = (componentsOf v, if false then some [] else none) := by
    rw [markOf, if_neg (by simp), List.append_nil, splitMark_eq_self h.unmarked]
    rfl
  have hcurly : ((componentsOf v).any isCurly && !isCustom (String.ofList p)) = false := by
    rw [List.any_eq_false.2 fun x hx => by simp [h.flat x hx], Bool.false_and]
  exact ofBlock_bodyOf h.undivided (ofComponents?_of_split rfl hsplit hcurly)

variable {s p : List Char}

/-- A value is kept as its characters without what looks like comments and blanks, and an edit of it is no change
only if the same is kept of both. If only gaps look like gaps, that is its tokens with a space in each gap, and two
values are told apart by their tokens and by which of these a gap parts. -/
theorem value_edit_exact (hs : SelectorText s) (hp : PlainName p) (hv : SoundValue v) (hv' : SoundValue v') :
    atPosition? (ruleText s p v false) ⟨0, 1⟩ =
      some [⟨String.ofList p, String.ofList (tidy (valueText (componentsOf v))), false⟩] ∧
    (∀ verbose r, Report.predict (some (String.ofList (ruleText s p v false)))
        (some (String.ofList (ruleText s p v' false))) verbose = .ok r →
      (r.bump = .none ↔ atPosition? (ruleText s p v false) ⟨0, 1⟩ = atPosition? (ruleText s p v' false) ⟨0, 1⟩)) ∧
    (Distinct v → tidy (valueText (componentsOf v)) = joined (spacing (keptLeaves (componentsOf v)))) ∧
    (Distinct v → Distinct v' →
      (atPosition? (ruleText s p v false) ⟨0, 1⟩ = atPosition? (ruleText s p v' false) ⟨0, 1⟩ ↔ SameTokens v v')) := by
  have hread : atPosition? (ruleText s p v false) ⟨0, 1⟩ = _ :=
    (atPosition?_closed hs hp hv.closed false).trans (congrArg some (hv.ofBlock_eq p))
  have hread' : atPosition? (ruleText s p v' false) ⟨0, 1⟩ = _ :=
    (atPosition?_closed hs hp hv'.closed false).trans (congrArg some (hv'.ofBlock_eq p))
  have hsame : atPosition? (ruleText s p v false) ⟨0, 1⟩ = atPosition? (ruleText s p v' false) ⟨0, 1⟩ ↔
      tidy (valueText (componentsOf v)) = tidy (valueText (componentsOf v')) := by
    rw [hread, hread', Option.some_inj, List.singleton_inj, declaration_eq_iff, and_iff_left rfl]
  refine ⟨hread, fun verbose r hr => Iff.trans ?_ hsame.symm, hv.tidy_valueText,
    fun hd hd' => hsame.trans (hv.tidy_eq_iff hv' hd hd')⟩
  have hpredict := predict_closed hs hp hv.closed hv'.closed hr
  rw [hv.ofBlock_eq, hv'.ofBlock_eq, List.singleton_inj, declaration_eq_iff, and_iff_left rfl] at hpredict
  have hflat : ∀ x ∈ componentsOf v ++ componentsOf v', x.isCurly = false ∧ isSemicolon x = false :=
    List.forall_mem_append.2 ⟨fun x hx => ⟨hv.flat x hx, hv.undivided x hx⟩,
      fun x hx => ⟨hv'.flat x hx, hv'.undivided x hx⟩⟩
  exact ⟨hpredict.1, hpredict.2 hflat⟩

/-- Gaps of two forms, strings that hold the end of a comment, and an escape. -/
theorem value_edit_exact_content :
    atPosition? (ruleText ".a".toList "content".toList "\"a */\"/**/url( c ) d\\9".toList false) ⟨0, 1⟩ ≠
      atPosition? (ruleText ".a".toList "content".toList "\"b */\"\turl( c )\n d\\9".toList false) ⟨0, 1⟩ := by
  have hs : SelectorText ".a".toList :=
    ⟨by decide +kernel, by decide +kernel, by decide +kernel, by decide +kernel⟩
  have hp : PlainName "content".toList := ⟨by decide +kernel, by decide +kernel⟩
  have hv : SoundValue "\"a */\"/**/url( c ) d\\9".toList :=
    ⟨by decide +kernel, by decide +kernel, by decide +kernel, by decide +kernel, by decide +kernel, by decide +kernel,
      by decide +kernel⟩
  have hv' : SoundValue "\"b */\"\turl( c )\n d\\9".toList :=
    ⟨by decide +kernel, by decide +kernel, by decide +kernel, by decide +kernel, by decide +kernel, by decide +kernel,
      by decide +kernel⟩
  have hd : Distinct "\"a */\"/**/url( c ) d\\9".toList := ⟨by decide +kernel, by decide +kernel, by decide +kernel⟩
  have hd' : Distinct "\"b */\"\turl( c )\n d\\9".toList := ⟨by decide +kernel, by decide +kernel, by decide +kernel⟩
  intro hsame
  have htokens := (((value_edit_exact hs hp hv hv').2.2.2 hd hd').1 hsame).tokens
  exact absurd htokens (by decide +kernel)

/-- The inside of a string is lost, and the edit of it is no change. Blanks in strings and spaces that are characters
of a name are lost too. -/
theorem value_lost_in_string :
    atPosition? ".a\x7bcontent:\"/*x*/\"\x7d".toList ⟨0, 1⟩ = some [⟨"content", "\" \"", false⟩] ∧
    (Report.predict (some ".a\x7bcontent:\"/*x*/\"\x7d") (some ".a\x7bcontent:\"/*y*/\"\x7d") false).toOption =
      some ⟨.none, []⟩ ∧
    atPosition? ".a\x7bcontent:\"a  b\"\x7d".toList ⟨0, 1⟩ = atPosition? ".a\x7bcontent:\"a b\"\x7d".toList ⟨0, 1⟩ ∧
    atPosition? ".a\x7bfont:a\u00a0b\x7d".toList ⟨0, 1⟩ = atPosition? ".a\x7bfont:a b\x7d".toList ⟨0, 1⟩ := by
  refine ⟨?_, ?_, ?_, ?_⟩ <;> decide +kernel

end StyleBump.Declaration
