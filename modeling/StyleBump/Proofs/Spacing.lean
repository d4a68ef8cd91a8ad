import StyleBump.General
import StyleBump.Proofs.AuthoredValue
import StyleBump.Proofs.TokenRoles

/-! # Text between the solid tokens

A value is compared by its words. Which these are depends on the solid lexemes of the value and on where gaps
stand between them, and not on what the gaps are (`words_dropComments`), if comments are the only place
where `/*` stands: what drops the comments looks for it in the characters and knows nothing of tokens. -/

namespace StyleBump.Css
open List Text

/-! ### Gaps -/

def startsGap (ls : List Lexeme) : Bool := ls.head?.any (·.token.isGap)

/-- The solid lexemes as they are written, each with whether a gap stands right behind it. -/
def spacing : List Lexeme → List (List Char × Bool)
  | [] => []
  | l :: ls => if l.token.isGap then spacing ls else (l.text, startsGap ls) :: spacing ls

theorem spacing_of_gap {l : Lexeme} (h : l.token.isGap = true) (ls : List Lexeme) : spacing (l :: ls) = spacing ls :=
  if_pos h

theorem spacing_of_solid {l : Lexeme} (h : l.token.isGap = false) (ls : List Lexeme) :
    spacing (l :: ls) = (l.text, startsGap ls) :: spacing ls := if_neg (by simp [h])

/-- For each solid lexeme but the last, whether a gap stands between it and the next. -/
def gapsWithin (ls : List Lexeme) : List Bool := ((spacing ls).map Prod.snd).dropLast

theorem map_fst_spacing (ls : List Lexeme) : (spacing ls).map Prod.fst = (solid ls).map (·.text) := by
  induction ls with
  | nil => rfl
  | cons l ls ih =>
    cases hg : l.token.isGap with
    | true =>
      rw [spacing_of_gap hg, solid, filter_cons_of_neg (by simp [hg])]
      exact ih
    | false =>
      rw [spacing_of_solid hg, solid, filter_cons_of_pos (by simp [hg]), map_cons, map_cons, ih]
      rfl

/-- The solid lexeme at the end of a part has its gap, if any, in the rest. -/
theorem spacing_append {k : Lexeme} (hk : k.token.isGap = false) (a b : List Lexeme) :
    ∃ front, spacing (a ++ [k]) = front ++ [(k.text, false)] ∧
      spacing (a ++ k :: b) = front ++ (k.text, startsGap b) :: spacing b := by
  induction a with
  | nil => exact ⟨[], by simp [spacing, hk, startsGap], by simp [spacing, hk]⟩
  | cons l a ih =>
    obtain ⟨front, h, h'⟩ := ih
    have hnext : startsGap (a ++ k :: b) = startsGap (a ++ [k]) := by
      cases a <;> rfl
    cases hg : l.token.isGap with
    | true =>
      refine ⟨front, ?_, ?_⟩
      · rw [cons_append, spacing_of_gap hg, h]
      · rw [cons_append, spacing_of_gap hg, h']
    | false =>
      refine ⟨(l.text, startsGap (a ++ [k])) :: front, ?_, ?_⟩
      · rw [cons_append, spacing_of_solid hg, h, cons_append]
      · rw [cons_append, spacing_of_solid hg, h', hnext, cons_append]

/-! ### Words -/

/-- The characters of a lexeme once comments are dropped. -/
def Lexeme.shown (l : Lexeme) : List Char :=
  match l.token with
  | .comment _ => [' ']
  | _ => l.text

def shownOf (ls : List Lexeme) : List Char := (ls.map Lexeme.shown).flatten

/-- A gap as a single space. -/
def gapText (gap : Bool) : List Char := if gap then [' '] else []

/-- The solid lexemes with a space in each gap. -/
def joined (xs : List (List Char × Bool)) : List Char := (xs.map fun x => x.1 ++ gapText x.2).flatten

theorem shown_of_gap {cs : List Char} {l : Lexeme} (hl : l ∈ lexemes cs) (h : l.token.isGap = true) :
    l.shown ≠ [] ∧ ∀ c ∈ l.shown, isBlank c = true := by
  unfold Lexeme.shown
  split
  · refine ⟨cons_ne_nil _ _, fun c hc => ?_⟩
    obtain rfl := mem_singleton.1 hc
    rfl
  · rename_i hcomment
    refine ⟨text_ne_nil hl, ?_⟩
    rcases gap_cases hl h with hspace | ⟨⟨t, ht⟩, -⟩
    · exact fun c hc => Declaration.isBlank_of_isSpace (hspace c hc)
    · exact absurd ht (hcomment t)

theorem shown_of_solid {l : Lexeme} (h : l.token.isGap = false) : l.shown = l.text := by
  unfold Lexeme.shown
  split
  · rename_i t ht
    rw [ht] at h
    cases h
  · rfl

/-- The words of a text are those of its solid lexemes with a space in each gap. -/
theorem words_shownOf {cs : List Char} {ls : List Lexeme} (h : ls ⊆ lexemes cs) (x : List Char) :
    words (x ++ shownOf ls) = words (x ++ (gapText (startsGap ls) ++ joined (spacing ls))) := by
  induction ls generalizing x with
  | nil => rfl
  | cons l ls ih =>
    obtain ⟨hl, hls⟩ := cons_subset.1 h
    have ih := ih hls
    have hcons : shownOf (l :: ls) = l.shown ++ shownOf ls := rfl
    cases hg : l.token.isGap with
    | true =>
      -- Whatever the gap is, it parts the words as a space does.
      obtain ⟨hne, hblank⟩ := shown_of_gap hl hg
      have hlead : gapText (startsGap (l :: ls)) = [' '] := by
        rw [show startsGap (l :: ls) = true from hg]
        rfl
      have hspacing := spacing_of_gap hg ls
      have hrest : words (shownOf ls) = words (joined (spacing ls)) := by
        refine (ih []).trans ?_
        cases startsGap ls with
        | false => rfl
        | true => exact words_append_blank [] (by decide) _
      rw [hcons, ← append_assoc, words_append_blanks x hblank hne, hrest, hlead, hspacing, singleton_append,
        words_append_blank x (by decide)]
    | false =>
      have hlead : gapText (startsGap (l :: ls)) = [] := by
        rw [show startsGap (l :: ls) = false from hg]
        rfl
      have hspacing := spacing_of_solid hg ls
      have hjoined : joined ((l.text, startsGap ls) :: spacing ls) =
          l.text ++ gapText (startsGap ls) ++ joined (spacing ls) := rfl
      rw [hcons, shown_of_solid hg, ← append_assoc, ih, hlead, hspacing, hjoined, nil_append, append_assoc,
        append_assoc]

/-! ### Comments -/

/-- Whether `/*` starts in no lexeme other than a comment. -/
def commentsMarked : List Lexeme → Bool
  | [] => true
  | l :: ls =>
    (l.token matches .comment _ || ¬ ['/', '*'] <:+: l.text ++ (Lexeme.textOf ls).take 1) && commentsMarked ls

theorem commentsMarked_append {a b : List Lexeme} (h : commentsMarked (a ++ b) = true) : commentsMarked b = true := by
  induction a with
  | nil => exact h
  | cons l a ih => exact ih (Bool.and_eq_true_iff.1 h).2

theorem commentBody_suffix_tail (c : Char) (cs : List Char) : (commentBody (c :: cs)).2 <:+ cs := by
  by_cases h : c = '*' ∧ ∃ ds, cs = '/' :: ds
  · obtain ⟨rfl, ds, rfl⟩ := h
    exact suffix_cons _ _
  · rw [commentBody.eq_3 c cs fun ds hc hds => h ⟨hc, ds, hds⟩]
    exact commentBody_suffix cs

theorem commentBody_ne_self {w : List Char} (hw : w ≠ []) : (commentBody w).2 ≠ w := by
  obtain ⟨c, cs, rfl⟩ := exists_cons_of_ne_nil hw
  intro h
  have hle := (commentBody_suffix_tail c cs).length_le
  rw [h, length_cons] at hle
  omega

/-- A comment that ends in front of `w` ends in the same place in front of any text. -/
theorem dropComments_comment {x w : List Char} (hw : w ≠ []) (h : (commentBody (x ++ w)).2 = w) (y : List Char) :
    dropComments true (x ++ y) = dropComments false y := by
  induction x with
  | nil => exact absurd h (commentBody_ne_self hw)
  | cons c x ih =>
    cases x with
    | nil =>
      -- One character is no end of a comment, also not together with what follows.
      exfalso
      by_cases hend : c = '*' ∧ ∃ ds, w = '/' :: ds
      · obtain ⟨rfl, ds, rfl⟩ := hend
        exact absurd (congrArg length h) (by simp [commentBody])
      · rw [cons_append, nil_append, commentBody.eq_3 c w fun ds hc hds => hend ⟨hc, ds, hds⟩] at h
        exact commentBody_ne_self hw h
    | cons d x =>
      by_cases hcd : c = '*' ∧ d = '/'
      · obtain ⟨rfl, rfl⟩ := hcd
        obtain rfl : x = [] := append_left_eq_self.1 h
        rfl
      · have hbody : (commentBody (d :: x ++ w)).2 = w := by
          rw [cons_append, commentBody.eq_3 c (d :: x ++ w) fun ds hc hds => hcd ⟨hc, (cons.inj hds).1⟩] at h
          exact h
        rw [cons_append, cons_append, dropComments, if_pos rfl, if_neg (by simpa using hcd)]
        exact ih hbody

theorem Lexed.textOf_ne_nil {ls : List Lexeme} (h : Lexed ls) (hne : ls ≠ []) : Lexeme.textOf ls ≠ [] := by
  intro hnil
  rw [Lexed, hnil, lexemes] at h
  exact hne h.symm

theorem Lexed.text_of_comment {l : Lexeme} {ls : List Lexeme} (h : Lexed (l :: ls)) {t : String}
    (ht : l.token = .comment t) :
    ∃ x, l.text = '/' :: '*' :: x ∧ (commentBody (x ++ Lexeme.textOf ls)).2 = Lexeme.textOf ls := by
  obtain ⟨c, cs, htext, hscan⟩ := h.exists_scan
  have htok : (scan c cs).1 = .comment t := by rw [hscan, ht]
  rcases scan_cases c cs with hb | hs | hc | hw
  · simp only [brackets, mem_cons, not_mem_nil, or_false] at hb
    rcases hb with rfl | rfl | rfl | rfl | rfl | rfl <;> cases htok
  · rw [scan_of_space hs] at htok
    cases htok
  · obtain ⟨ds, hds⟩ := hc
    obtain ⟨rfl, rfl⟩ := cons.inj hds
    have hrest : (commentBody ds).2 = Lexeme.textOf ls := congrArg Prod.snd hscan
    obtain ⟨x, hx⟩ : Lexeme.textOf ls <:+ ds := by
      rw [← hrest]
      exact commentBody_suffix ds
    refine ⟨x, append_cancel_right (htext.trans ?_), by rw [hx, hrest]⟩
    rw [← hx]
    rfl
  · have hgap := hw.gap
    rw [htok] at hgap
    cases hgap

theorem Lexed.dropComments_of_comment {l : Lexeme} {ls : List Lexeme} (h : Lexed (l :: ls)) (hne : ls ≠ []) {t : String}
    (ht : l.token = .comment t) (y : List Char) :
    dropComments false (l.text ++ y) = l.shown ++ dropComments false y := by
  have hrest : Lexeme.textOf ls ≠ [] := (h.of_append (a := [l])).textOf_ne_nil hne
  obtain ⟨x, htext, hend⟩ := h.text_of_comment ht
  have hshown : l.shown = [' '] := by
    rw [Lexeme.shown, ht]
  rw [htext, hshown, cons_append, cons_append, dropComments, if_neg (by simp), if_pos (by simp),
    dropComments_comment hrest hend, singleton_append]

theorem dropComments_of_other {l : Lexeme} {ls : List Lexeme} (hm : commentsMarked (l :: ls) = true)
    (hc : ∀ t, l.token ≠ .comment t) {y : List Char} (hy : y.take 1 <+: (Lexeme.textOf ls).take 1) :
    dropComments false (l.text ++ y) = l.shown ++ dropComments false y := by
  have hshown : l.shown = l.text := by
    unfold Lexeme.shown
    split
    · rename_i t ht
      exact absurd ht (hc t)
    · rfl
  have hfree : ¬ ['/', '*'] <:+: l.text ++ (Lexeme.textOf ls).take 1 := by
    have hmark := (Bool.and_eq_true_iff.1 hm).1
    cases ht : l.token with
    | comment t => exact absurd ht (hc t)
    | _ =>
      rw [ht] at hmark
      exact of_decide_eq_true hmark
  rw [hshown]
  exact dropComments_append y fun h => hfree (h.trans ((prefix_append_right_inj l.text).2 hy).isInfix)

/-- Up to a solid lexeme, the comments that are found in the characters are those among the lexemes. -/
theorem dropComments_textOf {a b : List Lexeme} (h : Lexed (a ++ b)) (hm : commentsMarked (a ++ b) = true)
    (hlast : ∀ l ∈ a.getLast?, l.token.isGap = false) : dropComments false (Lexeme.textOf a) = shownOf a := by
  induction a with
  | nil => rfl
  | cons l a ih =>
    have hrest : dropComments false (Lexeme.textOf a) = shownOf a := by
      refine ih (h.of_append (a := [l])) (Bool.and_eq_true_iff.1 hm).2 fun k hk => hlast k ?_
      cases a with
      | nil => cases hk
      | cons _ _ => exact hk
    rw [textOf_cons, show shownOf (l :: a) = l.shown ++ shownOf a from rfl, ← hrest]
    by_cases hc : ∃ t, l.token = .comment t
    · obtain ⟨t, ht⟩ := hc
      have hl : Lexed (l :: (a ++ b)) := h
      refine hl.dropComments_of_comment (fun hnil => ?_) ht _
      obtain ⟨rfl, -⟩ := append_eq_nil_iff.1 hnil
      have hsolid := hlast l rfl
      rw [ht] at hsolid
      cases hsolid
    · have hnext : (Lexeme.textOf a).take 1 <+: (Lexeme.textOf (a ++ b)).take 1 := by
        rw [textOf_append]
        cases Lexeme.textOf a with
        | nil => exact nil_prefix
        | cons _ _ => exact prefix_refl _
      exact dropComments_of_other hm (fun t ht => hc ⟨t, ht⟩) hnext

/-! ### Values -/

/-- The words of a part up to a solid lexeme are told by its solid lexemes and by the gaps between them. -/
theorem words_dropComments {a b : List Lexeme} (h : Lexed (a ++ b)) (hm : commentsMarked (a ++ b) = true)
    (hlast : ∀ l ∈ a.getLast?, l.token.isGap = false) :
    words (dropComments false (Lexeme.textOf a)) = words (joined (spacing a)) := by
  have hsub : a ⊆ lexemes (Lexeme.textOf (a ++ b)) := by
    rw [h]
    exact subset_append_left a b
  have hwords := words_shownOf hsub []
  rw [nil_append, nil_append] at hwords
  rw [dropComments_textOf h hm hlast, hwords]
  cases startsGap a with
  | false => rfl
  | true => exact words_append_blank [] (by decide) _

/-- Whether two rows of gaps are the same as far as both go. -/
def Agree (xs ys : List Bool) : Prop := ∀ g ∈ xs.zip ys, g.1 = g.2

instance (xs ys : List Bool) : Decidable (Agree xs ys) := List.decidableBAll _ _

theorem Agree.refl (xs : List Bool) : Agree xs xs := by
  induction xs with
  | nil => exact nofun
  | cons x xs ih => exact forall_mem_cons.2 ⟨rfl, ih⟩

theorem Agree.eq_of_isPrefix {xs ys xs' ys' : List Bool} (h : Agree xs' ys') (hx : xs <+: xs') (hy : ys <+: ys')
    (hl : xs.length = ys.length) : xs = ys := by
  obtain ⟨p, rfl⟩ := hx
  obtain ⟨q, rfl⟩ := hy
  induction xs generalizing ys with
  | nil => exact (length_eq_zero_iff.1 hl.symm).symm
  | cons x xs ih =>
    obtain ⟨y, ys, rfl⟩ := exists_cons_of_length_eq_add_one hl.symm
    obtain ⟨hxy, hrest⟩ := forall_mem_cons.1 h
    obtain rfl : x = y := hxy
    rw [ih (Nat.succ.inj hl) hrest]

/-- Up to a solid lexeme at the end of a part, the gaps of the part are those of the whole. -/
theorem exists_spacing {k : Lexeme} (hk : k.token.isGap = false) (a b : List Lexeme) :
    ∃ front, spacing (a ++ [k]) = front ++ [(k.text, false)] ∧ front.map Prod.snd <+: gapsWithin (a ++ [k] ++ b) := by
  obtain ⟨front, h, h'⟩ := spacing_append hk a b
  refine ⟨front, h, ?_⟩
  rw [append_assoc, singleton_append, gapsWithin, h', map_append, map_cons, dropLast_append_of_ne_nil (cons_ne_nil _ _)]
  exact prefix_append _ _

/-- Parts up to a solid lexeme that are written the same, in wholes that have the same gaps. -/
theorem spacing_eq_of_agree {a b a' b' : List Lexeme} (hlast : ∀ l ∈ a.getLast?, l.token.isGap = false)
    (hlast' : ∀ l ∈ a'.getLast?, l.token.isGap = false)
    (htext : (solid a).map (·.text) = (solid a').map (·.text))
    (h : Agree (gapsWithin (a ++ b)) (gapsWithin (a' ++ b'))) : spacing a = spacing a' := by
  have hfst : (spacing a).map Prod.fst = (spacing a').map Prod.fst := by
    rw [map_fst_spacing, map_fst_spacing, htext]
  rcases eq_nil_or_concat a with rfl | ⟨a, k, rfl⟩
  · exact (map_eq_nil_iff.1 hfst.symm).symm
  rcases eq_nil_or_concat a' with rfl | ⟨a', k', rfl⟩
  · exact map_eq_nil_iff.1 hfst
  simp only [concat_eq_append] at *
  obtain ⟨front, hs, hp⟩ := exists_spacing (hlast k (by simp)) a b
  obtain ⟨front', hs', hp'⟩ := exists_spacing (hlast' k' (by simp)) a' b'
  rw [hs, hs', map_append, map_append] at hfst
  obtain ⟨hfront, hends⟩ := append_inj' hfst rfl
  have hk : k.text = k'.text := (cons.inj hends).1
  have hlen : (front.map Prod.snd).length = (front'.map Prod.snd).length := by
    have hl := congrArg length hfront
    simpa using hl
  rw [hs, hs', eq_of_map_fst_of_map_snd hfront (h.eq_of_isPrefix hp hp' hlen), hk]

end StyleBump.Css
