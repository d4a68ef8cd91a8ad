import StyleBump.Proofs.Lookahead
import StyleBump.Proofs.Spacing

/-! # Reading joined tokens

Solid tokens with a space in each gap are read back: they are the same tokens again, parted in the same places
(`spacing_joined`). So what is joined to the same text has the same tokens (`spacing_inj`). Only strings that a line
break cuts off spoil this, and escapes with a gap behind them, since one that ends in digits takes a space. -/

namespace StyleBump.Css
open List Text

/-- Whether a lexeme starts with a quote. -/
def Lexeme.isQuoted (l : Lexeme) : Bool := l.text.head?.any fun c => c ∈ ['"', '\'']

/-- Whether no gap stands right behind a lexeme that holds an escape, strings apart. -/
def escapesHeld : List Lexeme → Bool
  | [] => true
  | l :: ls => (l.token.isGap || l.isQuoted || '\\' ∉ l.text || !startsGap ls) && escapesHeld ls

/-- Lexemes that end in the same places whatever gaps stand between them. -/
structure Fair (ls : List Lexeme) : Prop where
  sound : ∀ l ∈ ls, l.token.isSpoiled = false
  held : escapesHeld ls = true

/-- The end of a block, maybe behind a gap. -/
structure Ends (z : List Lexeme) : Prop where
  parts : Parts (Lexeme.textOf z)
  unquoted : quoteNext (Lexeme.textOf z) = false
  next : startsGap z = false → (Lexeme.textOf z).head? = some '\x7d'

theorem Fair.tail {l : Lexeme} {ls : List Lexeme} (h : Fair (l :: ls)) : Fair ls :=
  ⟨(forall_mem_cons.1 h.sound).2, (Bool.and_eq_true_iff.1 h.held).2⟩

theorem Fair.startsGap_eq_false {l : Lexeme} {ls : List Lexeme} (h : Fair (l :: ls)) (hg : l.token.isGap = false)
    (hq : l.isQuoted = false) (hesc : '\\' ∈ l.text) : startsGap ls = false := by
  have hheld := (Bool.and_eq_true_iff.1 h.held).1
  simpa [hg, hq, hesc] using hheld

theorem Ends.textOf_ne_nil {z : List Lexeme} (h : Ends z) (a : List Lexeme) : Lexeme.textOf (a ++ z) ≠ [] := by
  obtain ⟨d, b, hz, -⟩ := h.parts.exists_cons
  rw [textOf_append, hz]
  exact append_ne_nil_of_right_ne_nil _ (cons_ne_nil d b)

/-! ### What a token stands in front of -/

section
variable {l : Lexeme} {ls : List Lexeme} (h : Lexed (l :: ls))
include h

theorem Lexed.mem_lexemes : l ∈ lexemes (Lexeme.textOf (l :: ls)) := by
  rw [h]
  exact mem_cons_self

theorem Lexed.text_ne_nil : l.text ≠ [] := Css.text_ne_nil h.mem_lexemes

theorem Lexed.gap_cases (hg : l.token.isGap = true) :
    (∀ c ∈ l.text, isSpace c = true) ∨ ∃ x, l.text = '/' :: '*' :: x := by
  rcases Css.gap_cases h.mem_lexemes hg with hspace | ⟨⟨t, ht⟩, -⟩
  · exact .inl hspace
  · obtain ⟨x, hx, -⟩ := h.text_of_comment ht
    exact .inr ⟨x, hx⟩

theorem Lexed.parts_of_gap (hg : l.token.isGap = true) : Parts (Lexeme.textOf (l :: ls)) := by
  rw [textOf_cons]
  rcases h.gap_cases hg with hspace | ⟨x, hx⟩
  · obtain ⟨c, x, hx⟩ := exists_cons_of_ne_nil h.text_ne_nil
    rw [hx] at hspace ⊢
    exact .space (hspace c mem_cons_self) _
  · rw [hx]
    exact .comment _

/-- A string behind a gap stands behind what follows the white space. -/
theorem Lexed.quoteNext_of_gap (hg : l.token.isGap = true) (hq : quoteNext (Lexeme.textOf (l :: ls)) = true) :
    quoteNext (Lexeme.textOf ls) = true := by
  rw [textOf_cons, quoteNext] at hq
  rcases h.gap_cases hg with hspace | ⟨x, hx⟩
  · rw [dropWhile_append_of_pos hspace] at hq
    exact hq
  · rw [hx] at hq
    cases hq

/-- What a solid lexeme is read from: it starts with no space and with no comment. -/
theorem Lexed.exists_solid_scan (hg : l.token.isGap = false) :
    ∃ c x, l.text = c :: x ∧ scan c (x ++ Lexeme.textOf ls) = (l.token, Lexeme.textOf ls) ∧ isSpace c = false ∧
      ¬ ['/', '*'] <+: c :: (x ++ Lexeme.textOf ls) := by
  obtain ⟨d, cs, htext, hscan⟩ := h.exists_scan
  obtain ⟨c, x, hx⟩ := exists_cons_of_ne_nil h.text_ne_nil
  rw [hx, cons_append] at htext
  obtain ⟨rfl, rfl⟩ := cons.inj htext
  have htok : (scan c (x ++ Lexeme.textOf ls)).1.isGap = false := by
    rw [hscan]
    exact hg
  refine ⟨c, x, hx, hscan, ?_, fun hcomment => ?_⟩
  · rw [Bool.eq_false_iff]
    intro hs
    rw [scan_of_space hs] at htok
    cases htok
  · obtain ⟨t, ht⟩ := scan_of_comment hcomment
    rw [ht] at htok
    cases htok

end

theorem startsBreak_textOf {ls : List Lexeme} (h : Lexed ls) (hgap : startsGap ls = false) :
    startsBreak (Lexeme.textOf ls) = false := by
  cases ls with
  | nil => rfl
  | cons l ls =>
    obtain ⟨c, x, hx, -, hs, -⟩ := h.exists_solid_scan hgap
    rw [textOf_cons, hx]
    exact Bool.eq_false_iff.2 fun hb => absurd (isSpace_of_isBreak hb) (by simp [hs])

section
variable {l : Lexeme} {ls : List Lexeme} {t' : List Char} (h : Lexed (l :: ls)) (hfair : Fair (l :: ls))
  (hg : l.token.isGap = false) (hne : Lexeme.textOf ls ≠ []) (hakin : Akin (Lexeme.textOf ls) t')
  (hnext : startsGap ls = false → t'.head? = (Lexeme.textOf ls).head?)
include h hfair hg hne hakin hnext

/-- A token is read on in front of a text that is alike, also behind an escape. -/
theorem Lexed.akin_text (hq : l.isQuoted = false) : Akin (l.text ++ Lexeme.textOf ls) (l.text ++ t') := by
  by_cases hesc : '\\' ∈ l.text
  · have hgap := hfair.startsGap_eq_false hg hq hesc
    obtain ⟨c, x, hx, hscan, hs, hcomment⟩ := h.exists_solid_scan hg
    have hquote : c ∉ ['"', '\''] := by simpa [Lexeme.isQuoted, hx] using hq
    have hsound : (scan c (x ++ Lexeme.textOf ls)).1.isSpoiled = false := by
      rw [hscan]
      exact (forall_mem_cons.1 hfair.sound).1
    have hbreak : startsBreak (scan c (x ++ Lexeme.textOf ls)).2 = false := by
      rw [hscan]
      exact startsBreak_textOf (h.of_append (a := [l])) hgap
    have hsealed := sealed_scan hsound (by rwa [hscan]) hbreak hs hquote hcomment
    rw [hscan] at hsealed
    obtain ⟨y, hy, hwhole⟩ := Akin.of_sealed hsealed (hnext hgap) hakin
    have htext : l.text ++ Lexeme.textOf ls = y ++ Lexeme.textOf ls := by
      rw [hx]
      exact hy
    rwa [← append_cancel_right htext] at hwhole
  · exact hakin.append hesc

/-- A token is the same in front of a text that is alike. -/
theorem Lexed.reread : lexemes (l.text ++ t') = l :: lexemes t' := by
  obtain ⟨c, x, hx, hscan, hs, hcomment⟩ := h.exists_solid_scan hg
  have hsound := (forall_mem_cons.1 hfair.sound).1
  have hread : scan c (x ++ t') = (l.token, t') := by
    by_cases hq : c ∈ ['"', '\'']
    · simp only [mem_cons, not_mem_nil, or_false] at hq
      rcases hq with rfl | rfl <;> exact stringToken_swap hsound hne hscan
    · have hwhole := h.akin_text hfair hg hne hakin hnext (by simpa [Lexeme.isQuoted, hx] using hq)
      rw [hx] at hwhole
      exact scan_swap hsound hne hakin hwhole hs hq hcomment hscan
  have hbefore : before (c :: x ++ t') t' = l.text := by
    simp only [before, length_append, hx, Nat.add_sub_cancel, take_left]
  rw [hx, cons_append, lexemes_cons, hread, ← cons_append, hbefore]

end

/-! ### Joined tokens -/

variable {a z : List Lexeme}

/-- Joined tokens in front of the end of a block, and behind a space if they have a gap in front. -/
def joinedText (a : List Lexeme) : List Char := gapText (startsGap a) ++ (joined (spacing a) ++ ['\x7d'])

theorem joinedText_of_gap {l : Lexeme} (h : l.token.isGap = true) (a : List Lexeme) :
    joinedText (l :: a) = ' ' :: (joined (spacing a) ++ ['\x7d']) := by
  rw [joinedText, spacing_of_gap h, show startsGap (l :: a) = true from h]
  rfl

theorem joinedText_of_solid {l : Lexeme} (h : l.token.isGap = false) (a : List Lexeme) :
    joinedText (l :: a) = l.text ++ joinedText a := by
  rw [joinedText, spacing_of_solid h, show startsGap (l :: a) = false from h, joinedText]
  show [] ++ (l.text ++ gapText (startsGap a) ++ joined (spacing a) ++ ['\x7d']) = _
  rw [nil_append, append_assoc, append_assoc]

theorem Lexeme.exists_of_isQuoted {l : Lexeme} (h : l.isQuoted = true) :
    ∃ q x, q ∈ ['"', '\''] ∧ l.text = q :: x := by
  rw [isQuoted, Option.any_eq_true] at h
  obtain ⟨q, hhead, hq⟩ := h
  obtain ⟨x, hx⟩ := head?_eq_some_iff.1 hhead
  exact ⟨q, x, of_decide_eq_true hq, hx⟩

/-- Without a gap in front, joined tokens start with the character that the tokens start with. -/
theorem head?_joinedText (h : Lexed (a ++ z)) (hz : Ends z) (hgap : startsGap (a ++ z) = false) :
    (joinedText a).head? = (Lexeme.textOf (a ++ z)).head? := by
  cases a with
  | nil => exact (hz.next hgap).symm
  | cons l a =>
    have hl : Lexed (l :: (a ++ z)) := h
    rw [joinedText_of_solid hgap, cons_append, textOf_cons]
    exact head?_eq_of_ne_nil hl.text_ne_nil _ _

/-- Joined tokens are alike to the tokens. -/
theorem akin_joinedText (h : Lexed (a ++ z)) (hfair : Fair (a ++ z)) (hz : Ends z) :
    Akin (Lexeme.textOf (a ++ z)) (joinedText a) := by
  induction a with
  | nil =>
    refine .halt (.parts hz.parts (.closer []) fun hq => ?_)
    rw [nil_append, hz.unquoted] at hq
    cases hq
  | cons l a ih =>
    have hl : Lexed (l :: (a ++ z)) := h
    have hrest := h.of_append (a := [l])
    have hakin := ih hrest hfair.tail
    cases hg : l.token.isGap with
    | true =>
      rw [joinedText_of_gap hg]
      refine .halt (.parts (hl.parts_of_gap hg) (.space rfl _) fun hq => ?_)
      have hnext := hakin.quoteNext (hl.quoteNext_of_gap hg hq)
      rw [joinedText] at hnext
      cases hs : startsGap a with
      | true => rwa [hs] at hnext
      | false => rwa [hs] at hnext
    | false =>
      rw [joinedText_of_solid hg, cons_append, textOf_cons]
      cases hq : l.isQuoted with
      | false => exact hl.akin_text hfair hg (hz.textOf_ne_nil a) hakin (head?_joinedText hrest hz) hq
      | true =>
        obtain ⟨q, x, hmem, hx⟩ := Lexeme.exists_of_isQuoted hq
        rw [hx]
        exact .halt (.quote hmem _ _)

theorem lexemes_space {cs : List Char} (h : startsGap (lexemes cs) = false) :
    lexemes (' ' :: cs) = ⟨.whitespace " ", [' ']⟩ :: lexemes cs := by
  have hhead : cs.head?.any isSpace = false := by
    cases cs with
    | nil => rfl
    | cons c cs =>
      rw [Bool.eq_false_iff]
      intro hs
      rw [lexemes_cons, scan_of_space hs] at h
      cases h
  have htake : cs.takeWhile isSpace = [] ∧ cs.dropWhile isSpace = cs := by
    cases cs with
    | nil => exact ⟨rfl, rfl⟩
    | cons c cs =>
      have hneg : ¬ isSpace c = true := by simpa using hhead
      exact ⟨takeWhile_cons_of_neg hneg, dropWhile_cons_of_neg hneg⟩
  rw [lexemes_cons, scan_of_space (by decide), htake.1, htake.2]
  simp [before]

/-- Joined tokens are read to the same tokens, parted in the same places. -/
theorem spacing_joined (h : Lexed (a ++ z)) (hfair : Fair (a ++ z)) (hz : Ends z) :
    startsGap (lexemes (joined (spacing a) ++ ['\x7d'])) = false ∧
      spacing (lexemes (joined (spacing a) ++ ['\x7d'])) = spacing a ++ [(['\x7d'], false)] := by
  induction a with
  | nil =>
    have hend : lexemes ['\x7d'] = [⟨.closing .curly, ['\x7d']⟩] := by
      rw [lexemes_of_scan rfl, lexemes]
    show startsGap (lexemes ['\x7d']) = false ∧ spacing (lexemes ['\x7d']) = [(['\x7d'], false)]
    rw [hend]
    exact ⟨rfl, rfl⟩
  | cons l a ih =>
    have hl : Lexed (l :: (a ++ z)) := h
    have hrest := h.of_append (a := [l])
    obtain ⟨hstart, hspacing⟩ := ih hrest hfair.tail
    cases hg : l.token.isGap with
    | true =>
      rw [spacing_of_gap hg]
      exact ⟨hstart, hspacing⟩
    | false =>
      have hsolid : joined (spacing (l :: a)) ++ ['\x7d'] = l.text ++ joinedText a := by
        rw [← joinedText_of_solid hg, joinedText, show startsGap (l :: a) = false from hg]
        rfl
      have hread := hl.reread hfair hg (hz.textOf_ne_nil a) (akin_joinedText hrest hfair.tail hz)
        (head?_joinedText hrest hz)
      rw [hsolid, hread, spacing_of_solid hg, spacing_of_solid hg, cons_append, joinedText]
      refine ⟨hg, ?_⟩
      cases startsGap a with
      | false => rw [gapText, if_neg (by simp), nil_append, hstart, hspacing]
      | true =>
        rw [gapText, if_pos rfl, singleton_append, lexemes_space hstart, spacing_of_gap rfl, hspacing]
        rfl

/-- Tokens that are joined to the same text are the same, parted in the same places. -/
theorem spacing_inj {a' z' : List Lexeme} (h : Lexed (a ++ z)) (hfair : Fair (a ++ z)) (hz : Ends z)
    (h' : Lexed (a' ++ z')) (hfair' : Fair (a' ++ z')) (hz' : Ends z')
    (hjoined : joined (spacing a) = joined (spacing a')) : spacing a = spacing a' := by
  have hread := (spacing_joined h hfair hz).2
  rw [hjoined, (spacing_joined h' hfair' hz').2] at hread
  exact (append_cancel_right hread).symm

/-! ### Tidy tokens -/

section
variable (h : Lexed (a ++ z)) (hlast : ∀ l ∈ a.getLast?, l.token.isGap = false)
  (hspaced : ∀ l ∈ a, l.token.isGap = false → Spaced l.text)
include h hlast hspaced

/-- Joined tokens start with a character of the first. -/
theorem spaced_joined : Spaced (joined (spacing a)) ∧ (a ≠ [] → ∃ c cs, joined (spacing a) = c :: cs ∧ c ≠ ' ') := by
  induction a with
  | nil => exact ⟨⟨nofun, by decide, nofun⟩, fun hne => absurd rfl hne⟩
  | cons l a ih =>
    have hl : Lexed (l :: (a ++ z)) := h
    obtain ⟨hsl, hsa⟩ := forall_mem_cons.1 hspaced
    have hlast' : ∀ k ∈ a.getLast?, k.token.isGap = false := fun k hk => hlast k (by
      obtain ⟨front, rfl⟩ := getLast?_eq_some_iff.1 hk
      rw [← cons_append, getLast?_concat]
      rfl)
    obtain ⟨hjoined, hstart⟩ := ih (h.of_append (a := [l])) hlast' hsa
    cases hg : l.token.isGap with
    | true =>
      have hne : a ≠ [] := by
        rintro rfl
        rw [hlast l rfl] at hg
        cases hg
      rw [spacing_of_gap hg]
      exact ⟨hjoined, fun _ => hstart hne⟩
    | false =>
      obtain ⟨c, x, hx, -, hs, -⟩ := hl.exists_solid_scan hg
      have hc : c ≠ ' ' := by
        rintro rfl
        cases hs
      have hrest : Spaced (gapText (startsGap a) ++ joined (spacing a)) := by
        cases hgap : startsGap a with
        | false => exact hjoined
        | true =>
          have hne : a ≠ [] := by
            rintro rfl
            cases hgap
          obtain ⟨d, y, hy, hd⟩ := hstart hne
          rw [hy] at hjoined ⊢
          exact hjoined.space_cons hd
      have htext : joined (spacing (l :: a)) = l.text ++ (gapText (startsGap a) ++ joined (spacing a)) := by
        rw [spacing_of_solid hg, ← append_assoc]
        rfl
      rw [htext]
      exact ⟨(hsl hg).append hrest, fun _ => ⟨c, _, by rw [hx]; rfl, hc⟩⟩

/-- The tidy form of a text is its tokens with a space in each gap. -/
theorem tidy_textOf (hm : commentsMarked (a ++ z) = true) : tidy (Lexeme.textOf a) = joined (spacing a) := by
  obtain ⟨hjoined, hstart⟩ := spaced_joined h hlast hspaced
  have hhead : (joined (spacing a)).head? ≠ some ' ' := by
    intro hspace
    by_cases hne : a = []
    · rw [hne] at hspace
      cases hspace
    · obtain ⟨c, cs, hcs, hc⟩ := hstart hne
      rw [hcs] at hspace
      exact hc (Option.some.inj hspace)
  rw [tidy, squeeze, words_dropComments h hm hlast]
  exact squeeze_eq_self hjoined hhead

end

end StyleBump.Css
