import StyleBump.General
import StyleBump.Proofs.Tidying

/-! # The normal form of a value

A tidied text holds no opening mark of a comment and no blanks but single spaces between words, so tidying it again
changes nothing. Nothing else is lost than comments and blanks: `Outside` says what stands outside the comments of
a text, and the characters of it that are no blanks are those of the tidied text. Where comments and blanks stand,
any others may stand as well (`tidy_filler`): each of them becomes a blank, and blanks part words however many they
are. -/

namespace StyleBump.Text

/-! ### Comments of a text -/

/-- A comment with both its marks; the closing mark is the first one behind the opening mark. -/
def IsComment (x : List Char) : Prop := ∃ body, x = '/' :: '*' :: (body ++ ['*', '/']) ∧ ¬ ['*', '/'] <:+: body

/-- A text whose comments all have their closing marks, and its characters outside them. Comments are found from
left to right: what stands in front of each of them holds no opening mark. -/
inductive Clear : List Char → List Char → Prop
  | plain {u : List Char} (hu : ¬ ['/', '*'] <:+: u) : Clear u u
  | comment {u x v w : List Char} (hu : ¬ ['/', '*'] <:+: u) (hx : IsComment x) (h : Clear v w) :
      Clear (u ++ (x ++ v)) (u ++ w)

/-- A text and its characters outside comments, the last of which may run to the end. -/
inductive Outside : List Char → List Char → Prop
  | clear {cs w : List Char} (h : Clear cs w) : Outside cs w
  | unclosed {t w body : List Char} (h : Clear t w) (hb : ¬ ['*', '/'] <:+: body) :
      Outside (t ++ '/' :: '*' :: body) w

/-- Blanks and comments, at least one of them. -/
inductive Filler : List Char → Prop
  | blank {c : Char} (h : isBlank c = true) : Filler [c]
  | comment {x : List Char} (h : IsComment x) : Filler x
  | append {x y : List Char} (h : Filler x) (h' : Filler y) : Filler (x ++ y)

theorem Filler.of_blanks {x : List Char} (hne : x ≠ []) (h : ∀ c ∈ x, isBlank c = true) : Filler x := by
  induction x with
  | nil => exact absurd rfl hne
  | cons c x ih =>
    obtain ⟨hc, hx⟩ := List.forall_mem_cons.1 h
    cases x with
    | nil => exact .blank hc
    | cons d x => exact .append (.blank hc) (ih (List.cons_ne_nil d x) hx)

/-- Every text has an outside. -/
theorem exists_outside (cs : List Char) : ∃ w, Outside cs w := by
  -- By the length of the text: what follows a comment is far from its head.
  induction hn : cs.length using Nat.strongRecOn generalizing cs with
  | ind n ih =>
    by_cases hopen : ['/', '*'] <:+: cs
    · obtain ⟨u, rest, rfl, hu⟩ := exists_first_of_infix hopen
      by_cases hclose : ['*', '/'] <:+: rest
      · obtain ⟨body, v, rfl, hb⟩ := exists_first_of_infix hclose
        have hx : IsComment ('/' :: '*' :: (body ++ ['*', '/'])) := ⟨body, rfl, hb⟩
        have hsplit : u ++ '/' :: '*' :: (body ++ '*' :: '/' :: v) =
            u ++ ('/' :: '*' :: (body ++ ['*', '/']) ++ v) := by simp
        have hlt : v.length < n := by
          rw [← hn, hsplit]
          simp only [List.length_append, List.length_cons]
          omega
        obtain ⟨w, hv⟩ := ih _ hlt v rfl
        rw [hsplit]
        cases hv with
        | clear hv => exact ⟨u ++ w, .clear (.comment hu hx hv)⟩
        | unclosed hv hlast =>
          refine ⟨u ++ w, ?_⟩
          rw [← List.append_assoc, ← List.append_assoc, List.append_assoc u]
          exact .unclosed (.comment hu hx hv) hlast
      · exact ⟨u, .unclosed (.plain hu) hclose⟩
    · exact ⟨cs, .clear (.plain hopen)⟩

/-! ### What becomes of comments -/

theorem dropComments_inside_cons {c : Char} {cs : List Char} (h : ¬ ['*', '/'] <+: c :: cs) :
    dropComments true (c :: cs) = dropComments true cs := by
  cases cs with
  | nil => rfl
  | cons d cs =>
    rw [dropComments, if_pos rfl, if_neg]
    intro hcd
    simp only [Bool.and_eq_true, decide_eq_true_eq] at hcd
    obtain ⟨rfl, rfl⟩ := hcd
    exact h (List.prefix_append ['*', '/'] cs)

theorem dropComments_body {body : List Char} (hb : ¬ ['*', '/'] <:+: body) (v : List Char) :
    dropComments true (body ++ '*' :: '/' :: v) = dropComments false v := by
  induction body with
  | nil => rfl
  | cons c body ih =>
    have hhead : ¬ ['*', '/'] <+: c :: (body ++ '*' :: '/' :: v) := by
      intro hm
      cases body with
      | nil => cases (List.cons_prefix_cons.1 (List.cons_prefix_cons.1 hm).2).1
      | cons d body =>
        obtain ⟨rfl, hm'⟩ := List.cons_prefix_cons.1 hm
        obtain ⟨rfl, -⟩ := List.cons_prefix_cons.1 hm'
        exact hb (List.prefix_append ['*', '/'] body).isInfix
    rw [List.cons_append, dropComments_inside_cons hhead]
    exact ih fun hin => hb (hin.trans (List.suffix_cons c body).isInfix)

theorem dropComments_open {body : List Char} (hb : ¬ ['*', '/'] <:+: body) :
    dropComments false ('/' :: '*' :: body) = [' '] := by
  rw [dropComments, if_neg (by simp), if_pos (by simp)]
  induction body with
  | nil => rfl
  | cons c body ih =>
    rw [dropComments_inside_cons fun hm => hb hm.isInfix]
    exact ih fun hin => hb (hin.trans (List.suffix_cons c body).isInfix)

theorem IsComment.dropComments_append {x : List Char} (hx : IsComment x) (v : List Char) :
    dropComments false (x ++ v) = ' ' :: dropComments false v := by
  obtain ⟨body, rfl, hb⟩ := hx
  have hsplit : '/' :: '*' :: (body ++ ['*', '/']) ++ v = '/' :: '*' :: (body ++ '*' :: '/' :: v) := by simp
  rw [hsplit, dropComments, if_neg (by simp), if_pos (by simp), dropComments_body hb]

/-- No opening mark begins with the last character of `u` unless a star follows. -/
theorem dropComments_append_of_head {u v : List Char} (hu : ¬ ['/', '*'] <:+: u) (hv : v.head? ≠ some '*') :
    dropComments false (u ++ v) = u ++ dropComments false v := by
  refine dropComments_append v fun hin => ?_
  cases v with
  | nil => exact hu (by simpa using hin)
  | cons d v =>
    rw [List.take_succ_cons, List.take_zero] at hin
    rcases List.infix_concat_iff.1 hin with hsuffix | hin
    · have hlast := (List.suffix_concat_iff.1 hsuffix).resolve_left (List.cons_ne_nil _ _)
      obtain ⟨t, ht, -⟩ := hlast
      have hd : '*' = d := by simpa using congrArg List.getLast? ht
      exact hv (congrArg some hd.symm)
    · exact hu hin

theorem IsComment.head {x : List Char} (hx : IsComment x) (v : List Char) : (x ++ v).head? ≠ some '*' := by
  obtain ⟨body, rfl, -⟩ := hx
  simp

theorem Clear.dropComments_append {pre w v : List Char} (h : Clear pre w) (hv : v.head? ≠ some '*') :
    dropComments false (pre ++ v) = dropComments false pre ++ dropComments false v := by
  induction h with
  | plain hu => rw [dropComments_append_of_head hu hv, dropComments_eq_self hu]
  | comment hu hx _ ih =>
    rw [List.append_assoc, List.append_assoc, dropComments_append_of_head hu (hx.head _), hx.dropComments_append, ih,
      dropComments_append_of_head hu (hx.head _), hx.dropComments_append, List.append_assoc, List.cons_append]

/-- The characters of a text that are no blanks. -/
def visible (cs : List Char) : List Char := cs.filter (!isBlank ·)

theorem visible_append (u v : List Char) : visible (u ++ v) = visible u ++ visible v := List.filter_append u v

theorem Clear.visible_dropComments {cs w : List Char} (h : Clear cs w) :
    visible (dropComments false cs) = visible w := by
  induction h with
  | plain hu => rw [dropComments_eq_self hu]
  | comment hu hx _ ih =>
    rw [dropComments_append_of_head hu (hx.head _), hx.dropComments_append, visible_append, visible_append, ← ih]
    rfl

theorem Outside.visible_dropComments {cs w : List Char} (h : Outside cs w) :
    visible (dropComments false cs) = visible w := by
  cases h with
  | clear h => exact h.visible_dropComments
  | unclosed h hb =>
    rw [h.dropComments_append (by simp), dropComments_open hb, visible_append, h.visible_dropComments]
    exact List.append_nil _

theorem Filler.head {x : List Char} (h : Filler x) (v : List Char) : (x ++ v).head? ≠ some '*' := by
  induction h generalizing v with
  | @blank c hc =>
    rintro ⟨rfl⟩
    cases hc
  | comment hx => exact hx.head v
  | append _ _ ih _ =>
    rw [List.append_assoc]
    exact ih _

/-- Blanks and comments become blanks, whatever follows. -/
theorem Filler.dropComments_append {x : List Char} (h : Filler x) :
    ∃ bs, bs ≠ [] ∧ (∀ c ∈ bs, isBlank c = true) ∧
      ∀ v, dropComments false (x ++ v) = bs ++ dropComments false v := by
  induction h with
  | @blank c hc =>
    refine ⟨[c], List.cons_ne_nil _ _, by simpa using hc, fun v => dropComments_cons fun hm => ?_⟩
    obtain ⟨rfl, -⟩ := List.cons_prefix_cons.1 hm
    cases hc
  | comment hx => exact ⟨[' '], List.cons_ne_nil _ _, by simp [isBlank], hx.dropComments_append⟩
  | append _ _ ih ih' =>
    obtain ⟨bs, hne, hbs, hdrop⟩ := ih
    obtain ⟨bs', -, hbs', hdrop'⟩ := ih'
    refine ⟨bs ++ bs', List.append_ne_nil_of_left_ne_nil hne bs', List.forall_mem_append.2 ⟨hbs, hbs'⟩, fun v => ?_⟩
    rw [List.append_assoc, hdrop, hdrop', List.append_assoc]

theorem words_filler {pre w x : List Char} (h : Clear pre w) (hx : Filler x) (post : List Char) :
    words (dropComments false (pre ++ x ++ post)) =
      words (dropComments false pre) ++ words (dropComments false post) := by
  obtain ⟨bs, hne, hbs, hdrop⟩ := hx.dropComments_append
  rw [List.append_assoc, h.dropComments_append (hx.head post), hdrop, ← List.append_assoc,
    words_append_blanks _ hbs hne]

theorem tidy_filler {pre w x y : List Char} (h : Clear pre w) (hx : Filler x) (hy : Filler y) (post : List Char) :
    tidy (pre ++ y ++ post) = tidy (pre ++ x ++ post) := by
  rw [tidy, tidy, squeeze, squeeze, words_filler h hx, words_filler h hy]

/-! ### Marks -/

/-- A mark without blanks lies on one side of a space. -/
theorem mark_parted {u v : List Char} (h : ['/', '*'] <:+: u ++ ' ' :: v) : ['/', '*'] <:+: u ∨ ['/', '*'] <:+: v := by
  induction u with
  | nil =>
    rcases List.infix_cons_iff.1 h with hm | hin
    · cases (List.cons_prefix_cons.1 hm).1
    · exact .inr hin
  | cons c u ih =>
    rcases List.infix_cons_iff.1 h with hm | hin
    · obtain ⟨rfl, hm'⟩ := List.cons_prefix_cons.1 hm
      cases u with
      | nil => cases (List.cons_prefix_cons.1 hm').1
      | cons d u =>
        obtain ⟨rfl, -⟩ := List.cons_prefix_cons.1 hm'
        exact .inl (List.prefix_append ['/', '*'] u).isInfix
    · exact (ih hin).imp_left fun hin => hin.trans (List.suffix_cons c u).isInfix

theorem Clear.not_mark {cs w : List Char} (h : Clear cs w) : ¬ ['/', '*'] <:+: dropComments false cs := by
  induction h with
  | plain hu => rwa [dropComments_eq_self hu]
  | comment hu hx _ ih =>
    rw [dropComments_append_of_head hu (hx.head _), hx.dropComments_append]
    exact fun hm => (mark_parted hm).elim hu ih

/-- The spaces that replace comments bring no new mark about. -/
theorem Outside.not_mark {cs w : List Char} (h : Outside cs w) : ¬ ['/', '*'] <:+: dropComments false cs := by
  cases h with
  | clear h => exact h.not_mark
  | unclosed h hb =>
    rw [h.dropComments_append (by simp), dropComments_open hb]
    exact fun hm => (mark_parted hm).elim h.not_mark fun hm => nomatch List.infix_nil.1 hm

/-! ### Words -/

/-- A word of a text: a part without blanks. -/
structure IsWord (w cs : List Char) : Prop where
  ne_nil : w ≠ []
  not_blank : ∀ c ∈ w, isBlank c = false
  isInfix : w <:+: cs

theorem mem_consWord {v w : List Char} {ws : List (List Char)} : v ∈ consWord w ws ↔ v ≠ [] ∧ v = w ∨ v ∈ ws := by
  rw [consWord]
  cases w with
  | nil => simp
  | cons c w =>
    rw [if_neg (by simp), List.mem_cons]
    exact or_congr_left ⟨fun h => ⟨h ▸ List.cons_ne_nil c w, h⟩, And.right⟩

theorem flatten_consWord (w : List Char) (ws : List (List Char)) : (consWord w ws).flatten = w ++ ws.flatten := by
  cases w <;> rfl

theorem headWords_isPrefix (cs : List Char) :
    (headWords cs).1 <+: cs ∧ ∀ c ∈ (headWords cs).1, isBlank c = false := by
  induction cs with
  | nil => exact ⟨List.prefix_rfl, by simp [headWords]⟩
  | cons c cs ih =>
    rw [headWords]
    split
    case isTrue => exact ⟨List.nil_prefix, by simp⟩
    case isFalse hc =>
      exact ⟨List.cons_prefix_cons.2 ⟨rfl, ih.1⟩, List.forall_mem_cons.2 ⟨Bool.eq_false_iff.2 hc, ih.2⟩⟩

theorem IsWord.cons {w cs : List Char} (h : IsWord w cs) (c : Char) : IsWord w (c :: cs) :=
  ⟨h.ne_nil, h.not_blank, h.isInfix.trans (List.suffix_cons c cs).isInfix⟩

theorem isWord_of_mem_consWord {w cs : List Char} (htail : ∀ v ∈ (headWords cs).2, IsWord v cs)
    (h : w ∈ consWord (headWords cs).1 (headWords cs).2) : IsWord w cs := by
  rcases mem_consWord.1 h with ⟨hne, rfl⟩ | hw
  · exact ⟨hne, (headWords_isPrefix cs).2, (headWords_isPrefix cs).1.isInfix⟩
  · exact htail w hw

theorem isWord_of_mem_words {w cs : List Char} (h : w ∈ words cs) : IsWord w cs := by
  refine isWord_of_mem_consWord ?_ h
  clear h
  induction cs with
  | nil => simp [headWords]
  | cons c cs ih =>
    intro v hv
    rw [headWords] at hv
    split at hv
    case isTrue => exact (isWord_of_mem_consWord ih hv).cons c
    case isFalse => exact (ih v hv).cons c

theorem flatten_words (cs : List Char) : (words cs).flatten = visible cs := by
  rw [words, flatten_consWord]
  induction cs with
  | nil => rfl
  | cons c cs ih =>
    rw [headWords, visible]
    split
    case isTrue hc =>
      rw [flatten_consWord, ih, List.filter_cons_of_neg (by simp [hc])]
      rfl
    case isFalse hc =>
      rw [List.filter_cons_of_pos (by simpa using hc), List.cons_append, ih]
      rfl

theorem words_squeeze (cs : List Char) : words (squeeze cs) = words cs :=
  words_intercalate fun _ hw => ⟨(isWord_of_mem_words hw).ne_nil, (isWord_of_mem_words hw).not_blank⟩

theorem visible_squeeze (cs : List Char) : visible (squeeze cs) = visible cs := by
  rw [← flatten_words, words_squeeze, flatten_words]

theorem IsWord.spaced {w cs : List Char} (h : IsWord w cs) : Spaced w where
  space c hc hb := by simp [h.not_blank c hc] at hb
  single hs := by
    have hmem : ' ' ∈ w := hs.subset (by simp)
    cases h.not_blank ' ' hmem
  ended he := by cases h.not_blank ' ' (List.mem_of_getLast? he)

theorem IsWord.head {w cs : List Char} (h : IsWord w cs) (v : List Char) : ∃ c u, w ++ v = c :: u ∧ c ≠ ' ' := by
  obtain ⟨c, u, rfl⟩ := List.exists_cons_of_ne_nil h.ne_nil
  refine ⟨c, u ++ v, rfl, ?_⟩
  rintro rfl
  cases h.not_blank ' ' List.mem_cons_self

theorem spaced_append_spread {w cs : List Char} {ws : List (List Char)} (h : IsWord w cs)
    (hws : ∀ v ∈ ws, IsWord v cs) : Spaced (w ++ spread ws) := by
  induction ws generalizing w with
  | nil => simpa [spread] using h.spaced
  | cons v ws ih =>
    obtain ⟨hv, hws⟩ := List.forall_mem_cons.1 hws
    have hspread : spread (v :: ws) = ' ' :: (v ++ spread ws) := rfl
    have hrest := ih hv hws
    obtain ⟨c, u, hcu, hc⟩ := hv.head (spread ws)
    rw [hcu] at hrest
    rw [hspread, hcu]
    exact h.spaced.append (hrest.space_cons hc)

theorem mark_of_append_spread {w : List Char} {ws : List (List Char)} (h : ['/', '*'] <:+: w ++ spread ws) :
    ∃ v ∈ w :: ws, ['/', '*'] <:+: v := by
  induction ws generalizing w with
  | nil => exact ⟨w, List.mem_cons_self, by simpa [spread] using h⟩
  | cons v ws ih =>
    rcases mark_parted (show ['/', '*'] <:+: w ++ ' ' :: (v ++ spread ws) from h) with hw | hrest
    · exact ⟨w, List.mem_cons_self, hw⟩
    · obtain ⟨v', hv', hm⟩ := ih hrest
      exact ⟨v', List.mem_cons_of_mem w hv', hm⟩

/-! ### The normal form -/

/-- The words of a text stand in it, so squeezing brings no mark about. -/
theorem not_mark_squeeze {cs : List Char} (h : ¬ ['/', '*'] <:+: cs) : ¬ ['/', '*'] <:+: squeeze cs := by
  intro hm
  rw [squeeze] at hm
  cases hws : words cs with
  | nil =>
    rw [hws] at hm
    cases List.infix_nil.1 hm
  | cons w ws =>
    rw [hws, intercalate_eq_spread] at hm
    obtain ⟨v, hv, hin⟩ := mark_of_append_spread hm
    rw [← hws] at hv
    exact h (hin.trans (isWord_of_mem_words hv).isInfix)

theorem spaced_squeeze (cs : List Char) : Spaced (squeeze cs) ∧ (squeeze cs).head? ≠ some ' ' := by
  rw [squeeze]
  have hwords (w : List Char) (hw : w ∈ words cs) : IsWord w cs := isWord_of_mem_words hw
  cases hws : words cs with
  | nil => exact ⟨by decide, by decide⟩
  | cons w ws =>
    rw [hws] at hwords
    obtain ⟨hw, hrest⟩ := List.forall_mem_cons.1 hwords
    rw [intercalate_eq_spread]
    refine ⟨spaced_append_spread hw hrest, ?_⟩
    obtain ⟨c, u, hcu, hc⟩ := hw.head (spread ws)
    rw [hcu]
    exact fun h => hc (Option.some.inj h)

theorem not_mark_tidy (cs : List Char) : ¬ ['/', '*'] <:+: tidy cs := by
  obtain ⟨w, hw⟩ := exists_outside cs
  exact not_mark_squeeze hw.not_mark

theorem tidy_tidy (cs : List Char) : tidy (tidy cs) = tidy cs :=
  tidy_eq_self (not_mark_tidy cs) (spaced_squeeze _).1 (spaced_squeeze _).2

/-- Tidying finds a normal form: a text without comments, whose only blanks are single spaces inside it. It keeps the
other characters outside comments in their order, it changes nothing the second time, and it does not depend on which
blanks and comments stand in a place. -/
theorem tidy_normal_form (cs : List Char) :
    (¬ ['/', '*'] <:+: tidy cs ∧ Spaced (tidy cs) ∧ (tidy cs).head? ≠ some ' ') ∧
      ((∃ w, Outside cs w) ∧ ∀ w, Outside cs w → visible (tidy cs) = visible w) ∧
      tidy (tidy cs) = tidy cs ∧
      ∀ pre w x y post, cs = pre ++ x ++ post → Clear pre w →
        (IsComment x ∨ x ≠ [] ∧ ∀ c ∈ x, isBlank c = true) → Filler y → tidy (pre ++ y ++ post) = tidy cs := by
  refine ⟨⟨not_mark_tidy cs, spaced_squeeze _⟩, ⟨exists_outside cs, fun w hw => ?_⟩, tidy_tidy cs, ?_⟩
  · rw [tidy, visible_squeeze, hw.visible_dropComments]
  · rintro pre w x y post rfl hpre hx hy
    have hfiller : Filler x := hx.elim .comment fun hx => .of_blanks hx.1 hx.2
    exact tidy_filler hpre hfiller hy post

end StyleBump.Text
