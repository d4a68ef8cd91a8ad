import Mathlib.Data.List.Infix
import StyleBump.Text.Blank

/-! # Tidy texts

A text without comments, whose only blanks are single spaces between words, is its own tidy form
(`tidy_eq_self`). The words of a text are found part by part between its blanks (`words_append_blank`). -/

namespace StyleBump.Text

/-! ### Comments -/

theorem dropComments_cons {c : Char} {cs : List Char} (h : ¬ ['/', '*'] <+: c :: cs) :
    dropComments false (c :: cs) = c :: dropComments false cs := by
  cases cs with
  | nil => rfl
  | cons d cs =>
    rw [dropComments, if_neg (by simp), if_neg]
    intro hcd
    simp only [Bool.and_eq_true, decide_eq_true_eq] at hcd
    obtain ⟨rfl, rfl⟩ := hcd
    exact h (List.prefix_append ['/', '*'] cs)

/-- A part without an opening mark stays as it is, also together with the character behind it. -/
theorem dropComments_append {u : List Char} (v : List Char) (h : ¬ ['/', '*'] <:+: u ++ v.take 1) :
    dropComments false (u ++ v) = u ++ dropComments false v := by
  induction u with
  | nil => rfl
  | cons c u ih =>
    have htail : ¬ ['/', '*'] <:+: u ++ v.take 1 := fun hm => h (hm.trans (List.suffix_cons c _).isInfix)
    have hhead : ¬ ['/', '*'] <+: c :: (u ++ v) := by
      intro hm
      have htake : ((c :: u) ++ v).take ((c :: u).length + 1) = (c :: u) ++ v.take 1 := List.take_length_add_append 1
      refine h (List.IsPrefix.isInfix ?_)
      rw [← htake]
      exact List.prefix_take_iff.2 ⟨hm, by simp⟩
    rw [List.cons_append, dropComments_cons hhead, ih htail, List.cons_append]

theorem dropComments_eq_self {cs : List Char} (h : ¬ ['/', '*'] <:+: cs) : dropComments false cs = cs := by
  have hself := dropComments_append (u := cs) [] (by rwa [List.take_nil, List.append_nil])
  rwa [List.append_nil, show dropComments false [] = [] from rfl, List.append_nil] at hself

/-! ### Spaced texts -/

/-- A text whose blanks are single spaces, none of them at its end. -/
structure Spaced (cs : List Char) : Prop where
  space : ∀ c ∈ cs, isBlank c = true → c = ' '
  single : ¬ [' ', ' '] <:+: cs
  ended : cs.getLast? ≠ some ' '

theorem spaced_iff (cs : List Char) :
    Spaced cs ↔ cs.all (fun c => !isBlank c || c = ' ') = true ∧ ¬ [' ', ' '] <:+: cs ∧ cs.getLast? ≠ some ' ' := by
  constructor
  · intro h
    refine ⟨List.all_eq_true.2 fun c hc => ?_, h.single, h.ended⟩
    cases hb : isBlank c with
    | false => rfl
    | true => simpa using h.space c hc hb
  · rintro ⟨hspace, hsingle, hended⟩
    refine ⟨fun c hc hb => ?_, hsingle, hended⟩
    have hall := List.all_eq_true.1 hspace c hc
    simpa [hb] using hall

instance (cs : List Char) : Decidable (Spaced cs) := decidable_of_iff _ (spaced_iff cs).symm

theorem Spaced.tail {c : Char} {cs : List Char} (h : Spaced (c :: cs)) : Spaced cs where
  space d hd := h.space d (List.mem_cons_of_mem _ hd)
  single hs := h.single (hs.trans (List.suffix_cons c cs).isInfix)
  ended he := by
    cases cs with
    | nil => cases he
    | cons d ds => exact h.ended (by rwa [List.getLast?_cons_cons])

theorem Spaced.append {u v : List Char} (hu : Spaced u) (hv : Spaced v) : Spaced (u ++ v) where
  space c hc hb := (List.mem_append.1 hc).elim (fun hc => hu.space c hc hb) fun hc => hv.space c hc hb
  single hs := by
    induction u with
    | nil => exact hv.single hs
    | cons c u ih =>
      rcases List.infix_cons_iff.1 hs with hpre | hinf
      · obtain ⟨rfl, hnext⟩ := List.cons_prefix_cons.1 hpre
        cases u with
        | nil => exact hu.ended rfl
        | cons d u =>
          obtain ⟨rfl, -⟩ := List.cons_prefix_cons.1 hnext
          exact hu.single (List.prefix_append [' ', ' '] u).isInfix
      · exact ih hu.tail hinf
  ended he := by
    cases v with
    | nil => exact hu.ended (by rwa [List.append_nil] at he)
    | cons c v =>
      rw [List.getLast?_append, List.getLast?_eq_some_getLast (List.cons_ne_nil c v), Option.some_or] at he
      exact hv.ended (by rw [List.getLast?_eq_some_getLast (List.cons_ne_nil c v), he])

theorem Spaced.space_cons {c : Char} {cs : List Char} (h : Spaced (c :: cs)) (hc : c ≠ ' ') :
    Spaced (' ' :: c :: cs) where
  space d hd hb := (List.mem_cons.1 hd).elim id fun hd => h.space d hd hb
  single hs := by
    rcases List.infix_cons_iff.1 hs with hpre | hinf
    · exact hc (List.cons_prefix_cons.1 (List.cons_prefix_cons.1 hpre).2).1.symm
    · exact h.single hinf
  ended he := h.ended (by rwa [List.getLast?_cons_cons] at he)

/-- The words behind a space each. -/
def spread (ws : List (List Char)) : List Char := ws.flatMap (' ' :: ·)

theorem intercalate_eq_spread (w : List Char) (ws : List (List Char)) :
    [' '].intercalate (w :: ws) = w ++ spread ws := by
  induction ws generalizing w with
  | nil => simp [spread]
  | cons v ws ih =>
    have hs : spread (v :: ws) = ' ' :: (v ++ spread ws) := rfl
    rw [hs, ← ih v]
    simp [List.intercalate]

/-- The word a spaced text starts with and its other words are the text. -/
theorem headWords_spread {cs : List Char} (h : Spaced cs) : (headWords cs).1 ++ spread (headWords cs).2 = cs := by
  induction cs with
  | nil => rfl
  | cons c cs ih =>
    have hcs := ih h.tail
    rw [headWords]
    cases hb : isBlank c with
    | false =>
      rw [if_neg (by simp)]
      exact congrArg (c :: ·) hcs
    | true =>
      obtain rfl := h.space c (by simp) hb
      -- A word follows the space, so the words behind it start with one that is not empty.
      have hword : (headWords cs).1 ≠ [] := by
        cases cs with
        | nil => exact absurd rfl h.ended
        | cons d ds =>
          have hd : isBlank d = false := by
            rw [Bool.eq_false_iff]
            intro hd
            obtain rfl := h.space d (by simp) hd
            exact h.single (List.prefix_append [' ', ' '] ds).isInfix
          rw [headWords, if_neg (by simp [hd])]
          exact List.cons_ne_nil _ _
      rw [if_pos rfl, consWord, if_neg (by simpa using hword)]
      exact congrArg (' ' :: ·) hcs

theorem squeeze_eq_self {cs : List Char} (h : Spaced cs) (hh : cs.head? ≠ some ' ') : squeeze cs = cs := by
  cases cs with
  | nil => rfl
  | cons c cs =>
    have hc : isBlank c = false := by
      rw [Bool.eq_false_iff]
      intro hb
      exact hh (congrArg some (h.space c (by simp) hb))
    have hw := headWords_spread h
    have hne : (headWords (c :: cs)).1 ≠ [] := by
      rw [headWords, if_neg (by simp [hc])]
      exact List.cons_ne_nil _ _
    rw [squeeze, words, consWord, if_neg (by simpa using hne), intercalate_eq_spread, hw]

theorem tidy_eq_self {cs : List Char} (hc : ¬ ['/', '*'] <:+: cs) (h : Spaced cs) (hh : cs.head? ≠ some ' ') :
    tidy cs = cs := by
  rw [tidy, dropComments_eq_self hc, squeeze_eq_self h hh]

/-! ### Words -/

/-- A blank parts a text into two whose words are found each by themselves. -/
theorem words_append_blank (u : List Char) {b : Char} (hb : isBlank b = true) (v : List Char) :
    words (u ++ b :: v) = words u ++ words v := by
  have append_consWord (w : List Char) (ws ws' : List (List Char)) :
      consWord w (ws ++ ws') = consWord w ws ++ ws' := by
    unfold consWord
    split <;> rfl
  have hhead : headWords (u ++ b :: v) = ((headWords u).1, (headWords u).2 ++ words v) := by
    induction u with
    | nil =>
      show headWords (b :: v) = ([], words v)
      rw [headWords, if_pos hb, words]
    | cons c u ih =>
      rw [List.cons_append, headWords, headWords, ih]
      split
      · rw [append_consWord]
      · rfl
  rw [words, hhead, append_consWord]
  rfl

theorem words_of_blanks {cs : List Char} (h : ∀ c ∈ cs, isBlank c = true) : words cs = [] := by
  induction cs with
  | nil => rfl
  | cons c cs ih =>
    obtain ⟨hc, hcs⟩ := List.forall_mem_cons.1 h
    exact (words_append_blank [] hc cs).trans (ih hcs)

/-- Blanks between two texts keep their words apart, however many they are. -/
theorem words_append_blanks (u : List Char) {bs : List Char} (h : ∀ c ∈ bs, isBlank c = true) (hne : bs ≠ [])
    (v : List Char) : words (u ++ bs ++ v) = words u ++ words v := by
  obtain ⟨b, bs, rfl⟩ := List.exists_cons_of_ne_nil hne
  obtain ⟨hb, hbs⟩ := List.forall_mem_cons.1 h
  rw [List.append_assoc, List.cons_append, words_append_blank u hb]
  congr 1
  induction bs with
  | nil => rfl
  | cons c bs ih =>
    obtain ⟨hc, hbs⟩ := List.forall_mem_cons.1 hbs
    rw [List.cons_append]
    exact (words_append_blank [] hc _).trans (ih (List.forall_mem_cons.2 ⟨hb, hbs⟩) (List.cons_ne_nil _ _) hbs)

theorem words_append_of_blanks (u : List Char) {bs : List Char} (h : ∀ c ∈ bs, isBlank c = true) :
    words (u ++ bs) = words u := by
  cases bs with
  | nil => rw [List.append_nil]
  | cons b bs =>
    obtain ⟨hb, hbs⟩ := List.forall_mem_cons.1 h
    rw [words_append_blank u hb, words_of_blanks hbs, List.append_nil]

theorem words_of_word {w : List Char} (hne : w ≠ []) (h : ∀ c ∈ w, isBlank c = false) : words w = [w] := by
  have hhead : headWords w = (w, []) := by
    clear hne
    induction w with
    | nil => rfl
    | cons c w ih =>
      obtain ⟨hc, hw⟩ := List.forall_mem_cons.1 h
      rw [headWords, if_neg (by simp [hc]), ih hw]
  rw [words, hhead, consWord, if_neg (by simpa using hne)]

/-- Words between single spaces are the words of the text. -/
theorem words_intercalate {ws : List (List Char)} (h : ∀ w ∈ ws, w ≠ [] ∧ ∀ c ∈ w, isBlank c = false) :
    words ([' '].intercalate ws) = ws := by
  cases ws with
  | nil => rfl
  | cons w ws =>
    obtain ⟨hw, hws⟩ := List.forall_mem_cons.1 h
    have hword := words_of_word hw.1 hw.2
    rw [intercalate_eq_spread]
    clear hw h
    induction ws generalizing w with
    | nil => rw [spread, List.flatMap_nil, List.append_nil, hword]
    | cons v ws ih =>
      obtain ⟨hv, hws⟩ := List.forall_mem_cons.1 hws
      have hspread : spread (v :: ws) = ' ' :: (v ++ spread ws) := rfl
      rw [hspread, words_append_blank w (by decide), hword, ih v hws (words_of_word hv.1 hv.2)]
      rfl

end StyleBump.Text
