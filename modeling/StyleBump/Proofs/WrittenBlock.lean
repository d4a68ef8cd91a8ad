import StyleBump.Proofs.QuietText

/-! # Blocks as they are written

A block is written as a list of items: declarations, statements, semicolons by themselves, and blocks in
curly brackets behind some text, which hold items in turn. Whatever the items are, reading gives back the
declarations of the outermost list, in their order (`atPosition?_textAll`). The texts that items are made of
are well formed by their types. -/

namespace StyleBump.Block
open Css Css.Component Declaration

/-! ### The parts of an item -/

/-- White space. -/
structure Gap where
  chars : List Char
  blank : chars.all isSpace = true

/-- Letters, and the underscore. -/
def startsIdentifier (c : Char) : Bool := c.isAlpha || c = '_'

def inIdentifier (c : Char) : Bool := startsIdentifier c || c.isDigit || c = '-'

/-- Whether this is a name in ASCII that is written without escapes. -/
def isIdentifier : List Char → Bool
  | [] => false
  | '-' :: c :: cs => (startsIdentifier c || c = '-') && cs.all inIdentifier
  | c :: cs => startsIdentifier c && cs.all inIdentifier

structure Identifier where
  chars : List Char
  spelled : isIdentifier chars = true

/-- Characters of the words of a value. -/
def inWord (c : Char) : Bool := c.isAlphanum || c ∈ ['_', '-', '.', '#', '%', '+', ',']

/-- Words between single spaces. -/
structure Phrase where
  words : List (List Char)
  spelled : words.all (fun w => !w.isEmpty && w.all inWord) = true

/-- The word that marks a declaration as important, in small letters and capitals. -/
structure Mark where
  word : List Char
  spelled : word.map Char.toLower = markWord

/-- What stands in front of a nested block. It does not start like a property of the author's own. -/
structure Prelude where
  chars : List Char
  quiet : Quiet chars
  undashed : ¬ ['-', '-'] <+: chars.dropWhile isSpace

/-- An item of a block, with the white space in front of it. -/
inductive Item
  | declaration (gap : Gap) (name : Identifier) (value : Phrase) (mark : Option Mark)
  | nested (gap : Gap) (prelude : Prelude) (body : List Item) (ending : Gap)
  | statement (gap : Gap) (name : Identifier) (words : Phrase)
  | stray (gap : Gap)

def Phrase.text (p : Phrase) : List Char := [' '].intercalate p.words

/-- The mark with the space in front of it, if there is one. -/
def markText : Option Mark → List Char
  | none => []
  | some m => ' ' :: '!' :: m.word

mutual
/-- The characters of an item. -/
def Item.text : Item → List Char
  | .declaration gap name value mark =>
    gap.chars ++ (name.chars ++ ':' :: ' ' :: (value.text ++ markText mark)) ++ [';']
  | .nested gap prelude body ending =>
    (gap.chars ++ prelude.chars) ++ '\x7b' :: (textAll body ++ (ending.chars ++ ['\x7d']))
  | .statement gap name words => gap.chars ++ ('@' :: name.chars ++ ' ' :: words.text) ++ [';']
  | .stray gap => gap.chars ++ [';']

def textAll : List Item → List Char
  | [] => []
  | i :: is => i.text ++ textAll is
end

/-- The declaration that an item is, if it is one. -/
def Item.declaration? : Item → Option Declaration
  | .declaration _ name value mark => some ⟨String.ofList name.chars, String.ofList value.text, mark.isSome⟩
  | _ => none

/-! ### How the parts are read -/

theorem inIdentifier_of_startsIdentifier {c : Char} (h : startsIdentifier c = true) : inIdentifier c = true := by
  rw [inIdentifier, h, Bool.true_or, Bool.true_or]

theorem not_isSpace_of_inIdentifier {c : Char} (h : inIdentifier c = true) : isSpace c = false := by
  rw [Bool.eq_false_iff]
  intro hs
  simp only [isSpace, Text.isBreak, Bool.or_eq_true, decide_eq_true_eq] at hs
  rcases hs with (rfl | rfl) | (rfl | rfl) | rfl <;> exact absurd h (by decide)

theorem isNameChar_of_inIdentifier {c : Char} (h : inIdentifier c = true) : isNameChar c = true := by
  simp only [inIdentifier, startsIdentifier, Bool.or_eq_true, decide_eq_true_eq] at h
  simp only [isNameChar, isNameStart, Bool.or_eq_true, decide_eq_true_eq]
  tauto

theorem isNameStart_of_startsIdentifier {c : Char} (h : startsIdentifier c = true) : isNameStart c = true := by
  simp only [startsIdentifier, Bool.or_eq_true] at h
  simp only [isNameStart, Bool.or_eq_true]
  tauto

theorem isIdentifier_spelled {p : List Char} (h : isIdentifier p = true) :
    p.all inIdentifier = true ∧ startsName p = true := by
  unfold isIdentifier at h
  split at h
  · cases h
  · rename_i d ds
    obtain ⟨hd, hds⟩ := Bool.and_eq_true_iff.1 h
    have hd : startsIdentifier d = true ∨ d = '-' := by simpa using hd
    have hin : inIdentifier d = true := by
      rcases hd with hd | rfl
      · exact inIdentifier_of_startsIdentifier hd
      · decide
    refine ⟨?_, ?_⟩
    · rw [List.all_cons, List.all_cons, hin, hds]
      decide
    · rcases hd with hd | rfl
      · rw [startsName, isNameStart_of_startsIdentifier hd]
        rfl
      · simp [startsName]
  · rename_i c cs _
    obtain ⟨hc, hcs⟩ := Bool.and_eq_true_iff.1 h
    have hstart := isNameStart_of_startsIdentifier hc
    refine ⟨?_, ?_⟩
    · rw [List.all_cons, inIdentifier_of_startsIdentifier hc, hcs]
      rfl
    · rwa [startsName_of_ne (ne_of_isNameStart hstart (by decide)) (ne_of_isNameStart hstart (by decide))]

theorem plainName_of_isIdentifier {p : List Char} (h : isIdentifier p = true) : PlainName p := by
  obtain ⟨hall, hstart⟩ := isIdentifier_spelled h
  have hspelled : p.all isNameChar = true :=
    List.all_eq_true.2 fun c hc => isNameChar_of_inIdentifier (List.all_eq_true.1 hall c hc)
  have hplain : p.map plain = p := by
    refine (List.map_congr_left fun c hc => ?_).trans p.map_id
    have hnul : c ≠ '\x00' := by
      rintro rfl
      exact not_mem_of_all hall (by decide) hc
    exact if_neg hnul
  have hname : name p = (p, []) := by
    rw [name_of_unescaped (not_mem_of_all hall (by decide)), List.takeWhile_eq_self_iff.2 (List.all_eq_true.1 hspelled),
      List.dropWhile_eq_nil_iff.2 (List.all_eq_true.1 hspelled), hplain]
  refine ⟨hspelled, ?_⟩
  cases p with
  | nil => cases h
  | cons c cs =>
    have hesc : c ≠ '\\' := by
      rintro rfl
      exact not_mem_of_all hall (by decide) List.mem_cons_self
    have harrow : ¬ ['-', '-', '>'] <+: c :: cs := fun hp =>
      not_mem_of_all hall (x := '>') (by decide) (hp.mem (by decide))
    have hscan : scan c cs = (.ident (String.ofList (c :: cs)), []) := by
      rw [scan_of_startsName hesc hstart harrow, nameToken_of_ident (by rw [hname]; nofun), nameAs, hname]
    rw [lexemes_cons, hscan, lexemes]
    simp [before]

theorem Identifier.plainName (i : Identifier) : PlainName i.chars := plainName_of_isIdentifier i.spelled

theorem Identifier.quiet (i : Identifier) : Quiet i.chars :=
  .of_all (by decide) (isIdentifier_spelled i.spelled).1

theorem inWord_iff {c : Char} :
    inWord c = true ↔ (65 ≤ c.toNat ∧ c.toNat ≤ 90) ∨ (97 ≤ c.toNat ∧ c.toNat ≤ 122) ∨ (48 ≤ c.toNat ∧ c.toNat ≤ 57) ∨
      c ∈ ['_', '-', '.', '#', '%', '+', ','] := by
  simp only [inWord, Char.isAlphanum, Bool.or_eq_true, isAlpha_iff, isDigit_iff, decide_eq_true_eq, or_assoc]

theorem not_isBlank_of_inWord {c : Char} (h : inWord c = true) : Text.isBlank c = false := by
  have hcode : 33 ≤ c.toNat ∧ c.toNat ≤ 122 := by
    rcases inWord_iff.1 h with h | h | h | h
    · omega
    · omega
    · omega
    · simp only [List.mem_cons, List.not_mem_nil, or_false] at h
      rcases h with rfl | rfl | rfl | rfl | rfl | rfl | rfl <;> decide
  rw [Bool.eq_false_iff]
  intro hb
  simp only [Text.isBlank, Bool.or_eq_true, Bool.and_eq_true, decide_eq_true_eq, beq_iff_eq] at hb
  omega

namespace Phrase
variable (v : Phrase)

theorem mem_words {w : List Char} (hw : w ∈ v.words) : w ≠ [] ∧ w.all inWord = true := by
  have h := List.all_eq_true.1 v.spelled w hw
  simpa using h

theorem words_text : Text.words v.text = v.words := by
  refine Text.words_intercalate fun w hw => ?_
  obtain ⟨hne, hall⟩ := v.mem_words hw
  exact ⟨hne, fun c hc => not_isBlank_of_inWord (List.all_eq_true.1 hall c hc)⟩

theorem all_text : v.text.all (fun c => c = ' ' || inWord c) = true := by
  have hword {w : List Char} (hw : w ∈ v.words) : ∀ c ∈ w, (decide (c = ' ') || inWord c) = true := by
    intro c hc
    rw [List.all_eq_true.1 (v.mem_words hw).2 c hc, Bool.or_true]
  rw [List.all_eq_true, text]
  cases hws : v.words with
  | nil => exact nofun
  | cons w ws =>
    rw [hws] at hword
    rw [Text.intercalate_eq_spread]
    intro c hc
    rcases List.mem_append.1 hc with hc | hc
    · exact hword List.mem_cons_self c hc
    · obtain ⟨u, hu, hcu⟩ := List.mem_flatMap.1 hc
      rcases List.mem_cons.1 hcu with rfl | hcu
      · rfl
      · exact hword (List.mem_cons_of_mem w hu) c hcu

theorem quiet : Quiet v.text := .of_all (by decide) v.all_text

theorem unflagged : '!' ∉ v.text := not_mem_of_all v.all_text (by decide)

end Phrase

namespace Mark
variable (m : Mark)

theorem all_word : m.word.all startsIdentifier = true := by
  have hletters : markWord.all startsIdentifier = true := by decide
  have hlower (c : Char) : c.toLower = c ∨ c.isUpper = true := by
    unfold Char.toLower
    split
    · rename_i hc
      exact .inr (decide_eq_true hc)
    · exact .inl rfl
  rw [← m.spelled, List.all_map] at hletters
  refine List.all_eq_true.2 fun c hc => ?_
  have hc := List.all_eq_true.1 hletters c hc
  rcases hlower c with h | h
  · rwa [Function.comp_apply, h] at hc
  · have halpha : c.isAlpha = true := Bool.or_eq_true_iff.2 (.inl h)
    rw [startsIdentifier, halpha, Bool.true_or]

theorem plainName : PlainName m.word := by
  refine plainName_of_isIdentifier ?_
  have hall := m.all_word
  have hspelled := m.spelled
  cases hw : m.word with
  | nil =>
    rw [hw] at hspelled
    cases hspelled
  | cons c cs =>
    rw [hw, List.all_cons, Bool.and_eq_true] at hall
    have hcs : cs.all inIdentifier = true :=
      List.all_eq_true.2 fun d hd => inIdentifier_of_startsIdentifier (List.all_eq_true.1 hall.2 d hd)
    rw [isIdentifier.eq_3 c cs fun d ds hc => absurd hc (ne_of_isNameStart (isNameStart_of_startsIdentifier hall.1) (by decide)), hall.1, hcs]
    rfl

theorem quiet : Quiet m.word := .of_all (by decide) m.all_word

theorem sameName_important : sameName (String.ofList m.word) "important" = true := by
  rw [sameName, String.toList_ofList, m.spelled]
  decide

end Mark

/-! ### How the items are read -/

theorem Gap.quiet (g : Gap) : Quiet g.chars := .of_all (by decide) g.blank

theorem Gap.dropWhile_append (g : Gap) {c : Char} (hc : isSpace c = false) (cs : List Char) :
    (g.chars ++ c :: cs).dropWhile isSpace = c :: cs := by
  rw [List.dropWhile_append_of_pos (List.all_eq_true.1 g.blank), List.dropWhile_cons_of_neg (by simp [hc])]

theorem squeeze_text (v : Phrase) {bs : List Char} (h : ∀ c ∈ bs, Text.isBlank c = true) :
    Text.squeeze (' ' :: (v.text ++ bs)) = v.text := by
  have hwords := Text.words_append_blank [] (b := ' ') (by decide) (v.text ++ bs)
  rw [List.nil_append] at hwords
  rw [Text.squeeze, hwords, Text.words_append_of_blanks _ h, v.words_text]
  rfl

/-- A name and a colon in quiet text. -/
theorem dropWhile_name (g : Gap) (n : Identifier) {y : List Char} (hy : '/' ∉ y) :
    ((lexemes (g.chars ++ (n.chars ++ ':' :: y))).map leaf).dropWhile isGap =
      .leaf ⟨.ident (String.ofList n.chars), n.chars⟩ :: .leaf ⟨.colon, [':']⟩ :: (lexemes y).map leaf := by
  have hslash : '/' ∉ g.chars ++ (n.chars ++ ':' :: y) := by
    simp only [List.mem_append, List.mem_cons, not_or]
    exact ⟨g.quiet.not_mem (by decide), n.quiet.not_mem (by decide), by decide, hy⟩
  have hcolon : Inert (':' :: y) := .of_fence (by decide) y
  have hdrop : (g.chars ++ (n.chars ++ ':' :: y)).dropWhile isSpace = n.chars ++ ':' :: y := by
    have hspelled := n.spelled
    cases hn : n.chars with
    | nil =>
      rw [hn] at hspelled
      cases hspelled
    | cons c cs =>
      have hall := (isIdentifier_spelled hspelled).1
      rw [hn, List.all_cons, Bool.and_eq_true] at hall
      exact g.dropWhile_append (not_isSpace_of_inIdentifier hall.1) _
  rw [dropWhile_map_leaf, dropWhile_gap_lexemes hslash, hdrop, n.plainName.complete.lexemes_append hcolon,
    n.plainName.reads, lexemes_of_scan (t := .colon) rfl]
  rfl

theorem any_isCurly_leaves (ls : List Lexeme) : (ls.map leaf).any isCurly = false := by
  rw [List.any_eq_false]
  intro c hc
  simp [isCurly_of_mem_leaves hc]

theorem splitMark_leaves {y : List Char} (hy : '!' ∉ y) (rest : List Component) :
    splitMark ((lexemes y).map leaf ++ rest) = ((lexemes y).map leaf ++ (splitMark rest).1, (splitMark rest).2) :=
  splitMark_append_of_unflagged (fun _ hc => Quiet.not_single hc hy rfl) rest

/-- What is read of a value in front of its mark. -/
structure ReadsValue (y : List Char) (v : Phrase) (important : Bool) (front : List Component) : Prop where
  split : splitMark ((lexemes y).map leaf) = (front, if important then some [] else none)
  flat : front.any isCurly = false
  text : Text.tidy (valueText front) = v.text

theorem readsValue_unmarked (v : Phrase) : ∃ front, ReadsValue (' ' :: (v.text ++ markText none)) v false front := by
  have hslash : '/' ∉ ' ' :: (v.text ++ []) := by
    have h : '/' ∉ v.text := v.quiet.not_mem (by decide)
    simpa using h
  have hbang : '!' ∉ ' ' :: (v.text ++ []) := by simpa using v.unflagged
  refine ⟨(lexemes (' ' :: (v.text ++ []))).map leaf, ?_, any_isCurly_leaves _, ?_⟩
  · simpa [splitMark, markText] using splitMark_leaves hbang []
  · rw [tidy_valueText_leaves hslash, squeeze_text v (by simp)]

theorem splitMark_mark (m : Mark) :
    splitMark [.leaf ⟨.delim '!', ['!']⟩, .leaf ⟨.ident (String.ofList m.word), m.word⟩] = ([], some []) := by
  have hafter : afterMark? [.leaf ⟨.delim '!', ['!']⟩, .leaf ⟨.ident (String.ofList m.word), m.word⟩] = some [] :=
    if_pos m.sameName_important
  rw [splitMark, hafter]

/-- The exclamation mark parts the value, and the space behind it, from the word. -/
theorem readsValue_marked (v : Phrase) (m : Mark) :
    ∃ front, ReadsValue (' ' :: (v.text ++ markText (some m))) v true front := by
  have hz : Quiet (' ' :: (v.text ++ [' '])) := .cons (by decide) (v.quiet.append (.cons (by decide) .nil))
  have hbang : '!' ∉ ' ' :: (v.text ++ [' ']) := by simpa using v.unflagged
  have hdashes : ¬ ['-', '-'] <+: m.word := fun h =>
    not_mem_of_all m.all_word (x := '-') (by decide) (h.mem (by decide))
  have hy : ' ' :: (v.text ++ markText (some m)) = ' ' :: (v.text ++ [' ']) ++ '!' :: m.word := by
    simp [markText]
  have hlex : (lexemes (' ' :: (v.text ++ markText (some m)))).map leaf =
      (lexemes (' ' :: (v.text ++ [' ']))).map leaf ++
        [.leaf ⟨.delim '!', ['!']⟩, .leaf ⟨.ident (String.ofList m.word), m.word⟩] := by
    rw [hy, hz.complete.lexemes_append (.bang hdashes), lexemes_of_scan (c := '!') (t := .delim '!') rfl,
      m.plainName.reads, List.map_append]
    rfl
  refine ⟨(lexemes (' ' :: (v.text ++ [' ']))).map leaf, ?_, any_isCurly_leaves _, ?_⟩
  · rw [hlex, splitMark_leaves hbang, splitMark_mark, List.append_nil]
    rfl
  · rw [tidy_valueText_leaves (hz.not_mem (by decide)), squeeze_text v (by simp; decide)]

theorem markText_quiet (m : Option Mark) : Quiet (markText m) := by
  cases m with
  | none => exact .nil
  | some m => exact .cons (by decide) (.cons (by decide) m.quiet)

theorem ofComponents?_written (g : Gap) (n : Identifier) (v : Phrase) (m : Option Mark) :
    ofComponents? ((lexemes (g.chars ++ (n.chars ++ ':' :: ' ' :: (v.text ++ markText m)))).map leaf) =
      some ⟨String.ofList n.chars, String.ofList v.text, m.isSome⟩ := by
  obtain ⟨front, hsplit, hflat, htext⟩ : ∃ front, ReadsValue (' ' :: (v.text ++ markText m)) v m.isSome front := by
    cases m with
    | none => exact readsValue_unmarked v
    | some m => exact readsValue_marked v m
  have hquiet : Quiet (' ' :: (v.text ++ markText m)) := .cons (by decide) (v.quiet.append (markText_quiet m))
  have hread := ofComponents?_of_split (dropWhile_name g n (hquiet.not_mem (by decide))) hsplit
    (by rw [hflat, Bool.false_and])
  rw [htext] at hread
  exact hread

theorem passage_declaration (g : Gap) (n : Identifier) (v : Phrase) (m : Option Mark) :
    Passage (Item.declaration g n v m).text [⟨String.ofList n.chars, String.ofList v.text, m.isSome⟩] := by
  have hquiet : Quiet (g.chars ++ (n.chars ++ ':' :: ' ' :: (v.text ++ markText m))) :=
    g.quiet.append (n.quiet.append (.cons (by decide) (.cons (by decide) (v.quiet.append (markText_quiet m)))))
  have hpass := passage_of_quiet hquiet
  rw [ofComponents?_written] at hpass
  rw [Item.text]
  exact hpass

/-- Quiet text whose first solid token is no name is passed over with the semicolon behind it. -/
theorem passage_of_nameless {x : List Char} (hx : Quiet x)
    (h : ∀ n text, (lexemes (x.dropWhile isSpace)).head? ≠ some ⟨.ident n, text⟩) : Passage (x ++ [';']) [] := by
  have hpass := passage_of_quiet hx
  rw [ofComponents?_eq_none] at hpass
  · exact hpass
  · intro n text he
    rw [dropWhile_map_leaf, dropWhile_gap_lexemes (hx.not_mem (by decide)), List.head?_map] at he
    obtain ⟨l, hl, hleaf⟩ := Option.map_eq_some_iff.1 he
    exact h n text (hl.trans (congrArg some (Component.leaf.inj hleaf)))

theorem passage_statement (g : Gap) (n : Identifier) (words : Phrase) : Passage (Item.statement g n words).text [] := by
  have hquiet : Quiet (g.chars ++ ('@' :: n.chars ++ ' ' :: words.text)) :=
    g.quiet.append ((Quiet.cons (by decide) n.quiet).append (.cons (by decide) words.quiet))
  rw [Item.text]
  refine passage_of_nameless hquiet fun name text he => ?_
  rw [List.cons_append, g.dropWhile_append (by decide), lexemes_cons, scan_at] at he
  have htoken := congrArg Lexeme.token (Option.some.inj he)
  dsimp only at htoken
  split at htoken <;> cases htoken

theorem passage_stray (g : Gap) : Passage (Item.stray g).text [] := by
  rw [Item.text]
  refine passage_of_nameless g.quiet fun n text he => ?_
  rw [List.dropWhile_eq_nil_iff.2 (List.all_eq_true.1 g.blank), lexemes] at he
  cases he

mutual
theorem Item.passage : ∀ i : Item, Passage i.text i.declaration?.toList
  | .declaration g n v m => passage_declaration g n v m
  | .nested g prelude body ending => by
    have hname : ¬ ['-', '-'] <+: (g.chars ++ prelude.chars).dropWhile isSpace := by
      rw [List.dropWhile_append_of_pos (List.all_eq_true.1 g.blank)]
      exact prelude.undashed
    rw [Item.text]
    exact passage_of_nested (g.quiet.append prelude.quiet) hname (passage_textAll body) ending.quiet
  | .statement g n words => passage_statement g n words
  | .stray g => passage_stray g

theorem passage_textAll : ∀ is : List Item, Passage (textAll is) (is.filterMap Item.declaration?)
  | [] => .nil
  | i :: is => by
    have h := (Item.passage i).append (passage_textAll is)
    rw [textAll]
    cases hd : i.declaration? with
    | none =>
      rw [hd] at h
      rwa [List.filterMap_cons_none hd]
    | some d =>
      rw [hd] at h
      rwa [List.filterMap_cons_some hd]
end

theorem selectorText_class : SelectorText ".x ".toList :=
  ⟨by decide +kernel, by decide +kernel, by decide +kernel, by decide +kernel⟩

theorem atPosition?_blank (g : Gap) :
    atPosition? (".x ".toList ++ '\x7b' :: (g.chars ++ ['\x7d'])) ⟨0, 1⟩ = some [] := by
  have hclose : Inert ['\x7d'] := .of_fence (by decide) []
  have hnest : nestInto (lexemes (g.chars ++ ['\x7d'])) [] [blockBehind ".x ".toList] =
      (blockBehind ".x ".toList).earlier.reverse ++
        .block .curly (blockBehind ".x ".toList).opener ((lexemes g.chars).map leaf)
          (some ⟨.closing .curly, ['\x7d']⟩) :: [] := by
    have hleaves := leavesAll_map_leaf (lexemes g.chars)
    rw [g.quiet.complete.lexemes_append hclose, lexemes_of_scan (t := .closing .curly) rfl, ← hleaves,
      nestInto_leavesAll _ _ _ _ (g.quiet.fitsAll_leaves _), hleaves, blockBehind, nestInto_closer rfl]
    simp [lexemes, nestInto, closeFrames]
  have hgaps : ((lexemes g.chars).map leaf).dropWhile isGap = [] := by
    rw [dropWhile_map_leaf, dropWhile_gap_lexemes (g.quiet.not_mem (by decide)),
      List.dropWhile_eq_nil_iff.2 (List.all_eq_true.1 g.blank), lexemes]
    rfl
  rw [atPosition?_of_open selectorText_class hnest, ofBlock_of_nil hgaps]

/-- Reading undoes writing: a block is read to the declarations among its items, in their order. -/
theorem atPosition?_textAll (items : List Item) (ending : Gap) :
    atPosition? (".x \x7b".toList ++ (textAll items ++ (ending.chars ++ ['\x7d']))) ⟨0, 1⟩ =
      some (items.filterMap Item.declaration?) := by
  have h := atPosition?_passage selectorText_class (passage_textAll items) (ending.chars ++ ['\x7d'])
  rw [atPosition?_blank, Option.map_some, List.append_nil] at h
  exact h

example : atPosition? ".x \x7b a:hover \x7bb: c;\x7d @layer z;; --y: 1px 2px !IMPORTANT;\n\x7d".toList ⟨0, 1⟩ =
    some [⟨"--y", "1px 2px", true⟩] := by decide +kernel

end StyleBump.Block
