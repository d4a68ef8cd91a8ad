import StyleBump.General
import StyleBump.Proofs.Lexing

/-! # What the characters of a token say

A token that stands for one character is that character alone, names and the names of functions are read in
one way only, and an address has a parenthesis (`scan_told`). So the characters of a text limit what its
lexemes can be. -/

namespace StyleBump.Css
open List

/-- The character that a token stands for, if it is always written as that character alone. -/
def Token.single? : Token → Option Char
  | delim c => some c
  | colon => some ':'
  | semicolon => some ';'
  | comma => some ','
  | opening .round => some '('
  | opening .square => some '['
  | opening .curly => some '\x7b'
  | closing .round => some ')'
  | closing .square => some ']'
  | closing .curly => some '\x7d'
  | _ => none

/-- Whether a token is a name, or that of a function. -/
def Token.isNamed : Token → Bool
  | ident _ => true
  | function _ => true
  | _ => false

/-- What the token and the rest `r` say of the text `c :: cs` that they were read from. -/
structure Told (c : Char) (cs : List Char) (r : Token × List Char) : Prop where
  single : ∀ d, r.1.single? = some d → d = c ∧ r.2 = cs
  named : r.1.isNamed = true → startsName (c :: cs) = true ∧ r = nameToken (c :: cs)
  url : r.1.isUrl = true → '(' ∈ c :: cs

theorem urlToken_single? (f : String) (cs : List Char) : (urlToken f cs).1.single? = none := by
  simp only [urlToken, addressToken]
  split
  · rfl
  split
  · rfl
  · split <;> rfl

namespace Told
variable {c : Char} {cs : List Char}

theorem other {r : Token × List Char} (hs : r.1.single? = none) (hn : r.1.isNamed = false)
    (hu : r.1.isUrl = false) : Told c cs r where
  single d hd := by
    rw [hs] at hd
    cases hd
  named h := by
    rw [hn] at h
    cases h
  url h := by
    rw [hu] at h
    cases h

theorem char {t : Token} (h : t.single? = some c) : Told c cs (t, cs) where
  single d hd := by
    rw [h] at hd
    exact ⟨(Option.some.inj hd).symm, rfl⟩
  named hn := by
    cases t with
    | ident _ => cases h
    | function _ => cases h
    | _ => cases hn
  url hu := by
    cases t with
    | url _ => cases h
    | badUrl _ => cases h
    | _ => cases hu

theorem numeric (ds : List Char) : Told c cs (numeric ds) := by
  simp only [Css.numeric]
  split
  · exact other rfl rfl rfl
  · split <;> exact other rfl rfl rfl

theorem stringToken (q : Char) (ds : List Char) : Told c cs (stringToken q ds) := by
  simp only [Css.stringToken]
  split <;> exact other rfl rfl rfl

theorem nameToken (h : startsName (c :: cs) = true) : Told c cs (nameToken (c :: cs)) := by
  by_cases hp : (name (c :: cs)).2.head? = some '('
  · obtain ⟨ds, hds⟩ := head?_eq_some_iff.1 hp
    have hmem : '(' ∈ c :: cs := (name_suffix (c :: cs)).mem (by rw [hds]; exact mem_cons_self)
    refine ⟨fun d hd => ?_, fun _ => ⟨h, rfl⟩, fun _ => hmem⟩
    rw [nameToken_of_function hds] at hd
    split at hd
    · rw [urlToken_single?] at hd
      cases hd
    · cases hd
  · refine ⟨fun d hd => ?_, fun _ => ⟨h, rfl⟩, fun hu => ?_⟩
    · rw [nameToken_of_ident hp] at hd
      cases hd
    · rw [nameToken_of_ident hp] at hu
      cases hu

theorem orMatch {t : Token} (hs : t.single? = none) (hn : t.isNamed = false) (hu : t.isUrl = false) :
    Told c cs (orMatch t c cs) := by
  unfold Css.orMatch
  split
  · exact other hs hn hu
  · exact char rfl

end Told

theorem scan_told (c : Char) (cs : List Char) : Told c cs (scan c cs) := by
  unfold scan
  split
  · exact .other rfl rfl rfl
  split
  · exact .numeric _
  split
  · exact .stringToken _ _
  · exact .stringToken _ _
  · split
    · exact .other rfl rfl rfl
    · split
      · exact .other rfl rfl rfl
      · exact .char rfl
  iterate 5 exact .orMatch rfl rfl rfl
  iterate 9 exact .char rfl
  iterate 3
    split
    · exact .other rfl rfl rfl
    · exact .char rfl
  · split
    · exact .other rfl rfl rfl
    · split
      · rename_i h
        exact .nameToken h
      · exact .char rfl
  · split
    · rename_i h
      exact .nameToken h
    · exact .char rfl

theorem urlToken_ne_ident (f : String) (cs : List Char) (n : String) : (urlToken f cs).1 ≠ .ident n := by
  simp only [urlToken, addressToken]
  split
  · simp
  split
  · simp
  · split <;> simp

/-- What is read as a name is all that a name can be read from. -/
theorem scan_ident {c : Char} {cs : List Char} {n : String} (h : (scan c cs).1 = .ident n) :
    startsName (c :: cs) = true ∧ scan c cs = nameAs .ident (c :: cs) := by
  obtain ⟨hstart, hname⟩ := (scan_told c cs).named (by rw [h]; rfl)
  refine ⟨hstart, ?_⟩
  rw [hname] at h ⊢
  by_cases hp : (name (c :: cs)).2.head? = some '('
  · obtain ⟨ds, hds⟩ := head?_eq_some_iff.1 hp
    rw [nameToken_of_function hds] at h
    split at h
    · exact absurd h (urlToken_ne_ident _ _ n)
    · cases h
  · exact nameToken_of_ident hp

section
variable {cs : List Char} {l : Lexeme} (hl : l ∈ lexemes cs)
include hl

/-- A lexeme that stands for one character is that character. -/
theorem text_of_single? {d : Char} (h : l.token.single? = some d) : l.text = [d] := by
  obtain ⟨c, ds, -, htok, ht⟩ := exists_scan_of_mem hl
  rw [htok] at h
  obtain ⟨rfl, hrest⟩ := (scan_told c ds).single d h
  rw [hrest] at ht
  have hchars : l.text ++ ds = [d] ++ ds := ht
  exact append_cancel_right hchars

theorem mem_of_mem_lexemes {d : Char} (hd : d ∈ l.text) : d ∈ cs := by
  rw [← textOf_lexemes cs]
  exact mem_flatten.2 ⟨l.text, mem_map_of_mem hl, hd⟩

theorem mem_of_single? {d : Char} (h : l.token.single? = some d) : d ∈ cs := by
  refine mem_of_mem_lexemes hl ?_
  rw [text_of_single? hl h]
  exact mem_cons_self

theorem mem_of_isUrl (h : l.token.isUrl = true) : '(' ∈ cs := by
  obtain ⟨c, ds, hsuf, htok, -⟩ := exists_scan_of_mem hl
  rw [htok] at h
  exact hsuf.mem ((scan_told c ds).url h)

/-- A text without brackets opens no block and closes none. -/
theorem opens?_closes?_eq_none (h : ∀ d ∈ brackets, d ∉ cs) : l.token.opens? = none ∧ l.token.closes? = none := by
  constructor
  · cases ho : l.token.opens? with
    | none => rfl
    | some b =>
      obtain ⟨t, d, hd, ht⟩ := text_of_opens hl ho
      exact absurd (mem_of_mem_lexemes hl (by simp [ht])) (h d hd)
  · cases hc : l.token.closes? with
    | none => rfl
    | some b =>
      have hsingle : ∃ d ∈ brackets, l.token.single? = some d := by
        cases ht : l.token <;> rw [ht] at hc <;> cases hc
        cases b
        · exact ⟨')', by decide, rfl⟩
        · exact ⟨']', by decide, rfl⟩
        · exact ⟨'\x7d', by decide, rfl⟩
      obtain ⟨d, hd, hs⟩ := hsingle
      exact absurd (mem_of_single? hl hs) (h d hd)

end

theorem name_of_unescaped {cs : List Char} (h : '\\' ∉ cs) :
    name cs = ((cs.takeWhile isNameChar).map plain, cs.dropWhile isNameChar) := by
  induction cs with
  | nil => rw [name]; rfl
  | cons c cs ih =>
    obtain ⟨hc, hcs⟩ := not_or.1 (mt mem_cons.2 h)
    cases hn : isNameChar c with
    | true =>
      rw [name_of_nameChar hn, ih hcs, takeWhile_cons_of_pos hn, dropWhile_cons_of_pos hn]
      rfl
    | false =>
      have hstop : (c = '\\' && !startsBreak cs) = false := by simp [Ne.symm hc]
      rw [name_of_stop hn hstop, takeWhile_cons_of_neg (by simp [hn]), dropWhile_cons_of_neg (by simp [hn])]
      rfl

/-- The lexemes behind the gaps that a text without comments starts with. -/
theorem dropWhile_gap_lexemes {cs : List Char} (h : '/' ∉ cs) :
    (lexemes cs).dropWhile (·.token.isGap) = lexemes (cs.dropWhile isSpace) := by
  have solid {c : Char} {ds : List Char} (hs : isSpace c = false) (hc : '/' ∉ c :: ds) :
      (lexemes (c :: ds)).dropWhile (·.token.isGap) = lexemes (c :: ds) := by
    have hgap : (scan c ds).1.isGap = false := by
      rcases scan_cases c ds with hb | hb | hb | hb
      · simp only [brackets, mem_cons, not_mem_nil, or_false] at hb
        rcases hb with rfl | rfl | rfl | rfl | rfl | rfl <;> rfl
      · rw [hb] at hs
        cases hs
      · exact absurd (hb.mem mem_cons_self) hc
      · exact hb.gap
    rw [lexemes_cons, dropWhile_cons_of_neg (by simp [hgap])]
  cases cs with
  | nil => simp [lexemes]
  | cons c cs =>
    cases hs : isSpace c with
    | false => rw [dropWhile_cons_of_neg (by simp [hs]), solid hs h]
    | true =>
      have hrest : '/' ∉ cs.dropWhile isSpace := fun hm =>
        h (mem_cons_of_mem c ((dropWhile_suffix isSpace).mem hm))
      rw [dropWhile_cons_of_pos hs, lexemes_cons, scan_of_space hs, dropWhile_cons_of_pos rfl]
      cases hd : cs.dropWhile isSpace with
      | nil => rw [lexemes]; rfl
      | cons d ds =>
        rw [hd] at hrest
        exact solid (not_of_dropWhile_eq_cons hd) hrest

/-! ### Names -/

section
variable {c : Char}

theorem isDigit_iff : c.isDigit = true ↔ 48 ≤ c.toNat ∧ c.toNat ≤ 57 :=
  (Bool.and_eq_true_iff.trans (and_congr decide_eq_true_iff decide_eq_true_iff)).trans
    (and_congr UInt32.le_iff_toNat_le UInt32.le_iff_toNat_le)

theorem isUpper_iff : c.isUpper = true ↔ 65 ≤ c.toNat ∧ c.toNat ≤ 90 :=
  decide_eq_true_iff.trans (and_congr UInt32.le_iff_toNat_le UInt32.le_iff_toNat_le)

theorem isLower_iff : c.isLower = true ↔ 97 ≤ c.toNat ∧ c.toNat ≤ 122 :=
  (Bool.and_eq_true_iff.trans (and_congr decide_eq_true_iff decide_eq_true_iff)).trans
    (and_congr UInt32.le_iff_toNat_le UInt32.le_iff_toNat_le)

theorem isAlpha_iff :
    c.isAlpha = true ↔ (65 ≤ c.toNat ∧ c.toNat ≤ 90) ∨ (97 ≤ c.toNat ∧ c.toNat ≤ 122) :=
  Bool.or_eq_true_iff.trans (or_congr isUpper_iff isLower_iff)

end

theorem isNameStart_iff {c : Char} :
    isNameStart c = true ↔ (65 ≤ c.toNat ∧ c.toNat ≤ 90) ∨ (97 ≤ c.toNat ∧ c.toNat ≤ 122) ∨ c = '_' ∨ c = '\x00' ∨
      0x80 ≤ c.toNat := by
  simp only [isNameStart, Bool.or_eq_true, isAlpha_iff, decide_eq_true_eq, or_assoc]

section
variable {c : Char} (h : isNameStart c = true)
include h

theorem ne_of_isNameStart {d : Char} (hd : isNameStart d = false) : c ≠ d := by
  rintro rfl
  rw [h] at hd
  cases hd

theorem not_digit_of_isNameStart : c.isDigit = false := by
  rw [Bool.eq_false_iff]
  intro hd
  obtain ⟨h₁, h₂⟩ := isDigit_iff.1 hd
  rcases isNameStart_iff.1 h with h | h | rfl | rfl | h
  · omega
  · omega
  · exact absurd h₂ (by decide)
  · exact absurd h₁ (by decide)
  · omega

/-- No number starts like a name, also behind a sign. -/
theorem startsNumber_of_isNameStart {cs ds : List Char} (hs : (sign cs).2 = c :: ds) : startsNumber cs = false := by
  have hpoint : (sign cs).2.head? ≠ some '.' := by
    rw [hs]
    intro he
    exact ne_of_isNameStart h (by decide) (Option.some.inj he)
  rw [startsNumber_of_ne hpoint, hs]
  exact not_digit_of_isNameStart h

end

/-- Only the arrow starts like a name and is none. -/
theorem scan_of_startsName {c : Char} {cs : List Char} (hesc : c ≠ '\\') (h : startsName (c :: cs) = true)
    (harrow : ¬ ['-', '-', '>'] <+: c :: cs) : scan c cs = nameToken (c :: cs) := by
  by_cases hc : c = '-'
  · subst hc
    have harrow' : ¬ ['-', '>'] <+: cs := fun hp => harrow (cons_prefix_cons.2 ⟨rfl, hp⟩)
    have hnumber : startsNumber ('-' :: cs) = false := by
      cases cs with
      | nil => rfl
      | cons d ds =>
        simp only [startsName, Bool.or_eq_true, decide_eq_true_eq] at h
        rcases h with (hd | rfl) | rfl
        · exact startsNumber_of_isNameStart hd rfl
        · rfl
        · rfl
    rw [scan_hyphen hnumber harrow', if_pos h]
  · have hstart := h
    rw [startsName_of_ne hc hesc] at hstart
    have hall : (specials ++ [' ', '\t', '\n', '\r', '\x0c']).all (!isNameStart ·) = true := by decide
    have hother {d : Char} (hd : d ∈ specials ++ [' ', '\t', '\n', '\r', '\x0c']) : c ≠ d := by
      refine ne_of_isNameStart hstart ?_
      simpa using all_eq_true.1 hall d hd
    have hspecial : c ∉ specials := fun hm => hother (mem_append_left _ hm) rfl
    have hspace : isSpace c = false := by
      simp only [isSpace, Text.isBreak, Bool.or_eq_false_iff, decide_eq_false_iff_not]
      exact ⟨⟨hother (by decide), hother (by decide)⟩, ⟨hother (by decide), hother (by decide)⟩, hother (by decide)⟩
    have hsign : sign (c :: cs) = (.none, c :: cs) := sign_of_ne (ne_of_isNameStart hstart (by decide)) hc cs
    rw [scan_of_plain hspecial hspace (startsNumber_of_isNameStart hstart (by rw [hsign])), if_pos h]

end StyleBump.Css
