import StyleBump.Css.Token
import StyleBump.Text.Position

/-! # Reading tokens

`lexemes` cuts a text into lexemes that concatenate to it. Each scanning function below takes the
characters after the ones that select it and returns what it leaves; `scan_suffix` says that this is
always an end of what it was given, so reading ends. -/

namespace StyleBump.Css
open StyleBump.Text (isBreak)

/-- The white space of the language. -/
def isSpace (c : Char) : Bool := c = ' ' || c = '\t' || isBreak c

/-- What a NUL and every other code that is no character reads as. -/
def replacement : Char := '\uFFFD'

/-- Letters, the underscore, NUL and everything beyond ASCII start a name. -/
def isNameStart (c : Char) : Bool :=
  c.isAlpha || c = '_' || c = '\x00' || 0x80 ≤ c.toNat

def isNameChar (c : Char) : Bool :=
  isNameStart c || c.isDigit || c = '-'

/-- Control characters that an unquoted address may not hold. -/
def isControl (c : Char) : Bool :=
  let n := c.toNat
  (1 ≤ n && n ≤ 8) || n = 0xB || (0xE ≤ n && n ≤ 0x1F) || n = 0x7F

def startsBreak : List Char → Bool
  | c :: _ => isBreak c
  | [] => false

def startsDigit : List Char → Bool
  | c :: _ => c.isDigit
  | [] => false

/-- Whether a name starts here. After a hyphen any escape counts, even one cut short by a line
break. -/
def startsName : List Char → Bool
  | '-' :: c :: _ => isNameStart c || c = '-' || c = '\\'
  | '\\' :: cs => !startsBreak cs
  | c :: _ => isNameStart c
  | [] => false

/-! ## Escapes and names -/

def hexDigit? (c : Char) : Option Nat :=
  if c.isDigit then some (c.toNat - 48)
  else if 'a' ≤ c && c ≤ 'f' then some (c.toNat - 87)
  else if 'A' ≤ c && c ≤ 'F' then some (c.toNat - 55)
  else none

/-- Reads at most `n` hexadecimal digits behind the value `v`. -/
def hexRun : Nat → Nat → List Char → Nat × List Char
  | n + 1, v, c :: cs =>
    match hexDigit? c with
    | some d => hexRun n (16 * v + d) cs
    | none => (v, c :: cs)
  | _, v, cs => (v, cs)

/-- One white space, or one line break of two characters, ends an escape in digits. -/
def dropSpace : List Char → List Char
  | '\r' :: '\n' :: cs => cs
  | c :: cs => if isSpace c then cs else c :: cs
  | [] => []

/-- The character of a code, if it has one and is not NUL. -/
def decode (n : Nat) : Char :=
  if n ≠ 0 ∧ n.isValidChar then Char.ofNat n else replacement

/-- The character that stands for itself, NUL apart. -/
def plain (c : Char) : Char := if c = '\x00' then replacement else c

/-- The character of the escape behind a backslash. -/
def escape : List Char → Char × List Char
  | [] => (replacement, [])
  | c :: cs =>
    match hexDigit? c with
    | some d =>
      let r := hexRun 5 d cs
      (decode r.1, dropSpace r.2)
    | none => (plain c, cs)

section Suffix
open List

theorem hexRun_suffix (n v : Nat) (cs : List Char) : (hexRun n v cs).2 <:+ cs := by
  induction n generalizing v cs with
  | zero => simp [hexRun]
  | succ n ih =>
    cases cs with
    | nil => simp [hexRun]
    | cons c cs =>
      simp only [hexRun]
      split
      · exact (ih _ cs).trans (suffix_cons c cs)
      · exact suffix_refl _

theorem dropSpace_suffix (cs : List Char) : dropSpace cs <:+ cs := by
  fun_cases dropSpace cs
  · exact (suffix_cons _ _).trans (suffix_cons _ _)
  · exact suffix_cons _ _
  · exact suffix_refl _
  · exact suffix_refl _

theorem escape_suffix (cs : List Char) : (escape cs).2 <:+ cs := by
  cases cs with
  | nil => exact suffix_refl _
  | cons c cs =>
    simp only [escape]
    split
    · exact ((dropSpace_suffix _).trans (hexRun_suffix _ _ _)).trans (suffix_cons _ _)
    · exact suffix_cons _ _

theorem escape_length_le (cs : List Char) : (escape cs).2.length ≤ cs.length :=
  (escape_suffix cs).length_le

end Suffix

/-- A name with its escapes resolved, and what follows it. -/
def name : List Char → List Char × List Char
  | [] => ([], [])
  | c :: cs =>
    if isNameChar c then
      let r := name cs
      (plain c :: r.1, r.2)
    else if c = '\\' && !startsBreak cs then
      let r := name (escape cs).2
      ((escape cs).1 :: r.1, r.2)
    else ([], c :: cs)
termination_by cs => cs.length
decreasing_by
  · simp
  · have := escape_length_le cs; simp only [List.length_cons]; omega

/-! ## Strings and addresses -/

/-- What a scan up to an end mark finds: the content, whether it is sound, and the rest. If it is not,
the rest starts with what ends it. -/
structure Span where
  content : List Char
  sound : Bool
  rest : List Char

/-- Puts a character before the content. -/
def Span.push (c : Char) (s : Span) : Span := { s with content := c :: s.content }

/-- A string up to its quote or the end of the text; a line break that no backslash precedes spoils
it and stays. -/
def quoted (q : Char) : List Char → Span
  | [] => ⟨[], true, []⟩
  | c :: cs =>
    if c = q then ⟨[], true, cs⟩
    else if isBreak c then ⟨[], false, c :: cs⟩
    else if c = '\\' then
      match cs with
      | [] => ⟨[], true, []⟩
      | d :: ds =>
        if isBreak d then quoted q (dropSpace (d :: ds))
        else (quoted q (escape (d :: ds)).2).push (escape (d :: ds)).1
    else (quoted q cs).push (plain c)
termination_by cs => cs.length
decreasing_by
  · have := (dropSpace_suffix (d :: ds)).length_le; simp only [List.length_cons] at *; omega
  · have := escape_length_le (d :: ds); simp only [List.length_cons] at *; omega
  · simp

/-- What is left of a text with a spoiled address: all from the closing parenthesis on, one behind a
backslash not counted. -/
def spoiled : List Char → List Char
  | [] => []
  | ')' :: cs => ')' :: cs
  | '\\' :: ')' :: cs => spoiled cs
  | '\\' :: '\\' :: cs => spoiled cs
  | _ :: cs => spoiled cs

/-- The end of an address: white space and the closing parenthesis. -/
def addressEnd : List Char → Span
  | [] => ⟨[], true, []⟩
  | c :: cs =>
    if c = ')' then ⟨[], true, cs⟩
    else if isSpace c then addressEnd cs
    else ⟨[], false, spoiled cs⟩

/-- An unquoted address up to its closing parenthesis or the end of the text. -/
def address : List Char → Span
  | [] => ⟨[], true, []⟩
  | c :: cs =>
    if c = ')' then ⟨[], true, cs⟩
    else if isSpace c then addressEnd (c :: cs)
    else if isControl c || c = '"' || c = '\'' || c = '(' then ⟨[], false, spoiled cs⟩
    else if c = '\\' then
      if startsBreak cs then ⟨[], false, spoiled cs⟩
      else (address (escape cs).2).push (escape cs).1
    else (address cs).push (plain c)
termination_by cs => cs.length
decreasing_by
  · have := escape_length_le cs; simp only [List.length_cons]; omega
  · simp

/-- The body of a comment and what follows its closing mark. -/
def commentBody : List Char → List Char × List Char
  | [] => ([], [])
  | '*' :: '/' :: cs => ([], cs)
  | c :: cs => (c :: (commentBody cs).1, (commentBody cs).2)

/-! ## Numbers -/

/-- A sign and what follows it. -/
def sign : List Char → Sign × List Char
  | '+' :: cs => (.plus, cs)
  | '-' :: cs => (.minus, cs)
  | cs => (.none, cs)

/-- The digits behind a point, if the point has any. -/
def fraction : List Char → List Char × List Char
  | '.' :: cs => if startsDigit cs then (cs.takeWhile Char.isDigit, cs.dropWhile Char.isDigit) else ([], '.' :: cs)
  | cs => ([], cs)

/-- The exponent, if digits follow its mark and sign. -/
def exponent : List Char → Option (Sign × List Char) × List Char
  | [] => (none, [])
  | c :: cs =>
    let s := sign cs
    if (c = 'e' || c = 'E') && startsDigit s.2 then
      (some (s.1, s.2.takeWhile Char.isDigit), s.2.dropWhile Char.isDigit)
    else (none, c :: cs)

/-- The longest number that a text starts with. -/
def numeral (cs : List Char) : Numeral × List Char :=
  let s := sign cs
  let f := fraction (s.2.dropWhile Char.isDigit)
  let e := exponent f.2
  (⟨s.1, s.2.takeWhile Char.isDigit, f.1, e.1⟩, e.2)

/-- Whether a number starts here: a digit, or a point and a digit, behind at most one sign. -/
def startsNumber (cs : List Char) : Bool :=
  match (sign cs).2 with
  | '.' :: ds => startsDigit ds
  | ds => startsDigit ds

/-! ## Tokens -/

/-- The characters of `cs` before its end `rest`. -/
def before (cs rest : List Char) : List Char := cs.take (cs.length - rest.length)

/-- A number with the percent sign or the unit behind it. -/
def numeric (cs : List Char) : Token × List Char :=
  let r := numeral cs
  match r.2 with
  | '%' :: ds => (.percentage r.1, ds)
  | ds =>
    if startsName ds then
      let u := name ds
      (.dimension r.1 (String.ofList u.1), u.2)
    else (.number r.1, ds)

/-- A string token behind its opening quote. -/
def stringToken (q : Char) (cs : List Char) : Token × List Char :=
  let s := quoted q cs
  let v := String.ofList s.content
  (if s.sound then .string v else .badString v, s.rest)

/-- The token of an address. A spoiled one is held as written, without its closing parenthesis. -/
def addressToken (cs : List Char) : Token × List Char :=
  let s := address cs
  if s.sound then (.url (String.ofList s.content), s.rest)
  else (.badUrl (String.ofList (before cs s.rest)), s.rest.drop 1)

/-- The token behind `url(`: an address, or a function if a quote follows. -/
def urlToken (f : String) (cs : List Char) : Token × List Char :=
  match cs.dropWhile isSpace with
  | [] => (.url "", [])
  | d :: ds => if d = '"' || d = '\'' then (.function f, cs) else addressToken (d :: ds)

/-- Whether two names are equal up to the case of ASCII letters. -/
def sameName (a b : String) : Bool :=
  a.toList.map Char.toLower == b.toList.map Char.toLower

/-- A name, or the function that it names. -/
def nameToken (cs : List Char) : Token × List Char :=
  let r := name cs
  let n := String.ofList r.1
  match r.2 with
  | '(' :: ds => if sameName n "url" then urlToken n ds else (.function n, ds)
  | ds => (.ident n, ds)

/-- One of two tokens, as an equals sign follows or not. -/
def orMatch (t : Token) (c : Char) : List Char → Token × List Char
  | '=' :: cs => (t, cs)
  | cs => (.delim c, cs)

/-- The token that starts with `c` and goes on in `cs`. -/
def scan (c : Char) (cs : List Char) : Token × List Char :=
  if isSpace c then
    (.whitespace (String.ofList (c :: cs.takeWhile isSpace)), cs.dropWhile isSpace)
  else if startsNumber (c :: cs) then numeric (c :: cs)
  else match c with
    | '"' => stringToken '"' cs
    | '\'' => stringToken '\'' cs
    | '#' =>
      if startsName cs then (.idHash (String.ofList (name cs).1), (name cs).2)
      else if startsDigit cs || cs.head? = some '-' then
        (.hash (String.ofList (name cs).1), (name cs).2)
      else (.delim '#', cs)
    | '$' => orMatch .suffixMatch '$' cs
    | '*' => orMatch .substringMatch '*' cs
    | '^' => orMatch .prefixMatch '^' cs
    | '|' => orMatch .dashMatch '|' cs
    | '~' => orMatch .includeMatch '~' cs
    | '(' => (.opening .round, cs)
    | ')' => (.closing .round, cs)
    | '[' => (.opening .square, cs)
    | ']' => (.closing .square, cs)
    | '\x7b' => (.opening .curly, cs)
    | '\x7d' => (.closing .curly, cs)
    | ',' => (.comma, cs)
    | ':' => (.colon, cs)
    | ';' => (.semicolon, cs)
    | '/' =>
      match cs with
      | '*' :: ds => (.comment (String.ofList (commentBody ds).1), (commentBody ds).2)
      | ds => (.delim '/', ds)
    | '<' =>
      match cs with
      | '!' :: '-' :: '-' :: ds => (.cdo, ds)
      | ds => (.delim '<', ds)
    | '@' => if startsName cs then (.atKeyword (String.ofList (name cs).1), (name cs).2) else (.delim '@', cs)
    | '-' =>
      match cs with
      | '-' :: '>' :: ds => (.cdc, ds)
      | ds => if startsName ('-' :: ds) then nameToken ('-' :: ds) else (.delim '-', ds)
    | c => if startsName (c :: cs) then nameToken (c :: cs) else (.delim c, cs)

section Suffix
open List

theorem name_suffix (cs : List Char) : (name cs).2 <:+ cs := by
  fun_induction name cs with
  | case1 => exact suffix_refl _
  | case2 c cs _ _ ih => exact ih.trans (suffix_cons _ _)
  | case3 c cs _ _ _ ih => exact (ih.trans (escape_suffix cs)).trans (suffix_cons _ _)
  | case4 => exact suffix_refl _

theorem quoted_suffix (q : Char) (cs : List Char) : (quoted q cs).rest <:+ cs := by
  fun_induction quoted q cs with
  | case1 => exact suffix_refl _
  | case2 => exact suffix_cons _ _
  | case3 => exact suffix_refl _
  | case4 => exact nil_suffix
  | case5 _ _ _ _ _ ih => exact (ih.trans (dropSpace_suffix _)).trans (suffix_cons _ _)
  | case6 _ _ _ _ _ ih => exact (ih.trans (escape_suffix _)).trans (suffix_cons _ _)
  | case7 c cs _ _ _ ih => exact ih.trans (suffix_cons _ _)

theorem spoiled_suffix (cs : List Char) : spoiled cs <:+ cs := by
  fun_induction spoiled cs with
  | case1 => exact suffix_refl _
  | case2 => exact suffix_refl _
  | case3 cs ih => exact (ih.trans (suffix_cons _ _)).trans (suffix_cons _ _)
  | case4 cs ih => exact (ih.trans (suffix_cons _ _)).trans (suffix_cons _ _)
  | case5 c cs _ _ _ ih => exact ih.trans (suffix_cons _ _)

theorem addressEnd_suffix (cs : List Char) : (addressEnd cs).rest <:+ cs := by
  fun_induction addressEnd cs with
  | case1 => exact suffix_refl _
  | case2 => exact suffix_cons _ _
  | case3 c cs _ _ ih => exact ih.trans (suffix_cons _ _)
  | case4 c cs _ _ => exact (spoiled_suffix cs).trans (suffix_cons _ _)

theorem address_suffix (cs : List Char) : (address cs).rest <:+ cs := by
  fun_induction address cs with
  | case1 => exact suffix_refl _
  | case2 => exact suffix_cons _ _
  | case3 => exact addressEnd_suffix _
  | case4 c cs => exact (spoiled_suffix cs).trans (suffix_cons _ _)
  | case5 => exact (spoiled_suffix _).trans (suffix_cons _ _)
  | case6 _ _ _ _ _ ih => exact (ih.trans (escape_suffix _)).trans (suffix_cons _ _)
  | case7 c cs _ _ _ _ ih => exact ih.trans (suffix_cons _ _)

theorem commentBody_suffix (cs : List Char) : (commentBody cs).2 <:+ cs := by
  fun_induction commentBody cs with
  | case1 => exact suffix_refl _
  | case2 cs => exact (suffix_cons _ _).trans (suffix_cons _ _)
  | case3 c cs _ ih => exact ih.trans (suffix_cons _ _)

theorem sign_suffix (cs : List Char) : (sign cs).2 <:+ cs := by
  fun_cases sign cs
  · exact suffix_cons _ _
  · exact suffix_cons _ _
  · exact suffix_refl _

theorem fraction_suffix (cs : List Char) : (fraction cs).2 <:+ cs := by
  fun_cases fraction cs
  · exact (dropWhile_suffix _).trans (suffix_cons _ _)
  · exact suffix_refl _
  · exact suffix_refl _

theorem exponent_suffix (cs : List Char) : (exponent cs).2 <:+ cs := by
  fun_cases exponent cs
  · exact suffix_refl _
  · exact ((dropWhile_suffix _).trans (sign_suffix _)).trans (suffix_cons _ _)
  · exact suffix_refl _

theorem numeral_suffix (cs : List Char) : (numeral cs).2 <:+ cs :=
  ((exponent_suffix _).trans (fraction_suffix _)).trans
    ((dropWhile_suffix _).trans (sign_suffix cs))

theorem numeric_suffix (cs : List Char) : (numeric cs).2 <:+ (numeral cs).2 := by
  simp only [numeric]
  split
  · rename_i ds e; rw [e]; exact suffix_cons _ _
  · split
    · exact name_suffix _
    · exact suffix_refl _

theorem stringToken_suffix (q : Char) (cs : List Char) : (stringToken q cs).2 <:+ cs :=
  quoted_suffix q cs

theorem addressToken_suffix_rest (cs : List Char) : (addressToken cs).2 <:+ (address cs).rest := by
  simp only [addressToken]
  split
  · exact suffix_refl _
  · exact drop_suffix 1 _

theorem addressToken_suffix (cs : List Char) : (addressToken cs).2 <:+ cs :=
  (addressToken_suffix_rest cs).trans (address_suffix cs)

theorem urlToken_suffix (f : String) (cs : List Char) : (urlToken f cs).2 <:+ cs := by
  simp only [urlToken]
  split
  · exact nil_suffix
  · rename_i d ds h
    split
    · exact suffix_refl _
    · exact (addressToken_suffix _).trans (h ▸ dropWhile_suffix _)

theorem nameToken_suffix (cs : List Char) : (nameToken cs).2 <:+ (name cs).2 := by
  simp only [nameToken]
  split
  · rename_i ds e
    rw [e]
    split
    · exact (urlToken_suffix _ _).trans (suffix_cons _ _)
    · exact suffix_cons _ _
  · exact suffix_refl _

theorem orMatch_suffix (t : Token) (c : Char) (cs : List Char) : (orMatch t c cs).2 <:+ cs := by
  unfold orMatch
  split
  · exact suffix_cons _ _
  · exact suffix_refl _

/-- A number that starts here takes at least one character. -/
theorem numeral_suffix_tail {c : Char} {cs : List Char} (h : startsNumber (c :: cs) = true) :
    (numeral (c :: cs)).2 <:+ cs := by
  have tail {ds : List Char} (hd : ds <:+ cs) : (exponent (fraction ds).2).2 <:+ cs :=
    ((exponent_suffix _).trans (fraction_suffix _)).trans hd
  by_cases hs : c = '+' ∨ c = '-'
  · rcases hs with rfl | rfl <;> exact tail (dropWhile_suffix _)
  · have e : sign (c :: cs) = (.none, c :: cs) := by
      unfold sign; split <;> simp_all
    simp only [numeral, e]
    by_cases hd : c.isDigit = true
    · rw [dropWhile_cons_of_pos hd]; exact tail (dropWhile_suffix _)
    · rw [dropWhile_cons_of_neg hd]
      simp only [startsNumber, e] at h
      split at h
      · rename_i ds heq
        obtain ⟨rfl, rfl⟩ := List.cons.inj heq
        simp only [fraction, h, if_true]
        exact (exponent_suffix _).trans (dropWhile_suffix _)
      · exact absurd h (by simpa [startsDigit] using hd)

/-- A name that starts here takes at least one character. -/
theorem name_suffix_tail {c : Char} {cs : List Char} (h : startsName (c :: cs) = true) :
    (name (c :: cs)).2 <:+ cs := by
  rw [name]
  split
  · exact name_suffix cs
  · rename_i hc
    split
    · exact (name_suffix _).trans (escape_suffix cs)
    · rename_i he
      exfalso
      unfold startsName at h
      split at h <;> simp_all [isNameChar]

theorem scan_suffix (c : Char) (cs : List Char) : (scan c cs).2 <:+ cs := by
  unfold scan
  split
  · exact dropWhile_suffix _
  split
  · rename_i h; exact (numeric_suffix _).trans (numeral_suffix_tail h)
  split <;> try exact suffix_refl _
  · exact stringToken_suffix _ _
  · exact stringToken_suffix _ _
  · split
    · exact name_suffix _
    · split
      · exact name_suffix _
      · exact suffix_refl _
  · exact orMatch_suffix _ _ _
  · exact orMatch_suffix _ _ _
  · exact orMatch_suffix _ _ _
  · exact orMatch_suffix _ _ _
  · exact orMatch_suffix _ _ _
  · split
    · exact (commentBody_suffix _).trans (suffix_cons _ _)
    · exact suffix_refl _
  · split
    · exact ((suffix_cons _ _).trans (suffix_cons _ _)).trans (suffix_cons _ _)
    · exact suffix_refl _
  · split
    · exact name_suffix _
    · exact suffix_refl _
  · split
    · exact (suffix_cons _ _).trans (suffix_cons _ _)
    · split
      · rename_i h; exact (nameToken_suffix _).trans (name_suffix_tail h)
      · exact suffix_refl _
  · split
    · rename_i h; exact (nameToken_suffix _).trans (name_suffix_tail h)
    · exact suffix_refl _

end Suffix

/-- The lexemes of a text. -/
def lexemes : List Char → List Lexeme
  | [] => []
  | c :: cs => ⟨(scan c cs).1, before (c :: cs) (scan c cs).2⟩ :: lexemes (scan c cs).2
termination_by cs => cs.length
decreasing_by
  have := (scan_suffix c cs).length_le; simp only [List.length_cons]; omega

/-- What stands before an end of a text, and that end, are the text. -/
theorem before_append {cs rest : List Char} (h : rest <:+ cs) : before cs rest ++ rest = cs := by
  obtain ⟨p, rfl⟩ := h
  simp [before]

/-- The lexemes of a text concatenate to it. -/
theorem textOf_lexemes (cs : List Char) : Lexeme.textOf (lexemes cs) = cs := by
  fun_induction lexemes cs with
  | case1 => rfl
  | case2 c cs ih =>
    simp only [Lexeme.textOf, List.map_cons, List.flatten_cons] at ih ⊢
    rw [ih, before_append ((scan_suffix c cs).trans (List.suffix_cons c cs))]

end StyleBump.Css
