import StyleBump.Proofs.TokenChars

/-! # Tokens that are read from the same characters

Reading declarations tells only some tokens apart. What it takes a token for, its role, depends on the
characters of the token alone, with one exception: an address without end is written like the function in
front of a quoted one, but nothing follows it. So texts without escapes whose solid tokens are written the
same have solid tokens of the same roles (`map_normal_solid_eq`). -/

namespace StyleBump.Css
open List

/-! ### Lexemes of a text from some place on -/

/-- Lexemes that their characters are read to. -/
def Lexed (ls : List Lexeme) : Prop := lexemes (Lexeme.textOf ls) = ls

theorem lexed_lexemes (cs : List Char) : Lexed (lexemes cs) := congrArg lexemes (textOf_lexemes cs)

theorem Lexed.of_append {a b : List Lexeme} (h : Lexed (a ++ b)) : Lexed b := lexemes_textOf h

theorem textOf_cons (l : Lexeme) (ls : List Lexeme) : Lexeme.textOf (l :: ls) = l.text ++ Lexeme.textOf ls := rfl

/-- The first lexeme is what is read at the front, and the others are the rest. -/
theorem Lexed.exists_scan {l : Lexeme} {ls : List Lexeme} (h : Lexed (l :: ls)) :
    ∃ c cs, l.text ++ Lexeme.textOf ls = c :: cs ∧ scan c cs = (l.token, Lexeme.textOf ls) := by
  rw [Lexed, textOf_cons] at h
  cases ht : l.text ++ Lexeme.textOf ls with
  | nil =>
    rw [ht, lexemes] at h
    cases h
  | cons c cs =>
    rw [ht, lexemes_cons] at h
    obtain ⟨hl, hls⟩ := cons.inj h
    have hrest : (scan c cs).2 = Lexeme.textOf ls := by rw [← hls, textOf_lexemes]
    refine ⟨c, cs, rfl, ?_⟩
    rw [← hl, ← hrest]

/-- The lexemes that are no gaps. -/
def solid (ls : List Lexeme) : List Lexeme := ls.filter (!·.token.isGap)

theorem solid_append (a b : List Lexeme) : solid (a ++ b) = solid a ++ solid b := filter_append a b

/-! ### Names -/

/-- Whether a text is a name as it stands, without escapes. -/
def spellsName (x : List Char) : Bool := startsName x && x.all isNameChar

/-- The name that a text spells. -/
def spelled (x : List Char) : String := String.ofList (x.map plain)

theorem startsName_takeWhile {cs : List Char} (hesc : '\\' ∉ cs) (h : startsName cs = true) :
    startsName (cs.takeWhile isNameChar) = true := by
  have nameChar {c : Char} (hc : isNameStart c = true ∨ c = '-') : isNameChar c = true := by
    rcases hc with hc | rfl
    · rw [isNameChar, hc, Bool.true_or, Bool.true_or]
    · decide
  cases cs with
  | nil => cases h
  | cons c cs =>
    have hc : c ≠ '\\' := fun he => hesc (he ▸ mem_cons_self)
    by_cases hh : c = '-'
    · subst hh
      cases cs with
      | nil => exact absurd h (by decide)
      | cons d ds =>
        have hd : d ≠ '\\' := fun he => hesc (he ▸ mem_cons_of_mem _ mem_cons_self)
        have hname : isNameStart d = true ∨ d = '-' := by simpa [startsName, hd] using h
        rw [takeWhile_cons_of_pos (nameChar (.inr rfl)), takeWhile_cons_of_pos (nameChar hname)]
        simpa [startsName, hd] using hname
    · rw [startsName_of_ne hh hc] at h
      rw [takeWhile_cons_of_pos (nameChar (.inl h)), startsName_of_ne hh hc, h]

theorem startsName_append {x : List Char} (hesc : '\\' ∉ x) (h : startsName x = true) (w : List Char) :
    startsName (x ++ w) = true := by
  cases x with
  | nil => cases h
  | cons c cs =>
    have hc : c ≠ '\\' := fun he => hesc (he ▸ mem_cons_self)
    by_cases hh : c = '-'
    · subst hh
      cases cs with
      | nil => exact absurd h (by decide)
      | cons d ds => exact h
    · rw [startsName_of_ne hh hc] at h
      rw [cons_append, startsName_of_ne hh hc, h]

theorem address_suffix_tail (c : Char) (cs : List Char) : (address (c :: cs)).rest <:+ cs := by
  rw [address.eq_def]
  dsimp only
  split
  · exact suffix_refl _
  split
  · rename_i hs
    rw [addressEnd, if_neg (by assumption), if_pos hs]
    exact addressEnd_suffix cs
  split
  · exact spoiled_suffix cs
  split
  · split
    · exact spoiled_suffix cs
    · exact (address_suffix _).trans (escape_suffix cs)
  · exact address_suffix cs

/-- What a name is read to: itself, or what starts with the name, a parenthesis and maybe an address. -/
theorem nameToken_cases {x w : List Char} {t : Token} (hesc : '\\' ∉ x ++ w) (h : nameToken (x ++ w) = (t, w)) :
    ∃ p, (x ++ w).takeWhile isNameChar = p ∧
      ((x = p ∧ t = .ident (spelled p)) ∨
        ∃ m, x = p ++ '(' :: m ∧
          ((sameName (spelled p) "url" = true ∧ urlToken (spelled p) (m ++ w) = (t, w)) ∨
            (sameName (spelled p) "url" = false ∧ m = [] ∧ t = .function (spelled p)))) := by
  obtain ⟨p, hp⟩ : ∃ p, (x ++ w).takeWhile isNameChar = p := ⟨_, rfl⟩
  obtain ⟨r, hr⟩ : ∃ r, (x ++ w).dropWhile isNameChar = r := ⟨_, rfl⟩
  have hname := name_of_unescaped hesc
  have hsplit := takeWhile_append_dropWhile (p := isNameChar) (l := x ++ w)
  rw [hp, hr] at hname hsplit
  refine ⟨p, hp, ?_⟩
  by_cases hparen : r.head? = some '('
  · right
    obtain ⟨ds, rfl⟩ := head?_eq_some_iff.1 hparen
    have hds : (name (x ++ w)).2 = '(' :: ds := by rw [hname]
    rw [nameToken_of_function hds, hname, ← spelled] at h
    cases hu : sameName (spelled p) "url" with
    | true =>
      rw [if_pos hu] at h
      obtain ⟨m, rfl⟩ : w <:+ ds := by
        have hsuf := urlToken_suffix (spelled p) ds
        rwa [h] at hsuf
      refine ⟨m, append_cancel_right (hsplit.symm.trans ?_), .inl ⟨rfl, h⟩⟩
      rw [append_assoc, cons_append]
    | false =>
      rw [if_neg (by simp [hu])] at h
      obtain ⟨rfl, rfl⟩ := Prod.mk.inj h
      refine ⟨[], append_cancel_right (hsplit.symm.trans ?_), .inr ⟨rfl, rfl, rfl⟩⟩
      rw [append_assoc, singleton_append]
  · left
    rw [nameToken_of_ident (by rw [hname]; exact hparen), nameAs, hname, ← spelled] at h
    obtain ⟨rfl, rfl⟩ := Prod.mk.inj h
    exact ⟨append_cancel_right hsplit.symm, rfl⟩

theorem urlToken_eq_function {f n : String} {cs w : List Char} (h : urlToken f cs = (.function n, w)) :
    n = f ∧ w = cs ∧ ∃ q ds, cs.dropWhile isSpace = q :: ds ∧ (q = '"' ∨ q = '\'') := by
  cases hd : cs.dropWhile isSpace with
  | nil =>
    unfold urlToken at h
    rw [hd] at h
    cases h
  | cons q ds =>
    by_cases hq : q = '"' ∨ q = '\''
    · rw [urlToken_of_quote hd hq] at h
      cases h
      exact ⟨rfl, rfl, q, ds, rfl, hq⟩
    · rw [urlToken_of_address hd hq] at h
      have hurl := addressToken_isUrl (q :: ds)
      rw [h] at hurl
      cases hurl

/-- An address takes some of what is left. -/
theorem urlToken_eq_self {f : String} {t : Token} {w : List Char} (h : urlToken f w = (t, w)) (hw : w ≠ []) :
    t = .function f := by
  cases hd : w.dropWhile isSpace with
  | nil =>
    unfold urlToken at h
    rw [hd] at h
    exact absurd (congrArg Prod.snd h).symm hw
  | cons q ds =>
    by_cases hq : q = '"' ∨ q = '\''
    · rw [urlToken_of_quote hd hq] at h
      exact (congrArg Prod.fst h).symm
    · rw [urlToken_of_address hd hq] at h
      have hle := ((addressToken_suffix_rest _).trans (address_suffix_tail q ds)).length_le
      have hge := (dropWhile_suffix isSpace (l := w)).length_le
      rw [hd, length_cons] at hge
      simp only [h] at hle
      omega

/-- A string stands behind the gap, so not all is gap. -/
theorem solid_ne_nil_of_quote {cs ds : List Char} {q : Char} (h : cs.dropWhile isSpace = q :: ds)
    (hq : q = '"' ∨ q = '\'') : solid (lexemes cs) ≠ [] := by
  have hstring : (scan q ds).1.isGap = false := by
    rcases hq with rfl | rfl
    · show (stringToken '"' ds).1.isGap = false
      simp only [stringToken]
      split <;> rfl
    · show (stringToken '\'' ds).1.isGap = false
      simp only [stringToken]
      split <;> rfl
  have hquote : solid (lexemes (q :: ds)) ≠ [] := by
    rw [lexemes_cons, solid, filter_cons_of_pos (by simp [hstring])]
    exact cons_ne_nil _ _
  cases cs with
  | nil => cases h
  | cons c cs =>
    cases hs : isSpace c with
    | false =>
      rw [dropWhile_cons_of_neg (by simp [hs])] at h
      rwa [h]
    | true =>
      rw [dropWhile_cons_of_pos hs] at h
      rw [lexemes_cons, scan_of_space hs, h, solid, filter_cons_of_neg (by simp [Token.isGap])]
      exact hquote

section
variable {l : Lexeme} {ls : List Lexeme} (h : Lexed (l :: ls)) (hesc : '\\' ∉ l.text ++ Lexeme.textOf ls)
include h hesc

/-- What starts with a name is read as one, unless it is the arrow. -/
theorem Lexed.nameToken_eq {p : List Char} (hx : p <+: l.text) (hp : startsName p = true)
    (harrow : l.text ≠ ['-', '-', '>']) :
    nameToken (l.text ++ Lexeme.textOf ls) = (l.token, Lexeme.textOf ls) := by
  obtain ⟨c, cs, htext, hscan⟩ := h.exists_scan
  obtain ⟨q, hq⟩ := hx
  have hstart : startsName (c :: cs) = true := by
    have hp' : '\\' ∉ p := fun hm => hesc (by rw [← hq]; simp [hm])
    rw [← htext, ← hq, append_assoc]
    exact startsName_append hp' hp _
  have hc : c ≠ '\\' := by
    rintro rfl
    exact hesc (by rw [htext]; exact mem_cons_self)
  rw [htext, ← hscan, scan_of_startsName hc hstart]
  rintro ⟨ds, hds⟩
  obtain ⟨rfl, rfl⟩ := cons.inj hds
  refine harrow ?_
  have hrest : ds = Lexeme.textOf ls := congrArg Prod.snd hscan
  rw [← hrest] at htext
  exact append_cancel_right htext

/-- Names and functions start with a name and are read from it. -/
theorem Lexed.named (hn : l.token.isNamed = true) :
    spellsName ((l.text ++ Lexeme.textOf ls).takeWhile isNameChar) = true ∧
      nameToken (l.text ++ Lexeme.textOf ls) = (l.token, Lexeme.textOf ls) := by
  obtain ⟨c, cs, htext, hscan⟩ := h.exists_scan
  obtain ⟨hstart, hname⟩ := (scan_told c cs).named (by rw [hscan]; exact hn)
  rw [htext] at hesc ⊢
  refine ⟨?_, by rw [← hname, hscan]⟩
  rw [spellsName, startsName_takeWhile hesc hstart, all_takeWhile]
  rfl

theorem Lexed.ident_iff (n : String) : l.token = .ident n ↔ spellsName l.text = true ∧ n = spelled l.text := by
  constructor
  · intro htok
    obtain ⟨hname, hread⟩ := h.named hesc (by rw [htok]; rfl)
    obtain ⟨p, hp, ⟨rfl, hident⟩ | ⟨m, -, ⟨-, hurl⟩ | ⟨-, -, hfun⟩⟩⟩ := nameToken_cases hesc hread
    · exact ⟨hp ▸ hname, Token.ident.inj (htok.symm.trans hident)⟩
    · exact absurd (congrArg Prod.fst hurl) (htok ▸ urlToken_ne_ident _ _ n)
    · rw [hfun] at htok
      cases htok
  · rintro ⟨hname, rfl⟩
    obtain ⟨hstart, hall⟩ := Bool.and_eq_true_iff.1 hname
    have hread := h.nameToken_eq hesc (prefix_refl _) hstart fun ha => absurd hall (by rw [ha]; decide)
    obtain ⟨p, hp, ⟨rfl, hident⟩ | ⟨m, hm, -⟩⟩ := nameToken_cases hesc hread
    · exact hident
    · rw [hm, all_append, all_cons] at hall
      exact absurd hall (by simp [show isNameChar '(' = false by decide])

/-- The name of a function is a name and a parenthesis. That of a quoted address has the string behind it. -/
theorem Lexed.text_of_function {n : String} (htok : l.token = .function n) :
    ∃ p, l.text = p ++ ['('] ∧ spellsName p = true ∧ n = spelled p ∧ (sameName n "url" = true → solid ls ≠ []) := by
  have hls : lexemes (Lexeme.textOf ls) = ls := Lexed.of_append (a := [l]) h
  obtain ⟨hname, hread⟩ := h.named hesc (by rw [htok]; rfl)
  obtain ⟨p, hp, ⟨-, hident⟩ | ⟨m, hm, hfun⟩⟩ := nameToken_cases hesc hread
  · rw [hident] at htok
    cases htok
  rw [hp] at hname
  rcases hfun with ⟨-, hurl⟩ | ⟨hother, rfl, hfun⟩
  · rw [htok] at hurl
    obtain ⟨hn, hw, q, ds, hd, hq⟩ := urlToken_eq_function hurl
    obtain rfl : m = [] := append_left_eq_self.1 hw.symm
    refine ⟨p, hm, hname, hn, fun _ => ?_⟩
    rw [← hls]
    exact solid_ne_nil_of_quote hd hq
  · have hn : n = spelled p := Token.function.inj (htok.symm.trans hfun)
    refine ⟨p, hm, hname, hn, fun hu => ?_⟩
    rw [hn, hother] at hu
    cases hu

/-- A name and a parenthesis are the name of a function, unless they are an address without anything behind it. -/
theorem Lexed.function_of_text {p : List Char} (hx : l.text = p ++ ['(']) (hname : spellsName p = true)
    (hmore : sameName (spelled p) "url" = true → solid ls ≠ []) : l.token = .function (spelled p) := by
  have hls : lexemes (Lexeme.textOf ls) = ls := Lexed.of_append (a := [l]) h
  obtain ⟨hstart, hall⟩ := Bool.and_eq_true_iff.1 hname
  have hprefix : p <+: l.text := ⟨['('], hx.symm⟩
  have hread := h.nameToken_eq hesc hprefix hstart fun ha => by
    have hlast := congrArg getLast? (hx.symm.trans ha)
    rw [getLast?_concat] at hlast
    exact absurd hlast (by decide)
  have htake : (l.text ++ Lexeme.textOf ls).takeWhile isNameChar = p := by
    rw [hx, append_assoc, takeWhile_append_of_pos (all_eq_true.1 hall)]
    exact append_nil p
  obtain ⟨p', hp', hcases⟩ := nameToken_cases hesc hread
  obtain rfl : p = p' := htake.symm.trans hp'
  rcases hcases with ⟨hself, -⟩ | ⟨m, hm, ⟨hu, hurl⟩ | ⟨-, -, hfun⟩⟩
  · rw [hx] at hself
    exact absurd (append_right_eq_self.1 hself) (cons_ne_nil _ _)
  · obtain rfl : m = [] := (cons.inj (append_cancel_left (hm.symm.trans hx))).2
    refine urlToken_eq_self hurl fun hnil => hmore hu ?_
    rw [← hls, show Lexeme.textOf ls = [] from hnil, lexemes]
    rfl
  · exact hfun

end

/-! ### Roles -/

/-- Whether reading declarations tells a token from others: it is a gap, has a name, is a bracket, or one of the
marks between components. -/
def Token.isTold : Token → Bool
  | ident _ | function _ | colon | semicolon | opening _ | closing _ | whitespace _ | comment _ => true
  | delim c => c = '!'
  | _ => false

/-- What reading declarations takes a token for; the comma stands for all tokens that are not told apart. -/
def Token.role (t : Token) : Token := if t.isTold then t else .comma

/-- A lexeme with the role of its token. -/
def Lexeme.normal (l : Lexeme) : Lexeme := ⟨l.token.role, l.text⟩

namespace Token

theorem isGap_role (t : Token) : t.role.isGap = t.isGap := by
  unfold role
  split
  · rfl
  · cases t <;> first | rfl | contradiction

theorem opens?_role (t : Token) : t.role.opens? = t.opens? := by
  unfold role
  split
  · rfl
  · cases t <;> first | rfl | contradiction

theorem closes?_role (t : Token) : t.role.closes? = t.closes? := by
  unfold role
  split
  · rfl
  · cases t <;> first | rfl | contradiction

theorem role_eq_iff {t u : Token} (h : u.isTold = true) : t.role = u ↔ t = u := by
  unfold role
  split
  · rfl
  · rename_i ht
    constructor
    · rintro rfl
      cases h
    · rintro rfl
      exact absurd h ht

/-- A token that is told apart is a gap, has a name, or is one character that is always read as it. -/
theorem role_cases (t : Token) :
    t.role = .comma ∨ t.isGap = true ∨ t.isNamed = true ∨
      ∃ d, t.single? = some d ∧ ∀ cs, scan d cs = (t, cs) := by
  cases t with
  | ident n => exact .inr (.inr (.inl rfl))
  | function n => exact .inr (.inr (.inl rfl))
  | whitespace s => exact .inr (.inl rfl)
  | comment s => exact .inr (.inl rfl)
  | colon => exact .inr (.inr (.inr ⟨':', rfl, fun _ => rfl⟩))
  | semicolon => exact .inr (.inr (.inr ⟨';', rfl, fun _ => rfl⟩))
  | delim c =>
    by_cases hc : c = '!'
    · subst hc
      exact .inr (.inr (.inr ⟨'!', rfl, fun _ => rfl⟩))
    · exact .inl (if_neg (by simp [isTold, hc]))
  | opening b =>
    cases b
    · exact .inr (.inr (.inr ⟨'(', rfl, fun _ => rfl⟩))
    · exact .inr (.inr (.inr ⟨'[', rfl, fun _ => rfl⟩))
    · exact .inr (.inr (.inr ⟨'\x7b', rfl, fun _ => rfl⟩))
  | closing b =>
    cases b
    · exact .inr (.inr (.inr ⟨')', rfl, fun _ => rfl⟩))
    · exact .inr (.inr (.inr ⟨']', rfl, fun _ => rfl⟩))
    · exact .inr (.inr (.inr ⟨'\x7d', rfl, fun _ => rfl⟩))
  | _ => exact .inl rfl

end Token

section
variable {l l' : Lexeme} {ls ls' : List Lexeme} (h : Lexed (l :: ls)) (h' : Lexed (l' :: ls'))
include h h'

theorem Lexed.token_eq_of_single {d : Char} (htext : l.text = l'.text) (hs : l.token.single? = some d)
    (hscan : ∀ cs, scan d cs = (l.token, cs)) : l'.token = l.token := by
  obtain ⟨c, cs, hcs, hread⟩ := h.exists_scan
  obtain ⟨rfl, hrest⟩ := (scan_told c cs).single d (by rw [hread]; exact hs)
  have hone : l.text = [d] := by
    rw [hread] at hrest
    refine append_cancel_right (hcs.trans ?_)
    rw [← hrest]
    rfl
  obtain ⟨c', cs', hcs', hread'⟩ := h'.exists_scan
  rw [← htext, hone] at hcs'
  obtain ⟨rfl, rfl⟩ := cons.inj hcs'
  rw [hscan] at hread'
  exact (congrArg Prod.fst hread').symm

variable (hesc : '\\' ∉ l.text ++ Lexeme.textOf ls) (hesc' : '\\' ∉ l'.text ++ Lexeme.textOf ls')
  (htext : l.text = l'.text) (hmore : solid ls = [] ↔ solid ls' = [])
include hesc hesc' htext hmore

theorem Lexed.token_eq_of_named (hn : l.token.isNamed = true) : l'.token = l.token := by
  cases ht : l.token with
  | ident n =>
    obtain ⟨hname, rfl⟩ := (h.ident_iff hesc n).1 ht
    exact (h'.ident_iff hesc' _).2 ⟨htext ▸ hname, by rw [htext]⟩
  | function n =>
    obtain ⟨p, hx, hname, rfl, hsolid⟩ := h.text_of_function hesc ht
    exact h'.function_of_text hesc' (htext ▸ hx) hname fun hu hnil => hsolid hu (hmore.2 hnil)
  | _ =>
    rw [ht] at hn
    cases hn

theorem Lexed.token_eq (hgap : l.token.isGap = false) (hrole : l.token.role ≠ .comma) : l'.token = l.token := by
  rcases l.token.role_cases with hc | hg | hn | ⟨d, hs, hscan⟩
  · exact absurd hc hrole
  · rw [hgap] at hg
    cases hg
  · exact h.token_eq_of_named h' hesc hesc' htext hmore hn
  · exact h.token_eq_of_single h' htext hs hscan

end

/-- Solid lexemes that are written the same, and with as little behind them, have the same role. -/
theorem Lexed.normal_eq {l l' : Lexeme} {ls ls' : List Lexeme} (h : Lexed (l :: ls)) (h' : Lexed (l' :: ls'))
    (hesc : '\\' ∉ l.text ++ Lexeme.textOf ls) (hesc' : '\\' ∉ l'.text ++ Lexeme.textOf ls')
    (htext : l.text = l'.text) (hmore : solid ls = [] ↔ solid ls' = []) (hgap : l.token.isGap = false)
    (hgap' : l'.token.isGap = false) : l.normal = l'.normal := by
  have hrole : l.token.role = l'.token.role := by
    by_cases hc : l.token.role = .comma
    · by_cases hc' : l'.token.role = .comma
      · rw [hc, hc']
      · rw [h'.token_eq h hesc' hesc htext.symm hmore.symm hgap' hc']
    · rw [h.token_eq h' hesc hesc' htext hmore hgap hc]
  rw [Lexeme.normal, Lexeme.normal, hrole, htext]

/-- In texts without escapes the roles of the solid tokens are told by their characters. -/
theorem map_normal_solid_eq {ls ls' : List Lexeme} (h : Lexed ls) (h' : Lexed ls') (hesc : '\\' ∉ Lexeme.textOf ls)
    (hesc' : '\\' ∉ Lexeme.textOf ls') (htext : (solid ls).map (·.text) = (solid ls').map (·.text)) :
    (solid ls).map Lexeme.normal = (solid ls').map Lexeme.normal := by
  -- The induction is on the solid lexemes, so that a step takes all gaps in front of one, on either side.
  obtain ⟨ks, hks⟩ : ∃ ks, solid ls = ks := ⟨_, rfl⟩
  induction ks generalizing ls ls' with
  | nil =>
    rw [hks] at htext
    rw [hks, map_eq_nil_iff.1 htext.symm]
  | cons k ks ih =>
    rw [hks, map_cons] at htext
    obtain ⟨k', ks', hks', hk, hrest⟩ := map_eq_cons_iff.1 htext.symm
    obtain ⟨a, b, rfl, -, hgap, hb⟩ := filter_eq_cons_iff.1 hks
    obtain ⟨a', b', rfl, -, hgap', hb'⟩ := filter_eq_cons_iff.1 hks'
    have hkb := h.of_append
    have hkb' := h'.of_append
    have hsub : '\\' ∉ k.text ++ Lexeme.textOf b := fun hm => hesc (by rw [textOf_append]; exact mem_append_right _ hm)
    have hsub' : '\\' ∉ k'.text ++ Lexeme.textOf b' :=
      fun hm => hesc' (by rw [textOf_append]; exact mem_append_right _ hm)
    have hb : solid b = ks := hb
    have hb' : solid b' = ks' := hb'
    have hmore : solid b = [] ↔ solid b' = [] := by
      rw [hb, hb', ← map_eq_nil_iff (f := (Lexeme.text)) (l := ks), ← hrest, map_eq_nil_iff]
    have hnormal := hkb.normal_eq hkb' hsub hsub' hk.symm hmore (by simpa using hgap) (by simpa using hgap')
    have htail := ih (hkb.of_append (a := [k])) (hkb'.of_append (a := [k'])) (fun hm => hsub (mem_append_right _ hm))
      (fun hm => hsub' (mem_append_right _ hm)) (by rw [hb, hb', hrest]) hb
    rw [hb, hb'] at htail
    rw [hks, hks', map_cons, map_cons, hnormal, htail]

end StyleBump.Css
