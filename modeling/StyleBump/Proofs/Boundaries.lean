import StyleBump.Css.Lexer
import StyleBump.Proofs.Lexing
import StyleBump.Proofs.Positions

/-! # Where lexemes meet

A line break of two characters is never divided between two lexemes (`uncut_of_lexemes`): whatever a
scanner leaves, it does not start with the line feed of a carriage return that the scanner has taken. -/

namespace StyleBump.Css
open List
open StyleBump.Text (isBreak Uncut)

/-- `rest` is an end of `cs`, and what stands before it does not end inside a line break. -/
def LeavesWhole (cs rest : List Char) : Prop := ∃ u, cs = u ++ rest ∧ Uncut u rest

namespace LeavesWhole
variable {cs ds rest : List Char} {c : Char}

theorem refl (cs : List Char) : LeavesWhole cs cs := ⟨[], rfl, fun _ h => by cases h⟩

theorem trans (h : LeavesWhole cs ds) (h' : LeavesWhole ds rest) : LeavesWhole cs rest := by
  obtain ⟨u, rfl, hu⟩ := h
  obtain ⟨v, rfl, hv⟩ := h'
  refine ⟨u ++ v, (append_assoc u v rest).symm, fun hn => ?_⟩
  cases v with
  | nil =>
    rw [append_nil]
    exact hu hn
  | cons d v =>
    rw [getLast?_append_of_ne_nil _ (by simp)]
    exact hv hn

theorem cons (hc : c ≠ '\r') (h : LeavesWhole cs rest) : LeavesWhole (c :: cs) rest := by
  refine trans ⟨[c], rfl, fun _ hl => ?_⟩ h
  exact hc (by simpa using hl)

/-- What does not start with a line feed may be left behind anything. -/
theorem of_head (hs : rest <:+ cs) (h : rest.head? ≠ some '\n') : LeavesWhole cs rest := by
  obtain ⟨u, rfl⟩ := hs
  exact ⟨u, rfl, fun hn => absurd hn h⟩

theorem of_cons_suffix {d : Char} (hd : d ≠ '\r') (hs : d :: rest <:+ cs) : LeavesWhole cs rest := by
  obtain ⟨u, rfl⟩ := hs
  refine ⟨u ++ [d], by simp, fun _ hl => hd ?_⟩
  simpa using hl

theorem dropWhile {p : Char → Bool} (hp : p '\r' = true → p '\n' = true) (cs : List Char) :
    LeavesWhole cs (cs.dropWhile p) := by
  refine ⟨cs.takeWhile p, takeWhile_append_dropWhile.symm, fun hn hl => ?_⟩
  have hstop : p '\n' = false := by
    have hhead := head?_dropWhile_not p cs
    rw [hn] at hhead
    exact hhead
  have htaken : p '\r' = true := mem_takeWhile_imp (mem_of_getLast? hl)
  rw [hp htaken] at hstop
  cases hstop

end LeavesWhole

theorem hexDigit?_ne {c : Char} {d : Nat} (h : hexDigit? c = some d) : c ≠ '\r' := by
  rintro rfl
  cases h

theorem leavesWhole_hexRun (n v : Nat) (cs : List Char) : LeavesWhole cs (hexRun n v cs).2 := by
  induction n generalizing v cs with
  | zero =>
    rw [hexRun]
    · exact .refl cs
    · rintro _ _ _ ⟨⟩
  | succ n ih =>
    cases cs with
    | nil => exact .refl []
    | cons c cs =>
      simp only [hexRun]
      split
      · rename_i d hd
        exact (ih _ cs).cons (hexDigit?_ne hd)
      · exact .refl _

theorem leavesWhole_dropSpace (cs : List Char) : LeavesWhole cs (dropSpace cs) := by
  fun_cases dropSpace cs with
  | case1 cs => exact ⟨['\r', '\n'], rfl, fun _ h => by cases h⟩
  | case2 c cs hpair hc =>
    refine ⟨[c], rfl, fun hn hl => ?_⟩
    obtain ⟨rest, rfl⟩ := head?_eq_some_iff.1 hn
    exact hpair rest (by simpa using hl) rfl
  | case3 c cs hpair hc => exact .refl _
  | case4 => exact .refl _

/-- The escape of anything but a break leaves breaks whole. -/
theorem leavesWhole_escape {cs : List Char} (h : startsBreak cs = false) : LeavesWhole cs (escape cs).2 := by
  cases cs with
  | nil => exact .refl []
  | cons c cs =>
    have hc : c ≠ '\r' := by
      rintro rfl
      cases h
    simp only [escape]
    split
    · exact ((leavesWhole_hexRun _ _ cs).trans (leavesWhole_dropSpace _)).cons hc
    · exact .cons hc (.refl cs)

theorem leavesWhole_name (cs : List Char) : LeavesWhole cs (name cs).2 := by
  fun_induction name cs with
  | case1 => exact .refl []
  | case2 c cs hc r ih =>
    refine ih.cons ?_
    rintro rfl
    cases hc
  | case3 c cs _ hc r ih =>
    obtain ⟨hc, hbreak⟩ := Bool.and_eq_true_iff.1 hc
    have hbreak : startsBreak cs = false := by simpa using hbreak
    refine ((leavesWhole_escape hbreak).trans ih).cons ?_
    rintro rfl
    cases hc
  | case4 c cs => exact .refl _

theorem leavesWhole_quoted {q : Char} (hq : q ≠ '\r') (cs : List Char) : LeavesWhole cs (quoted q cs).rest := by
  have backslash : '\\' ≠ '\r' := by decide
  fun_induction quoted q cs with
  | case1 => exact .refl []
  | case2 cs => exact .cons hq (.refl cs)
  | case3 c cs => exact .refl _
  | case4 => exact .of_head nil_suffix (by simp)
  | case5 d ds _ _ _ ih => exact ((leavesWhole_dropSpace _).trans ih).cons backslash
  | case6 d ds hd _ _ ih =>
    have hbreak : startsBreak (d :: ds) = false := Bool.eq_false_iff.2 hd
    exact ((leavesWhole_escape hbreak).trans ih).cons backslash
  | case7 c cs _ hc _ ih =>
    refine ih.cons ?_
    rintro rfl
    exact hc rfl

/-- What is left behind the first `d`, or nothing. -/
def EndsBehind (d : Char) (cs rest : List Char) : Prop := rest = [] ∨ d :: rest <:+ cs

theorem EndsBehind.of_suffix {d : Char} {cs ds rest : List Char} (h : EndsBehind d ds rest) (hs : ds <:+ cs) :
    EndsBehind d cs rest := h.imp_right fun h => h.trans hs

theorem EndsBehind.leavesWhole {d : Char} (hd : d ≠ '\r') {cs rest : List Char} (h : EndsBehind d cs rest) :
    LeavesWhole cs rest := by
  rcases h with rfl | h
  · exact .of_head nil_suffix (by simp)
  · exact .of_cons_suffix hd h

theorem endsBehind_addressEnd {cs : List Char} (h : (addressEnd cs).sound = true) :
    EndsBehind ')' cs (addressEnd cs).rest := by
  fun_induction addressEnd cs with
  | case1 => exact .inl rfl
  | case2 cs => exact .inr (suffix_refl _)
  | case3 c cs _ _ ih => exact (ih h).of_suffix (suffix_cons _ _)
  | case4 => cases h

theorem endsBehind_address {cs : List Char} (h : (address cs).sound = true) :
    EndsBehind ')' cs (address cs).rest := by
  fun_induction address cs with
  | case1 => exact .inl rfl
  | case2 cs => exact .inr (suffix_refl _)
  | case3 => exact endsBehind_addressEnd h
  | case4 => cases h
  | case5 => cases h
  | case6 cs _ _ _ _ ih => exact (ih h).of_suffix ((escape_suffix cs).trans (suffix_cons _ _))
  | case7 c cs _ _ _ _ ih => exact (ih h).of_suffix (suffix_cons _ _)

theorem endsBehind_addressToken (cs : List Char) : EndsBehind ')' cs (addressToken cs).2 := by
  cases hs : (address cs).sound with
  | true =>
    rw [addressToken_of_sound hs]
    exact endsBehind_address hs
  | false =>
    rw [addressToken_of_spoiled hs]
    cases hr : (address cs).rest with
    | nil => exact .inl rfl
    | cons d b =>
      obtain rfl := eq_of_address_rest hs hr
      exact .inr (hr ▸ address_suffix cs)

theorem endsBehind_commentBody (cs : List Char) : EndsBehind '/' cs (commentBody cs).2 := by
  fun_induction commentBody cs with
  | case1 => exact .inl rfl
  | case2 cs => exact .inr (suffix_cons _ _)
  | case3 c cs _ ih => exact ih.of_suffix (suffix_cons _ _)

theorem leavesWhole_digits (cs : List Char) : LeavesWhole cs (cs.dropWhile Char.isDigit) :=
  .dropWhile (fun h => by cases h) cs

theorem leavesWhole_sign (cs : List Char) : LeavesWhole cs (sign cs).2 := by
  fun_cases sign cs with
  | case1 cs => exact .cons (by decide) (.refl cs)
  | case2 cs => exact .cons (by decide) (.refl cs)
  | case3 => exact .refl _

theorem leavesWhole_fraction (cs : List Char) : LeavesWhole cs (fraction cs).2 := by
  fun_cases fraction cs with
  | case1 cs _ => exact .cons (by decide) (leavesWhole_digits cs)
  | case2 cs _ => exact .refl _
  | case3 => exact .refl _

theorem leavesWhole_exponent (cs : List Char) : LeavesWhole cs (exponent cs).2 := by
  fun_cases exponent cs with
  | case1 => exact .refl []
  | case2 c cs s h =>
    refine .cons ?_ ((leavesWhole_sign cs).trans (leavesWhole_digits _))
    rintro rfl
    cases h
  | case3 c cs => exact .refl _

theorem leavesWhole_numeral (cs : List Char) : LeavesWhole cs (numeral cs).2 :=
  ((leavesWhole_sign cs).trans (leavesWhole_digits _)).trans
    ((leavesWhole_fraction _).trans (leavesWhole_exponent _))

theorem leavesWhole_numeric (cs : List Char) : LeavesWhole cs (numeric cs).2 := by
  refine (leavesWhole_numeral cs).trans ?_
  simp only [numeric]
  split
  · rename_i ds h
    rw [h]
    exact .cons (by decide) (.refl ds)
  · split
    · exact leavesWhole_name _
    · exact .refl _

theorem leavesWhole_urlToken (f : String) (cs : List Char) : LeavesWhole cs (urlToken f cs).2 := by
  have hspace : LeavesWhole cs (cs.dropWhile isSpace) := .dropWhile (fun _ => rfl) cs
  cases h : cs.dropWhile isSpace with
  | nil =>
    simp only [urlToken, h]
    exact .of_head nil_suffix (by simp)
  | cons d ds =>
    by_cases hd : d = '"' ∨ d = '\''
    · rw [urlToken_of_quote h hd]
      exact .refl cs
    · rw [urlToken_of_address h hd]
      rw [h] at hspace
      exact hspace.trans ((endsBehind_addressToken _).leavesWhole (by decide))

theorem leavesWhole_nameToken (cs : List Char) : LeavesWhole cs (nameToken cs).2 := by
  refine (leavesWhole_name cs).trans ?_
  simp only [nameToken]
  split
  · rename_i ds h
    rw [h]
    refine .cons (by decide) ?_
    split
    · exact leavesWhole_urlToken _ ds
    · exact .refl ds
  · exact .refl _

theorem leavesWhole_orMatch (t : Token) (c : Char) (cs : List Char) : LeavesWhole cs (orMatch t c cs).2 := by
  unfold orMatch
  split
  · exact .cons (by decide) (.refl _)
  · exact .refl cs

theorem leavesWhole_scan (c : Char) (cs : List Char) : LeavesWhole (c :: cs) (scan c cs).2 := by
  cases hs : isSpace c with
  | true =>
    have h := LeavesWhole.dropWhile (fun _ => rfl) (c :: cs) (p := isSpace)
    rw [dropWhile_cons_of_pos hs] at h
    rw [scan_of_space hs]
    exact h
  | false =>
    have hc : c ≠ '\r' := by
      rintro rfl
      cases hs
    have alone : LeavesWhole (c :: cs) cs := .cons hc (.refl cs)
    unfold scan
    rw [if_neg (by simp [hs])]
    split
    · exact leavesWhole_numeric _
    split
    · exact alone.trans (leavesWhole_quoted (by decide) cs)
    · exact alone.trans (leavesWhole_quoted (by decide) cs)
    · split
      · exact alone.trans (leavesWhole_name cs)
      · split
        · exact alone.trans (leavesWhole_name cs)
        · exact alone
    iterate 5 exact alone.trans (leavesWhole_orMatch _ _ cs)
    iterate 9 exact alone
    · split
      · exact alone.trans (.cons (by decide) ((endsBehind_commentBody _).leavesWhole (by decide)))
      · exact alone
    · split
      · exact alone.trans (.cons (by decide) (.cons (by decide) (.cons (by decide) (.refl _))))
      · exact alone
    · split
      · exact alone.trans (leavesWhole_name cs)
      · exact alone
    · split
      · exact alone.trans (.cons (by decide) (.cons (by decide) (.refl _)))
      · split
        · exact leavesWhole_nameToken _
        · exact alone
    · split
      · exact leavesWhole_nameToken _
      · exact alone

/-- Between two lexemes no line break is cut. -/
theorem uncut_of_lexemes {cs : List Char} {a b : List Lexeme} (h : lexemes cs = a ++ b) :
    Uncut (Lexeme.textOf a) (Lexeme.textOf b) := by
  induction a generalizing cs with
  | nil => exact fun _ hl => by cases hl
  | cons l a ih =>
    cases cs with
    | nil => simp [lexemes] at h
    | cons c cs =>
      rw [lexemes_cons, cons_append] at h
      obtain ⟨hl, hrest⟩ := cons.inj h
      obtain ⟨u, hu, hwhole⟩ := leavesWhole_scan c cs
      have htext : l.text = u := by
        rw [← hl]
        refine append_cancel_right ((before_append ?_).trans hu)
        exact (scan_suffix c cs).trans (suffix_cons c cs)
      have hcons : Lexeme.textOf (l :: a) = u ++ Lexeme.textOf a := by rw [← htext]; rfl
      rw [hcons]
      -- If nothing stands between, the scanner itself has left the line feed.
      cases ha : Lexeme.textOf a with
      | nil =>
        have hb : Lexeme.textOf b = (scan c cs).2 := by
          rw [← textOf_lexemes (scan c cs).2, hrest, textOf_append, ha, nil_append]
        rw [append_nil, hb]
        exact hwhole
      | cons d t =>
        intro hn
        rw [getLast?_append_of_ne_nil _ (by simp), ← ha]
        exact ih hrest hn

end StyleBump.Css
