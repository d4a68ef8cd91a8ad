import StyleBump.General
import StyleBump.Proofs.TokenRoles

/-! # Where tokens end

An escape ends in front of the same character whatever stands behind that. A string and an address depend on nothing
behind their closing mark (`quoted_closed`, `address_closed`). All other tokens cut no escape (`sealed_scan`). -/

namespace StyleBump.Css
open List
open StyleBump.Text (isBreak)

/-! ### Escapes -/

theorem startsBreak_eq {s t : List Char} (h : s.head? = t.head?) : startsBreak s = startsBreak t := by
  cases s <;> cases t <;> simp_all [startsBreak]

/-- Digits of an escape end in front of the same character whatever stands behind it. -/
theorem hexRun_closed (n v : Nat) (cs : List Char) :
    ∃ p, cs = p ++ (hexRun n v cs).2 ∧
      ∀ z, z.head? = (hexRun n v cs).2.head? → hexRun n v (p ++ z) = ((hexRun n v cs).1, z) := by
  induction n generalizing v cs with
  | zero => exact ⟨[], rfl, fun z _ => rfl⟩
  | succ n ih =>
    cases cs with
    | nil =>
      refine ⟨[], rfl, fun z hz => ?_⟩
      rw [head?_eq_none_iff.1 hz]
      rfl
    | cons c cs =>
      cases hc : hexDigit? c with
      | none =>
        simp only [hexRun, hc]
        refine ⟨[], rfl, fun z hz => ?_⟩
        obtain ⟨ds, rfl⟩ := head?_eq_some_iff.1 hz
        simp only [nil_append, hexRun, hc]
      | some d =>
        simp only [hexRun, hc]
        obtain ⟨p, hcs, hp⟩ := ih (16 * v + d) cs
        exact ⟨c :: p, congrArg (c :: ·) hcs, fun z hz => by simp only [cons_append, hexRun, hc, hp z hz]⟩

theorem isSpace_of_isBreak {c : Char} (h : isBreak c = true) : isSpace c = true := by
  rw [isSpace, h, Bool.or_true]

/-- The space behind an escape ends in front of the same character whatever stands behind it. -/
theorem dropSpace_closed (cs : List Char) :
    ∃ p, (cs.head?.any isSpace = true → p ≠ []) ∧ cs = p ++ dropSpace cs ∧
      ∀ z, z.head? = (dropSpace cs).head? → dropSpace (p ++ z) = z := by
  cases cs with
  | nil =>
    refine ⟨[], nofun, rfl, fun z hz => ?_⟩
    rw [head?_eq_none_iff.1 hz]
    rfl
  | cons c cs =>
    by_cases hbreak : c = '\r' ∧ cs.head? = some '\n'
    · obtain ⟨rfl, hn⟩ := hbreak
      obtain ⟨ds, rfl⟩ := head?_eq_some_iff.1 hn
      exact ⟨['\r', '\n'], fun _ => cons_ne_nil _ _, rfl, fun z _ => rfl⟩
    rw [dropSpace_cons hbreak]
    cases hs : isSpace c with
    | true =>
      rw [if_pos rfl]
      refine ⟨[c], fun _ => cons_ne_nil _ _, rfl, fun z hz => ?_⟩
      have hbreak' : ¬ (c = '\r' ∧ z.head? = some '\n') := by rwa [hz]
      rw [singleton_append, dropSpace_cons hbreak', hs, if_pos rfl]
    | false =>
      rw [if_neg (by simp)]
      refine ⟨[], fun hspace => absurd (hs.symm.trans hspace) (by decide), rfl, fun z hz => ?_⟩
      obtain ⟨ds, rfl⟩ := head?_eq_some_iff.1 hz
      have hr : c ≠ '\r' := by
        rintro rfl
        cases hs
      rw [nil_append, dropSpace_cons fun hc => hr hc.1, hs, if_neg (by simp)]

/-- An escape that ends in front of a text, and of every other text that starts with the same character. -/
def EscapeEnds (y r : List Char) : Prop := ∃ a, ∀ z, z.head? = r.head? → escape (y ++ z) = (a, z)

theorem escape_closed (cs : List Char) :
    ∃ p, (cs ≠ [] → p ≠ []) ∧ cs = p ++ (escape cs).2 ∧
      ∀ z, z.head? = (escape cs).2.head? → escape (p ++ z) = ((escape cs).1, z) := by
  cases cs with
  | nil =>
    refine ⟨[], fun h => absurd rfl h, rfl, fun z hz => ?_⟩
    rw [head?_eq_none_iff.1 hz]
    rfl
  | cons c cs =>
    cases hc : hexDigit? c with
    | none =>
      simp only [escape, hc]
      exact ⟨[c], fun _ => cons_ne_nil _ _, rfl, fun z _ => by simp only [singleton_append, hc]⟩
    | some d =>
      simp only [escape, hc]
      obtain ⟨p', hcs, hrun⟩ := hexRun_closed 5 d cs
      obtain ⟨p, -, hspace, hdrop⟩ := dropSpace_closed (hexRun 5 d cs).2
      refine ⟨c :: (p' ++ p), fun _ => cons_ne_nil _ _, ?_, fun z hz => ?_⟩
      · rw [cons_append, append_assoc, ← hspace, ← hcs]
      · have hhead : (p ++ z).head? = (hexRun 5 d cs).2.head? := by
          rw [hspace]
          exact head?_append_eq p hz
        simp only [cons_append, append_assoc, hc, hrun _ hhead, hdrop z hz]

theorem escapeEnds (cs : List Char) : ∃ p, cs = p ++ (escape cs).2 ∧ EscapeEnds p (escape cs).2 := by
  obtain ⟨p, -, hcs, hescape⟩ := escape_closed cs
  exact ⟨p, hcs, _, hescape⟩

/-! ### Strings and addresses -/

/-- What a reader found depends on nothing behind it: it is the same in front of any other text. -/
def Closed (f : List Char → Span) (s : List Char) : Prop :=
  ∃ y, y ≠ [] ∧ s = y ++ (f s).rest ∧ ∀ t, f (y ++ t) = ⟨(f s).content, (f s).sound, t⟩

/-- A string that ends in front of something depends on nothing behind its quote. -/
theorem quoted_closed {q : Char} {s : List Char} (hsound : (quoted q s).sound = true)
    (hrest : (quoted q s).rest ≠ []) : Closed (quoted q) s := by
  induction s using quoted.induct (q := q) with
  | case1 => exact absurd (by rw [quoted]) hrest
  | case2 cs =>
    rw [Closed, quoted_of_quote]
    exact ⟨[q], cons_ne_nil _ _, rfl, fun t => quoted_of_quote q t⟩
  | case3 c cs hc hb =>
    rw [quoted_of_break hc hb] at hsound
    cases hsound
  | case4 hs hb =>
    rw [quoted.eq_def] at hrest
    simp [hs, hb] at hrest
  | case5 d ds hd hs hb ih =>
    rw [quoted_of_joined hs hd] at hsound hrest
    obtain ⟨y, hy, hds, hclosed⟩ := ih hsound hrest
    obtain ⟨p, hp, hd', hspace⟩ := dropSpace_closed (d :: ds)
    obtain ⟨e, p, rfl⟩ := exists_cons_of_ne_nil (hp (isSpace_of_isBreak hd))
    obtain ⟨rfl, hds'⟩ := cons.inj hd'
    rw [Closed, quoted_of_joined hs hd]
    refine ⟨'\\' :: d :: (p ++ y), cons_ne_nil _ _, ?_, fun t => ?_⟩
    · rw [cons_append, cons_append, append_assoc, ← hds]
      exact congrArg ('\\' :: d :: ·) hds'
    · have hhead : (y ++ t).head? = (dropSpace (d :: ds)).head? := by
        rw [hds, head?_eq_of_ne_nil hy]
      rw [cons_append, cons_append, append_assoc, quoted_of_joined hs hd, ← cons_append, hspace _ hhead, hclosed]
  | case6 d ds hd hs hb ih =>
    have step (u : List Char) : quoted q ('\\' :: d :: u) = _ := quoted_of_escape hs (Bool.eq_false_iff.2 hd) u
    rw [step] at hsound hrest
    obtain ⟨y, hy, hds, hclosed⟩ := ih hsound hrest
    obtain ⟨p, hp, hu, hescape⟩ := escape_closed (d :: ds)
    obtain ⟨e, p, rfl⟩ := exists_cons_of_ne_nil (hp (cons_ne_nil _ _))
    obtain ⟨rfl, hds'⟩ := cons.inj hu
    rw [Closed, step]
    refine ⟨'\\' :: d :: (p ++ y), cons_ne_nil _ _, ?_, fun t => ?_⟩
    · rw [cons_append, cons_append, append_assoc]
      refine congrArg ('\\' :: d :: ·) (hds'.trans ?_)
      exact congrArg (p ++ ·) hds
    · have hhead : (y ++ t).head? = (escape (d :: ds)).2.head? := by
        rw [hds, head?_eq_of_ne_nil hy]
      rw [cons_append, cons_append, append_assoc, step, ← cons_append, hescape _ hhead, hclosed]
      rfl
  | case7 c cs hc hb hs ih =>
    have step := quoted_of_char hc (Bool.eq_false_iff.2 hb) hs
    rw [step] at hsound hrest
    obtain ⟨y, hy, hcs, hclosed⟩ := ih hsound hrest
    rw [Closed, step]
    exact ⟨c :: y, cons_ne_nil _ _, congrArg (c :: ·) hcs, fun t => by rw [cons_append, step, hclosed]; rfl⟩

theorem addressEnd_closed {s : List Char} (hsound : (addressEnd s).sound = true) (hrest : (addressEnd s).rest ≠ []) :
    Closed addressEnd s := by
  induction s with
  | nil => exact absurd rfl hrest
  | cons c cs ih =>
    by_cases hc : c = ')'
    · subst hc
      exact ⟨[')'], cons_ne_nil _ _, rfl, fun t => rfl⟩
    cases hs : isSpace c with
    | false =>
      rw [addressEnd, if_neg hc, if_neg (by simp [hs])] at hsound
      cases hsound
    | true =>
      have step (u : List Char) : addressEnd (c :: u) = addressEnd u := by rw [addressEnd, if_neg hc, if_pos hs]
      rw [step] at hsound hrest
      obtain ⟨y, hy, hcs, hclosed⟩ := ih hsound hrest
      rw [Closed, step]
      exact ⟨c :: y, cons_ne_nil _ _, congrArg (c :: ·) hcs, fun t => by rw [cons_append, step, hclosed]⟩

/-- An address that ends in front of something depends on nothing behind its parenthesis. -/
theorem address_closed {s : List Char} (hsound : (address s).sound = true) (hrest : (address s).rest ≠ []) :
    Closed address s := by
  induction s using address.induct with
  | case1 => exact absurd (by rw [address]) hrest
  | case2 cs =>
    have step (u : List Char) : address (')' :: u) = ⟨[], true, u⟩ := by
      rw [address.eq_def]
      simp
    rw [Closed, step]
    exact ⟨[')'], cons_ne_nil _ _, rfl, step⟩
  | case3 c cs hc hs =>
    have step (u : List Char) : address (c :: u) = addressEnd (c :: u) := by
      rw [address.eq_def]
      simp [hc, hs]
    rw [step] at hsound hrest
    obtain ⟨y, hy, hcs, hclosed⟩ := addressEnd_closed hsound hrest
    obtain ⟨e, y, rfl⟩ := exists_cons_of_ne_nil hy
    obtain ⟨rfl, -⟩ := cons.inj hcs
    rw [Closed, step]
    exact ⟨c :: y, hy, hcs, fun t => (step (y ++ t)).trans (hclosed t)⟩
  | case4 c cs hc hs hx =>
    rw [address_of_spoiled hc (Bool.eq_false_iff.2 hs) (.inl hx)] at hsound
    cases hsound
  | case5 cs hb hc hs =>
    rw [address_of_spoiled hc (Bool.eq_false_iff.2 hs) (.inr ⟨rfl, hb⟩)] at hsound
    cases hsound
  | case6 cs hb hc hs hx ih =>
    have hb := Bool.eq_false_iff.2 hb
    rw [address_of_escape hb] at hsound hrest
    obtain ⟨y, hy, hds, hclosed⟩ := ih hsound hrest
    obtain ⟨p, -, hu, hescape⟩ := escape_closed cs
    have hcs : cs = p ++ y ++ (address (escape cs).2).rest := by
      rw [append_assoc, ← hds, ← hu]
    rw [Closed, address_of_escape hb]
    refine ⟨'\\' :: (p ++ y), cons_ne_nil _ _, congrArg ('\\' :: ·) hcs, fun t => ?_⟩
    have hhead : (y ++ t).head? = (escape cs).2.head? := by
      rw [hds, head?_eq_of_ne_nil hy]
    have hb' : startsBreak (p ++ y ++ t) = false := by
      rw [startsBreak_eq (head?_eq_of_ne_nil (append_ne_nil_of_right_ne_nil p hy) t _), ← hcs, hb]
    rw [cons_append, address_of_escape hb', append_assoc, hescape _ hhead, hclosed]
    rfl
  | case7 c cs hc hs hx hne ih =>
    have step := address_of_char hc (Bool.eq_false_iff.2 hs) (Bool.eq_false_iff.2 hx) hne
    rw [step] at hsound hrest
    obtain ⟨y, hy, hcs, hclosed⟩ := ih hsound hrest
    rw [Closed, step]
    exact ⟨c :: y, cons_ne_nil _ _, congrArg (c :: ·) hcs, fun t => by rw [cons_append, step, hclosed]; rfl⟩

/-- What is read in front of a text is read in front of any other. -/
theorem Closed.swap {f : List Char → Span} {x t : List Char} (h : Closed f (x ++ t)) (hrest : (f (x ++ t)).rest = t)
    (t' : List Char) : f (x ++ t') = ⟨(f (x ++ t)).content, (f (x ++ t)).sound, t'⟩ := by
  obtain ⟨y, -, hy, hclosed⟩ := h
  rw [hrest] at hy
  rw [append_cancel_right hy]
  rw [append_cancel_right hy] at hclosed
  exact hclosed t'

/-! ### Texts that cut no escape -/

/-- A text that leaves its end `r` and in front of it cuts no escape. -/
inductive Sealed (r : List Char) : List Char → Prop
  | refl : Sealed r r
  | cons {c : Char} {cs : List Char} (hc : c ≠ '\\') (h : Sealed r cs) : Sealed r (c :: cs)
  | escape {y cs : List Char} (hy : EscapeEnds y cs) (h : Sealed r cs) : Sealed r ('\\' :: (y ++ cs))

namespace Sealed
variable {r s t : List Char}

theorem trans (h : Sealed s t) (h' : Sealed r s) : Sealed r t := by
  induction h with
  | refl => exact h'
  | cons hc _ ih => exact .cons hc ih
  | escape hy _ ih => exact .escape hy ih

theorem append {x : List Char} (h : ∀ c ∈ x, c ≠ '\\') (r : List Char) : Sealed r (x ++ r) := by
  induction x with
  | nil => exact .refl
  | cons c x ih =>
    obtain ⟨hc, hx⟩ := forall_mem_cons.1 h
    exact .cons hc (ih hx)

theorem dropWhile {p : Char → Bool} (hp : p '\\' = false) (cs : List Char) : Sealed (cs.dropWhile p) cs := by
  have h := append (x := cs.takeWhile p) (fun c hc => ?_) (cs.dropWhile p)
  · rwa [takeWhile_append_dropWhile] at h
  · rintro rfl
    have htrue := all_eq_true.1 all_takeWhile _ hc
    rw [hp] at htrue
    cases htrue

end Sealed

theorem sealed_escape (cs : List Char) : Sealed (escape cs).2 ('\\' :: cs) := by
  obtain ⟨p, hcs, hp⟩ := escapeEnds cs
  have h := Sealed.escape hp .refl
  rwa [← hcs] at h

theorem sealed_name (cs : List Char) : Sealed (name cs).2 cs := by
  fun_induction name cs with
  | case1 => exact .refl
  | case2 c cs hn _ ih =>
    refine .cons ?_ ih
    rintro rfl
    cases hn
  | case3 c cs hn he _ ih =>
    obtain rfl : c = '\\' := of_decide_eq_true (Bool.and_eq_true_iff.1 he).1
    exact (sealed_escape cs).trans ih
  | case4 => exact .refl

theorem sealed_digits (cs : List Char) : Sealed (cs.dropWhile Char.isDigit) cs := .dropWhile (by decide) cs

theorem sealed_sign (cs : List Char) : Sealed (sign cs).2 cs := by
  fun_cases sign cs with
  | case1 cs => exact .cons (by decide) .refl
  | case2 cs => exact .cons (by decide) .refl
  | case3 => exact .refl

theorem sealed_fraction (cs : List Char) : Sealed (fraction cs).2 cs := by
  fun_cases fraction cs with
  | case1 cs _ => exact .cons (by decide) (sealed_digits cs)
  | case2 cs _ => exact .refl
  | case3 => exact .refl

theorem sealed_exponent (cs : List Char) : Sealed (exponent cs).2 cs := by
  fun_cases exponent cs with
  | case1 => exact .refl
  | case2 c cs s h =>
    refine .cons ?_ ((sealed_sign cs).trans (sealed_digits _))
    rintro rfl
    cases h
  | case3 c cs => exact .refl

theorem sealed_numeral (cs : List Char) : Sealed (numeral cs).2 cs :=
  ((sealed_sign cs).trans (sealed_digits _)).trans ((sealed_fraction _).trans (sealed_exponent _))

theorem sealed_numeric (cs : List Char) : Sealed (numeric cs).2 cs := by
  refine (sealed_numeral cs).trans ?_
  simp only [numeric]
  split
  · rename_i ds h
    rw [h]
    exact .cons (by decide) .refl
  · split
    · exact sealed_name _
    · exact .refl

theorem sealed_addressEnd {cs : List Char} (h : (addressEnd cs).sound = true) : Sealed (addressEnd cs).rest cs := by
  fun_induction addressEnd cs with
  | case1 => exact .refl
  | case2 => exact .cons (by decide) .refl
  | case3 c cs _ hs ih =>
    refine .cons ?_ (ih h)
    rintro rfl
    cases hs
  | case4 => cases h

theorem sealed_address {cs : List Char} (h : (address cs).sound = true) : Sealed (address cs).rest cs := by
  fun_induction address cs with
  | case1 => exact .refl
  | case2 => exact .cons (by decide) .refl
  | case3 => exact sealed_addressEnd h
  | case4 => cases h
  | case5 => cases h
  | case6 cs _ _ _ _ ih => exact (sealed_escape cs).trans (ih h)
  | case7 c cs _ _ _ hc ih => exact .cons hc (ih h)

/-- Strings that a line break cuts off, and addresses that hold what they may not. -/
def Token.isSpoiled : Token → Bool
  | badString _ => true
  | badUrl _ => true
  | _ => false

theorem sound_of_addressToken {cs : List Char} (h : (addressToken cs).1.isSpoiled = false) :
    (address cs).sound = true := by
  cases hs : (address cs).sound with
  | true => rfl
  | false =>
    rw [addressToken_of_spoiled hs] at h
    cases h

theorem sealed_urlToken {f : String} {cs : List Char} (h : (urlToken f cs).1.isSpoiled = false)
    (hrest : (urlToken f cs).2 ≠ []) : Sealed (urlToken f cs).2 cs := by
  have hspace : Sealed (cs.dropWhile isSpace) cs := .dropWhile (by decide) cs
  cases hd : cs.dropWhile isSpace with
  | nil =>
    unfold urlToken at hrest
    rw [hd] at hrest
    exact absurd rfl hrest
  | cons d ds =>
    by_cases hq : d = '"' ∨ d = '\''
    · rw [urlToken_of_quote hd hq]
      exact .refl
    · rw [urlToken_of_address hd hq] at h ⊢
      rw [hd] at hspace
      have hsound := sound_of_addressToken h
      rw [addressToken_of_sound hsound]
      exact hspace.trans (sealed_address hsound)

theorem sealed_nameToken {cs : List Char} (h : (nameToken cs).1.isSpoiled = false) (hrest : (nameToken cs).2 ≠ []) :
    Sealed (nameToken cs).2 cs := by
  refine (sealed_name cs).trans ?_
  by_cases hp : (name cs).2.head? = some '('
  · obtain ⟨ds, hds⟩ := head?_eq_some_iff.1 hp
    rw [nameToken_of_function hds] at h hrest ⊢
    rw [hds]
    refine .cons (by decide) ?_
    split at h
    · rename_i hu
      rw [if_pos hu] at hrest ⊢
      exact sealed_urlToken h hrest
    · rename_i hu
      rw [if_neg hu]
      exact .refl
  · rw [nameToken_of_ident hp]
    exact .refl

theorem sealed_orMatch (t : Token) (c : Char) (cs : List Char) : Sealed (orMatch t c cs).2 cs := by
  unfold orMatch
  split
  · exact .cons (by decide) .refl
  · exact .refl

/-- What starts with a name, or else is one character, cuts no escape. -/
theorem sealed_named {c : Char} {cs : List Char} {f : Token × List Char}
    (hf : f = if startsName (c :: cs) then nameToken (c :: cs) else (.delim c, cs)) (h : f.1.isSpoiled = false)
    (hrest : f.2 ≠ []) (hbreak : startsBreak f.2 = false) : Sealed f.2 (c :: cs) := by
  subst hf
  split at h
  · rename_i hname
    rw [if_pos hname] at hrest ⊢
    exact sealed_nameToken h hrest
  · rename_i hname
    rw [if_neg hname] at hbreak ⊢
    refine .cons ?_ .refl
    rintro rfl
    have hstart : startsName ('\\' :: cs) = !startsBreak cs := rfl
    rw [hstart] at hname
    simp [show startsBreak cs = false from hbreak] at hname

/-- A token that is no string and no gap cuts no escape, unless it is one that a line break spoils. -/
theorem sealed_scan {c : Char} {cs : List Char} (h : (scan c cs).1.isSpoiled = false) (hrest : (scan c cs).2 ≠ [])
    (hbreak : startsBreak (scan c cs).2 = false) (hs : isSpace c = false) (hq : c ∉ ['"', '\''])
    (hcomment : ¬ ['/', '*'] <+: c :: cs) : Sealed (scan c cs).2 (c :: cs) := by
  cases hn : startsNumber (c :: cs) with
  | true =>
    rw [scan_of_number hs hn]
    exact sealed_numeric _
  | false =>
    by_cases hc : c ∈ specials
    · have alone : Sealed cs (c :: cs) := by
        refine .cons ?_ .refl
        rintro rfl
        exact absurd hc (by decide)
      simp only [specials, mem_append, mem_cons, not_mem_nil, or_false] at hc
      rcases hc with (hc | hc) | rfl | rfl | rfl | rfl | rfl | rfl | rfl
      · simp only [singles, mem_cons, not_mem_nil, or_false] at hc
        rcases hc with rfl | rfl | rfl | rfl | rfl | rfl | rfl | rfl | rfl <;> exact alone
      · simp only [matchers, mem_cons, not_mem_nil, or_false] at hc
        rcases hc with rfl | rfl | rfl | rfl | rfl <;> exact alone.trans (sealed_orMatch _ _ cs)
      · exact absurd (by decide) hq
      · exact absurd (by decide) hq
      · rw [scan_hash]
        split
        · exact alone.trans (sealed_name cs)
        split
        · exact alone.trans (sealed_name cs)
        · exact alone
      · have hstar : cs.head? ≠ some '*' := fun hm => by
          obtain ⟨ds, rfl⟩ := head?_eq_some_iff.1 hm
          exact hcomment ⟨ds, rfl⟩
        rw [scan_slash hstar]
        exact alone
      · by_cases hp : ['!', '-', '-'] <+: cs
        · obtain ⟨ds, rfl⟩ := hp
          exact alone.trans (.append (by simp) ds)
        · rw [scan_angle hp]
          exact alone
      · rw [scan_at]
        split
        · exact alone.trans (sealed_name cs)
        · exact alone
      · by_cases hp : ['-', '>'] <+: cs
        · obtain ⟨ds, rfl⟩ := hp
          exact alone.trans (.append (by simp) ds)
        · exact sealed_named (scan_hyphen hn hp) h hrest hbreak
    · exact sealed_named (scan_of_plain hc hs hn) h hrest hbreak

end StyleBump.Css
