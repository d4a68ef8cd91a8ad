import StyleBump.Css.Lexer

/-! # Scanners in front of other text

A tail is inert if no token that starts before it can go on into it, unless the token has a mark of its
own that is still to come: a quote, a parenthesis, the end of a comment, or the character behind a
backslash. So each scanner in front of an inert tail either reads what it would read at the end of the
text (`Stops`), or takes some of any such tail (`Overruns`). -/

namespace StyleBump.Css
open List
open StyleBump.Text (isBreak)

/-- Characters that start a token and belong to no token that starts before them. -/
def fences : List Char := ['\x7b', '\x7d', ';', ':', '!']

/-- Characters that the scanners tell apart from others like them. -/
def marks : List Char :=
  ['\\', '"', '\'', '(', ')', '*', '/', '.', '%', '+', '-', '=', '>', 'e', 'E', '\n', '\r']

/-- A tail that starts with a fence. An exclamation mark with two hyphens behind it is none, since it may
belong to the mark that hides a sheet from old programs. -/
def Inert (w : List Char) : Prop :=
  ∀ d b, w = d :: b → d ∈ fences ∧ (d = '!' → ¬ ['-', '-'] <+: b)

theorem startsName_of_ne {c : Char} (h : c ≠ '-') (h' : c ≠ '\\') (cs : List Char) :
    startsName (c :: cs) = isNameStart c := by
  unfold startsName
  split <;> simp_all

namespace Inert
variable {d : Char} {b w : List Char}

theorem nil : Inert [] := fun _ _ h => by cases h

theorem of_fence (h : d ∈ ['\x7b', '\x7d', ';', ':']) (b : List Char) : Inert (d :: b) := by
  rintro _ _ ⟨rfl, rfl⟩
  simp only [mem_cons, not_mem_nil, or_false] at h
  rcases h with rfl | rfl | rfl | rfl <;> exact ⟨by decide, fun he => absurd he (by decide)⟩

theorem bang (h : ¬ ['-', '-'] <+: b) : Inert ('!' :: b) := by
  rintro _ _ ⟨rfl, rfl⟩
  exact ⟨by decide, fun _ => h⟩

theorem head (h : Inert (d :: b)) : d ∈ fences := (h d b rfl).1

/-- What holds of no fence does not hold of the first character of an inert tail. -/
theorem fails (h : Inert (d :: b)) {p : Char → Bool} (hp : fences.all (!p ·) = true) : p d = false := by
  have hd := all_eq_true.1 hp d h.head
  simpa using hd

theorem not_nameChar (h : Inert (d :: b)) : isNameChar d = false := h.fails (by decide)
theorem not_nameStart (h : Inert (d :: b)) : isNameStart d = false := h.fails (by decide)
theorem not_space (h : Inert (d :: b)) : isSpace d = false := h.fails (by decide)
theorem not_break (h : Inert (d :: b)) : isBreak d = false := h.fails (by decide)
theorem not_digit (h : Inert (d :: b)) : d.isDigit = false := h.fails (by decide)
theorem not_control (h : Inert (d :: b)) : isControl d = false := h.fails (by decide)

theorem not_hex (h : Inert (d :: b)) : hexDigit? d = none := by
  have hfences : fences.all (hexDigit? · = none) = true := by decide
  exact of_decide_eq_true (all_eq_true.1 hfences d h.head)

theorem ne (h : Inert (d :: b)) {c : Char} (hc : c ∈ marks) : d ≠ c := by
  have hfences : fences.all (· ∉ marks) = true := by decide
  rintro rfl
  exact of_decide_eq_true (all_eq_true.1 hfences d h.head) hc

theorem startsBreak_append (h : Inert w) (u : List Char) : startsBreak (u ++ w) = startsBreak u := by
  cases u with
  | cons c u => rfl
  | nil =>
    cases w with
    | nil => rfl
    | cons d b => exact h.not_break

theorem startsDigit_append (h : Inert w) (u : List Char) : startsDigit (u ++ w) = startsDigit u := by
  cases u with
  | cons c u => rfl
  | nil =>
    cases w with
    | nil => rfl
    | cons d b => exact h.not_digit

theorem startsName_append (h : Inert w) (u : List Char) : startsName (u ++ w) = startsName u := by
  cases u with
  | nil =>
    cases w with
    | nil => rfl
    | cons d b =>
      have hd := startsName_of_ne (h.ne (c := '-') (by decide)) (h.ne (c := '\\') (by decide)) b
      exact hd.trans h.not_nameStart
  | cons c u =>
    by_cases hs : c = '\\'
    · subst hs
      exact congrArg (!·) (h.startsBreak_append u)
    by_cases hm : c = '-'
    · subst hm
      cases u with
      | cons e u => rfl
      | nil =>
        cases w with
        | nil => rfl
        | cons d b =>
          show (isNameStart d || decide (d = '-') || decide (d = '\\')) = isNameStart '-'
          rw [h.not_nameStart, decide_eq_false (h.ne (by decide)), decide_eq_false (h.ne (by decide))]
          decide
    · rw [cons_append, startsName_of_ne hm hs, startsName_of_ne hm hs]

theorem takeWhile_append (h : Inert w) {p : Char → Bool} (hp : fences.all (!p ·) = true) (u : List Char) :
    (u ++ w).takeWhile p = u.takeWhile p := by
  have hw : w.takeWhile p = [] := by
    cases w with
    | nil => rfl
    | cons d b => exact takeWhile_cons_of_neg (by simp [h.fails hp])
  rw [List.takeWhile_append, hw, append_nil]
  split
  · rename_i hl
    have hp : u.takeWhile p <+: u := takeWhile_prefix p
    exact (hp.eq_of_length hl).symm
  · rfl

theorem dropWhile_append (h : Inert w) {p : Char → Bool} (hp : fences.all (!p ·) = true) (u : List Char) :
    (u ++ w).dropWhile p = u.dropWhile p ++ w := by
  have hw : w.dropWhile p = w := by
    cases w with
    | nil => rfl
    | cons d b => exact dropWhile_cons_of_neg (by simp [h.fails hp])
  rw [List.dropWhile_append, hw]
  split
  · rename_i hl
    rw [isEmpty_iff.1 hl, nil_append]
  · rfl

end Inert

/-! ### Scanners in front of an inert tail -/

section
variable {α β : Type}

/-- `f` reads the same of `u` whatever inert tail follows, and leaves the tail. -/
def Stops (f : List Char → α × List Char) (u : List Char) : Prop :=
  ∀ w, Inert w → f (u ++ w) = ((f u).1, (f u).2 ++ w)

/-- `f` reads some of every inert tail. -/
def Overruns (f : List Char → α × List Char) (u : List Char) : Prop :=
  ∀ d b, Inert (d :: b) → (f (u ++ d :: b)).2 <:+ b

variable {f : List Char → β × List Char} {g : List Char → α × List Char} {u v : List Char} {P Q : Prop}

/-- A scanner that goes on like another one from `v` stops where this one stops, whatever it makes of what
this one finds. -/
theorem Stops.map (h : Stops g v) (k : α → β)
    (e : ∀ w, Inert w → f (u ++ w) = (k (g (v ++ w)).1, (g (v ++ w)).2)) : Stops f u := by
  have e₀ : f u = (k (g v).1, (g v).2) := by simpa using e [] .nil
  intro w hw
  rw [e w hw, h w hw, e₀]

theorem Overruns.map (h : Overruns g v) (k : α → β)
    (e : ∀ w, Inert w → f (u ++ w) = (k (g (v ++ w)).1, (g (v ++ w)).2)) : Overruns f u := by
  intro d b hd
  rw [e _ hd]
  exact h d b hd

theorem stops_or_overruns_step (h : Stops g v ∨ Overruns g v) (k : α → β)
    (e : ∀ w, Inert w → f (u ++ w) = (k (g (v ++ w)).1, (g (v ++ w)).2)) : Stops f u ∨ Overruns f u :=
  h.imp (·.map k e) (·.map k e)

theorem stops_or_overruns_map (h : Stops g v ∨ (Overruns g v ∧ P)) (k : α → β)
    (e : ∀ w, Inert w → f (u ++ w) = (k (g (v ++ w)).1, (g (v ++ w)).2)) (hp : P → Q) :
    Stops f u ∨ (Overruns f u ∧ Q) :=
  h.imp (·.map k e) fun h => ⟨h.1.map k e, hp h.2⟩

/-- What a scanner does in front of inert tails is what another does that reads the same there. -/
theorem stops_or_overruns_congr {f : List Char → α × List Char} (h : Stops g v ∨ (Overruns g v ∧ P))
    (e : ∀ w, Inert w → f (u ++ w) = g (v ++ w)) (hp : P → Q) : Stops f u ∨ (Overruns f u ∧ Q) :=
  stops_or_overruns_map h id e hp

end

theorem hexRun_append {w : List Char} (h : Inert w) (n v : Nat) (u : List Char) :
    hexRun n v (u ++ w) = ((hexRun n v u).1, (hexRun n v u).2 ++ w) := by
  induction n generalizing u v with
  | zero => simp [hexRun]
  | succ n ih =>
    cases u with
    | nil =>
      cases w with
      | nil => rfl
      | cons d b => simp [hexRun, h.not_hex]
    | cons c u =>
      simp only [cons_append, hexRun]
      split
      · exact ih _ u
      · rfl

theorem dropSpace_cons {c : Char} {cs : List Char} (h : ¬ (c = '\r' ∧ cs.head? = some '\n')) :
    dropSpace (c :: cs) = if isSpace c then cs else c :: cs := by
  unfold dropSpace
  split
  · rename_i heq
    obtain ⟨rfl, rfl⟩ := cons.inj heq
    exact absurd ⟨rfl, rfl⟩ h
  · rename_i heq
    obtain ⟨rfl, rfl⟩ := cons.inj heq
    rfl
  · rename_i heq
    cases heq

theorem dropSpace_append {w : List Char} (h : Inert w) (u : List Char) :
    dropSpace (u ++ w) = dropSpace u ++ w := by
  cases u with
  | nil =>
    cases w with
    | nil => rfl
    | cons d b =>
      rw [nil_append, dropSpace_cons fun hd => h.ne (c := '\r') (by decide) hd.1]
      simp [h.not_space, dropSpace]
  | cons c u =>
    by_cases hc : c = '\r' ∧ u.head? = some '\n'
    · obtain ⟨rfl, hu⟩ := hc
      obtain ⟨u, rfl⟩ := head?_eq_some_iff.1 hu
      rfl
    · have hc' : ¬ (c = '\r' ∧ (u ++ w).head? = some '\n') := by
        rintro ⟨rfl, hn⟩
        cases u with
        | cons e u => exact hc ⟨rfl, hn⟩
        | nil =>
          obtain ⟨b, rfl⟩ := head?_eq_some_iff.1 hn
          exact h.ne (c := '\n') (by decide) rfl
      rw [cons_append, dropSpace_cons hc', dropSpace_cons hc]
      split <;> rfl

/-- An escape that has a character takes nothing of an inert tail. -/
theorem escape_append {w : List Char} (h : Inert w) {u : List Char} (hu : u ≠ []) :
    escape (u ++ w) = ((escape u).1, (escape u).2 ++ w) := by
  obtain ⟨c, u, rfl⟩ := exists_cons_of_ne_nil hu
  simp only [cons_append, escape]
  split
  · rw [hexRun_append h, dropSpace_append h]
  · rfl

/-- An escape that has none takes the first character of the tail. -/
theorem escape_inert {d : Char} {b : List Char} (h : Inert (d :: b)) : (escape (d :: b)).2 = b := by
  simp [escape, h.not_hex]

theorem name_inert {w : List Char} (h : Inert w) : name w = ([], w) := by
  cases w with
  | nil => rw [name]
  | cons d b =>
    rw [name]
    simp [h.not_nameChar, h.ne (c := '\\') (by decide)]

theorem name_of_nameChar {c : Char} (h : isNameChar c = true) (cs : List Char) :
    name (c :: cs) = (plain c :: (name cs).1, (name cs).2) := by
  rw [name, if_pos h]

theorem name_of_escape {cs : List Char} (h : startsBreak cs = false) :
    name ('\\' :: cs) = ((escape cs).1 :: (name (escape cs).2).1, (name (escape cs).2).2) := by
  rw [name, if_neg (by decide), if_pos (by simp [h])]

theorem name_of_stop {c : Char} {cs : List Char} (h : isNameChar c = false)
    (h' : (c = '\\' && !startsBreak cs) = false) : name (c :: cs) = ([], c :: cs) := by
  rw [name, if_neg (by simp [h]), if_neg (by simp [h'])]

theorem name_stops_or_overruns (u : List Char) :
    Stops name u ∨ (Overruns name u ∧ '\\' ∈ u) := by
  induction u using name.induct with
  | case1 => exact .inl fun w hw => by rw [nil_append, name_inert hw, name_inert .nil]; rfl
  | case2 c cs hc ih =>
    exact stops_or_overruns_map ih (plain c :: ·) (fun w _ => name_of_nameChar hc (cs ++ w)) (mem_cons_of_mem c)
  | case3 c cs hc he ih =>
    simp only [Bool.and_eq_true, decide_eq_true_eq, Bool.not_eq_true'] at he
    obtain ⟨rfl, hbreak⟩ := he
    have step {w : List Char} (hw : Inert w) := name_of_escape ((hw.startsBreak_append cs).trans hbreak)
    by_cases hcs : cs = []
    · -- A backslash at the end of the text escapes the first character of the tail.
      subst hcs
      refine .inr ⟨?_, by simp⟩
      intro d b hd
      rw [cons_append, step hd, nil_append, escape_inert hd]
      exact name_suffix b
    refine stops_or_overruns_map ih ((escape cs).1 :: ·) (fun w hw => ?_) fun _ => mem_cons_self
    rw [cons_append, step hw, escape_append hw hcs]
  | case4 c cs hc he =>
    left
    intro w hw
    have hc := Bool.eq_false_iff.2 hc
    have he := Bool.eq_false_iff.2 he
    rw [cons_append, name_of_stop hc he, name_of_stop hc (by rwa [hw.startsBreak_append])]
    rfl

/-! ### Strings, addresses and comments -/

/-- What a span found, apart from the rest. -/
def Span.parts (s : Span) : (List Char × Bool) × List Char := ((s.content, s.sound), s.rest)

/-- A character in front of what a span found. -/
def pushPart (c : Char) (p : List Char × Bool) : List Char × Bool := (c :: p.1, p.2)

theorem quoted_of_quote (q : Char) (cs : List Char) : quoted q (q :: cs) = ⟨[], true, cs⟩ := by
  rw [quoted.eq_def]
  simp

theorem quoted_of_break {q c : Char} (hq : c ≠ q) (hb : isBreak c = true) (cs : List Char) :
    quoted q (c :: cs) = ⟨[], false, c :: cs⟩ := by
  rw [quoted.eq_def]
  simp [hq, hb]

theorem quoted_of_joined {q d : Char} (hq : '\\' ≠ q) (hd : isBreak d = true) (ds : List Char) :
    quoted q ('\\' :: d :: ds) = quoted q (dropSpace (d :: ds)) := by
  rw [quoted.eq_def]
  simp [hq, hd, show isBreak '\\' = false by decide]

theorem quoted_of_escape {q d : Char} (hq : '\\' ≠ q) (hd : isBreak d = false) (ds : List Char) :
    quoted q ('\\' :: d :: ds) = (quoted q (escape (d :: ds)).2).push (escape (d :: ds)).1 := by
  rw [quoted.eq_def]
  simp [hq, hd, show isBreak '\\' = false by decide]

theorem quoted_of_char {q c : Char} (hq : c ≠ q) (hb : isBreak c = false) (hs : c ≠ '\\') (cs : List Char) :
    quoted q (c :: cs) = (quoted q cs).push (plain c) := by
  rw [quoted.eq_def]
  simp [hq, hb, hs]

theorem quoted_stops_or_overruns {q : Char} (hq : q ∈ ['"', '\'']) (u : List Char) :
    Stops (fun cs => (quoted q cs).parts) u ∨ Overruns (fun cs => (quoted q cs).parts) u := by
  have neq {d : Char} {b : List Char} (hd : Inert (d :: b)) : d ≠ q := by
    simp only [mem_cons, not_mem_nil, or_false] at hq
    rcases hq with rfl | rfl <;> exact hd.ne (by decide)
  induction u using quoted.induct (q := q) with
  | case1 =>
    right
    intro d b hd
    show (quoted q (d :: b)).rest <:+ b
    rw [ quoted_of_char (neq hd) hd.not_break (hd.ne (by decide))]
    exact quoted_suffix q b
  | case2 cs =>
    left
    intro w hw
    simp only [cons_append, quoted_of_quote, Span.parts]
  | case3 c cs hc hb =>
    left
    intro w hw
    simp only [cons_append, quoted_of_break hc hb, Span.parts]
  | case4 hs hb =>
    right
    intro d b hd
    show (quoted q ('\\' :: d :: b)).rest <:+ b
    rw [quoted_of_escape hs hd.not_break, escape_inert hd]
    exact quoted_suffix q b
  | case5 d ds hd hs hb ih =>
    have step : ∀ w, Inert w →
        (quoted q ('\\' :: d :: ds ++ w)).parts = (quoted q (dropSpace (d :: ds) ++ w)).parts := by
      intro w hw
      rw [cons_append, cons_append, quoted_of_joined hs hd, ← cons_append, dropSpace_append hw]
    exact stops_or_overruns_step ih id step
  | case6 d ds hd hs hb ih =>
    have hd := Bool.eq_false_iff.2 hd
    have step : ∀ w, Inert w → (quoted q ('\\' :: d :: ds ++ w)).parts =
        ((quoted q ((escape (d :: ds)).2 ++ w)).push (escape (d :: ds)).1).parts := by
      intro w hw
      rw [cons_append, cons_append, quoted_of_escape hs hd, ← cons_append, escape_append hw (cons_ne_nil d ds)]
    exact stops_or_overruns_step ih (pushPart _) step
  | case7 c cs hc hb hs ih =>
    have step (w : List Char) (_ : Inert w) : (quoted q (c :: cs ++ w)).parts =
        ((quoted q (cs ++ w)).push (plain c)).parts := by
      rw [cons_append, quoted_of_char hc (Bool.eq_false_iff.2 hb) hs]
    exact stops_or_overruns_step ih (pushPart _) step

/-- A text with nothing in front of it, as a scanner that finds only a rest. -/
def restOnly (f : List Char → List Char) (cs : List Char) : Unit × List Char := ((), f cs)

theorem spoiled_stops_or_overruns (u : List Char) :
    Stops (restOnly spoiled) u ∨ Overruns (restOnly spoiled) u := by
  induction u using spoiled.induct with
  | case1 =>
    right
    intro d b hd
    show spoiled (d :: b) <:+ b
    rw [spoiled.eq_5 d b (hd.ne (by decide)) (fun _ h => absurd h (hd.ne (by decide)))
      (fun _ h => absurd h (hd.ne (by decide)))]
    exact spoiled_suffix b
  | case2 cs => exact .inl fun w hw => rfl
  | case3 cs ih => exact ih
  | case4 cs ih => exact ih
  | case5 c cs h₁ h₂ h₃ ih =>
    -- Behind a backslash that ends the text a fence is like any other character.
    have step {w : List Char} (hw : Inert w) : spoiled (c :: cs ++ w) = spoiled (cs ++ w) := by
      have next {e : Char} (he : e ∈ [')', '\\']) (hc : ∀ ds, c = '\\' → cs = e :: ds → False) (ds : List Char)
          (hs : c = '\\') (heq : cs ++ w = e :: ds) : False := by
        cases cs with
        | cons _ cs => exact hc cs hs (congrArg (· :: cs) (cons.inj heq).1)
        | nil =>
          have hsub : e ∈ marks := by
            simp only [mem_cons, not_mem_nil, or_false] at he
            rcases he with rfl | rfl <;> decide
          rw [nil_append] at heq
          exact (heq ▸ hw).ne hsub rfl
      exact spoiled.eq_5 c (cs ++ w) h₁ (next (by decide) h₂) (next (by decide) h₃)
    have goesOn : ∀ w, Inert w → restOnly spoiled (c :: cs ++ w) = restOnly spoiled (cs ++ w) :=
      fun w hw => congrArg (Prod.mk ()) (step hw)
    exact stops_or_overruns_step ih id goesOn

/-- Only the closing parenthesis ends a spoiled address before the end of the text. -/
theorem eq_of_spoiled_eq_cons {cs b : List Char} {d : Char} (h : spoiled cs = d :: b) : d = ')' := by
  fun_induction spoiled cs with
  | case1 => cases h
  | case2 cs => exact (cons.inj h).1.symm
  | case3 cs ih => exact ih h
  | case4 cs ih => exact ih h
  | case5 c cs _ _ _ ih => exact ih h

theorem addressEnd_stops_or_overruns (u : List Char) :
    Stops (fun cs => (addressEnd cs).parts) u ∨ Overruns (fun cs => (addressEnd cs).parts) u := by
  induction u with
  | nil =>
    right
    intro d b hd
    show (addressEnd (d :: b)).rest <:+ b
    rw [addressEnd, if_neg (hd.ne (by decide)), if_neg (by simp [hd.not_space])]
    exact spoiled_suffix b
  | cons c cs ih =>
    by_cases hc : c = ')'
    · left
      intro w hw
      simp [addressEnd, hc, Span.parts]
    by_cases hs : isSpace c = true
    · refine stops_or_overruns_step ih id fun w _ => ?_
      rw [cons_append, addressEnd, if_neg hc, if_pos hs]
      rfl
    · refine stops_or_overruns_step (spoiled_stops_or_overruns cs) (fun _ => ([], false)) fun w _ => ?_
      rw [cons_append, addressEnd, if_neg hc, if_neg hs]
      rfl

theorem eq_of_addressEnd_rest {cs b : List Char} {d : Char} (hs : (addressEnd cs).sound = false)
    (h : (addressEnd cs).rest = d :: b) : d = ')' := by
  fun_induction addressEnd cs with
  | case1 => cases hs
  | case2 => cases hs
  | case3 c cs _ _ ih => exact ih hs h
  | case4 => exact eq_of_spoiled_eq_cons h

theorem eq_of_address_rest {cs b : List Char} {d : Char} (hs : (address cs).sound = false)
    (h : (address cs).rest = d :: b) : d = ')' := by
  fun_induction address cs with
  | case1 => cases hs
  | case2 => cases hs
  | case3 => exact eq_of_addressEnd_rest hs h
  | case4 => exact eq_of_spoiled_eq_cons h
  | case5 => exact eq_of_spoiled_eq_cons h
  | case6 cs _ _ _ _ ih => exact ih hs h
  | case7 c cs _ _ _ _ ih => exact ih hs h

/-- Whether a character spoils an address in which it stands. -/
def spoils (c : Char) : Bool := isControl c || c = '"' || c = '\'' || c = '('

theorem address_of_spoiled {c : Char} {cs : List Char} (h₁ : c ≠ ')') (h₂ : isSpace c = false)
    (h : spoils c = true ∨ (c = '\\' ∧ startsBreak cs = true)) : address (c :: cs) = ⟨[], false, spoiled cs⟩ := by
  rw [address.eq_def]
  rcases h with h | ⟨rfl, h⟩
  · simp_all [spoils]
  · simp_all [show isControl '\\' = false by decide]

theorem address_of_escape {cs : List Char} (h : startsBreak cs = false) :
    address ('\\' :: cs) = (address (escape cs).2).push (escape cs).1 := by
  rw [address.eq_def]
  simp [h, show isControl '\\' = false by decide, show isSpace '\\' = false by decide]

theorem address_of_char {c : Char} (h₁ : c ≠ ')') (h₂ : isSpace c = false) (h₃ : spoils c = false)
    (h₄ : c ≠ '\\') (cs : List Char) : address (c :: cs) = (address cs).push (plain c) := by
  rw [address.eq_def]
  simp_all [spoils]

theorem spoils_fence {d : Char} {b : List Char} (hd : Inert (d :: b)) : spoils d = false := by
  simp [spoils, hd.not_control, hd.ne (c := '"') (by decide), hd.ne (c := '\'') (by decide),
    hd.ne (c := '(') (by decide)]

theorem address_stops_or_overruns (u : List Char) :
    Stops (fun cs => (address cs).parts) u ∨ Overruns (fun cs => (address cs).parts) u := by
  have lost {c : Char} {cs : List Char} (h : ∀ w, Inert w → address (c :: (cs ++ w)) = ⟨[], false, spoiled (cs ++ w)⟩) :
      Stops (fun cs => (address cs).parts) (c :: cs) ∨ Overruns (fun cs => (address cs).parts) (c :: cs) := by
    have step : ∀ w, Inert w → (address (c :: cs ++ w)).parts = (([], false), spoiled (cs ++ w)) := by
      intro w hw
      rw [cons_append, h w hw]
      rfl
    exact stops_or_overruns_step (spoiled_stops_or_overruns cs) (fun _ => ([], false)) step
  induction u using address.induct with
  | case1 =>
    right
    intro d b hd
    show (address (d :: b)).rest <:+ b
    rw [address_of_char (hd.ne (by decide)) hd.not_space (spoils_fence hd) (hd.ne (by decide))]
    exact address_suffix b
  | case2 cs => exact .inl fun w hw => by simp [address, Span.parts]
  | case3 c cs hc hs =>
    have e (w : List Char) : address (c :: w) = addressEnd (c :: w) := by
      rw [address.eq_def]
      simp [hc, hs]
    simp only [Stops, Overruns, cons_append, e]
    exact addressEnd_stops_or_overruns (c :: cs)
  | case4 c cs hc hs hx =>
    exact lost fun w _ => address_of_spoiled hc (Bool.eq_false_iff.2 hs) (.inl hx)
  | case5 cs hb hc hs =>
    exact lost fun w hw => address_of_spoiled hc (Bool.eq_false_iff.2 hs)
      (.inr ⟨rfl, (hw.startsBreak_append cs).trans hb⟩)
  | case6 cs hb hc hs hx ih =>
    have hb := Bool.eq_false_iff.2 hb
    have here {w : List Char} (hw : Inert w) := address_of_escape ((hw.startsBreak_append cs).trans hb)
    by_cases hcs : cs = []
    · subst hcs
      right
      intro d b hd
      show (address ('\\' :: ([] ++ d :: b))).rest <:+ b
      rw [here hd, nil_append, escape_inert hd]
      exact address_suffix b
    · have step : ∀ w, Inert w → (address ('\\' :: cs ++ w)).parts =
          ((address ((escape cs).2 ++ w)).push (escape cs).1).parts := by
        intro w hw
        rw [cons_append, here hw, escape_append hw hcs]
      exact stops_or_overruns_step ih (pushPart _) step
  | case7 c cs hc hs hx hne ih =>
    have step (w : List Char) (_ : Inert w) : (address (c :: cs ++ w)).parts =
        ((address (cs ++ w)).push (plain c)).parts := by
      rw [cons_append, address_of_char hc (Bool.eq_false_iff.2 hs) (Bool.eq_false_iff.2 hx) hne]
    exact stops_or_overruns_step ih (pushPart _) step

theorem commentBody_stops_or_overruns (u : List Char) : Stops commentBody u ∨ Overruns commentBody u := by
  induction u using commentBody.induct with
  | case1 =>
    right
    intro d b hd
    rw [nil_append, commentBody.eq_3 d b fun _ h => absurd h (hd.ne (by decide))]
    exact commentBody_suffix b
  | case2 cs => exact .inl fun w hw => rfl
  | case3 c cs hc ih =>
    have step (w : List Char) (hw : Inert w) :
        commentBody (c :: cs ++ w) = (c :: (commentBody (cs ++ w)).1, (commentBody (cs ++ w)).2) := by
      refine commentBody.eq_3 c (cs ++ w) fun ds h heq => ?_
      cases cs with
      | cons e cs => exact hc cs h (congrArg (· :: cs) (cons.inj heq).1)
      | nil =>
        rw [nil_append] at heq
        exact (heq ▸ hw).ne (by decide) rfl
    exact stops_or_overruns_step ih (c :: ·) step

/-! ### Numbers -/

theorem sign_of_ne {c : Char} (h : c ≠ '+') (h' : c ≠ '-') (cs : List Char) :
    sign (c :: cs) = (.none, c :: cs) := by
  unfold sign
  split <;> simp_all

theorem sign_stops (u : List Char) : Stops sign u := by
  intro w hw
  cases u with
  | nil =>
    cases w with
    | nil => rfl
    | cons d b => exact sign_of_ne (hw.ne (by decide)) (hw.ne (by decide)) b
  | cons c cs =>
    by_cases hp : c = '+'
    · subst hp; rfl
    by_cases hm : c = '-'
    · subst hm; rfl
    · rw [cons_append, sign_of_ne hp hm, sign_of_ne hp hm]
      rfl

theorem isDigit_fence : fences.all (!Char.isDigit ·) = true := by decide

theorem fraction_of_ne {c : Char} (h : c ≠ '.') (cs : List Char) : fraction (c :: cs) = ([], c :: cs) := by
  unfold fraction
  split <;> simp_all

theorem fraction_stops (u : List Char) : Stops fraction u := by
  intro w hw
  cases u with
  | nil =>
    cases w with
    | nil => rfl
    | cons d b => exact fraction_of_ne (hw.ne (by decide)) b
  | cons c cs =>
    by_cases hc : c = '.'
    · subst hc
      simp only [cons_append, fraction, hw.startsDigit_append, hw.takeWhile_append isDigit_fence,
        hw.dropWhile_append isDigit_fence]
      split <;> rfl
    · rw [cons_append, fraction_of_ne hc, fraction_of_ne hc]
      rfl

theorem exponent_stops (u : List Char) : Stops exponent u := by
  intro w hw
  cases u with
  | nil =>
    cases w with
    | nil => rfl
    | cons d b => simp [exponent, hw.ne (c := 'e') (by decide), hw.ne (c := 'E') (by decide)]
  | cons c cs =>
    simp only [cons_append, exponent, sign_stops cs w hw, hw.startsDigit_append,
      hw.takeWhile_append isDigit_fence, hw.dropWhile_append isDigit_fence]
    split <;> rfl

theorem numeral_stops (u : List Char) : Stops numeral u := by
  intro w hw
  simp only [numeral, sign_stops u w hw, hw.takeWhile_append isDigit_fence,
    hw.dropWhile_append isDigit_fence, fraction_stops _ w hw, exponent_stops _ w hw]

theorem startsNumber_of_point {cs ds : List Char} (h : (sign cs).2 = '.' :: ds) :
    startsNumber cs = startsDigit ds := by
  simp only [startsNumber, h]

theorem startsNumber_of_ne {cs : List Char} (h : (sign cs).2.head? ≠ some '.') :
    startsNumber cs = startsDigit (sign cs).2 := by
  unfold startsNumber
  split
  · rename_i heq
    rw [heq] at h
    exact absurd rfl h
  · rfl

theorem head?_append {w : List Char} (hw : Inert w) {c : Char} (hc : c ∈ marks) {u : List Char}
    (h : u.head? ≠ some c) : (u ++ w).head? ≠ some c := by
  cases u with
  | cons e u => exact h
  | nil =>
    cases w with
    | nil => exact h
    | cons d b => exact fun he => hw.ne hc (Option.some.inj he)

theorem startsNumber_append {w : List Char} (hw : Inert w) (u : List Char) :
    startsNumber (u ++ w) = startsNumber u := by
  have hsign : (sign (u ++ w)).2 = (sign u).2 ++ w := by rw [sign_stops u w hw]
  by_cases hp : (sign u).2.head? = some '.'
  · obtain ⟨ds, hds⟩ := head?_eq_some_iff.1 hp
    have hds' : (sign (u ++ w)).2 = '.' :: (ds ++ w) := by rw [hsign, hds, cons_append]
    rw [startsNumber_of_point hds', startsNumber_of_point hds, hw.startsDigit_append]
  · have hp' : (sign (u ++ w)).2.head? ≠ some '.' := by
      rw [hsign]
      exact head?_append hw (by decide) hp
    rw [startsNumber_of_ne hp', startsNumber_of_ne hp, hsign, hw.startsDigit_append]

end StyleBump.Css
