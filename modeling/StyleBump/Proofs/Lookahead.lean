import StyleBump.Proofs.Endings

/-! # How far tokens look ahead

A token depends on its own characters and on few of those behind them, and none that stands behind a gap. So it is
the same in front of another text that is alike up to the first gap (`Akin`), where the other text may end or have a gap
of another form (`scan_swap`). -/

namespace StyleBump.Css
open List
open StyleBump.Text (isBreak)

/-! ### Texts that are alike up to the first gap -/

/-- Whether a string starts behind white space, if there is any. -/
def quoteNext (cs : List Char) : Bool := (cs.dropWhile isSpace).head?.any fun c => c = '"' || c = '\''

/-- Characters in front of which a name or a number ends. -/
def stops : List Char := [' ', '\t', '\n', '\r', '\x0c', '/', '\x7d', '"', '\'']

/-- Characters in front of which a number ends. -/
def bars : List Char := '\\' :: stops

/-- A text that starts with a gap, or with the bracket at the end of a block. -/
inductive Parts : List Char → Prop
  | space {c : Char} (h : isSpace c = true) (cs : List Char) : Parts (c :: cs)
  | comment (cs : List Char) : Parts ('/' :: '*' :: cs)
  | closer (cs : List Char) : Parts ('\x7d' :: cs)

/-- Two texts whose first tokens part what stands in front of them. What they hold is not told, but a string that
stands in the first also stands in the second. -/
inductive Halts : List Char → List Char → Prop
  | parts {cs cs' : List Char} (h : Parts cs) (h' : Parts cs')
    (hq : quoteNext cs = true → quoteNext cs' = true) : Halts cs cs'
  | quote {q : Char} (hq : q ∈ ['"', '\'']) (cs cs' : List Char) : Halts (q :: cs) (q :: cs')

/-- Texts that are the same up to where both halt, or to the end. -/
inductive Akin : List Char → List Char → Prop
  | nil : Akin [] []
  | halt {cs cs' : List Char} (h : Halts cs cs') : Akin cs cs'
  | cons {c : Char} {cs cs' : List Char} (hc : c ≠ '\\') (h : Akin cs cs') : Akin (c :: cs) (c :: cs')
  | escape {y cs cs' : List Char} (hy : EscapeEnds y cs) (hnext : cs'.head? = cs.head?) (h : Akin cs cs') :
    Akin ('\\' :: (y ++ cs)) ('\\' :: (y ++ cs'))

theorem Parts.exists_cons {cs : List Char} (h : Parts cs) : ∃ d b, cs = d :: b ∧ d ∈ stops := by
  cases h with
  | @space c h cs =>
    refine ⟨c, cs, rfl, ?_⟩
    simp only [isSpace, isBreak, Bool.or_eq_true, decide_eq_true_eq] at h
    rcases h with (rfl | rfl) | (rfl | rfl) | rfl <;> decide
  | comment cs => exact ⟨'/', _, rfl, by decide⟩
  | closer cs => exact ⟨'\x7d', cs, rfl, by decide⟩

theorem Halts.exists_cons {s s' : List Char} (h : Halts s s') :
    ∃ d b d' b', s = d :: b ∧ s' = d' :: b' ∧ d ∈ stops ∧ d' ∈ stops := by
  cases h with
  | parts h h' =>
    obtain ⟨d, b, rfl, hd⟩ := h.exists_cons
    obtain ⟨d', b', rfl, hd'⟩ := h'.exists_cons
    exact ⟨d, b, d', b', rfl, rfl, hd, hd'⟩
  | @quote q hq cs cs' =>
    have hstop : q ∈ stops := by
      simp only [mem_cons, not_mem_nil, or_false] at hq
      rcases hq with rfl | rfl <;> decide
    exact ⟨q, cs, q, cs', rfl, rfl, hstop, hstop⟩

namespace Akin
variable {s s' : List Char}

/-- Texts that are alike are empty, or start with the same character, or with characters that end numbers. -/
theorem cases_head (h : Akin s s') :
    (s = [] ∧ s' = []) ∨ (∃ c cs cs', s = c :: cs ∧ s' = c :: cs' ∧ c ≠ '\\' ∧ Akin cs cs') ∨
      ∃ d b d' b', s = d :: b ∧ s' = d' :: b' ∧ d ∈ bars ∧ d' ∈ bars := by
  cases h with
  | nil => exact .inl ⟨rfl, rfl⟩
  | halt h =>
    obtain ⟨d, b, d', b', hs, hs', hd, hd'⟩ := h.exists_cons
    exact .inr (.inr ⟨d, b, d', b', hs, hs', mem_cons_of_mem _ hd, mem_cons_of_mem _ hd'⟩)
  | cons hc h => exact .inr (.inl ⟨_, _, _, rfl, rfl, hc, h⟩)
  | escape => exact .inr (.inr ⟨'\\', _, '\\', _, rfl, rfl, mem_cons_self, mem_cons_self⟩)

theorem append {x t t' : List Char} (hx : '\\' ∉ x) (h : Akin t t') : Akin (x ++ t) (x ++ t') := by
  induction x with
  | nil => exact h
  | cons c x ih =>
    exact .cons (fun hc => hx (hc ▸ mem_cons_self)) (ih fun hm => hx (mem_cons_of_mem c hm))

/-- What cuts no escape is read the same in front of a text that is alike and starts with the same character. -/
theorem of_sealed {t t' : List Char} (hs : Sealed t s) (hnext : t'.head? = t.head?) (h : Akin t t') :
    ∃ x, s = x ++ t ∧ Akin (x ++ t) (x ++ t') := by
  induction hs with
  | refl => exact ⟨[], rfl, h⟩
  | @cons c cs hc _ ih =>
    obtain ⟨x, rfl, hx⟩ := ih
    exact ⟨c :: x, rfl, .cons hc hx⟩
  | @escape y cs hy _ ih =>
    obtain ⟨x, rfl, hx⟩ := ih
    refine ⟨'\\' :: (y ++ x), by rw [cons_append, append_assoc], ?_⟩
    rw [cons_append, cons_append, append_assoc, append_assoc]
    exact .escape hy (head?_append_eq x hnext) hx

theorem tail {c : Char} (h : Akin (c :: s) (c :: s')) (hc : c ∉ bars) : Akin s s' := by
  rcases h.cases_head with ⟨hnil, -⟩ | ⟨e, cs, cs', hs, hs', -, hcs⟩ | ⟨d, b, d', b', hs, -, hd, -⟩
  · cases hnil
  · obtain ⟨rfl, rfl⟩ := List.cons.inj hs
    obtain ⟨-, rfl⟩ := List.cons.inj hs'
    exact hcs
  · exact absurd ((List.cons.inj hs).1 ▸ hd) hc

theorem any_head? (h : Akin s s') {p : Char → Bool} (hp : stops.all (!p ·) = true) :
    s'.head?.any p = s.head?.any p := by
  have hstop {d : Char} (hd : d ∈ stops) : p d = false := by simpa using all_eq_true.1 hp d hd
  cases h with
  | nil => rfl
  | halt h =>
    obtain ⟨d, b, d', b', rfl, rfl, hd, hd'⟩ := h.exists_cons
    exact (hstop hd').trans (hstop hd).symm
  | cons => rfl
  | escape => rfl

/-- No mark that starts with other characters goes on into what is not told. -/
theorem isPrefix_iff (h : Akin s s') {p : List Char} (hp : ∀ c ∈ p, c ∉ bars) : p <+: s' ↔ p <+: s := by
  induction p generalizing s s' with
  | nil => exact iff_of_true nil_prefix nil_prefix
  | cons c p ih =>
    obtain ⟨hc, hp⟩ := forall_mem_cons.1 hp
    rcases h.cases_head with ⟨rfl, rfl⟩ | ⟨e, cs, cs', rfl, rfl, -, hcs⟩ | ⟨d, b, d', b', rfl, rfl, hd, hd'⟩
    · rfl
    · rw [cons_prefix_cons, cons_prefix_cons, ih hcs hp]
    · refine iff_of_false (fun h => ?_) fun h => ?_
      · exact hc ((cons_prefix_cons.1 h).1 ▸ hd')
      · exact hc ((cons_prefix_cons.1 h).1 ▸ hd)

theorem head?_eq_iff (h : Akin s s') {c : Char} (hc : c ∉ bars) : s'.head? = some c ↔ s.head? = some c := by
  have hprefix := h.isPrefix_iff (p := [c]) (by simpa using hc)
  rwa [singleton_prefix_iff_head?_eq_some, singleton_prefix_iff_head?_eq_some] at hprefix

theorem startsDigit_eq (h : Akin s s') : startsDigit s' = startsDigit s := by
  have hhead := h.any_head? (p := Char.isDigit) (by decide)
  cases s <;> cases s' <;> exact hhead

theorem startsName_eq (h : Akin s s') : startsName s' = startsName s := by
  have hstop {d : Char} (hd : d ∈ stops) (b : List Char) : startsName (d :: b) = false := by
    simp only [stops, mem_cons, not_mem_nil, or_false] at hd
    rcases hd with rfl | rfl | rfl | rfl | rfl | rfl | rfl | rfl | rfl <;> rfl
  cases h with
  | nil => rfl
  | halt h =>
    obtain ⟨d, b, d', b', rfl, rfl, hd, hd'⟩ := h.exists_cons
    rw [hstop hd, hstop hd']
  | @cons c cs cs' hc hcs =>
    by_cases hm : c = '-'
    · subst hm
      -- Behind a hyphen one more character counts.
      have hsecond (u : List Char) : startsName ('-' :: u) =
          u.head?.any fun c => isNameStart c || c = '-' || c = '\\' := by
        cases u <;> rfl
      rw [hsecond, hsecond]
      exact hcs.any_head? (by decide)
    · rw [startsName_of_ne hm hc, startsName_of_ne hm hc]
  | @escape y cs cs' hy hnext h =>
    have hstart (u : List Char) : startsName ('\\' :: u) = !startsBreak u := rfl
    rw [hstart, hstart, startsBreak_eq (head?_append_eq y hnext)]

end Akin

/-! ### Names and numbers -/

/-- Texts of which the same has been read. -/
def Parted (s s' r r' : List Char) : Prop := ∃ p, s = p ++ r ∧ s' = p ++ r' ∧ Akin r r'

namespace Parted
variable {s s' r r' u u' : List Char}

theorem refl (h : Akin s s') : Parted s s' s s' := ⟨[], rfl, rfl, h⟩

theorem trans (h : Parted s s' r r') (h' : Parted r r' u u') : Parted s s' u u' := by
  obtain ⟨p, rfl, rfl, -⟩ := h
  obtain ⟨q, rfl, rfl, hu⟩ := h'
  exact ⟨p ++ q, (append_assoc ..).symm, (append_assoc ..).symm, hu⟩

theorem cons (c : Char) (h : Parted s s' r r') : Parted (c :: s) (c :: s') r r' := by
  obtain ⟨p, rfl, rfl, hr⟩ := h
  exact ⟨c :: p, rfl, rfl, hr⟩

theorem append (x : List Char) (h : Parted s s' r r') : Parted (x ++ s) (x ++ s') r r' := by
  obtain ⟨p, rfl, rfl, hr⟩ := h
  exact ⟨x ++ p, (append_assoc ..).symm, (append_assoc ..).symm, hr⟩

theorem akin (h : Parted s s' r r') : Akin r r' := by
  obtain ⟨-, -, -, hr⟩ := h
  exact hr

end Parted

/-- The scanner reads the same of both texts. -/
def Follows {α : Type} (f : List Char → α × List Char) (s s' : List Char) : Prop :=
  (f s').1 = (f s).1 ∧ Parted s s' (f s).2 (f s').2

section
variable {α : Type} {f : List Char → α × List Char} {s s' : List Char}

theorem Follows.of_eq {a : α} {r r' : List Char} (h : f s = (a, r)) (h' : f s' = (a, r')) (hr : Parted s s' r r') :
    Follows f s s' := by
  rw [Follows, h, h']
  exact ⟨rfl, hr⟩

/-- What ends in front of one text ends in front of the other. -/
theorem Follows.swap {x t t' : List Char} {a : α} (h : Follows f (x ++ t) (x ++ t')) (hf : f (x ++ t) = (a, t)) :
    f (x ++ t') = (a, t') := by
  obtain ⟨hfst, p, hs, hs', -⟩ := h
  rw [hf] at hfst hs
  obtain rfl : x = p := append_cancel_right hs
  exact Prod.ext hfst (append_cancel_left hs').symm

theorem takeWhile_akin {p : Char → Bool} (hp : bars.all (!p ·) = true) (h : Akin s s') :
    s'.takeWhile p = s.takeWhile p ∧ Parted s s' (s.dropWhile p) (s'.dropWhile p) := by
  have stop {d : Char} (hd : d ∈ bars) (b : List Char) :
      (d :: b).takeWhile p = [] ∧ (d :: b).dropWhile p = d :: b := by
    have hfail : p d = false := by simpa using all_eq_true.1 hp d hd
    exact ⟨takeWhile_cons_of_neg (by simp [hfail]), dropWhile_cons_of_neg (by simp [hfail])⟩
  induction h with
  | nil => exact ⟨rfl, .refl .nil⟩
  | halt h =>
    have hself := Akin.halt h
    obtain ⟨d, b, d', b', rfl, rfl, hd, hd'⟩ := h.exists_cons
    rw [(stop (mem_cons_of_mem _ hd) b).1, (stop (mem_cons_of_mem _ hd') b').1, (stop (mem_cons_of_mem _ hd) b).2,
      (stop (mem_cons_of_mem _ hd') b').2]
    exact ⟨rfl, .refl hself⟩
  | @cons c cs cs' hc h ih =>
    cases hpc : p c with
    | true =>
      rw [takeWhile_cons_of_pos hpc, takeWhile_cons_of_pos hpc, ih.1, dropWhile_cons_of_pos hpc,
        dropWhile_cons_of_pos hpc]
      exact ⟨rfl, ih.2.cons c⟩
    | false =>
      have hneg : ¬ p c = true := by simp [hpc]
      rw [takeWhile_cons_of_neg hneg, takeWhile_cons_of_neg hneg, dropWhile_cons_of_neg hneg,
        dropWhile_cons_of_neg hneg]
      exact ⟨rfl, .refl (.cons hc h)⟩
  | escape hy hnext h _ =>
    rw [(stop mem_cons_self _).1, (stop mem_cons_self _).1, (stop mem_cons_self _).2, (stop mem_cons_self _).2]
    exact ⟨rfl, .refl (.escape hy hnext h)⟩

theorem isDigit_bars : bars.all (!Char.isDigit ·) = true := by decide

theorem sign_follows (h : Akin s s') : Follows sign s s' := by
  have stop {d : Char} (hd : d ∈ bars) (b : List Char) : sign (d :: b) = (.none, d :: b) := by
    simp only [bars, stops, mem_cons, not_mem_nil, or_false] at hd
    rcases hd with rfl | rfl | rfl | rfl | rfl | rfl | rfl | rfl | rfl | rfl <;> rfl
  rcases h.cases_head with ⟨rfl, rfl⟩ | ⟨c, cs, cs', rfl, rfl, hc, hcs⟩ | ⟨d, b, d', b', rfl, rfl, hd, hd'⟩
  · exact ⟨rfl, .refl h⟩
  · by_cases hp : c = '+'
    · subst hp
      exact ⟨rfl, (Parted.refl hcs).cons '+'⟩
    by_cases hm : c = '-'
    · subst hm
      exact ⟨rfl, (Parted.refl hcs).cons '-'⟩
    · exact .of_eq (sign_of_ne hp hm cs) (sign_of_ne hp hm cs') (.refl h)
  · exact .of_eq (stop hd b) (stop hd' b') (.refl h)

theorem fraction_follows (h : Akin s s') : Follows fraction s s' := by
  have stop {d : Char} (hd : d ∈ bars) (b : List Char) : fraction (d :: b) = ([], d :: b) := by
    refine fraction_of_ne ?_ b
    rintro rfl
    exact absurd hd (by decide)
  rcases h.cases_head with ⟨rfl, rfl⟩ | ⟨c, cs, cs', rfl, rfl, hc, hcs⟩ | ⟨d, b, d', b', rfl, rfl, hd, hd'⟩
  · exact ⟨rfl, .refl h⟩
  · by_cases hp : c = '.'
    · subst hp
      obtain ⟨htake, hdrop⟩ := takeWhile_akin isDigit_bars hcs
      have hdigit := hcs.startsDigit_eq
      cases hd : startsDigit cs with
      | false => exact .of_eq (a := []) (by simp [fraction, hd]) (by simp [fraction, hdigit, hd]) (.refl h)
      | true =>
        refine .of_eq (a := cs.takeWhile Char.isDigit) (by simp [fraction, hd]) ?_ (hdrop.cons '.')
        simp [fraction, hdigit, hd, htake]
    · exact .of_eq (fraction_of_ne hp cs) (fraction_of_ne hp cs') (.refl h)
  · exact .of_eq (stop hd b) (stop hd' b') (.refl h)

theorem exponent_follows (h : Akin s s') : Follows exponent s s' := by
  have stop {d : Char} (hd : d ∈ bars) (b : List Char) : exponent (d :: b) = (none, d :: b) := by
    simp only [bars, stops, mem_cons, not_mem_nil, or_false] at hd
    rcases hd with rfl | rfl | rfl | rfl | rfl | rfl | rfl | rfl | rfl | rfl <;> rfl
  rcases h.cases_head with ⟨rfl, rfl⟩ | ⟨c, cs, cs', rfl, rfl, hc, hcs⟩ | ⟨d, b, d', b', rfl, rfl, hd, hd'⟩
  · exact ⟨rfl, .refl h⟩
  · obtain ⟨hsign, hparted⟩ := sign_follows hcs
    obtain ⟨htake, hdrop⟩ := takeWhile_akin isDigit_bars hparted.akin
    have hdigit := hparted.akin.startsDigit_eq
    cases hmark : (decide (c = 'e') || decide (c = 'E')) && startsDigit (sign cs).2 with
    | false =>
      refine .of_eq (a := none) (r := c :: cs) ?_ ?_ (.refl h)
      · simp only [exponent, hmark, Bool.false_eq_true, if_false]
      · simp only [exponent, hdigit, hmark, Bool.false_eq_true, if_false]
    | true =>
      refine .of_eq (a := some ((sign cs).1, (sign cs).2.takeWhile Char.isDigit)) ?_ ?_ ((hparted.trans hdrop).cons c)
      · simp only [exponent, hmark, if_true]
      · simp only [exponent, hdigit, hmark, if_true, hsign, htake]
  · exact .of_eq (stop hd b) (stop hd' b') (.refl h)

theorem numeral_follows (h : Akin s s') : Follows numeral s s' := by
  obtain ⟨hsign, h₁⟩ := sign_follows h
  obtain ⟨htake, h₂⟩ := takeWhile_akin isDigit_bars h₁.akin
  obtain ⟨hfraction, h₃⟩ := fraction_follows h₂.akin
  obtain ⟨hexponent, h₄⟩ := exponent_follows h₃.akin
  refine ⟨?_, ((h₁.trans h₂).trans h₃).trans h₄⟩
  simp only [numeral, hsign, htake, hfraction, hexponent]

theorem startsNumber_akin (h : Akin s s') : startsNumber s' = startsNumber s := by
  have hparted := (sign_follows h).2.akin
  by_cases hp : (sign s).2.head? = some '.'
  · have hp' := (hparted.head?_eq_iff (by decide)).2 hp
    obtain ⟨ds, hds⟩ := head?_eq_some_iff.1 hp
    obtain ⟨ds', hds'⟩ := head?_eq_some_iff.1 hp'
    rw [hds, hds'] at hparted
    rw [startsNumber_of_point hds, startsNumber_of_point hds', (hparted.tail (by decide)).startsDigit_eq]
  · have hp' := mt (hparted.head?_eq_iff (by decide)).1 hp
    rw [startsNumber_of_ne hp, startsNumber_of_ne hp', hparted.startsDigit_eq]

theorem name_follows (h : Akin s s') : Follows name s s' := by
  have stop {d : Char} (hd : d ∈ stops) (b : List Char) : name (d :: b) = ([], d :: b) := by
    have hall : stops.all (fun d => !isNameChar d && d ≠ '\\') = true := by decide
    obtain ⟨hname, hesc⟩ := Bool.and_eq_true_iff.1 (all_eq_true.1 hall d hd)
    exact name_of_stop (by simpa using hname) (by simp [of_decide_eq_true hesc])
  induction h with
  | nil => exact .of_eq (a := []) (by rw [name]) (by rw [name]) (.refl .nil)
  | halt h =>
    have hself := Akin.halt h
    obtain ⟨d, b, d', b', rfl, rfl, hd, hd'⟩ := h.exists_cons
    exact .of_eq (stop hd b) (stop hd' b') (.refl hself)
  | @cons c cs cs' hc h ih =>
    cases hn : isNameChar c with
    | true =>
      rw [Follows, name_of_nameChar hn, name_of_nameChar hn, ih.1]
      exact ⟨rfl, ih.2.cons c⟩
    | false =>
      have hesc (u : List Char) : (c = '\\' && !startsBreak u) = false := by simp [hc]
      exact .of_eq (name_of_stop hn (hesc cs)) (name_of_stop hn (hesc cs')) (.refl (.cons hc h))
  | @escape y cs cs' hy hnext h ih =>
    have hbreak : startsBreak (y ++ cs') = startsBreak (y ++ cs) := startsBreak_eq (head?_append_eq y hnext)
    cases hb : startsBreak (y ++ cs) with
    | true =>
      refine .of_eq (a := []) (name_of_stop (by decide) (by simp [hb])) (name_of_stop (by decide) ?_)
        (.refl (.escape hy hnext h))
      simp [hbreak, hb]
    | false =>
      obtain ⟨a, ha⟩ := hy
      rw [Follows, name_of_escape hb, name_of_escape (hbreak.trans hb), ha cs rfl, ha cs' hnext, ih.1]
      exact ⟨rfl, ih.2.append ('\\' :: y)⟩

theorem nameAs_follows (t : String → Token) (h : Akin s s') : Follows (nameAs t) s s' := by
  obtain ⟨hname, hparted⟩ := name_follows h
  exact ⟨by rw [nameAs, nameAs, hname], hparted⟩

theorem numeric_follows (h : Akin s s') : Follows numeric s s' := by
  obtain ⟨hnumeral, hparted⟩ := numeral_follows h
  have hpercent := hparted.akin.head?_eq_iff (c := '%') (by decide)
  by_cases hp : (numeral s).2.head? = some '%'
  · obtain ⟨ds, hds⟩ := head?_eq_some_iff.1 hp
    obtain ⟨ds', hds'⟩ := head?_eq_some_iff.1 (hpercent.2 hp)
    rw [hds, hds'] at hparted
    have hrest : Parted s s' ds ds' := hparted.trans ((Parted.refl (hparted.akin.tail (by decide))).cons '%')
    exact .of_eq (numeric_of_percent hds) (by rw [numeric_of_percent hds', hnumeral]) hrest
  · have hp' := mt hpercent.1 hp
    have hname := hparted.akin.startsName_eq
    cases hn : startsName (numeral s).2 with
    | false =>
      exact .of_eq (numeric_of_else hp hn) (by rw [numeric_of_else hp' (hname.trans hn), hnumeral]) hparted
    | true =>
      obtain ⟨hunit, hrest⟩ := name_follows hparted.akin
      exact .of_eq (numeric_of_name hp hn) (by rw [numeric_of_name hp' (hname.trans hn), hnumeral, hunit])
        (hparted.trans hrest)

theorem orMatch_follows (t : Token) (c : Char) (h : Akin s s') : Follows (orMatch t c) s s' := by
  have other {cs : List Char} (hcs : cs.head? ≠ some '=') : orMatch t c cs = (.delim c, cs) := by
    unfold orMatch
    split
    · exact absurd rfl hcs
    · rfl
  have hequals := h.head?_eq_iff (c := '=') (by decide)
  by_cases hm : s.head? = some '='
  · obtain ⟨ds, rfl⟩ := head?_eq_some_iff.1 hm
    obtain ⟨ds', rfl⟩ := head?_eq_some_iff.1 (hequals.2 hm)
    exact ⟨rfl, (Parted.refl (h.tail (by decide))).cons '='⟩
  · exact .of_eq (other hm) (other (mt hequals.1 hm)) (.refl h)

end

/-! ### Tokens -/

theorem Akin.quoteNext {t t' : List Char} (h : Akin t t') (hq : quoteNext t = true) : quoteNext t' = true := by
  induction h with
  | nil => exact hq
  | halt h =>
    cases h with
    | parts _ _ hnext => exact hnext hq
    | quote hmark cs cs' =>
      simp only [mem_cons, not_mem_nil, or_false] at hmark
      rcases hmark with rfl | rfl <;> rfl
  | @cons c cs cs' hc h ih =>
    cases hs : isSpace c with
    | true =>
      rw [Css.quoteNext, dropWhile_cons_of_pos hs] at hq ⊢
      exact ih hq
    | false =>
      have hneg : ¬ isSpace c = true := by simp [hs]
      rw [Css.quoteNext, dropWhile_cons_of_neg hneg] at hq ⊢
      exact hq
  | escape => cases hq

theorem exists_of_quoteNext {cs : List Char} (h : quoteNext cs = true) :
    ∃ q ds, cs.dropWhile isSpace = q :: ds ∧ (q = '"' ∨ q = '\'') := by
  rw [quoteNext] at h
  cases hd : cs.dropWhile isSpace with
  | nil => simp [hd] at h
  | cons q ds => exact ⟨q, ds, rfl, by simpa [hd] using h⟩

section
variable {x t t' : List Char} {k : Token}

theorem single_swap {a : Token} (hf : (a, x ++ t) = (k, t)) : (a, x ++ t') = (k, t') := by
  obtain ⟨rfl, hx⟩ := Prod.mk.inj hf
  rw [append_left_eq_self.1 hx, nil_append]

/-- A token of which all characters are told. -/
theorem mark_swap {c : Char} {p : List Char} {a : Token} (hread : ∀ u, scan c (p ++ u) = (a, u)) (hp : p <+: x ++ t)
    (hf : scan c (x ++ t) = (k, t)) : scan c (x ++ t') = (k, t') := by
  obtain ⟨u, hu⟩ := hp
  rw [← hu, hread] at hf
  obtain ⟨rfl, rfl⟩ := Prod.mk.inj hf
  rw [← append_cancel_right hu, hread]

theorem scan_hash_swap (h : Akin (x ++ t) (x ++ t')) (hf : scan '#' (x ++ t) = (k, t)) :
    scan '#' (x ++ t') = (k, t') := by
  have hhyphen : (x ++ t').head? = some '-' ↔ (x ++ t).head? = some '-' := h.head?_eq_iff (by decide)
  rw [scan_hash] at hf ⊢
  rw [h.startsName_eq, h.startsDigit_eq, decide_eq_decide.2 hhyphen]
  split at hf
  · rw [if_pos (by assumption)]
    exact (nameAs_follows _ h).swap hf
  split at hf
  · rw [if_neg (by assumption), if_pos (by assumption)]
    exact (nameAs_follows _ h).swap hf
  · rw [if_neg (by assumption), if_neg (by assumption)]
    exact single_swap hf

theorem scan_at_swap (h : Akin (x ++ t) (x ++ t')) (hf : scan '@' (x ++ t) = (k, t)) :
    scan '@' (x ++ t') = (k, t') := by
  rw [scan_at] at hf ⊢
  rw [h.startsName_eq]
  split at hf
  · rw [if_pos (by assumption)]
    exact (nameAs_follows _ h).swap hf
  · rw [if_neg (by assumption)]
    exact single_swap hf

variable (hk : k.isSpoiled = false) (ht : t ≠ [])
include hk ht

theorem stringToken_swap {q : Char} (hf : stringToken q (x ++ t) = (k, t)) :
    stringToken q (x ++ t') = (k, t') := by
  have hrest : (quoted q (x ++ t)).rest = t := congrArg Prod.snd hf
  have htoken := congrArg Prod.fst hf
  simp only [stringToken] at htoken
  cases hs : (quoted q (x ++ t)).sound with
  | false =>
    rw [hs, if_neg (by simp)] at htoken
    rw [← htoken] at hk
    cases hk
  | true =>
    have hswap := (quoted_closed hs (by rwa [hrest])).swap hrest t'
    simp only [stringToken, hswap, htoken]

theorem addressToken_swap (hf : addressToken (x ++ t) = (k, t)) : addressToken (x ++ t') = (k, t') := by
  have hs : (address (x ++ t)).sound = true := sound_of_addressToken (by rw [hf]; exact hk)
  rw [addressToken_of_sound hs] at hf
  obtain ⟨htoken, hrest⟩ := Prod.mk.inj hf
  have hswap := (address_closed hs (by rwa [hrest])).swap hrest t'
  have hs' : (address (x ++ t')).sound = true := by rw [hswap]; exact hs
  rw [addressToken_of_sound hs', hswap, ← htoken]

variable (h : Akin t t')
include h

/-- An address ends behind its parenthesis. A quote that makes a function of it stands behind the blanks. -/
theorem urlToken_swap {f : String} {m : List Char} (hf : urlToken f (m ++ t) = (k, t)) :
    urlToken f (m ++ t') = (k, t') := by
  have hquoted {q : Char} {ds : List Char} (hd : (m ++ t).dropWhile isSpace = q :: ds) (hq : q = '"' ∨ q = '\'') :
      m = [] ∧ k = .function f := by
    rw [urlToken_of_quote hd hq] at hf
    exact ⟨append_left_eq_self.1 (congrArg Prod.snd hf), (congrArg Prod.fst hf).symm⟩
  cases hm : m.dropWhile isSpace with
  | nil =>
    have hdrop : (m ++ t).dropWhile isSpace = t.dropWhile isSpace := by
      rw [dropWhile_append, hm, isEmpty_nil, if_pos rfl]
    cases hd : t.dropWhile isSpace with
    | nil =>
      unfold urlToken at hf
      rw [hdrop, hd] at hf
      exact absurd (congrArg Prod.snd hf).symm ht
    | cons q ds =>
      by_cases hq : q = '"' ∨ q = '\''
      · obtain ⟨rfl, rfl⟩ := hquoted (hdrop.trans hd) hq
        have hnext : quoteNext t = true := by
          rw [quoteNext, hd]
          simpa using hq
        obtain ⟨q', ds', hd', hq'⟩ := exists_of_quoteNext (h.quoteNext hnext)
        rw [nil_append, urlToken_of_quote hd' hq']
      · -- An address would take some of what is left.
        rw [urlToken_of_address (hdrop.trans hd) hq] at hf
        have hurl := addressToken_isUrl (q :: ds)
        rw [hf, urlToken_eq_self ((urlToken_of_address (f := f) hd hq).trans hf) ht] at hurl
        cases hurl
  | cons e m' =>
    have hdrop (u : List Char) : (m ++ u).dropWhile isSpace = e :: (m' ++ u) := by
      rw [dropWhile_append, hm, isEmpty_cons, if_neg (by simp), cons_append]
    have hq : ¬ (e = '"' ∨ e = '\'') := fun hq => by
      obtain ⟨rfl, -⟩ := hquoted (hdrop t) hq
      cases hm
    rw [urlToken_of_address (hdrop t) hq] at hf
    rw [urlToken_of_address (hdrop t') hq]
    exact addressToken_swap (x := e :: m') hk ht hf

theorem nameToken_swap (hx : Akin (x ++ t) (x ++ t')) (hf : nameToken (x ++ t) = (k, t)) :
    nameToken (x ++ t') = (k, t') := by
  obtain ⟨hname, hparted⟩ := name_follows hx
  have hparen := hparted.akin.head?_eq_iff (c := '(') (by decide)
  by_cases hp : (name (x ++ t)).2.head? = some '('
  · obtain ⟨ds, hds⟩ := head?_eq_some_iff.1 hp
    obtain ⟨ds', hds'⟩ := head?_eq_some_iff.1 (hparen.2 hp)
    rw [nameToken_of_function hds] at hf
    rw [nameToken_of_function hds', hname]
    -- The parenthesis is part of the token, so the same stands behind it in front of both texts.
    have hrest {m : List Char} (hm : ds = m ++ t) : ds' = m ++ t' := by
      obtain ⟨p, hs, hs', -⟩ := hparted
      rw [hds, hm, ← cons_append, ← append_assoc] at hs
      rw [hds', append_cancel_right hs, append_assoc] at hs'
      exact (cons.inj (append_cancel_left hs')).2.symm
    cases hu : sameName (String.ofList (name (x ++ t)).1) "url" with
    | true =>
      rw [if_pos hu] at hf
      obtain ⟨m, hm⟩ : t <:+ ds := by
        have hsuf := urlToken_suffix (String.ofList (name (x ++ t)).1) ds
        rwa [hf] at hsuf
      rw [if_pos rfl, hrest hm.symm]
      exact urlToken_swap hk ht h (by rwa [hm])
    | false =>
      rw [if_neg (by simp [hu])] at hf
      obtain ⟨hfun, hds⟩ := Prod.mk.inj hf
      rw [if_neg (by simp), hfun, hrest (m := []) hds]
      rfl
  · rw [nameToken_of_ident hp] at hf
    rw [nameToken_of_ident (mt hparen.1 hp)]
    exact (nameAs_follows _ hx).swap hf

/-- What starts with a name is read from it, and what does not is one character. -/
theorem named_swap {c : Char} (hx : Akin (c :: (x ++ t)) (c :: (x ++ t')))
    (hf : (if startsName (c :: (x ++ t)) then nameToken (c :: (x ++ t)) else (.delim c, x ++ t)) = (k, t)) :
    (if startsName (c :: (x ++ t')) then nameToken (c :: (x ++ t')) else (.delim c, x ++ t')) = (k, t') := by
  rw [hx.startsName_eq]
  split at hf
  · rw [if_pos (by assumption)]
    exact nameToken_swap (x := c :: x) hk ht h hx hf
  · rw [if_neg (by assumption)]
    exact single_swap hf

/-- A token in front of a text is the same token in front of one that is alike, unless it is a gap or a string. -/
theorem scan_swap {c : Char} (hx : Akin (c :: (x ++ t)) (c :: (x ++ t'))) (hs : isSpace c = false)
    (hq : c ∉ ['"', '\'']) (hcomment : ¬ ['/', '*'] <+: c :: (x ++ t)) (hf : scan c (x ++ t) = (k, t)) :
    scan c (x ++ t') = (k, t') := by
  have hnumber := startsNumber_akin hx
  cases hn : startsNumber (c :: (x ++ t)) with
  | true =>
    rw [scan_of_number hs hn] at hf
    rw [scan_of_number hs (hnumber.trans hn)]
    exact (numeric_follows hx).swap (x := c :: x) hf
  | false =>
    have hn' := hnumber.trans hn
    by_cases hc : c ∈ specials
    · simp only [specials, mem_append, mem_cons, not_mem_nil, or_false] at hc
      rcases hc with (hc | hc) | rfl | rfl | rfl | rfl | rfl | rfl | rfl
      · simp only [singles, mem_cons, not_mem_nil, or_false] at hc
        rcases hc with rfl | rfl | rfl | rfl | rfl | rfl | rfl | rfl | rfl <;> exact single_swap hf
      · simp only [matchers, mem_cons, not_mem_nil, or_false] at hc
        rcases hc with rfl | rfl | rfl | rfl | rfl <;> exact (orMatch_follows _ _ (hx.tail (by decide))).swap hf
      · exact absurd (by decide) hq
      · exact absurd (by decide) hq
      · exact scan_hash_swap (hx.tail (by decide)) hf
      · have hstar : (x ++ t).head? ≠ some '*' := fun hm => by
          obtain ⟨ds, hds⟩ := head?_eq_some_iff.1 hm
          exact hcomment ⟨ds, by rw [hds]; rfl⟩
        rw [scan_slash hstar] at hf
        -- The slash is a token of its own, so that what follows it is alike.
        obtain rfl : x = [] := append_left_eq_self.1 (Prod.mk.inj hf).2
        have hread : scan '/' t' = (.delim '/', t') := scan_slash (mt (h.head?_eq_iff (by decide)).1 hstar)
        rw [nil_append, hread]
        exact single_swap hf
      · have hakin := hx.tail (by decide)
        by_cases hp : ['!', '-', '-'] <+: x ++ t
        · exact mark_swap (fun _ => rfl) hp hf
        · rw [scan_angle hp] at hf
          rw [scan_angle (mt (hakin.isPrefix_iff (by simp [bars, stops])).1 hp)]
          exact single_swap hf
      · exact scan_at_swap (hx.tail (by decide)) hf
      · have hakin := hx.tail (by decide)
        by_cases hp : ['-', '>'] <+: x ++ t
        · exact mark_swap (fun _ => rfl) hp hf
        · rw [scan_hyphen hn hp] at hf
          rw [scan_hyphen hn' (mt (hakin.isPrefix_iff (by simp [bars, stops])).1 hp)]
          exact named_swap hk ht h hx hf
    · rw [scan_of_plain hc hs hn] at hf
      rw [scan_of_plain hc hs hn']
      exact named_swap hk ht h hx hf

end

end StyleBump.Css
