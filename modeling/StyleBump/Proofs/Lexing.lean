import StyleBump.Proofs.Scanning

/-! # Lexemes in front of other text

A text is complete if its tokens are the same in front of every inert tail (`Complete`). It is so if they
end in front of one fence (`Complete.of_fence`), or if it holds nothing on which a token can run past its
end (`Complete.of_unmarked`). -/

namespace StyleBump.Css
open List

/-! ### Tokens -/

/-- A text that holds a mark on which a token may run past its end. -/
inductive Marked (cs : List Char) : Prop
  | backslash (h : '\\' ∈ cs)
  | quote (q : Char) (hq : q ∈ ['"', '\'']) (h : q ∈ cs)
  | comment (h : ['/', '*'] <:+: cs)

theorem marked_iff (cs : List Char) :
    Marked cs ↔ '\\' ∈ cs ∨ '"' ∈ cs ∨ '\'' ∈ cs ∨ ['/', '*'] <:+: cs := by
  constructor
  · intro h
    cases h with
    | backslash h => exact .inl h
    | quote q hq h =>
      simp only [mem_cons, not_mem_nil, or_false] at hq
      rcases hq with rfl | rfl
      · exact .inr (.inl h)
      · exact .inr (.inr (.inl h))
    | comment h => exact .inr (.inr (.inr h))
  · rintro (h | h | h | h)
    · exact .backslash h
    · exact .quote '"' (by decide) h
    · exact .quote '\'' (by decide) h
    · exact .comment h

theorem Marked.mono {u v : List Char} (h : Marked u) (hs : u <:+ v) : Marked v := by
  cases h with
  | backslash h => exact .backslash (hs.mem h)
  | quote q hq h => exact .quote q hq (hs.mem h)
  | comment h => exact .comment (h.trans hs.isInfix)

theorem numeric_of_percent {cs ds : List Char} (h : (numeral cs).2 = '%' :: ds) :
    numeric cs = (.percentage (numeral cs).1, ds) := by
  simp [numeric, h]

theorem numeric_of_name {cs : List Char} (h : (numeral cs).2.head? ≠ some '%')
    (hn : startsName (numeral cs).2 = true) :
    numeric cs = (.dimension (numeral cs).1 (String.ofList (name (numeral cs).2).1), (name (numeral cs).2).2) := by
  simp only [numeric]
  split <;> simp_all

theorem numeric_of_else {cs : List Char} (h : (numeral cs).2.head? ≠ some '%')
    (hn : startsName (numeral cs).2 = false) : numeric cs = (.number (numeral cs).1, (numeral cs).2) := by
  simp only [numeric]
  split <;> simp_all

theorem numeric_stops_or_overruns (u : List Char) :
    Stops numeric u ∨ (Overruns numeric u ∧ '\\' ∈ u) := by
  have num {w : List Char} (hw : Inert w) := numeral_stops u w hw
  by_cases hp : (numeral u).2.head? = some '%'
  · obtain ⟨ds, hds⟩ := head?_eq_some_iff.1 hp
    left
    intro w hw
    have hds' : (numeral (u ++ w)).2 = '%' :: (ds ++ w) := by rw [num hw, hds]; rfl
    rw [numeric_of_percent hds', numeric_of_percent hds, num hw]
  have hp' {w : List Char} (hw : Inert w) : (numeral (u ++ w)).2.head? ≠ some '%' := by
    rw [num hw]
    exact head?_append hw (by decide) hp
  cases hn : startsName (numeral u).2 with
  | false =>
    left
    intro w hw
    have hn' : startsName (numeral (u ++ w)).2 = false := by rw [num hw, hw.startsName_append, hn]
    rw [numeric_of_else (hp' hw) hn', numeric_of_else hp hn, num hw]
  | true =>
    have hn' {w : List Char} (hw : Inert w) : startsName (numeral (u ++ w)).2 = true := by
      rw [num hw, hw.startsName_append, hn]
    refine stops_or_overruns_map (name_stops_or_overruns (numeral u).2)
      (fun cs => .dimension (numeral u).1 (String.ofList cs)) (fun w hw => ?_) fun hb => (numeral_suffix u).mem hb
    rw [numeric_of_name (hp' hw) (hn' hw), num hw]

/-- A name as the only part of a token. -/
def nameAs (t : String → Token) (cs : List Char) : Token × List Char :=
  (t (String.ofList (name cs).1), (name cs).2)

theorem nameAs_stops_or_overruns (t : String → Token) (u : List Char) :
    Stops (nameAs t) u ∨ (Overruns (nameAs t) u ∧ '\\' ∈ u) :=
  stops_or_overruns_map (name_stops_or_overruns u) (fun cs => t (String.ofList cs)) (fun _ _ => rfl) id

theorem stringToken_stops_or_overruns {q : Char} (hq : q ∈ ['"', '\'']) (u : List Char) :
    Stops (stringToken q) u ∨ Overruns (stringToken q) u :=
  stops_or_overruns_step (quoted_stops_or_overruns hq u)
    (fun p => if p.2 then .string (String.ofList p.1) else .badString (String.ofList p.1)) fun _ _ => rfl

/-- Whether a token is an address that stands without quotes. -/
def Token.isUrl : Token → Bool
  | url _ => true
  | badUrl _ => true
  | _ => false

theorem addressToken_isUrl (ds : List Char) : (addressToken ds).1.isUrl = true := by
  unfold addressToken
  dsimp only
  split <;> rfl

theorem addressToken_of_sound {ds : List Char} (h : (address ds).sound = true) :
    addressToken ds = (.url (String.ofList (address ds).content), (address ds).rest) := if_pos h

theorem addressToken_of_spoiled {ds : List Char} (h : (address ds).sound = false) :
    addressToken ds = (.badUrl (String.ofList (before ds (address ds).rest)), (address ds).rest.drop 1) :=
  if_neg (Bool.eq_false_iff.1 h)

/-- A parenthesis behind a backslash does not close the address and stays in it. -/
example : addressToken "x\"\\)".toList = (.badUrl "x\"\\)", []) := by decide +kernel

theorem before_append_right (u r w : List Char) : before (u ++ w) (r ++ w) = (u ++ w).take (u.length - r.length) := by
  simp only [before, length_append, Nat.add_sub_add_right]

theorem addressToken_stops_or_overruns (u : List Char) :
    Stops addressToken u ∨ Overruns addressToken u := by
  rcases address_stops_or_overruns u with h | h
  · left
    intro w hw
    have hp := h w hw
    simp only [Span.parts, Prod.mk.injEq] at hp
    obtain ⟨⟨hc, hs⟩, hr⟩ := hp
    cases hu : (address u).sound with
    | true => rw [addressToken_of_sound hu, addressToken_of_sound (hs.trans hu), hc, hr]
    | false =>
      have hb : before (u ++ w) ((address u).rest ++ w) = before u (address u).rest := by
        rw [before_append_right, take_append_of_le_length (Nat.sub_le _ _), before]
      have hd : ((address u).rest ++ w).drop 1 = (address u).rest.drop 1 ++ w := by
        cases hrest : (address u).rest with
        | cons d b => rfl
        | nil =>
          rw [hrest, nil_append] at hr
          cases w with
          | nil => rfl
          | cons d b => exact absurd (eq_of_address_rest (hs.trans hu) hr) (hw.ne (by decide))
      rw [addressToken_of_spoiled hu, addressToken_of_spoiled (hs.trans hu), hr, hb, hd]
  · right
    intro d b hd
    exact (addressToken_suffix_rest _).trans (h d b hd)

theorem urlToken_of_quote {f : String} {cs ds : List Char} {c : Char} (h : cs.dropWhile isSpace = c :: ds)
    (hc : c = '"' ∨ c = '\'') : urlToken f cs = (.function f, cs) := by
  unfold urlToken
  simp only [h]
  rw [if_pos (by simpa using hc)]

theorem urlToken_of_address {f : String} {cs ds : List Char} {c : Char} (h : cs.dropWhile isSpace = c :: ds)
    (hc : ¬ (c = '"' ∨ c = '\'')) : urlToken f cs = addressToken (c :: ds) := by
  unfold urlToken
  simp only [h]
  rw [if_neg (by simpa using hc)]

theorem isSpace_fence : fences.all (!isSpace ·) = true := by decide

theorem urlToken_stops_or_overruns (f : String) (u : List Char) :
    Stops (urlToken f) u ∨ (Overruns (urlToken f) u ∧ (urlToken f u).1.isUrl = true) := by
  have drop {w : List Char} (hw : Inert w) := hw.dropWhile_append isSpace_fence u
  cases hu : u.dropWhile isSpace with
  | nil =>
    refine .inr ⟨?_, by simp [urlToken, hu, Token.isUrl]⟩
    intro d b hd
    have hd' : (u ++ d :: b).dropWhile isSpace = d :: b := by rw [drop hd, hu, nil_append]
    rw [urlToken_of_address hd' (not_or.2 ⟨hd.ne (by decide), hd.ne (by decide)⟩)]
    refine (addressToken_suffix_rest _).trans ?_
    rw [address_of_char (hd.ne (by decide)) hd.not_space (spoils_fence hd) (hd.ne (by decide))]
    exact address_suffix b
  | cons c ds =>
    have hu' {w : List Char} (hw : Inert w) : (u ++ w).dropWhile isSpace = c :: (ds ++ w) := by
      rw [drop hw, hu, cons_append]
    by_cases hc : c = '"' ∨ c = '\''
    · left
      intro w hw
      rw [urlToken_of_quote (hu' hw) hc, urlToken_of_quote hu hc]
    · have h : Stops addressToken (c :: ds) ∨ (Overruns addressToken (c :: ds) ∧ True) := by
        simpa using addressToken_stops_or_overruns (c :: ds)
      refine stops_or_overruns_congr h (fun w hw => urlToken_of_address (hu' hw) hc) fun _ => ?_
      rw [urlToken_of_address hu hc]
      exact addressToken_isUrl _

theorem nameToken_of_ident {cs : List Char} (h : (name cs).2.head? ≠ some '(') :
    nameToken cs = nameAs .ident cs := by
  unfold nameToken nameAs
  dsimp only
  split
  · rename_i heq
    exact absurd (heq ▸ rfl) h
  · rfl

theorem nameToken_of_function {cs ds : List Char} (h : (name cs).2 = '(' :: ds) :
    nameToken cs = if sameName (String.ofList (name cs).1) "url" then urlToken (String.ofList (name cs).1) ds
      else (.function (String.ofList (name cs).1), ds) := by
  unfold nameToken
  simp only [h]

theorem nameToken_stops_or_overruns (u : List Char) :
    Stops nameToken u ∨ (Overruns nameToken u ∧ ('\\' ∈ u ∨ (nameToken u).1.isUrl = true)) := by
  rcases name_stops_or_overruns u with h | ⟨h, hb⟩
  · by_cases hp : (name u).2.head? = some '('
    · obtain ⟨ds, hds⟩ := head?_eq_some_iff.1 hp
      have hds' {w : List Char} (hw : Inert w) : (name (u ++ w)).2 = '(' :: (ds ++ w) := by rw [h w hw, hds]; rfl
      have e {w : List Char} (hw : Inert w) := nameToken_of_function (hds' hw)
      cases hn : sameName (String.ofList (name u).1) "url" with
      | false =>
        left
        intro w hw
        rw [e hw, nameToken_of_function hds, h w hw]
        simp only [hn, Bool.false_eq_true, if_false]
      | true =>
        refine stops_or_overruns_congr (urlToken_stops_or_overruns (String.ofList (name u).1) ds)
          (fun w hw => ?_) fun hurl => ?_
        · rw [e hw, h w hw]
          simp only [hn, if_true]
        · rw [nameToken_of_function hds, hn]
          exact .inr hurl
    · left
      intro w hw
      have hp' : (name (u ++ w)).2.head? ≠ some '(' := by rw [h w hw]; exact head?_append hw (by decide) hp
      rw [nameToken_of_ident hp', nameToken_of_ident hp]
      simp only [nameAs, h w hw]
  · exact .inr ⟨fun d b hd => (nameToken_suffix _).trans (h d b hd), .inl hb⟩

theorem orMatch_stops (t : Token) (c : Char) (u : List Char) : Stops (orMatch t c) u := by
  intro w hw
  have e {cs : List Char} (h : cs.head? ≠ some '=') : orMatch t c cs = (.delim c, cs) := by
    unfold orMatch
    split
    · exact absurd rfl h
    · rfl
  by_cases hm : u.head? = some '='
  · obtain ⟨ds, rfl⟩ := head?_eq_some_iff.1 hm
    rfl
  · rw [e hm, e (head?_append hw (by decide) hm)]

/-- Characters that are a token each. -/
def singles : List Char := ['(', ')', '[', ']', '\x7b', '\x7d', ',', ':', ';']

/-- Characters that are a token each, or one with an equals sign. -/
def matchers : List Char := ['$', '*', '^', '|', '~']

/-- Characters that start a token of their own. -/
def specials : List Char := singles ++ matchers ++ ['"', '\'', '#', '/', '<', '@', '-']

/-- A character that starts no token of its own starts a name, or stands for itself. -/
theorem scan_of_plain {c : Char} (hc : c ∉ specials) {cs : List Char} (hs : isSpace c = false)
    (hn : startsNumber (c :: cs) = false) :
    scan c cs = if startsName (c :: cs) then nameToken (c :: cs) else (.delim c, cs) := by
  unfold scan
  rw [if_neg (by simp [hs]), if_neg (by simp [hn])]
  split <;> first | rfl | exact absurd (by decide) hc

theorem scan_hash (cs : List Char) :
    scan '#' cs =
      if startsName cs then nameAs .idHash cs
      else if startsDigit cs || cs.head? = some '-' then nameAs .hash cs
      else (.delim '#', cs) := rfl

theorem scan_at (cs : List Char) :
    scan '@' cs = if startsName cs then nameAs .atKeyword cs else (.delim '@', cs) := rfl

theorem scan_slash {cs : List Char} (h : cs.head? ≠ some '*') : scan '/' cs = (.delim '/', cs) := by
  have hn : startsNumber ('/' :: cs) = false := rfl
  unfold scan
  rw [if_neg (by decide), if_neg (by simp [hn])]
  simp only
  split
  · exact absurd rfl h
  · rfl

theorem scan_angle {cs : List Char} (h : ¬ ['!', '-', '-'] <+: cs) : scan '<' cs = (.delim '<', cs) := by
  have hn : startsNumber ('<' :: cs) = false := rfl
  unfold scan
  rw [if_neg (by decide), if_neg (by simp [hn])]
  simp only
  split
  · exact absurd ⟨_, rfl⟩ h
  · rfl

theorem scan_hyphen {cs : List Char} (hn : startsNumber ('-' :: cs) = false) (h : ¬ ['-', '>'] <+: cs) :
    scan '-' cs = if startsName ('-' :: cs) then nameToken ('-' :: cs) else (.delim '-', cs) := by
  unfold scan
  rw [if_neg (by decide), if_neg (by simp [hn])]
  simp only
  split
  · exact absurd ⟨_, rfl⟩ h
  · rfl

theorem Inert.prefix_append_iff {w : List Char} (hw : Inert w) {p : List Char}
    (hp : p.all (· ∈ marks) = true) (u : List Char) : p <+: u ++ w ↔ p <+: u := by
  refine ⟨fun h => ?_, fun h => h.trans (prefix_append u w)⟩
  induction u generalizing p with
  | nil =>
    cases p with
    | nil => exact nil_prefix
    | cons c p =>
      obtain ⟨hc, -⟩ := Bool.and_eq_true_iff.1 hp
      obtain ⟨t, rfl⟩ := h
      exact absurd rfl (hw.ne (of_decide_eq_true hc))
  | cons e u ih =>
    cases p with
    | nil => exact nil_prefix
    | cons c p =>
      obtain ⟨-, hp⟩ := Bool.and_eq_true_iff.1 hp
      obtain ⟨he, ht⟩ := cons_prefix_cons.1 h
      exact cons_prefix_cons.2 ⟨he, ih hp ht⟩

/-- The mark that hides a sheet is not made of a fence and what stands before it. -/
theorem Inert.bang_prefix_append_iff {w : List Char} (hw : Inert w) (u : List Char) :
    ['!', '-', '-'] <+: u ++ w ↔ ['!', '-', '-'] <+: u := by
  refine ⟨fun h => ?_, fun h => h.trans (prefix_append u w)⟩
  cases u with
  | nil =>
    obtain ⟨t, rfl⟩ := h
    exact absurd ⟨t, rfl⟩ ((hw '!' ('-' :: '-' :: t) rfl).2 rfl)
  | cons e u =>
    obtain ⟨he, ht⟩ := cons_prefix_cons.1 h
    exact cons_prefix_cons.2 ⟨he, (hw.prefix_append_iff (by decide) u).1 ht⟩

theorem scan_stops_of_single {c : Char} (hc : c ∈ singles) (u : List Char) : Stops (scan c) u := by
  simp only [singles, mem_cons, not_mem_nil, or_false] at hc
  rcases hc with rfl | rfl | rfl | rfl | rfl | rfl | rfl | rfl | rfl <;> exact fun w _ => rfl

theorem scan_stops_of_matcher {c : Char} (hc : c ∈ matchers) (u : List Char) : Stops (scan c) u := by
  simp only [matchers, mem_cons, not_mem_nil, or_false] at hc
  rcases hc with rfl | rfl | rfl | rfl | rfl <;> exact orMatch_stops _ _ u

theorem scan_hash_stops_or_overruns (u : List Char) :
    Stops (scan '#') u ∨ (Overruns (scan '#') u ∧ '\\' ∈ u) := by
  have hyphen {w : List Char} (hw : Inert w) : (u ++ w).head? = some '-' ↔ u.head? = some '-' := by
    refine ⟨Decidable.not_imp_not.1 (head?_append hw (by decide)), fun h => ?_⟩
    obtain ⟨v, rfl⟩ := head?_eq_some_iff.1 h
    rfl
  have e {w : List Char} (hw : Inert w) : scan '#' (u ++ w) =
      if startsName u then nameAs .idHash (u ++ w)
      else if startsDigit u || u.head? = some '-' then nameAs .hash (u ++ w)
      else (.delim '#', u ++ w) := by
    rw [scan_hash, hw.startsName_append, hw.startsDigit_append, decide_eq_decide.2 (hyphen hw)]
  cases hN : startsName u with
  | true =>
    exact stops_or_overruns_congr (nameAs_stops_or_overruns .idHash u) (fun w hw => by rw [e hw, if_pos hN]) id
  | false =>
    cases hD : startsDigit u || decide (u.head? = some '-') with
    | true =>
      exact stops_or_overruns_congr (nameAs_stops_or_overruns .hash u)
        (fun w hw => by rw [e hw, if_neg (by simp [hN]), if_pos hD]) id
    | false =>
      left
      intro w hw
      rw [e hw, scan_hash, hN, hD]
      rfl

theorem scan_at_stops_or_overruns (u : List Char) :
    Stops (scan '@') u ∨ (Overruns (scan '@') u ∧ '\\' ∈ u) := by
  cases hN : startsName u with
  | true =>
    exact stops_or_overruns_congr (nameAs_stops_or_overruns .atKeyword u)
      (fun w hw => by rw [scan_at, hw.startsName_append, if_pos hN]) id
  | false =>
    left
    intro w hw
    rw [scan_at, scan_at, hw.startsName_append, hN]
    rfl

theorem scan_slash_stops_or_overruns (u : List Char) :
    Stops (scan '/') u ∨ (Overruns (scan '/') u ∧ ['/', '*'] <:+: '/' :: u) := by
  by_cases hu : u.head? = some '*'
  · obtain ⟨ds, rfl⟩ := head?_eq_some_iff.1 hu
    have h : Stops (scan '/') ('*' :: ds) ∨ Overruns (scan '/') ('*' :: ds) :=
      stops_or_overruns_step (commentBody_stops_or_overruns ds) (fun cs => .comment (String.ofList cs)) fun _ _ => rfl
    exact h.imp_right fun h => ⟨h, ['/', '*'] |>.prefix_append ds |>.isInfix⟩
  · left
    intro w hw
    rw [scan_slash hu, scan_slash (head?_append hw (by decide) hu)]

theorem scan_angle_stops (u : List Char) : Stops (scan '<') u := by
  intro w hw
  by_cases hu : ['!', '-', '-'] <+: u
  · obtain ⟨ds, rfl⟩ := hu
    rfl
  · rw [scan_angle hu, scan_angle (mt (hw.bang_prefix_append_iff u).1 hu)]

theorem scan_of_number {c : Char} {cs : List Char} (hs : isSpace c = false) (hn : startsNumber (c :: cs) = true) :
    scan c cs = numeric (c :: cs) := by
  unfold scan
  rw [if_neg (by simp [hs]), if_pos hn]

theorem scan_quote_stops_or_overruns {q : Char} (hq : q ∈ ['"', '\'']) (u : List Char) :
    Stops (scan q) u ∨ Overruns (scan q) u := by
  have h := stringToken_stops_or_overruns hq u
  simp only [mem_cons, not_mem_nil, or_false] at hq
  rcases hq with rfl | rfl <;> exact h

/-- A token that starts like a name, or is one character. -/
theorem named_stops_or_overruns {c : Char} {u : List Char}
    (e : ∀ w, Inert w → scan c (u ++ w) =
      if startsName (c :: (u ++ w)) then nameToken (c :: (u ++ w)) else (.delim c, u ++ w)) :
    Stops (scan c) u ∨ (Overruns (scan c) u ∧ (Marked (c :: u) ∨ (scan c u).1.isUrl = true)) := by
  have hname {w : List Char} (hw : Inert w) : startsName (c :: (u ++ w)) = startsName (c :: u) :=
    hw.startsName_append (c :: u)
  have e₀ : scan c u = if startsName (c :: u) then nameToken (c :: u) else (.delim c, u) := by
    simpa using e [] .nil
  cases hN : startsName (c :: u) with
  | false =>
    left
    intro w hw
    rw [e w hw, e₀, hname hw, hN]
    rfl
  | true =>
    refine stops_or_overruns_congr (nameToken_stops_or_overruns (c :: u)) (fun w hw => ?_) fun h => ?_
    · rw [e w hw, hname hw, hN]
      rfl
    · rw [e₀, hN]
      exact h.imp .backslash id

theorem scan_hyphen_stops_or_overruns {u : List Char} (hn : startsNumber ('-' :: u) = false) :
    Stops (scan '-') u ∨ (Overruns (scan '-') u ∧ (Marked ('-' :: u) ∨ (scan '-' u).1.isUrl = true)) := by
  by_cases hp : ['-', '>'] <+: u
  · obtain ⟨ds, rfl⟩ := hp
    exact .inl fun w _ => rfl
  · refine named_stops_or_overruns fun w hw => scan_hyphen ?_ ?_
    · exact (startsNumber_append hw ('-' :: u)).trans hn
    · exact mt (hw.prefix_append_iff (by decide) u).1 hp

/-- Only a quote, a backslash, a comment or an address takes a token past the end of the text. -/
theorem scan_stops_or_overruns (c : Char) (u : List Char) :
    Stops (scan c) u ∨ (Overruns (scan c) u ∧ (Marked (c :: u) ∨ (scan c u).1.isUrl = true)) := by
  by_cases hs : isSpace c = true
  · left
    intro w hw
    simp only [scan, if_pos hs, hw.takeWhile_append isSpace_fence, hw.dropWhile_append isSpace_fence]
  replace hs := Bool.eq_false_iff.2 hs
  have hnumber {w : List Char} (hw : Inert w) : startsNumber (c :: (u ++ w)) = startsNumber (c :: u) :=
    startsNumber_append hw (c :: u)
  have backslash (h : '\\' ∈ u) : Marked (c :: u) := .backslash (mem_cons_of_mem c h)
  cases hn : startsNumber (c :: u) with
  | true =>
    refine stops_or_overruns_congr (numeric_stops_or_overruns (c :: u)) (fun w hw => ?_) fun h => .inl (.backslash h)
    exact scan_of_number hs ((hnumber hw).trans hn)
  | false =>
    by_cases hc : c ∈ specials
    · simp only [specials, mem_append, mem_cons, not_mem_nil, or_false] at hc
      rcases hc with (hc | hc) | rfl | rfl | rfl | rfl | rfl | rfl | rfl
      · exact .inl (scan_stops_of_single hc u)
      · exact .inl (scan_stops_of_matcher hc u)
      · have hq : '"' ∈ ['"', '\''] := by decide
        exact (scan_quote_stops_or_overruns hq u).imp_right fun h => ⟨h, .inl (.quote '"' hq mem_cons_self)⟩
      · have hq : '\'' ∈ ['"', '\''] := by decide
        exact (scan_quote_stops_or_overruns hq u).imp_right fun h => ⟨h, .inl (.quote '\'' hq mem_cons_self)⟩
      · exact (scan_hash_stops_or_overruns u).imp_right (.imp_right fun h => .inl (backslash h))
      · exact (scan_slash_stops_or_overruns u).imp_right (.imp_right fun h => .inl (.comment h))
      · exact .inl (scan_angle_stops u)
      · exact (scan_at_stops_or_overruns u).imp_right (.imp_right fun h => .inl (backslash h))
      · exact scan_hyphen_stops_or_overruns hn
    · exact named_stops_or_overruns fun w hw => scan_of_plain hc hs ((hnumber hw).trans hn)

/-! ### Complete texts -/

theorem lexemes_cons (c : Char) (cs : List Char) :
    lexemes (c :: cs) = ⟨(scan c cs).1, before (c :: cs) (scan c cs).2⟩ :: lexemes (scan c cs).2 := by
  rw [lexemes]

theorem lexemes_of_scan {c : Char} {cs : List Char} {t : Token} (h : scan c cs = (t, cs)) :
    lexemes (c :: cs) = ⟨t, [c]⟩ :: lexemes cs := by
  rw [lexemes_cons, h]
  simp [before]

theorem textOf_append (a b : List Lexeme) : Lexeme.textOf (a ++ b) = Lexeme.textOf a ++ Lexeme.textOf b := by
  simp [Lexeme.textOf]

/-- The lexemes from some lexeme on are the lexemes of the text from there on. -/
theorem lexemes_textOf {cs : List Char} {a b : List Lexeme} (h : lexemes cs = a ++ b) :
    lexemes (Lexeme.textOf b) = b := by
  induction a generalizing cs with
  | nil =>
    have ht := textOf_lexemes cs
    rw [h, nil_append] at ht
    rw [ht, h, nil_append]
  | cons l a ih =>
    cases cs with
    | nil => simp [lexemes] at h
    | cons c cs =>
      rw [lexemes_cons, cons_append] at h
      exact ih (cons.inj h).2

/-- A text whose tokens are the same in front of every inert tail. -/
def Complete (u : List Char) : Prop :=
  ∀ w, Inert w → lexemes (u ++ w) = lexemes u ++ lexemes w

theorem Complete.lexemes_append {u w : List Char} (h : Complete u) (hw : Inert w) :
    lexemes (u ++ w) = lexemes u ++ lexemes w := h w hw

theorem Complete.nil : Complete [] := fun w _ => by simp [lexemes]

theorem Complete.cons {c : Char} {u : List Char} (h : Stops (scan c) u) (hr : Complete (scan c u).2) :
    Complete (c :: u) := by
  intro w hw
  have hb : before (c :: u ++ w) ((scan c u).2 ++ w) = before (c :: u) (scan c u).2 := by
    rw [before_append_right, take_append_of_le_length (Nat.sub_le _ _), before]
  rw [cons_append, lexemes_cons, lexemes_cons, h w hw, ← cons_append, hb, hr.lexemes_append hw, cons_append]

/-- A text is complete if its tokens end in front of one fence. -/
theorem Complete.of_fence {u b : List Char} {d : Char} {ls : List Lexeme} (hd : Inert (d :: b))
    (h : lexemes (u ++ d :: b) = ls ++ lexemes (d :: b)) : Complete u := by
  induction u using lexemes.induct generalizing ls with
  | case1 => exact .nil
  | case2 c cs ih =>
    have len {x y : List Char} {a : List Lexeme} (e : lexemes x = a ++ lexemes y) : y.length ≤ x.length := by
      have ht := congrArg Lexeme.textOf e
      rw [textOf_append, textOf_lexemes, textOf_lexemes] at ht
      rw [ht, length_append]
      exact Nat.le_add_left _ _
    cases ls with
    | nil =>
      have ht := congrArg Lexeme.textOf h
      rw [nil_append, textOf_lexemes, textOf_lexemes] at ht
      have hl := congrArg length ht
      simp only [length_append, length_cons] at hl
      omega
    | cons l ls =>
      rw [cons_append, lexemes_cons, cons_append] at h
      have hrest := (cons.inj h).2
      rcases scan_stops_or_overruns c cs with hs | ⟨ho, -⟩
      · rw [hs _ hd] at hrest
        exact .cons hs (ih hrest)
      · -- The fence is still to come, but a token that overruns has taken it.
        have hle := (ho d b hd).length_le
        have hge := len hrest
        simp only [length_cons] at hge
        omega

/-- A text without marks and addresses is complete. -/
theorem Complete.of_unmarked {u : List Char} (hm : ¬ Marked u) (hu : ∀ l ∈ lexemes u, l.token.isUrl = false) :
    Complete u := by
  induction u using lexemes.induct with
  | case1 => exact .nil
  | case2 c cs ih =>
    rw [lexemes_cons] at hu
    rcases scan_stops_or_overruns c cs with hs | ⟨-, hbad⟩
    · have hsuf := (scan_suffix c cs).trans (suffix_cons c cs)
      exact .cons hs (ih (fun h => hm (h.mono hsuf)) fun l hl => hu l (mem_cons_of_mem _ hl))
    · rcases hbad with hbad | hbad
      · exact absurd hbad hm
      · exact absurd hbad (by simp [hu _ mem_cons_self])

/-! ### What a token opens, closes and separates -/

def brackets : List Char := ['(', ')', '[', ']', '\x7b', '\x7d']

/-- A token that closes no block, stands for no gap, and opens a block only as a function whose name a
parenthesis follows. -/
structure Worded (cs : List Char) (r : Token × List Char) : Prop where
  closes : r.1.closes? = none
  gap : r.1.isGap = false
  opens : r.1.opens? = none ∨ ∃ t, cs = t ++ '(' :: r.2

namespace Worded
variable {cs : List Char}

theorem leaf {t : Token} {rest : List Char} (hc : t.closes? = none) (hg : t.isGap = false) (ho : t.opens? = none) :
    Worded cs (t, rest) := ⟨hc, hg, .inl ho⟩

theorem numeric (cs ds : List Char) : Worded ds (numeric cs) := by
  simp only [Css.numeric]
  split
  · exact leaf rfl rfl rfl
  · split <;> exact leaf rfl rfl rfl

theorem stringToken (q : Char) (cs ds : List Char) : Worded ds (stringToken q cs) := by
  simp only [Css.stringToken]
  split <;> exact leaf rfl rfl rfl

theorem addressToken (cs ds : List Char) : Worded ds (addressToken cs) := by
  simp only [Css.addressToken]
  split <;> exact leaf rfl rfl rfl

theorem urlToken (f : String) {cs ds t : List Char} (h : cs = t ++ '(' :: ds) : Worded cs (urlToken f ds) := by
  simp only [Css.urlToken]
  split
  · exact leaf rfl rfl rfl
  split
  · exact ⟨rfl, rfl, .inr ⟨t, h⟩⟩
  · exact addressToken _ cs

theorem nameToken (cs : List Char) : Worded cs (nameToken cs) := by
  by_cases hp : (name cs).2.head? = some '('
  · obtain ⟨ds, hds⟩ := head?_eq_some_iff.1 hp
    obtain ⟨t, ht⟩ := name_suffix cs
    rw [hds] at ht
    rw [nameToken_of_function hds]
    split
    · exact urlToken _ ht.symm
    · exact ⟨rfl, rfl, .inr ⟨t, ht.symm⟩⟩
  · rw [nameToken_of_ident hp]
    exact leaf rfl rfl rfl

theorem orMatch {t : Token} (hc : t.closes? = none) (hg : t.isGap = false) (ho : t.opens? = none) (c : Char)
    (cs ds : List Char) : Worded ds (orMatch t c cs) := by
  unfold Css.orMatch
  split
  · exact leaf hc hg ho
  · exact leaf rfl rfl rfl

end Worded

theorem scan_of_space {c : Char} (h : isSpace c = true) (cs : List Char) :
    scan c cs = (.whitespace (String.ofList (c :: cs.takeWhile isSpace)), cs.dropWhile isSpace) := by
  unfold scan
  rw [if_pos h]

theorem scan_worded {c : Char} {cs : List Char} (hb : c ∉ brackets) (hs : isSpace c = false)
    (hc : ¬ ['/', '*'] <+: c :: cs) : Worded (c :: cs) (scan c cs) := by
  unfold scan
  rw [if_neg (by simp [hs])]
  split
  · exact .numeric _ _
  split
  · exact .stringToken _ _ _
  · exact .stringToken _ _ _
  · split
    · exact .leaf rfl rfl rfl
    · split <;> exact .leaf rfl rfl rfl
  iterate 5 exact .orMatch rfl rfl rfl _ _ _
  iterate 6 exact absurd (by decide) hb
  iterate 3 exact .leaf rfl rfl rfl
  · split
    · exact absurd (prefix_append ['/', '*'] _) hc
    · exact .leaf rfl rfl rfl
  iterate 2 split <;> exact .leaf rfl rfl rfl
  · split
    · exact .leaf rfl rfl rfl
    · split
      · exact .nameToken _
      · exact .leaf rfl rfl rfl
  · split
    · exact .nameToken _
    · exact .leaf rfl rfl rfl

/-- A token starts with a bracket, with white space or with a comment, or it is none of these. -/
theorem scan_cases (c : Char) (cs : List Char) :
    c ∈ brackets ∨ isSpace c = true ∨ ['/', '*'] <+: c :: cs ∨ Worded (c :: cs) (scan c cs) := by
  by_cases hb : c ∈ brackets
  · exact .inl hb
  cases hs : isSpace c with
  | true => exact .inr (.inl rfl)
  | false =>
    by_cases hc : ['/', '*'] <+: c :: cs
    · exact .inr (.inr (.inl hc))
    · exact .inr (.inr (.inr (scan_worded hb hs hc)))

theorem scan_of_comment {c : Char} {cs : List Char} (h : ['/', '*'] <+: c :: cs) :
    ∃ t, (scan c cs).1 = .comment t := by
  obtain ⟨ds, hds⟩ := h
  obtain ⟨rfl, rfl⟩ := cons.inj hds
  exact ⟨_, rfl⟩

/-- What closes a block in curly brackets is one character. -/
theorem eq_of_scan_closes_curly {c : Char} {cs : List Char} (h : (scan c cs).1.closes? = some .curly) :
    c = '\x7d' := by
  rcases scan_cases c cs with hb | hs | hc | hw
  · simp only [brackets, mem_cons, not_mem_nil, or_false] at hb
    rcases hb with rfl | rfl | rfl | rfl | rfl | rfl <;> first | rfl | cases h
  · rw [scan_of_space hs] at h
    cases h
  · obtain ⟨t, ht⟩ := scan_of_comment hc
    rw [ht] at h
    cases h
  · rw [hw.closes] at h
    cases h

/-- Each lexeme is the token that some end of the text starts with, and its characters. -/
theorem exists_scan_of_mem {cs : List Char} {l : Lexeme} (hl : l ∈ lexemes cs) :
    ∃ c ds, c :: ds <:+ cs ∧ l.token = (scan c ds).1 ∧ l.text ++ (scan c ds).2 = c :: ds := by
  fun_induction lexemes cs with
  | case1 => cases hl
  | case2 c cs ih =>
    have hsuf := (scan_suffix c cs).trans (suffix_cons c cs)
    rcases mem_cons.1 hl with rfl | hl
    · exact ⟨c, cs, suffix_refl _, rfl, before_append hsuf⟩
    · obtain ⟨d, ds, hds, h⟩ := ih hl
      exact ⟨d, ds, hds.trans hsuf, h⟩

/-- No lexeme is empty. -/
theorem text_ne_nil {cs : List Char} {l : Lexeme} (hl : l ∈ lexemes cs) : l.text ≠ [] := by
  obtain ⟨c, ds, -, -, ht⟩ := exists_scan_of_mem hl
  intro hnil
  have hle := (scan_suffix c ds).length_le
  rw [hnil, nil_append] at ht
  rw [ht, length_cons] at hle
  omega

/-- What opens a block ends with a bracket. -/
theorem text_of_opens {cs : List Char} {l : Lexeme} (hl : l ∈ lexemes cs) {b : Bracket}
    (h : l.token.opens? = some b) : ∃ t, ∃ d ∈ brackets, l.text = t ++ [d] := by
  obtain ⟨c, ds, -, htok, ht⟩ := exists_scan_of_mem hl
  rw [htok] at h
  rcases scan_cases c ds with hb | hs | hc | hw
  · have hrest : (scan c ds).2 = ds := by
      simp only [brackets, mem_cons, not_mem_nil, or_false] at hb
      rcases hb with rfl | rfl | rfl | rfl | rfl | rfl <;> rfl
    rw [hrest] at ht
    exact ⟨[], c, hb, append_cancel_right ht⟩
  · rw [scan_of_space hs] at h
    cases h
  · obtain ⟨t, hcomment⟩ := scan_of_comment hc
    rw [hcomment] at h
    cases h
  · rcases hw.opens with hn | ⟨t, hparen⟩
    · rw [hn] at h
      cases h
    · rw [hparen, append_cons] at ht
      exact ⟨t, '(', by decide, append_cancel_right ht⟩

/-- What stands for a gap is white space, or a comment. -/
theorem gap_cases {cs : List Char} {l : Lexeme} (hl : l ∈ lexemes cs) (h : l.token.isGap = true) :
    (∀ c ∈ l.text, isSpace c = true) ∨ ((∃ t, l.token = .comment t) ∧ ['/', '*'] <:+: cs) := by
  obtain ⟨c, ds, hsuf, htok, ht⟩ := exists_scan_of_mem hl
  rw [htok] at h
  rcases scan_cases c ds with hb | hs | hc | hw
  · simp only [brackets, mem_cons, not_mem_nil, or_false] at hb
    rcases hb with rfl | rfl | rfl | rfl | rfl | rfl <;> cases h
  · left
    have htext : l.text = c :: ds.takeWhile isSpace := by
      rw [scan_of_space hs] at ht
      refine append_cancel_right (ht.trans ?_)
      rw [cons_append, takeWhile_append_dropWhile]
    rw [htext]
    exact forall_mem_cons.2 ⟨hs, all_eq_true.1 all_takeWhile⟩
  · right
    rw [htok]
    exact ⟨scan_of_comment hc, hc.isInfix.trans hsuf.isInfix⟩
  · rw [hw.gap] at h
    cases h

/-- What stands for a gap is white space, or the text has a comment. -/
theorem text_of_gap {cs : List Char} {l : Lexeme} (hl : l ∈ lexemes cs) (h : l.token.isGap = true) :
    (∀ c ∈ l.text, isSpace c = true) ∨ ['/', '*'] <:+: cs := (gap_cases hl h).imp_right And.right

end StyleBump.Css
