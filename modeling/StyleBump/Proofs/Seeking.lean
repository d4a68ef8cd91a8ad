import StyleBump.Proofs.Positions

/-! # Offsets of positions

The offset of a position is the number of bytes in front of what is found there. Seeking goes wrong in two ways
only: the text has fewer line breaks than the position has above it, or what stands behind them is not as wide as
its column (`seek?_eq_none_iff`). What is found is always the end of the text from some character on, so an
offset never falls inside a character; and the offset of the position behind a part of the text is the size of
that part (`byteOffset_exact`). -/

namespace StyleBump.Text

/-- `part` is what stands behind the first `n` line breaks of a text: the text in front of it ends with the last
of them. -/
def LineAt (n : Nat) (cs part : List Char) : Prop :=
  ∃ front, cs = front ++ part ∧ breaks front = n ∧ (∀ c, front.getLast? = some c → isBreak c = true) ∧
    Uncut front part

theorem breaks_append {a b : List Char} (h : Uncut a b) : breaks (a ++ b) = breaks a + breaks b := by
  have hline := congrArg Position.line (advance_append h Position.start)
  rwa [advance_start, advance_eq, advance_start] at hline

theorem lastLine_eq_nil {cs : List Char} (h : ∀ c, cs.getLast? = some c → isBreak c = true) : lastLine cs = [] := by
  rw [lastLine, List.rtakeWhile_eq_nil_iff]
  intro hne
  simp [h _ (List.getLast?_eq_some_getLast hne)]

theorem breaks_cons {c : Char} {cs : List Char} (h : ¬ (c = '\r' ∧ cs.head? = some '\n')) :
    breaks (c :: cs) = if isBreak c then breaks cs + 1 else breaks cs := by
  refine breaks.eq_3 c cs fun ds hc hcs => h ⟨hc, ?_⟩
  rw [hcs]
  rfl

/-- A character that breaks no line may stand in front. -/
theorem LineAt.cons {c : Char} (hc : isBreak c = false) {n : Nat} {cs part : List Char} (h : LineAt (n + 1) cs part) :
    LineAt (n + 1) (c :: cs) part := by
  obtain ⟨front, rfl, hbreaks, hlast, hcut⟩ := h
  cases front with
  | nil => cases hbreaks
  | cons d front =>
    have hcr : c ≠ '\r' := by
      rintro rfl
      cases hc
    refine ⟨c :: d :: front, rfl, ?_, ?_, ?_⟩
    · rw [breaks_cons fun hpair => hcr hpair.1, if_neg (by simp [hc]), hbreaks]
    · rwa [List.getLast?_cons_cons]
    · rwa [Uncut, List.getLast?_cons_cons]

theorem LineAt.trans {m n : Nat} {cs mid part : List Char} (h : LineAt m cs mid) (h' : LineAt n mid part) :
    LineAt (m + n) cs part := by
  obtain ⟨a, rfl, rfl, ha, hua⟩ := h
  obtain ⟨b, rfl, rfl, hb, hub⟩ := h'
  refine ⟨a ++ b, (List.append_assoc a b part).symm, breaks_append hua.of_append, ?_, ?_⟩
  · intro c hc
    rw [List.getLast?_append] at hc
    cases hlast : b.getLast? with
    | none =>
      rw [hlast] at hc
      exact ha c hc
    | some d =>
      rw [hlast] at hc
      exact hb c (hlast.trans hc)
  · intro hn
    rw [List.getLast?_append]
    cases b with
    | nil => exact hua hn
    | cons d b =>
      have hlast : (d :: b).getLast? = some ((d :: b).getLast (List.cons_ne_nil d b)) :=
        List.getLast?_eq_some_getLast _
      rw [hlast, Option.some_or, ← hlast]
      exact hub hn

/-- The first line break of a text, if it has one, and what stands behind it. -/
theorem afterBreak?_cases (cs : List Char) :
    (afterBreak? cs = none ∧ breaks cs = 0) ∨ ∃ part, afterBreak? cs = some part ∧ LineAt 1 cs part := by
  induction cs with
  | nil => exact .inl ⟨rfl, rfl⟩
  | cons c cs ih =>
    by_cases hpair : c = '\r' ∧ cs.head? = some '\n'
    · obtain ⟨rfl, hn⟩ := hpair
      cases cs with
      | nil => cases hn
      | cons d cs =>
        cases hn
        exact .inr ⟨cs, rfl, ['\r', '\n'], rfl, rfl, by simp [isBreak], fun _ => by simp⟩
    · rw [afterBreak?_cons hpair, breaks_cons hpair]
      cases hc : isBreak c with
      | true =>
        refine .inr ⟨cs, rfl, [c], rfl, ?_, by simp [hc], ?_⟩
        · rw [breaks_cons (by simp), if_pos hc]
          rfl
        · rintro hn ⟨rfl⟩
          exact hpair ⟨rfl, hn⟩
      | false =>
        rcases ih with hnone | ⟨part, hpart, hline⟩
        · exact .inl hnone
        · exact .inr ⟨part, hpart, hline.cons hc⟩

/-- What stands behind the first line breaks of a text, if it has as many. -/
theorem afterBreaks?_cases (n : Nat) (cs : List Char) :
    (afterBreaks? n cs = none ∧ breaks cs < n) ∨ ∃ part, afterBreaks? n cs = some part ∧ LineAt n cs part := by
  induction n generalizing cs with
  | zero => exact .inr ⟨cs, rfl, [], rfl, rfl, nofun, fun _ => nofun⟩
  | succ n ih =>
    rw [afterBreaks?]
    rcases afterBreak?_cases cs with ⟨hnone, hbreaks⟩ | ⟨mid, hmid, hline⟩
    · rw [hnone, hbreaks]
      exact .inl ⟨rfl, Nat.succ_pos n⟩
    · rw [hmid, Option.bind_some]
      rcases ih mid with ⟨hnone, hlt⟩ | ⟨part, hpart, hline'⟩
      · obtain ⟨front, rfl, hfront, -, hcut⟩ := hline
        refine .inl ⟨hnone, ?_⟩
        rw [breaks_append hcut]
        omega
      · refine .inr ⟨part, hpart, ?_⟩
        rw [Nat.add_comm]
        exact hline.trans hline'

theorem LineAt.afterBreaks? {n : Nat} {cs part : List Char} (h : LineAt n cs part) :
    afterBreaks? n cs = some part := by
  obtain ⟨front, rfl, rfl, hlast, hcut⟩ := h
  rw [afterBreaks?_append hcut, lastLine_eq_nil hlast, List.nil_append]

theorem afterUnits?_eq_none_iff (n : Nat) (cs : List Char) : afterUnits? n cs = none ↔ width cs < n := by
  fun_induction afterUnits? n cs with
  | case1 cs => simp
  | case2 n => simp [width]
  | case3 n c cs ih =>
    rw [ih, width]
    omega

theorem afterUnits?_suffix {n : Nat} {cs rest : List Char} (h : afterUnits? n cs = some rest) : rest <:+ cs := by
  fun_induction afterUnits? n cs with
  | case1 cs => exact Option.some.inj h ▸ List.suffix_refl cs
  | case2 n => cases h
  | case3 n c cs ih => exact (ih h).trans (List.suffix_cons c cs)

theorem seek?_eq_none_iff (cs : List Char) (p : Position) :
    seek? cs p = none ↔ breaks cs < p.line ∨ ∃ part, LineAt p.line cs part ∧ width part < p.column - 1 := by
  rcases afterBreaks?_cases p.line cs with ⟨hnone, hlt⟩ | ⟨part, hpart, hline⟩
  · rw [seek?, hnone]
    exact iff_of_true rfl (.inl hlt)
  · have hle : ¬ breaks cs < p.line := by
      obtain ⟨front, rfl, hfront, -, hcut⟩ := hline
      rw [breaks_append hcut]
      omega
    rw [seek?, hpart, Option.bind_some, afterUnits?_eq_none_iff, or_iff_right hle]
    refine ⟨fun h => ⟨part, hline, h⟩, ?_⟩
    rintro ⟨part', hline', h⟩
    obtain rfl : part = part' := Option.some.inj (hpart.symm.trans hline'.afterBreaks?)
    exact h

theorem seek?_suffix {cs rest : List Char} {p : Position} (h : seek? cs p = some rest) : rest <:+ cs := by
  obtain ⟨part, hpart, hrest⟩ := Option.bind_eq_some_iff.1 h
  rcases afterBreaks?_cases p.line cs with ⟨hnone, -⟩ | ⟨_, hsome, front, rfl, -⟩
  · rw [hnone] at hpart
    cases hpart
  · obtain rfl := Option.some.inj (hsome.symm.trans hpart)
    exact (afterUnits?_suffix hrest).trans (List.suffix_append front _)

theorem byteOffset?_of_seek? {pre rest : String} {p : Position}
    (h : seek? (pre ++ rest).toList p = some rest.toList) : byteOffset? (pre ++ rest) p = some pre.rawEndPos := by
  rw [byteOffset?, h, Option.map_some, String.ofList_toList, String.utf8ByteSize_append, Nat.add_sub_cancel]
  rfl

/-- An offset is a place between two characters, and what is found at the position stands there. -/
theorem exists_append_of_byteOffset? {text : String} {p : Position} {o : String.Pos.Raw}
    (h : byteOffset? text p = some o) :
    ∃ pre rest : String, text = pre ++ rest ∧ o = pre.rawEndPos ∧ seek? text.toList p = some rest.toList := by
  obtain ⟨rest, hrest, -⟩ := Option.map_eq_some_iff.1 h
  obtain ⟨pre, hpre⟩ := seek?_suffix hrest
  have htext : text = String.ofList pre ++ String.ofList rest := by
    rw [← String.ofList_append, hpre, String.ofList_toList]
  rw [← String.toList_ofList (l := rest)] at hrest
  refine ⟨.ofList pre, .ofList rest, htext, ?_, hrest⟩
  rw [htext] at h hrest
  exact Option.some.inj (h.symm.trans (byteOffset?_of_seek? hrest))

/-- The position behind a part of a text, which is the number of line breaks in it and one more than the units
behind the last of them, has the size of that part as its offset, unless a line break is cut in two there. There
is no offset exactly if the text has fewer line breaks than the position has above it or what stands behind them
is not as wide as its column. Every offset is a place between two characters of the text, and the text from there on
is what is found at the position. -/
theorem byteOffset_exact (text : String) :
    (∀ o : String.Pos.Raw, o.IsValid text → ∃ pre rest : String, text = pre ++ rest ∧ o = pre.rawEndPos ∧
      (Uncut pre.toList rest.toList →
        byteOffset? text ⟨breaks pre.toList, 1 + width (lastLine pre.toList)⟩ = some o)) ∧
    (∀ p, byteOffset? text p = none ↔
      breaks text.toList < p.line ∨ ∃ part, LineAt p.line text.toList part ∧ width part < p.column - 1) ∧
    ∀ p o, byteOffset? text p = some o → o.IsValid text ∧ o ≤ text.rawEndPos ∧
      ∃ pre rest : String, text = pre ++ rest ∧ o = pre.rawEndPos ∧ seek? text.toList p = some rest.toList := by
  refine ⟨fun o ho => ?inverse, fun p => ?none, fun p o h => ?some⟩
  case inverse =>
    obtain ⟨pre, rest, rfl, rfl⟩ := String.Pos.Raw.isValid_iff_exists_append.1 ho
    refine ⟨pre, rest, rfl, rfl, fun hcut => byteOffset?_of_seek? ?_⟩
    rw [String.toList_append]
    exact seek?_of_uncut hcut
  case none => exact Option.map_eq_none_iff.trans (seek?_eq_none_iff _ _)
  case some =>
    obtain ⟨pre, rest, rfl, rfl, hseek⟩ := exists_append_of_byteOffset? h
    have hvalid := String.Pos.Raw.isValid_iff_exists_append.2 ⟨pre, rest, rfl, rfl⟩
    exact ⟨hvalid, hvalid.le_rawEndPos, pre, rest, rfl, rfl, hseek⟩

/-- A column inside a character leads behind it. -/
example : byteOffset? "a\r\n😀b" ⟨1, 2⟩ = byteOffset? "a\r\n😀b" ⟨1, 3⟩ := by decide

end StyleBump.Text
