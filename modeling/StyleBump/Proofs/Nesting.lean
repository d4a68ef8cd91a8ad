import StyleBump.Css.Component

/-! # Nesting of a part of a text

A component fits inside a block if it is closed, all the way down, and is not the bracket that closes
the block. The lexemes of components that fit nest to these components wherever they stand
(`nestInto_leavesAll`). The components of a text all fit, except for a last one that the text leaves open
(`components_endsOpen`). -/

namespace StyleBump.Css

theorem Token.opens?_of_closes? {t : Token} {b : Bracket} (h : t.closes? = some b) : t.opens? = none := by
  cases t <;> first | rfl | cases h

theorem Token.isGap_of_opens? {t : Token} {b : Bracket} (h : t.opens? = some b) : t.isGap = false := by
  cases t <;> first | rfl | cases h

namespace Component

mutual
/-- Whether a component fits inside a block of the kind `e`, or at the top of a text if that is none. -/
def fits (e : Option Bracket) : Component → Bool
  | leaf l => l.token.opens? = none && (l.token.closes? = none || l.token.closes? ≠ e)
  | block b o body (some c) => o.token.opens? = some b && fitsAll (some b) body && c.token.closes? = some b
  | block _ _ _ none => false

/-- Whether each of some components fits. -/
def fitsAll (e : Option Bracket) : List Component → Bool
  | [] => true
  | c :: cs => fits e c && fitsAll e cs
end

theorem fitsAll_iff {e : Option Bracket} {cs : List Component} :
    fitsAll e cs = true ↔ ∀ c ∈ cs, c.fits e = true := by
  induction cs with
  | nil => simp [fitsAll]
  | cons c cs ih => simp [fitsAll, ih]

theorem fitsAll_append {e : Option Bracket} {a b : List Component} :
    fitsAll e (a ++ b) = true ↔ fitsAll e a = true ∧ fitsAll e b = true := by
  simp only [fitsAll_iff, List.mem_append, or_imp, forall_and]

theorem fitsAll_reverse {e : Option Bracket} {cs : List Component} :
    fitsAll e cs.reverse = true ↔ fitsAll e cs = true := by
  simp only [fitsAll_iff, List.mem_reverse]

theorem block_fits {e : Option Bracket} {b : Bracket} {o c : Lexeme} {body : List Component} :
    (block b o body (some c)).fits e = true ↔
      (o.token.opens? = some b ∧ fitsAll (some b) body = true) ∧ c.token.closes? = some b := by
  simp [fits]

end Component

open Component

/-- The kind of the innermost open block. -/
def innermost : List Frame → Option Bracket
  | [] => none
  | f :: _ => some f.bracket

theorem nestInto_opener {l : Lexeme} {b : Bracket} (h : l.token.opens? = some b) (ls : List Lexeme)
    (done : List Component) (frames : List Frame) :
    nestInto (l :: ls) done frames = nestInto ls [] (⟨b, l, done⟩ :: frames) := by
  simp only [nestInto.eq_def (l :: ls), h]

theorem nestInto_closer {l : Lexeme} {b : Bracket} (h : l.token.closes? = some b) (o : Lexeme)
    (ls : List Lexeme) (done earlier : List Component) (fs : List Frame) :
    nestInto (l :: ls) done (⟨b, o, earlier⟩ :: fs) =
      nestInto ls (.block b o done.reverse (some l) :: earlier) fs := by
  simp only [nestInto.eq_def (l :: ls), Token.opens?_of_closes? h, h, if_true]

theorem leaf_fits_iff {l : Lexeme} {e : Option Bracket} :
    (leaf l).fits e = true ↔ l.token.opens? = none ∧ ∀ b, l.token.closes? = some b → e ≠ some b := by
  simp only [fits, Bool.and_eq_true, Bool.or_eq_true, decide_eq_true_eq]
  refine and_congr_right fun _ => ⟨fun h b hb he => ?_, fun h => ?_⟩
  · rcases h with h | h
    · rw [hb] at h; cases h
    · exact h (hb.trans he.symm)
  · cases hc : l.token.closes? with
    | none => exact .inl rfl
    | some b => exact .inr (h b hc).symm

theorem nestInto_leaf {l : Lexeme} {frames : List Frame} (h : (leaf l).fits (innermost frames) = true)
    (ls : List Lexeme) (done : List Component) :
    nestInto (l :: ls) done frames = nestInto ls (.leaf l :: done) frames := by
  obtain ⟨ho, hc⟩ := leaf_fits_iff.1 h
  simp only [nestInto.eq_def (l :: ls), ho]
  split
  · rename_i b f fs hb
    exact if_neg fun he => hc b hb (congrArg some he)
  · rfl

mutual
/-- The lexemes of a component that fits nest to it. -/
theorem nestInto_leaves : ∀ (c : Component) (ls : List Lexeme) (done : List Component) (frames : List Frame),
    c.fits (innermost frames) = true →
    nestInto (c.leaves ++ ls) done frames = nestInto ls (c :: done) frames
  | leaf l, ls, done, frames, h => nestInto_leaf h ls done
  | block b o body (some c), ls, done, frames, h => by
    obtain ⟨⟨ho, hb⟩, hc⟩ := block_fits.1 h
    rw [leaves, List.cons_append, List.append_assoc, nestInto_opener ho,
      nestInto_leavesAll body _ [] (⟨b, o, done⟩ :: frames) hb, Option.toList_some, List.singleton_append,
      nestInto_closer hc, List.append_nil, List.reverse_reverse]
  | block _ _ _ none, _, _, _, h => by simp [fits] at h

theorem nestInto_leavesAll : ∀ (cs : List Component) (ls : List Lexeme) (done : List Component) (frames : List Frame),
    fitsAll (innermost frames) cs = true →
    nestInto (leavesAll cs ++ ls) done frames = nestInto ls (cs.reverse ++ done) frames
  | [], _, _, _, _ => rfl
  | c :: cs, ls, done, frames, h => by
    rw [fitsAll, Bool.and_eq_true] at h
    rw [leavesAll, List.append_assoc, nestInto_leaves c _ _ _ h.1, nestInto_leavesAll cs _ _ _ h.2,
      List.reverse_cons, List.append_assoc, List.singleton_append]
end

/-- What has been read of the innermost block, if `front` stands in front of all that has been read. -/
def doneUnder (front done : List Component) : List Frame → List Component
  | [] => done ++ front
  | _ :: _ => done

/-- The open blocks, if `front` stands in front of all that has been read. -/
def framesUnder (front : List Component) : List Frame → List Frame
  | [] => []
  | f :: fs => ⟨f.bracket, f.opener, doneUnder front f.earlier fs⟩ :: framesUnder front fs

theorem doneUnder_cons (front done : List Component) (c : Component) (frames : List Frame) :
    doneUnder front (c :: done) frames = c :: doneUnder front done frames := by
  cases frames <;> rfl

theorem innermost_framesUnder (front : List Component) (frames : List Frame) :
    innermost (framesUnder front frames) = innermost frames := by
  cases frames <;> rfl

theorem closeFrames_under (front done : List Component) (frames : List Frame) :
    closeFrames (doneUnder front done frames) (framesUnder front frames) =
      front.reverse ++ closeFrames done frames := by
  induction frames generalizing done with
  | nil => simp [closeFrames, doneUnder, framesUnder]
  | cons f fs ih =>
    rw [framesUnder, closeFrames, closeFrames, ← doneUnder_cons]
    exact ih _

/-- Either a lexeme opens a block, or it closes the innermost one, or it is a leaf. -/
theorem lexeme_cases (l : Lexeme) (frames : List Frame) :
    (∃ b, l.token.opens? = some b) ∨
      (∃ b o earlier fs, frames = ⟨b, o, earlier⟩ :: fs ∧ l.token.closes? = some b) ∨
      (leaf l).fits (innermost frames) = true := by
  cases ho : l.token.opens? with
  | some b => exact .inl ⟨b, rfl⟩
  | none =>
    by_cases hc : ∃ b o earlier fs, frames = ⟨b, o, earlier⟩ :: fs ∧ l.token.closes? = some b
    · exact .inr (.inl hc)
    · refine .inr (.inr (leaf_fits_iff.2 ⟨ho, fun b hb he => hc ?_⟩))
      cases frames with
      | nil => cases he
      | cons f fs => exact ⟨f.bracket, f.opener, f.earlier, fs, rfl, hb.trans he.symm⟩

theorem nestInto_under (front : List Component) (ls : List Lexeme) (done : List Component) (frames : List Frame) :
    nestInto ls (doneUnder front done frames) (framesUnder front frames) =
      front.reverse ++ nestInto ls done frames := by
  induction ls generalizing done frames with
  | nil => exact closeFrames_under front done frames
  | cons l ls ih =>
    rcases lexeme_cases l frames with ⟨b, ho⟩ | ⟨b, o, earlier, fs, rfl, hc⟩ | hl
    · rw [nestInto_opener ho, nestInto_opener ho]
      exact ih [] (⟨b, l, done⟩ :: frames)
    · -- The closed block goes to the frame below, or behind `front` if there is none.
      rw [framesUnder, nestInto_closer hc, nestInto_closer hc, ← ih, doneUnder_cons]
      rfl
    · rw [nestInto_leaf hl, nestInto_leaf (by rwa [innermost_framesUnder]), ← ih, doneUnder_cons]

/-- The components of lexemes that start with those of components that fit. -/
theorem components_append {cs : List Component} (h : fitsAll none cs = true) (ls : List Lexeme) :
    components (leavesAll cs ++ ls) = cs ++ components ls := by
  have hu := nestInto_under cs.reverse ls [] []
  rw [List.reverse_reverse] at hu
  rw [components, nestInto_leavesAll cs ls [] [] h, List.append_nil]
  exact hu

theorem components_leavesAll {cs : List Component} (h : fitsAll none cs = true) :
    components (leavesAll cs) = cs := by
  simpa [components, nestInto, closeFrames] using components_append h []

/-! ### What is left open -/

/-- What has been read inside the open blocks fits in each of them. -/
def Settled : List Component → List Frame → Prop
  | done, [] => fitsAll none done = true
  | done, f :: fs =>
    (f.opener.token.opens? = some f.bracket ∧ fitsAll (some f.bracket) done = true) ∧ Settled f.earlier fs

theorem Settled.push {c : Component} {done : List Component} {frames : List Frame}
    (h : Settled done frames) (hc : c.fits (innermost frames) = true) : Settled (c :: done) frames := by
  cases frames with
  | nil => exact Bool.and_eq_true _ _ |>.mpr ⟨hc, h⟩
  | cons f fs => exact ⟨⟨h.1.1, Bool.and_eq_true _ _ |>.mpr ⟨hc, h.1.2⟩⟩, h.2⟩

/-- Components that are closed, or end with a block that is not. -/
def EndsOpen (cs : List Component) : Prop :=
  ∃ closed, fitsAll none closed = true ∧ (cs = closed ∨ ∃ b o body, cs = closed ++ [.block b o body none])

theorem closeFrames_endsOpen {frames : List Frame} (hne : frames ≠ []) :
    ∀ {done done' : List Component}, Settled done' frames → EndsOpen (closeFrames done frames) := by
  induction frames with
  | nil => exact absurd rfl hne
  | cons f fs ih =>
    intro done done' h
    cases fs with
    | nil =>
      exact ⟨f.earlier.reverse, fitsAll_reverse.2 h.2, .inr ⟨f.bracket, f.opener, done.reverse, by simp [closeFrames]⟩⟩
    | cons g gs => exact ih (by simp) h.2

theorem nestInto_endsOpen {ls : List Lexeme} {done : List Component} {frames : List Frame}
    (h : Settled done frames) : EndsOpen (nestInto ls done frames) := by
  induction ls generalizing done frames with
  | nil =>
    cases frames with
    | nil => exact ⟨done.reverse, fitsAll_reverse.2 h, .inl rfl⟩
    | cons f fs => exact closeFrames_endsOpen (by simp) h
  | cons l ls ih =>
    rcases lexeme_cases l frames with ⟨b, ho⟩ | ⟨b, o, earlier, fs, rfl, hc⟩ | hl
    · rw [nestInto_opener ho]
      exact ih ⟨⟨ho, rfl⟩, h⟩
    · rw [nestInto_closer hc]
      exact ih (h.2.push (block_fits.2 ⟨⟨h.1.1, fitsAll_reverse.2 h.1.2⟩, hc⟩))
    · rw [nestInto_leaf hl]
      exact ih (h.push hl)

theorem components_endsOpen (ls : List Lexeme) : EndsOpen (components ls) := by
  have h : Settled [] [] := rfl
  exact nestInto_endsOpen h

/-- A closed block of a text fits, and so does all that stands in front of it. -/
theorem EndsOpen.fitsAll_of_closed {cs front back : List Component} {b : Bracket} {o c : Lexeme}
    {body : List Component} (h : EndsOpen cs) (e : cs = front ++ .block b o body (some c) :: back) :
    fitsAll none (front ++ [.block b o body (some c)]) = true := by
  obtain ⟨closed, hc, hcs⟩ := h
  have hin : ∃ back', closed = front ++ .block b o body (some c) :: back' := by
    rcases hcs with rfl | ⟨b', o', body', rfl⟩
    · exact ⟨back, e⟩
    rcases List.eq_nil_or_concat back with rfl | ⟨back', last, rfl⟩
    · -- The last component is open, so it is not the block at hand.
      have hlast := (List.append_inj' e rfl).2
      cases hlast
    · rw [List.concat_eq_append, ← List.cons_append, ← List.append_assoc] at e
      exact ⟨back', (List.append_inj' e rfl).1⟩
  obtain ⟨back', rfl⟩ := hin
  rw [List.append_cons] at hc
  exact (fitsAll_append.1 hc).1

end StyleBump.Css
