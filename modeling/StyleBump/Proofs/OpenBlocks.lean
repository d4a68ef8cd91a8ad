import StyleBump.Proofs.Nesting

/-! # Blocks that the text leaves open

The components of a text are closed, except that the last one may be a block that the text leaves open, and
so on inside this block (`components_grown`). Such components are told by their lexemes alone, also by those
of their content (`Grown.components_leavesAll`): what an open block holds reads the same by itself. -/

namespace StyleBump.Css
open Component

/-- Components as they are found in a block of the kind `e`: all of them fit, or those in front of a last
block do that is left open, and it holds such components. -/
inductive Grown : Option Bracket → List Component → Prop
  | closed {e : Option Bracket} {cs : List Component} (h : fitsAll e cs = true) : Grown e cs
  | open {e : Option Bracket} {front : List Component} {b : Bracket} {o : Lexeme} {body : List Component}
      (hf : fitsAll e front = true) (ho : o.token.opens? = some b) (hb : Grown (some b) body) :
      Grown e (front ++ [.block b o body none])

theorem fits_none {e : Option Bracket} {c : Component} (h : c.fits e = true) : c.fits none = true := by
  cases c with
  | leaf l => exact leaf_fits_iff.2 ⟨(leaf_fits_iff.1 h).1, fun _ _ he => by cases he⟩
  | block b o body closer =>
    cases closer with
    | none => cases h
    | some c => exact block_fits.2 (block_fits.1 h)

theorem fitsAll_none {e : Option Bracket} {cs : List Component} (h : fitsAll e cs = true) : fitsAll none cs = true :=
  fitsAll_iff.2 fun c hc => fits_none (fitsAll_iff.1 h c hc)

/-- What stands in the open blocks fits in each of them. -/
def Fitting : List Frame → Prop
  | [] => True
  | f :: fs => f.opener.token.opens? = some f.bracket ∧ fitsAll (innermost fs) f.earlier = true ∧ Fitting fs

theorem Settled.fitting {done : List Component} {frames : List Frame} (h : Settled done frames) :
    fitsAll (innermost frames) done = true ∧ Fitting frames := by
  induction frames generalizing done with
  | nil => exact ⟨h, trivial⟩
  | cons f fs ih =>
    obtain ⟨⟨ho, hd⟩, hrest⟩ := h
    exact ⟨hd, ho, ih hrest⟩

theorem closeFrames_grown {cs : List Component} {frames : List Frame} (hf : Fitting frames)
    (h : Grown (innermost frames) cs) : Grown none (closeFrames cs.reverse frames) := by
  induction frames generalizing cs with
  | nil =>
    rw [closeFrames, List.reverse_reverse]
    exact h
  | cons f fs ih =>
    obtain ⟨ho, hearlier, hfs⟩ := hf
    have hblock := ih hfs (.open (fitsAll_reverse.2 hearlier) ho h)
    rw [List.reverse_append, List.reverse_reverse] at hblock
    rw [closeFrames, List.reverse_reverse]
    exact hblock

theorem nestInto_grown {ls : List Lexeme} {done : List Component} {frames : List Frame} (h : Settled done frames) :
    Grown none (nestInto ls done frames) := by
  induction ls generalizing done frames with
  | nil =>
    obtain ⟨hd, hf⟩ := h.fitting
    have hclosed := closeFrames_grown hf (.closed (fitsAll_reverse.2 hd))
    rw [List.reverse_reverse] at hclosed
    exact hclosed
  | cons l ls ih =>
    rcases lexeme_cases l frames with ⟨b, ho⟩ | ⟨b, o, earlier, fs, rfl, hc⟩ | hl
    · rw [nestInto_opener ho]
      exact ih ⟨⟨ho, rfl⟩, h⟩
    · rw [nestInto_closer hc]
      exact ih (h.2.push (block_fits.2 ⟨⟨h.1.1, fitsAll_reverse.2 h.1.2⟩, hc⟩))
    · rw [nestInto_leaf hl]
      exact ih (h.push hl)

theorem components_grown (ls : List Lexeme) : Grown none (components ls) := by
  have h : Settled [] [] := rfl
  exact nestInto_grown h

namespace Grown
variable {e : Option Bracket} {cs front back body : List Component} {b : Bracket} {o : Lexeme}

theorem outside (h : Grown e cs) : Grown .none cs := by
  cases h with
  | closed h => exact .closed (fitsAll_none h)
  | «open» hf ho hb => exact .open (fitsAll_none hf) ho hb

/-- The lexemes of such components nest to them. -/
theorem nestInto_leavesAll {frames : List Frame} (h : Grown e cs) (he : e = innermost frames) (done : List Component) :
    nestInto (leavesAll cs) done frames = closeFrames (cs.reverse ++ done) frames := by
  induction h generalizing frames done with
  | closed h =>
    subst he
    have hn := Css.nestInto_leavesAll _ [] done frames h
    rw [List.append_nil] at hn
    rw [hn, nestInto]
  | @«open» e front b o body hf ho hb ih =>
    subst he
    have hleaves : leavesAll (front ++ [.block b o body .none]) = leavesAll front ++ o :: leavesAll body := by
      simp [leavesAll_append, leavesAll, leaves]
    rw [hleaves, Css.nestInto_leavesAll front _ done frames hf, nestInto_opener ho, ih rfl, closeFrames]
    simp

theorem components_leavesAll (h : Grown e cs) : components (leavesAll cs) = cs := by
  have hnone : Option.none = innermost [] := rfl
  rw [components, h.outside.nestInto_leavesAll hnone, closeFrames, List.append_nil, List.reverse_reverse]

theorem right (h : Grown e (front ++ back)) : Grown e back := by
  generalize hcs : front ++ back = cs at h
  cases h with
  | closed h =>
    rw [← hcs] at h
    exact .closed (fitsAll_append.1 h).2
  | «open» hf ho hb =>
    rcases List.eq_nil_or_concat back with rfl | ⟨back', last, rfl⟩
    · exact .closed rfl
    rw [List.concat_eq_append, ← List.append_assoc] at hcs
    obtain ⟨hfront, hlast⟩ := List.append_inj' hcs rfl
    rw [← hfront] at hf
    rw [List.concat_eq_append, hlast]
    exact .open (fitsAll_append.1 hf).2 ho hb

/-- A block that is left open is the last one. -/
theorem of_open (h : Grown e (.block b o body .none :: back)) :
    o.token.opens? = some b ∧ Grown (some b) body ∧ back = [] := by
  generalize hcs : .block b o body .none :: back = cs at h
  cases h with
  | closed h =>
    rw [← hcs, fitsAll] at h
    cases h
  | @«open» _ front b' o' body' hf ho hb =>
    cases front with
    | nil =>
      obtain ⟨hblock, hback⟩ := List.cons.inj hcs
      cases hblock
      exact ⟨ho, hb, hback⟩
    | cons c front =>
      rw [← (List.cons.inj hcs).1, fitsAll] at hf
      cases hf

theorem of_closed {c : Lexeme} (h : Grown e (.block b o body (some c) :: back)) :
    o.token.opens? = some b ∧ fitsAll (some b) body = true := by
  have hblock : (Component.block b o body (some c)).fits e = true := by
    generalize hcs : .block b o body (some c) :: back = cs at h
    cases h with
    | closed h =>
      rw [← hcs, fitsAll, Bool.and_eq_true] at h
      exact h.1
    | @«open» _ front b' o' body' hf ho hb =>
      cases front with
      | nil => cases (List.cons.inj hcs).1
      | cons x front =>
        rw [← (List.cons.inj hcs).1, fitsAll, Bool.and_eq_true] at hf
        exact hf.1
  exact (block_fits.1 hblock).1

theorem opens {c : Option Lexeme} (h : Grown e (.block b o body c :: back)) : o.token.opens? = some b := by
  cases c with
  | none => exact h.of_open.1
  | some c => exact h.of_closed.1

end Grown

end StyleBump.Css
