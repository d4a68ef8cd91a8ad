import StyleBump.Proofs.Boundaries
import StyleBump.Proofs.OpenBlocks
import StyleBump.Proofs.Readers
import StyleBump.Proofs.Rereading

/-! # Where a reader stands in a text

A reader stands in a text if what it has left is what comes next there, in the block that it is in, and its
position is the one behind all that stands before (`Cursor.StandsIn`). Readers that take components one by
one keep to this (`Parse.Stays`), and a reader of the content of a block starts with it (`Parse.Stays.enter`).
From the position of such a reader on, the text has the components that it has left
(`Cursor.StandsIn.components`). -/

namespace StyleBump.Css
open Text (Position Uncut advance_append)
open Component

namespace Cursor

/-- What is left are the next components of the text, and the position is the one behind what stands before
them. Only at the end of the text may the last of them be a block that is left open. -/
def StandsIn (text : List Char) (s : Cursor) : Prop :=
  ∃ pre post : List Lexeme, lexemes text = pre ++ (leavesAll s.rest ++ post) ∧
    s.position = Position.start.advance (Lexeme.textOf pre) ∧
    Grown none s.rest ∧ (post = [] ∨ fitsAll none s.rest = true)

theorem StandsIn.start (text : List Char) : StandsIn text (.of (componentsOf text) .start) :=
  ⟨[], [], by simp [Cursor.of, componentsOf, leavesAll_components], rfl, components_grown _, .inl rfl⟩

theorem uncut_of_append {text : List Char} {pre mid post : List Lexeme} (h : lexemes text = pre ++ (mid ++ post)) :
    Uncut (Lexeme.textOf pre) (Lexeme.textOf mid) := by
  have hcut : Uncut (Lexeme.textOf pre) (Lexeme.textOf (mid ++ post)) := uncut_of_lexemes h
  rw [textOf_append] at hcut
  exact hcut.of_append

namespace StandsIn
variable {text : List Char} {s : Cursor}

/-- Past some of the components that are left. -/
theorem advance (h : s.StandsIn text) {a b : List Component} (hs : s.rest = a ++ b) (head : Position) :
    StandsIn text ⟨b, s.position.advance (textAll a), head⟩ := by
  obtain ⟨pre, post, hl, hp, hg, hc⟩ := h
  rw [hs] at hl hg hc
  rw [leavesAll_append, List.append_assoc] at hl
  refine ⟨pre ++ leavesAll a, post, by rw [hl, List.append_assoc], ?_, hg.right,
    hc.imp_right fun hf => (fitsAll_append.1 hf).2⟩
  rw [hp, textAll_eq, ← advance_append (uncut_of_append hl), textOf_append]

/-- Into a block. -/
theorem enter (h : s.StandsIn text) {b : Bracket} {o : Lexeme} {body more : List Component} {c : Option Lexeme}
    (hs : s.rest = .block b o body c :: more) : StandsIn text (.of body (s.position.advance o.text)) := by
  obtain ⟨pre, post, hl, hp, hg, hc⟩ := h
  rw [hs] at hl hg hc
  have hl' : lexemes text = pre ++ ([o] ++ (leavesAll body ++ (c.toList ++ (leavesAll more ++ post)))) := by
    rw [hl]
    simp [leavesAll, leaves]
  have hposition : s.position.advance o.text = Position.start.advance (Lexeme.textOf (pre ++ [o])) := by
    have ho : o.text = Lexeme.textOf [o] := by simp [Lexeme.textOf]
    rw [hp, ho, ← advance_append (uncut_of_append hl'), textOf_append]
  refine ⟨pre ++ [o], c.toList ++ (leavesAll more ++ post), by rw [hl']; simp [Cursor.of], hposition, ?_⟩
  cases c with
  | none =>
    -- A block that is left open is the last thing of the text.
    obtain ⟨-, hbody, rfl⟩ := hg.of_open
    obtain rfl : post = [] := hc.resolve_right (by simp [fitsAll, fits])
    exact ⟨hbody.outside, .inl rfl⟩
  | some c =>
    have hbody := fitsAll_none hg.of_closed.2
    exact ⟨.closed hbody, .inr hbody⟩

theorem opens (h : s.StandsIn text) {b : Bracket} {o : Lexeme} {body more : List Component} {c : Option Lexeme}
    (hs : s.rest = .block b o body c :: more) : o.token.opens? = some b := by
  obtain ⟨pre, post, -, -, hg, -⟩ := h
  rw [hs] at hg
  exact hg.opens

/-- The text from the position on holds the components that are left, in front of others. -/
theorem components (h : s.StandsIn text) :
    ∃ pre own more, text = pre ++ own ∧ s.position = Position.start.advance pre ∧
      componentsOf own = s.rest ++ more := by
  obtain ⟨pre, post, hl, hp, hg, hc⟩ := h
  have htext : text = Lexeme.textOf pre ++ Lexeme.textOf (leavesAll s.rest ++ post) := by
    rw [← textOf_append, ← hl, textOf_lexemes]
  have hown : ∃ more, componentsOf (Lexeme.textOf (leavesAll s.rest ++ post)) = s.rest ++ more := by
    rw [componentsOf, lexemes_textOf hl]
    rcases hc with rfl | hf
    · exact ⟨[], by rw [List.append_nil, List.append_nil, hg.components_leavesAll]⟩
    · exact ⟨_, components_append hf post⟩
  obtain ⟨more, hmore⟩ := hown
  exact ⟨_, _, more, htext, hp, hmore⟩

end StandsIn

/-- A text whose first component is no gap does not start with white space. -/
theorem not_isSpace_of_componentsOf {c : Char} {cs : List Char} {x : Component} {xs : List Component}
    (h : componentsOf (c :: cs) = x :: xs) (hx : x.isGap = false) : isSpace c = false := by
  have hl : lexemes (c :: cs) = x.leaves ++ leavesAll xs := by
    rw [← leavesAll_components (lexemes (c :: cs))]
    exact congrArg leavesAll h
  have htoken : (scan c cs).1 = x.token := by
    rw [lexemes_cons] at hl
    cases x with
    | leaf l => exact congrArg Lexeme.token (List.cons.inj hl).1
    | block b o body e => exact congrArg Lexeme.token (List.cons.inj hl).1
  by_contra hs
  rw [isGap, ← htoken, scan_of_space (by simpa using hs)] at hx
  cases hx

end Cursor

namespace Parse
open Cursor (StandsIn)
variable {α β : Type} {text : List Char} {s s' : Cursor}

/-- A reader that goes on to stand in the text. -/
def Stays (text : List Char) (p : Parse α) : Prop :=
  ∀ ⦃s a s'⦄, s.StandsIn text → p s = .ok (a, s') → s'.StandsIn text

namespace Stays

theorem pure (a : α) : Stays text (Pure.pure a : Parse α) := by
  intro s b s' hs h
  cases h
  exact hs

theorem bind {p : Parse α} {f : α → Parse β} (hp : Stays text p) (hf : ∀ a, Stays text (f a)) :
    Stays text (p >>= f) := by
  intro s b s' hs h
  obtain ⟨a, s₁, ha, h⟩ := bind_eq_ok h
  exact hf a (hp hs ha) h

theorem refuseAt (p : Position) (c : Cause) : Stays text (refuseAt p c : Parse α) := by
  intro s b s' hs h
  cases h

theorem refuse (c : Cause) : Stays text (refuse c : Parse α) := by
  intro s b s' hs h
  cases h

theorem here : Stays text here := by
  intro s b s' hs h
  cases h
  exact hs

theorem attempt {p : Parse α} (hp : Stays text p) : Stays text (attempt p) := by
  intro s b s' hs h
  unfold Parse.attempt at h
  split at h
  · rename_i hread
    cases h
    exact hp hs hread
  · cases h
    exact hs

theorem skip (t : Component → Bool) : Stays text (skip t) := by
  intro s b s' hs h
  cases h
  obtain ⟨cs, p, head⟩ := s
  show StandsIn text (Cursor.past t p cs)
  induction cs generalizing p head with
  | nil => exact hs
  | cons c cs ih =>
    rw [Cursor.past]
    split
    · have hnext : StandsIn text ⟨cs, p.advance c.text, p⟩ := hs.advance (a := [c]) rfl p
      exact ih _ _ hnext
    · exact hs

theorem nextItem : Stays text nextItem := by
  intro s c s' hs h
  unfold Parse.nextItem at h
  split at h
  · cases h
  · rename_i c cs hrest
    cases h
    exact hs.advance (a := [c]) hrest _

theorem next : Stays text next := (skip _).bind fun _ => nextItem

/-- Behind the bracket that opens a block, a reader of its content stands in the text. -/
theorem enter {b : Bracket} {o : Lexeme} {body : List Component} {c : Option Lexeme} (hs : s.StandsIn text)
    (h : Parse.next s = .ok (.block b o body c, s')) : StandsIn text (.of body s'.head) := by
  have hgaps : s.skipGaps.StandsIn text := skip _ hs rfl
  have hitem : Parse.nextItem s.skipGaps = .ok (.block b o body c, s') := h
  unfold Parse.nextItem at hitem
  split at hitem
  · cases hitem
  · rename_i hrest
    cases hitem
    exact hgaps.enter hrest

theorem beforeResult (stop : Component → Bool) (p : Parse α) : Stays text (beforeResult stop p) := by
  intro s r s' hs h
  cases h
  exact hs.advance List.takeWhile_append_dropWhile.symm _

theorem before (stop : Component → Bool) (p : Parse α) : Stays text (before stop p) := by
  refine (beforeResult stop p).bind fun r => ?_
  cases r with
  | ok a => exact .pure a
  | error e =>
    intro s b s' hs h
    cases h

theorem within (body : List Component) (p : Parse α) : Stays text (within body p) := by
  intro s a s' hs h
  unfold Parse.within at h
  split at h
  · cases h
    exact hs
  · cases h

end Stays

end Parse

end StyleBump.Css
