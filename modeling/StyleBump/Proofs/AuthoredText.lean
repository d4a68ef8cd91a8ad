import StyleBump.Declaration.Block
import StyleBump.Proofs.Lexing
import StyleBump.Proofs.Nesting

/-! # Rules with one declaration

The text of a style rule with one declaration, and what it nests to: what stands in front of the block,
and a closed block with a name, a colon, the components of the value and the mark of importance
(`componentsOf_ruleText`). -/

namespace StyleBump.Css
open List

theorem Complete.append {u v : List Char} (hu : Complete u) (hv : Complete v)
    (hi : ∀ w, Inert w → Inert (v ++ w)) : Complete (u ++ v) := by
  intro w hw
  have hin : Inert v := by simpa using hi [] .nil
  rw [append_assoc, hu.lexemes_append (hi w hw), hv.lexemes_append hw, hu.lexemes_append hin, append_assoc]

/-- A fence that is a token by itself, in front of a complete text. -/
theorem Complete.cons_of_scan {c : Char} {u : List Char} {t : Token} (hs : ∀ cs, scan c cs = (t, cs))
    (hu : Complete u) : Complete (c :: u) := by
  have hstop : Stops (scan c) u := fun w _ => by rw [hs, hs]
  refine .cons hstop ?_
  rw [hs]
  exact hu

end StyleBump.Css

namespace StyleBump.Declaration
open Css Css.Component

/-- The word that marks a declaration as important, behind an exclamation mark. -/
def markWord : List Char := ['i', 'm', 'p', 'o', 'r', 't', 'a', 'n', 't']

/-- Whether this is the name of a statement. -/
def namesStatement (c : Component) : Bool :=
  match c.token with
  | .atKeyword _ => true
  | _ => false

/-- Text of selectors: it does not reach into the block behind it, its brackets are closed, and it holds no
block in curly brackets and no name of a statement. -/
structure SelectorText (s : List Char) : Prop where
  apart : lexemes (s ++ ['\x7b']) = lexemes s ++ lexemes ['\x7b']
  balanced : fitsAll none (componentsOf s) = true
  flat : ∀ x ∈ componentsOf s, x.isCurly = false
  selects : ∀ x ∈ componentsOf s, namesStatement x = false

/-- A name that is written as it is meant. -/
structure PlainName (p : List Char) : Prop where
  spelled : p.all isNameChar = true
  reads : lexemes p = [⟨.ident (String.ofList p), p⟩]

/-- Tokens that run past no fence and leave no block open. -/
structure PlainTokens (v : List Char) : Prop where
  unmarked : ¬ Marked v
  noUrl : ∀ l ∈ lexemes v, l.token.isUrl = false
  balanced : fitsAll (some .curly) (componentsOf v) = true

/-- Text that does not reach into what stands behind it and leaves no block open. -/
structure ClosedTokens (v : List Char) : Prop where
  complete : Complete v
  balanced : fitsAll (some .curly) (componentsOf v) = true

/-- What marks a declaration as important. -/
def markText (important : Bool) : List Char := if important then '!' :: markWord else []

/-- A declaration without its semicolon. -/
def declarationText (p v : List Char) (important : Bool) : List Char := p ++ ':' :: (v ++ markText important)

/-- A rule with one declaration. -/
def ruleText (s p v : List Char) (important : Bool) : List Char :=
  s ++ '\x7b' :: (declarationText p v important ++ ['\x7d'])

/-- The components of the mark. -/
def markOf (important : Bool) : List Component :=
  if important then [.leaf ⟨.delim '!', ['!']⟩, .leaf ⟨.ident (String.ofList markWord), markWord⟩] else []

/-- The components of a declaration without its semicolon. -/
def bodyOf (p : List Char) (value : List Component) (important : Bool) : List Component :=
  .leaf ⟨.ident (String.ofList p), p⟩ :: .leaf ⟨.colon, [':']⟩ :: (value ++ markOf important)

/-- A block in curly brackets that is closed. -/
def closedBlock (body : List Component) : Component :=
  .block .curly ⟨.opening .curly, ['\x7b']⟩ body (some ⟨.closing .curly, ['\x7d']⟩)

theorem SelectorText.complete {s : List Char} (h : SelectorText s) : Complete s :=
  .of_fence (.of_fence (by decide) []) h.apart

theorem PlainName.complete {p : List Char} (h : PlainName p) : Complete p := by
  have absent {c : Char} (hc : isNameChar c = false) : c ∉ p := fun hm => by
    rw [List.all_eq_true.1 h.spelled c hm] at hc
    cases hc
  refine .of_unmarked ?_ fun l hl => ?_
  · rw [marked_iff]
    rintro (hm | hm | hm | hm)
    · exact absent (by decide) hm
    · exact absent (by decide) hm
    · exact absent (by decide) hm
    · exact absent (c := '/') (by decide) (hm.subset (by simp))
  · rw [h.reads] at hl
    obtain rfl := List.mem_singleton.1 hl
    rfl

theorem PlainTokens.closed {v : List Char} (h : PlainTokens v) : ClosedTokens v :=
  ⟨.of_unmarked h.unmarked h.noUrl, h.balanced⟩

theorem markText_complete (important : Bool) : Complete (markText important) := by
  cases important with
  | false => exact .nil
  | true =>
    refine .of_unmarked ?_ ?_
    · rw [marked_iff]
      decide
    · decide +kernel

theorem inert_markText_append (important : Bool) {w : List Char} (hw : Inert w) :
    Inert (markText important ++ w) := by
  cases important with
  | false => exact hw
  | true =>
    refine .bang fun h => ?_
    have hne := (List.cons_prefix_cons.1 h).1
    exact absurd hne (by decide)

theorem lexemes_markText (important : Bool) : lexemes (markText important) = leavesAll (markOf important) := by
  cases important with
  | false => simp [markText, markOf, leavesAll, lexemes]
  | true => decide +kernel

theorem markOf_fits (important : Bool) (e : Option Bracket) : fitsAll e (markOf important) = true := by
  cases important <;> rfl

section
variable {s p v : List Char} (hs : SelectorText s) (hp : PlainName p) (hv : ClosedTokens v) (important : Bool)
include hp hv

theorem declarationText_complete : Complete (declarationText p v important) := by
  have hvalue : Complete (v ++ markText important) :=
    hv.complete.append (markText_complete important) fun _ => inert_markText_append important
  exact hp.complete.append (.cons_of_scan (fun _ => rfl) hvalue) fun _ _ => .of_fence (by decide) _

theorem lexemes_declarationText :
    lexemes (declarationText p v important) = leavesAll (bodyOf p (componentsOf v) important) := by
  have hcolon (w : List Char) : Inert (':' :: w) := .of_fence (by decide) w
  have hmark : Inert (markText important) := by simpa using inert_markText_append important .nil
  have hvalue : leavesAll (componentsOf v) = lexemes v := leavesAll_components _
  rw [declarationText, hp.complete.lexemes_append (hcolon _), hp.reads, lexemes_of_scan (t := .colon) rfl,
    hv.complete.lexemes_append hmark, lexemes_markText, ← hvalue, ← leavesAll_append]
  rfl

include hs

theorem lexemes_ruleText : lexemes (ruleText s p v important) =
    leavesAll (componentsOf s ++ [closedBlock (bodyOf p (componentsOf v) important)]) := by
  have hopen (w : List Char) : Inert ('\x7b' :: w) := .of_fence (by decide) w
  have hclose : Inert ['\x7d'] := .of_fence (by decide) []
  have hfront : leavesAll (componentsOf s) = lexemes s := leavesAll_components _
  rw [ruleText, hs.complete.lexemes_append (hopen _), lexemes_of_scan (t := .opening .curly) rfl,
    (declarationText_complete hp hv important).lexemes_append hclose, lexemes_declarationText hp hv,
    lexemes_of_scan (t := .closing .curly) rfl, leavesAll_append, hfront, lexemes]
  simp [leavesAll, leaves, closedBlock]

theorem componentsOf_ruleText : componentsOf (ruleText s p v important) =
    componentsOf s ++ [closedBlock (bodyOf p (componentsOf v) important)] := by
  have hbody : fitsAll (some .curly) (bodyOf p (componentsOf v) important) = true := by
    have hvalue := fitsAll_append.2 ⟨hv.balanced, markOf_fits important (some .curly)⟩
    simp [bodyOf, fitsAll, fits, hvalue, Token.opens?, Token.closes?]
  have hblock : (closedBlock (bodyOf p (componentsOf v) important)).fits none = true :=
    block_fits.2 ⟨⟨rfl, hbody⟩, rfl⟩
  have hall : fitsAll none (componentsOf s ++ [closedBlock (bodyOf p (componentsOf v) important)]) = true :=
    fitsAll_append.2 ⟨hs.balanced, by simp [fitsAll, hblock]⟩
  rw [componentsOf, lexemes_ruleText hs hp hv, components_leavesAll hall]

end

end StyleBump.Declaration
