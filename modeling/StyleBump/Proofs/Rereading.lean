import StyleBump.Declaration.Block
import StyleBump.Proofs.Lexing
import StyleBump.Proofs.Nesting
import StyleBump.Proofs.Positions

/-! # Reading a rule again where it stands

A rule whose first block is closed has the same declarations by itself and inside a sheet, whatever stands
in front of it and behind it (`atPosition?_append`). The closing bracket of the block is a fence, so the
lexemes up to it are the same in any text that goes on behind it (`lexemes_append_closer`), and they nest
to the same components. -/

namespace StyleBump.Css

/-- A bracket that closes a block in curly brackets is one character. -/
theorem lexemes_eq_closer {cs : List Char} {l : Lexeme} {ls : List Lexeme} (h : lexemes cs = l :: ls)
    (hl : l.token.closes? = some .curly) :
    ∃ ds, cs = '\x7d' :: ds ∧ l = ⟨.closing .curly, ['\x7d']⟩ ∧ ls = lexemes ds := by
  cases cs with
  | nil => simp [lexemes] at h
  | cons c ds =>
    rw [lexemes_cons] at h
    have hc := eq_of_scan_closes_curly ((congrArg (·.token.closes?) (List.cons.inj h).1).trans hl)
    subst hc
    have hs : lexemes ('\x7d' :: ds) = ⟨.closing .curly, ['\x7d']⟩ :: lexemes ds := lexemes_of_scan rfl
    rw [← lexemes_cons, hs] at h
    obtain ⟨hl, hls⟩ := List.cons.inj h
    exact ⟨ds, rfl, hl.symm, hls.symm⟩

/-- The lexemes of a text up to a bracket that closes a block in curly brackets are the same in a longer
text. -/
theorem lexemes_append_closer {cs : List Char} {a b : List Lexeme} {l : Lexeme} (h : lexemes cs = a ++ l :: b)
    (hl : l.token.closes? = some .curly) (post : List Char) :
    ∃ b', lexemes (cs ++ post) = a ++ l :: b' := by
  obtain ⟨ds, hds, rfl, -⟩ := lexemes_eq_closer (lexemes_textOf h) hl
  have hcs : cs = Lexeme.textOf a ++ '\x7d' :: ds := by
    rw [← textOf_lexemes cs, h, textOf_append, hds]
  have hin (w : List Char) : Inert ('\x7d' :: w) := .of_fence (by decide) w
  have hfence : lexemes (Lexeme.textOf a ++ '\x7d' :: ds) = a ++ lexemes ('\x7d' :: ds) := by
    rw [← hcs, h, ← hds, lexemes_textOf h]
  have hc := Complete.of_fence (hin ds) hfence
  have ha : lexemes (Lexeme.textOf a) = a := by
    rw [hc.lexemes_append (hin ds)] at hfence
    exact List.append_cancel_right hfence
  refine ⟨lexemes (ds ++ post), ?_⟩
  rw [hcs, List.append_assoc, List.cons_append, hc.lexemes_append (hin _), ha]
  congr 1
  exact lexemes_of_scan rfl

open Component

/-- A closed block and what stands in front of it are the same in a longer text. -/
theorem componentsOf_append {cs : List Char} {front back : List Component} {o c : Lexeme} {body : List Component}
    (h : componentsOf cs = front ++ .block .curly o body (some c) :: back) (post : List Char) :
    ∃ back', componentsOf (cs ++ post) = front ++ .block .curly o body (some c) :: back' := by
  have hfits := (components_endsOpen (lexemes cs)).fitsAll_of_closed h
  have hblock := (fitsAll_append.1 hfits).2
  rw [fitsAll, fitsAll, Bool.and_true] at hblock
  have hleaves : lexemes cs = (leavesAll front ++ o :: leavesAll body) ++ c :: leavesAll back := by
    have hl := leavesAll_components (lexemes cs)
    rw [show components (lexemes cs) = _ from h] at hl
    rw [← hl, leavesAll_append, leavesAll, leaves]
    simp
  obtain ⟨ls, hls⟩ := lexemes_append_closer hleaves (block_fits.1 hblock).2 post
  have hsplit : lexemes (cs ++ post) = leavesAll (front ++ [.block .curly o body (some c)]) ++ ls := by
    rw [hls, leavesAll_append, leavesAll, leaves, leavesAll]
    simp
  refine ⟨components ls, ?_⟩
  rw [componentsOf, hsplit, components_append hfits, List.append_assoc]
  rfl

end StyleBump.Css

namespace StyleBump.Declaration
open Css Text

/-- Whether there is a block in curly brackets and the first one is closed. -/
def closesFirst : List Component → Bool
  | [] => false
  | .block .curly _ _ closer :: _ => closer.isSome
  | _ :: cs => closesFirst cs

theorem closesFirst_split {cs : List Component} (h : closesFirst cs = true) :
    ∃ front o body c back, cs = front ++ .block .curly o body (some c) :: back ∧ ∀ x ∈ front, x.isCurly = false := by
  fun_induction closesFirst cs with
  | case1 => cases h
  | case2 o body closer cs =>
    obtain ⟨c, rfl⟩ := Option.isSome_iff_exists.1 h
    exact ⟨[], o, body, c, cs, rfl, by simp⟩
  | case3 x cs hx ih =>
    obtain ⟨front, o, body, c, back, rfl, hf⟩ := ih h
    refine ⟨x :: front, o, body, c, back, rfl, List.forall_mem_cons.2 ⟨?_, hf⟩⟩
    cases x with
    | leaf l => rfl
    | block b o' body' c' => cases b <;> first | rfl | exact absurd rfl (hx o' body' c')

theorem firstBlock?_append {front : List Component} (h : ∀ x ∈ front, x.isCurly = false) (o : Lexeme)
    (body : List Component) (c : Option Lexeme) (back : List Component) :
    firstBlock? (front ++ .block .curly o body c :: back) = some body := by
  induction front with
  | nil => rfl
  | cons x front ih =>
    obtain ⟨hx, hf⟩ := List.forall_mem_cons.1 h
    rw [List.cons_append, firstBlock?]
    · exact ih hf
    · rintro o' body' c' rfl
      cases hx

/-- The declarations of a rule whose first block is closed are the same wherever the rule stands. -/
theorem atPosition?_append {pre rule post : List Char} (hstart : rule.head? ≠ some '\n')
    (hclosed : closesFirst (componentsOf rule) = true) :
    atPosition? (pre ++ rule ++ post) ⟨breaks pre, 1 + width (lastLine pre)⟩ = atPosition? rule ⟨0, 1⟩ := by
  obtain ⟨front, o, body, c, back, hc, hf⟩ := closesFirst_split hclosed
  obtain ⟨back', hc'⟩ := componentsOf_append hc post
  have hrest : (rule ++ post).head? ≠ some '\n' := by
    cases rule with
    | nil =>
      rw [componentsOf, lexemes] at hclosed
      cases hclosed
    | cons r rule => exact hstart
  have here : seek? rule ⟨0, 1⟩ = some rule := by cases rule <;> rfl
  rw [List.append_assoc, atPosition?, atPosition?, seek?_append hrest, here]
  simp only [Option.bind_some, hc, hc', firstBlock?_append hf]

/-- An open bracket on the same line and a closing one behind the rule make no difference. -/
theorem atPosition?_append_between_brackets :
    atPosition? ("😀\r\n(é".toList ++ ".a\x7bcolor:red\x7d".toList ++ "\x7d)".toList) ⟨1, 3⟩ =
      some [⟨"color", "red", false⟩] := by
  have hclosed : closesFirst (componentsOf ".a\x7bcolor:red\x7d".toList) = true := by decide +kernel
  have hsame := @atPosition?_append "😀\r\n(é".toList _ "\x7d)".toList (by decide) hclosed
  have hrule : atPosition? ".a\x7bcolor:red\x7d".toList ⟨0, 1⟩ = some [⟨"color", "red", false⟩] := by decide +kernel
  exact hsame.trans hrule

end StyleBump.Declaration
