import Mathlib.Data.List.TakeWhile
import StyleBump.Proofs.AuthoredText
import StyleBump.Proofs.Rereading
import StyleBump.Proofs.Tidying

/-! # The value that a declaration keeps

What a rule with one declaration reads to (`atPosition?_ruleText`): the name, the part of the value that
`kept` says, and whether it is marked as important. The whole value is kept unless it ends with a block
(`kept_eq_iff`). -/

namespace StyleBump.Declaration
open Css Css.Component Text

/-- Whether a value ends with a block. -/
def endsInBlock (value : List Component) : Bool :=
  match value.getLast? with
  | some (.block _ _ _ _) => true
  | _ => false

/-- What is kept of a value: all of it, but of a block at its end only what opens it. -/
def kept (value : List Component) : List Char :=
  match value.getLast? with
  | some (.block _ opener _ _) => textAll value.dropLast ++ opener.text
  | _ => textAll value

/-- A value in the form in which it is compared: single spaces are its only blanks, and no semicolon and no
mark stands between its components. Only a property of the author's own has blocks in curly brackets. -/
structure PlainValue (p v : List Char) : Prop extends PlainTokens v where
  undivided : ∀ x ∈ componentsOf v, isSemicolon x = false
  unflagged : ∀ x ∈ componentsOf v, x.isLeaf (.delim '!') = false
  braces : isCustom (String.ofList p) = false → ∀ x ∈ componentsOf v, x.isCurly = false
  spaced : Spaced v
  front : v.head? ≠ some ' '

theorem textAll_append (a b : List Component) : textAll (a ++ b) = textAll a ++ textAll b := by
  simp [textAll_eq, leavesAll_append, textOf_append]

theorem textAll_singleton (c : Component) : textAll [c] = c.text := rfl

theorem kept_concat_leaf (front : List Component) (l : Lexeme) :
    kept (front ++ [.leaf l]) = textAll (front ++ [.leaf l]) := by
  simp [kept]

theorem kept_concat_block (front : List Component) (b : Bracket) (o : Lexeme) (body : List Component)
    (c : Option Lexeme) : kept (front ++ [.block b o body c]) = textAll front ++ o.text := by
  simp [kept]

/-- The text of a value that ends with no gap is what is kept of it. -/
theorem valueText_concat {last : Component} (h : last.isGap = false) (front : List Component) :
    valueText (front ++ [last]) = kept (front ++ [last]) := by
  induction front with
  | nil =>
    cases last with
    | leaf l =>
      have hl : l.token.isGap = false := h
      simp [valueText, kept, hl, textAll_singleton, text, textOnto]
    | block b o body c => simp [valueText, kept, textAll, textAllOnto]
  | cons x front ih =>
    have hgaps : (front ++ [last]).all isGap = false := by
      rw [List.all_append, List.all_cons, h, Bool.false_and, Bool.and_false]
    have hstep : valueText (x :: (front ++ [last])) = x.text ++ valueText (front ++ [last]) :=
      if_neg (by simp [hgaps])
    rw [List.cons_append, hstep, ih]
    cases last with
    | leaf l =>
      rw [kept_concat_leaf, ← List.cons_append, kept_concat_leaf]
      exact (textAll_append [x] (front ++ [.leaf l])).symm
    | block b o body c =>
      rw [kept_concat_block, ← List.cons_append, kept_concat_block, ← List.append_assoc]
      exact congrArg (· ++ o.text) (textAll_append [x] front).symm

theorem splitMark_append_of_unflagged {value : List Component} (h : ∀ x ∈ value, x.isLeaf (.delim '!') = false)
    (rest : List Component) :
    splitMark (value ++ rest) = (value ++ (splitMark rest).1, (splitMark rest).2) := by
  induction value with
  | nil => rfl
  | cons x value ih =>
    obtain ⟨hx, hvalue⟩ := List.forall_mem_cons.1 h
    have hnone : afterMark? (x :: (value ++ rest)) = none := by
      rw [afterMark?, if_neg (by simp [hx])]
    rw [List.cons_append, splitMark, hnone, ih hvalue]
    rfl

theorem splitMark_append {value : List Component} (h : ∀ x ∈ value, x.isLeaf (.delim '!') = false)
    (important : Bool) :
    splitMark (value ++ markOf important) = (value, if important then some [] else none) := by
  have hmark : splitMark (markOf important) = ([], if important then some [] else none) := by
    cases important <;> rfl
  rw [splitMark_append_of_unflagged h, hmark, List.append_nil]

theorem ofComponents?_of_split {cs value front : List Component} {n : String} {t u : List Char} {important : Bool}
    (hname : cs.dropWhile isGap = .leaf ⟨.ident n, t⟩ :: .leaf ⟨.colon, u⟩ :: value)
    (hsplit : splitMark value = (front, if important then some [] else none))
    (hcurly : (front.any isCurly && !isCustom n) = false) :
    ofComponents? cs = some ⟨n, String.ofList (tidy (valueText front)), important⟩ := by
  have hcolon : (.leaf ⟨.colon, u⟩ :: value).dropWhile isGap = .leaf ⟨.colon, u⟩ :: value := rfl
  simp only [ofComponents?, hname, hcolon, hsplit, hcurly]
  cases important <;> rfl

theorem ofComponents?_bodyOf {p : List Char} {value : List Component} {important : Bool}
    (hflag : ∀ x ∈ value, x.isLeaf (.delim '!') = false)
    (hbraces : isCustom (String.ofList p) = false → ∀ x ∈ value, x.isCurly = false) :
    ofComponents? (bodyOf p value important) =
      some ⟨String.ofList p, String.ofList (tidy (valueText value)), important⟩ := by
  refine ofComponents?_of_split rfl (splitMark_append hflag important) ?_
  cases hc : isCustom (String.ofList p) with
  | true => simp
  | false => simpa using hbraces hc

theorem ofBlock_of_nil {cs : List Component} (h : cs.dropWhile isGap = []) : ofBlock cs = [] := by
  rw [ofBlock]
  split
  · rfl
  · rename_i heq
    rw [h] at heq
    cases heq

theorem ofBlock_of_cons {cs ds : List Component} {d : Component} (h : cs.dropWhile isGap = d :: ds) :
    ofBlock cs = (pass (d :: ds)).1.toList ++ ofBlock (pass (d :: ds)).2 := by
  rw [ofBlock]
  split
  · rename_i heq
    rw [h] at heq
    cases heq
  · rename_i heq
    rw [h] at heq
    obtain ⟨rfl, rfl⟩ := List.cons.inj heq
    rfl

/-- A block with one declaration and no semicolon. -/
theorem ofBlock_bodyOf {p : List Char} {value : List Component} {important : Bool} {d : Declaration}
    (hdivide : ∀ x ∈ value, isSemicolon x = false) (hd : ofComponents? (bodyOf p value important) = some d) :
    ofBlock (bodyOf p value important) = [d] := by
  have hall : ∀ x ∈ bodyOf p value important, (!isSemicolon x) = true := by
    intro x hx
    simp only [bodyOf, List.mem_cons, List.mem_append] at hx
    rcases hx with rfl | rfl | hx | hx
    · rfl
    · rfl
    · simp [hdivide x hx]
    · revert x
      cases important <;> decide
  have htake : (bodyOf p value important).takeWhile (!isSemicolon ·) = bodyOf p value important :=
    List.takeWhile_eq_self_iff.2 hall
  have hdrop : (bodyOf p value important).dropWhile (!isSemicolon ·) = [] :=
    List.dropWhile_eq_nil_iff.2 hall
  have hpass : pass (bodyOf p value important) = (some d, []) := by
    rw [pass, htake, hd, hdrop]
    rfl
  have hfront : (bodyOf p value important).dropWhile isGap = bodyOf p value important := rfl
  rw [ofBlock_of_cons hfront]
  show (pass (bodyOf p value important)).1.toList ++ ofBlock (pass (bodyOf p value important)).2 = [d]
  rw [hpass, ofBlock_of_nil rfl]
  rfl

/-! ### What is kept -/

theorem isBlank_of_isSpace {c : Char} (h : isSpace c = true) : isBlank c = true := by
  simp only [isSpace, isBreak, Bool.or_eq_true, decide_eq_true_eq] at h
  rcases h with (rfl | rfl) | (rfl | rfl) | rfl <;> decide

variable {p v : List Char}

theorem textAll_componentsOf (v : List Char) : textAll (componentsOf v) = v := by
  rw [textAll_eq, componentsOf, leavesAll_components, textOf_lexemes]

theorem mem_lexemes {front : List Component} {last : Component} {l : Lexeme}
    (h : componentsOf v = front ++ [last]) (hl : l ∈ last.leaves) : l ∈ lexemes v := by
  have hleaves := leavesAll_components (lexemes v)
  rw [← componentsOf, h, leavesAll_append] at hleaves
  rw [← hleaves]
  simp [leavesAll, hl]

theorem PlainValue.last_not_gap (h : PlainValue p v) {front : List Component} {last : Component}
    (hv : componentsOf v = front ++ [last]) : last.isGap = false := by
  rw [Bool.eq_false_iff]
  intro hgap
  cases last with
  | leaf l =>
    have hl : l ∈ lexemes v := mem_lexemes hv (by simp [leaves])
    rcases text_of_gap hl hgap with hspace | hcomment
    · obtain ⟨t, d, ht⟩ := List.eq_nil_or_concat l.text |>.resolve_left (text_ne_nil hl)
      have htext : v = (textAll front ++ t) ++ [d] := by
        rw [← textAll_componentsOf v, hv, textAll_append, List.append_assoc, ← List.concat_eq_append, ← ht]
        simp [textAll, textAllOnto, textOnto]
      have hd : isBlank d = true := isBlank_of_isSpace (hspace d (by simp [ht]))
      have hsp : d = ' ' := h.spaced.space d (by simp [htext]) hd
      refine h.spaced.ended ?_
      rw [htext, List.getLast?_concat, hsp]
    · exact h.unmarked (.comment hcomment)
  | block b o body c =>
    have hfit := (fitsAll_append.1 (hv ▸ h.balanced)).2
    cases c with
    | none => simp [fitsAll, fits] at hfit
    | some c =>
      have ho := (block_fits.1 (Bool.and_eq_true_iff.1 hfit).1).1.1
      exact absurd hgap (by simp [isGap, token, Token.isGap_of_opens? ho])

/-- Either all of a value is kept, or it goes on behind the bracket that its last block starts with. -/
theorem kept_cases (h : PlainTokens v) :
    (endsInBlock (componentsOf v) = false ∧ kept (componentsOf v) = v) ∨
      (endsInBlock (componentsOf v) = true ∧
        ∃ t, ∃ d ∈ brackets, ∃ rest ≠ [], kept (componentsOf v) = t ++ [d] ∧ v = t ++ [d] ++ rest) := by
  have htext := textAll_componentsOf v
  rcases List.eq_nil_or_concat (componentsOf v) with hv | ⟨front, last, hv⟩
  · rw [hv] at htext ⊢
    exact .inl ⟨rfl, htext⟩
  rw [List.concat_eq_append] at hv
  cases last with
  | leaf l =>
    left
    rw [hv] at htext ⊢
    exact ⟨by simp [endsInBlock], (kept_concat_leaf front l).trans htext⟩
  | block b o body c =>
    right
    have hfit := (fitsAll_append.1 (hv ▸ h.balanced)).2
    cases c with
    | none => simp [fitsAll, fits] at hfit
    | some c =>
      have ho := (block_fits.1 (Bool.and_eq_true_iff.1 hfit).1).1.1
      obtain ⟨t, d, hd, hopen⟩ := text_of_opens (mem_lexemes hv (by simp [leaves])) ho
      have hclose : c.text ≠ [] := text_ne_nil (mem_lexemes hv (by simp [leaves]))
      refine ⟨by simp [hv, endsInBlock], textAll front ++ t, d, hd, textAll body ++ c.text, by simp [hclose], ?_, ?_⟩
      · rw [hv, kept_concat_block, hopen, List.append_assoc]
      · rw [hv, textAll_append] at htext
        rw [← htext]
        simp [textAll_eq, leavesAll, leaves, Lexeme.textOf, hopen]

/-- The whole value is kept unless it ends with a block. -/
theorem kept_eq_iff (h : PlainTokens v) : kept (componentsOf v) = v ↔ endsInBlock (componentsOf v) = false := by
  rcases kept_cases h with ⟨he, hk⟩ | ⟨he, t, d, -, rest, hne, hk, hv⟩
  · simp [he, hk]
  · simp only [he, Bool.true_eq_false, iff_false]
    intro heq
    rw [hk] at heq
    rw [← heq] at hv
    exact hne (by simpa using hv)

theorem PlainValue.tidy_kept (h : PlainValue p v) : tidy (kept (componentsOf v)) = kept (componentsOf v) := by
  rcases kept_cases h.toPlainTokens with ⟨-, hk⟩ | ⟨-, t, d, hd, rest, -, hk, hv⟩
  · rw [hk]
    exact tidy_eq_self (fun hc => h.unmarked (.comment hc)) h.spaced h.front
  · have hpre : t ++ [d] <+: v := ⟨rest, hv.symm⟩
    have hspaced : Spaced (t ++ [d]) := by
      refine ⟨fun c hc => h.spaced.space c (hpre.subset hc), fun hs => h.spaced.single (hs.trans hpre.isInfix), ?_⟩
      rw [List.getLast?_concat]
      intro he
      cases he
      exact absurd hd (by decide)
    have hfront : (t ++ [d]).head? ≠ some ' ' := by
      have hf := h.front
      rw [hv] at hf
      cases t <;> exact hf
    rw [hk]
    exact tidy_eq_self (fun hc => h.unmarked (.comment (hc.trans hpre.isInfix))) hspaced hfront

theorem PlainValue.valueText_eq (h : PlainValue p v) : valueText (componentsOf v) = kept (componentsOf v) := by
  rcases List.eq_nil_or_concat (componentsOf v) with hv | ⟨front, last, hv⟩
  · rw [hv]
    rfl
  · rw [List.concat_eq_append] at hv
    rw [hv, valueText_concat (h.last_not_gap hv)]

variable {s : List Char}

/-- The declaration of the block of a rule with one declaration. -/
theorem PlainValue.ofBlock_eq (h : PlainValue p v) (important : Bool) :
    ofBlock (bodyOf p (componentsOf v) important) =
      [⟨String.ofList p, String.ofList (kept (componentsOf v)), important⟩] := by
  have hd : ofComponents? (bodyOf p (componentsOf v) important) = _ := ofComponents?_bodyOf h.unflagged h.braces
  rw [h.valueText_eq, h.tidy_kept] at hd
  exact ofBlock_bodyOf h.undivided hd

/-- The declarations of a rule are those of its block. -/
theorem atPosition?_closed (hs : SelectorText s) (hp : PlainName p) (hv : ClosedTokens v) (important : Bool) :
    atPosition? (ruleText s p v important) ⟨0, 1⟩ = some (ofBlock (bodyOf p (componentsOf v) important)) := by
  have here : seek? (ruleText s p v important) ⟨0, 1⟩ = some (ruleText s p v important) := by
    unfold ruleText
    cases s <;> rfl
  rw [atPosition?, here, Option.bind_some, componentsOf_ruleText hs hp hv, closedBlock, firstBlock?_append hs.flat,
    Option.map_some]

/-- The declarations of a rule with one declaration. -/
theorem atPosition?_ruleText (hs : SelectorText s) (hp : PlainName p) (hv : PlainValue p v) (important : Bool) :
    atPosition? (ruleText s p v important) ⟨0, 1⟩ =
      some [⟨String.ofList p, String.ofList (kept (componentsOf v)), important⟩] := by
  rw [atPosition?_closed hs hp hv.closed, hv.ofBlock_eq]

end StyleBump.Declaration
