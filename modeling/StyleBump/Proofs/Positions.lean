import Mathlib.Data.List.DropRight
import StyleBump.Text.Position

/-! # The position behind a text

What stands behind a text is as many line breaks down as the text has, and as many units to the right as
its last line is wide. A reader that seeks this position finds what stands there, unless it starts with a
line feed, which a carriage return at the end of the text would take. Moving on over the text leads to the
same position (`advance_start`), also in steps, unless one of them ends inside a break (`advance_append`). -/

namespace StyleBump.Text

/-- The line breaks of a text. A carriage return and the line feed behind it are one. -/
def breaks : List Char → Nat
  | [] => 0
  | '\r' :: '\n' :: cs => breaks cs + 1
  | c :: cs => if isBreak c then breaks cs + 1 else breaks cs

/-- What stands behind the last line break of a text. -/
def lastLine (cs : List Char) : List Char := cs.rtakeWhile (!isBreak ·)

/-- The UTF-16 units that write a text. -/
def width : List Char → Nat
  | [] => 0
  | c :: cs => units c + width cs

theorem units_pos (c : Char) : 0 < units c := by
  unfold units
  split <;> decide

theorem afterUnits?_append (cs rest : List Char) : afterUnits? (width cs) (cs ++ rest) = some rest := by
  induction cs with
  | nil => cases rest <;> rfl
  | cons c cs ih =>
    have hw : width (c :: cs) = units c + width cs := rfl
    obtain ⟨n, hn⟩ := Nat.exists_eq_add_of_lt (units_pos c)
    have hs : width (c :: cs) = n + width cs + 1 := by omega
    rw [hs, List.cons_append, afterUnits?, show n + width cs + 1 - units c = width cs by omega]
    exact ih

theorem lastLine_eq_self {cs : List Char} (h : ∀ c ∈ cs, isBreak c = false) : lastLine cs = cs :=
  List.rtakeWhile_eq_self_iff.2 fun c hc => by simp [h c hc]

theorem lastLine_cons_of_break {c : Char} (h : isBreak c = true) (cs : List Char) :
    lastLine (c :: cs) = lastLine cs := by
  simp only [lastLine, List.rtakeWhile, List.reverse_cons, List.takeWhile_append]
  split
  · rename_i hl
    have hp := List.takeWhile_prefix (!isBreak ·) (l := cs.reverse)
    rw [hp.eq_of_length hl]
    simp [h]
  · rfl

theorem lastLine_cons_of_mem {cs : List Char} (h : ¬ ∀ d ∈ cs, isBreak d = false) (c : Char) :
    lastLine (c :: cs) = lastLine cs := by
  simp only [lastLine, List.rtakeWhile, List.reverse_cons, List.takeWhile_append]
  split
  · rename_i hl
    refine absurd (fun d hd => ?_) h
    have hp := List.takeWhile_prefix (!isBreak ·) (l := cs.reverse)
    have hall := List.takeWhile_eq_self_iff.1 (hp.eq_of_length hl)
    simpa using hall d (List.mem_reverse.2 hd)
  · rfl

theorem breaks_eq_zero_iff {cs : List Char} : breaks cs = 0 ↔ ∀ c ∈ cs, isBreak c = false := by
  fun_induction breaks cs with
  | case1 => simp
  | case2 cs ih => simp [isBreak]
  | case3 c cs _ hc ih => simp [hc]
  | case4 c cs _ hc ih => simp [hc, ih]

theorem afterBreak?_cons {c : Char} {cs : List Char} (h : ¬ (c = '\r' ∧ cs.head? = some '\n')) :
    afterBreak? (c :: cs) = if isBreak c then some cs else afterBreak? cs := by
  rw [afterBreak?.eq_def]
  split
  · rename_i heq
    cases heq
  · rename_i heq
    obtain ⟨rfl, rfl⟩ := List.cons.inj heq
    exact absurd ⟨rfl, rfl⟩ h
  · rename_i heq
    obtain ⟨rfl, rfl⟩ := List.cons.inj heq
    rfl

/-- A character that breaks no line is passed over on the way to the next break. -/
theorem afterBreaks?_cons {c : Char} (h : isBreak c = false) (n : Nat) (cs : List Char) :
    afterBreaks? (n + 1) (c :: cs) = afterBreaks? (n + 1) cs := by
  have hc : ¬ (c = '\r' ∧ cs.head? = some '\n') := by
    rintro ⟨rfl, -⟩
    cases h
  rw [afterBreaks?, afterBreaks?, afterBreak?_cons hc, if_neg (by simp [h])]

/-- A carriage return at the end of `a` and a line feed at the start of `b` would be one break. -/
def Uncut (a b : List Char) : Prop := b.head? = some '\n' → a.getLast? ≠ some '\r'

theorem Uncut.tail {c : Char} {a b : List Char} (h : Uncut (c :: a) b) : Uncut a b := by
  intro hb ha
  refine h hb ?_
  rw [List.getLast?_cons, ha]
  rfl

theorem Uncut.of_append {a b c : List Char} (h : Uncut a (b ++ c)) : Uncut a b := by
  intro hb
  refine h ?_
  rw [List.head?_append, hb, Option.some_or]

theorem afterBreaks?_append {pre rest : List Char} (h : Uncut pre rest) :
    afterBreaks? (breaks pre) (pre ++ rest) = some (lastLine pre ++ rest) := by
  fun_induction breaks pre with
  | case1 => rfl
  | case2 cs ih =>
    rw [lastLine_cons_of_break rfl, lastLine_cons_of_break rfl]
    exact ih h.tail.tail
  | case3 c cs hpair hc ih =>
    have hpair' : ¬ (c = '\r' ∧ (cs ++ rest).head? = some '\n') := by
      rintro ⟨rfl, hn⟩
      cases cs with
      | nil => exact h hn rfl
      | cons d cs =>
        cases Option.some.inj hn
        exact hpair cs rfl rfl
    rw [lastLine_cons_of_break hc, List.cons_append, afterBreaks?, afterBreak?_cons hpair', if_pos hc]
    exact ih h.tail
  | case4 c cs _ hc ih =>
    replace hc := Bool.eq_false_iff.2 hc
    replace ih := ih h.tail
    -- The character stands on the last line only if no break follows.
    by_cases hb : ∀ d ∈ cs, isBreak d = false
    · have hall : ∀ d ∈ c :: cs, isBreak d = false := List.forall_mem_cons.2 ⟨hc, hb⟩
      rw [breaks_eq_zero_iff.2 hb, lastLine_eq_self hall]
      rfl
    · obtain ⟨n, hn⟩ := Nat.exists_eq_succ_of_ne_zero (mt breaks_eq_zero_iff.1 hb)
      rw [hn] at ih ⊢
      rw [lastLine_cons_of_mem hb, List.cons_append, afterBreaks?_cons hc]
      exact ih

/-- Seeking the position behind a text finds what stands there, unless the place is inside a break. -/
theorem seek?_of_uncut {pre rest : List Char} (h : Uncut pre rest) :
    seek? (pre ++ rest) ⟨breaks pre, 1 + width (lastLine pre)⟩ = some rest := by
  rw [seek?, afterBreaks?_append h, Option.bind_some, Nat.add_sub_cancel_left]
  exact afterUnits?_append _ _

theorem seek?_append {rest : List Char} (h : rest.head? ≠ some '\n') (pre : List Char) :
    seek? (pre ++ rest) ⟨breaks pre, 1 + width (lastLine pre)⟩ = some rest :=
  seek?_of_uncut fun hn => absurd hn h

/-! ### Moving on over a text -/

theorem advance_cons {c : Char} {cs : List Char} (h : ¬ (c = '\r' ∧ cs.head? = some '\n')) (p : Position) :
    p.advance (c :: cs) =
      if isBreak c then Position.advance ⟨p.line + 1, 1⟩ cs else Position.advance ⟨p.line, p.column + units c⟩ cs := by
  rw [Position.advance.eq_def]
  split
  · rename_i heq
    cases heq
  · rename_i heq
    obtain ⟨rfl, rfl⟩ := List.cons.inj heq
    exact absurd ⟨rfl, rfl⟩ h
  · rename_i heq
    obtain ⟨rfl, rfl⟩ := List.cons.inj heq
    rfl

/-- One text after another is passed over like both together, unless this puts a break together. -/
theorem advance_append {a b : List Char} (h : Uncut a b) (p : Position) :
    p.advance (a ++ b) = (p.advance a).advance b := by
  fun_induction Position.advance p a with
  | case1 p => rfl
  | case2 p a ih => exact ih h.tail.tail
  | case3 p c a hpair hc ih =>
    rw [List.cons_append, advance_cons ?_, if_pos hc, ih h.tail]
    rintro ⟨rfl, hn⟩
    cases a with
    | nil => exact h hn rfl
    | cons d a => exact hpair a rfl (by simpa using hn)
  | case4 p c a hpair hc ih =>
    rw [List.cons_append, advance_cons ?_, if_neg hc, ih h.tail]
    rintro ⟨rfl, -⟩
    exact hc rfl

theorem width_lastLine_cons {c : Char} (hc : isBreak c = false) (cs : List Char) :
    width (lastLine (c :: cs)) = if breaks cs = 0 then units c + width cs else width (lastLine cs) := by
  by_cases hb : ∀ d ∈ cs, isBreak d = false
  · rw [if_pos (breaks_eq_zero_iff.2 hb), lastLine_eq_self (List.forall_mem_cons.2 ⟨hc, hb⟩)]
    rfl
  · rw [if_neg (mt breaks_eq_zero_iff.1 hb), lastLine_cons_of_mem hb]

theorem advance_eq (p : Position) (cs : List Char) :
    p.advance cs = ⟨p.line + breaks cs, if breaks cs = 0 then p.column + width cs else 1 + width (lastLine cs)⟩ := by
  -- A break at the front starts a new line, so that only the rest decides the column.
  have column {cs : List Char} :
      (if breaks cs = 0 then 1 + width cs else 1 + width (lastLine cs)) = 1 + width (lastLine cs) := by
    split
    · rename_i hb
      rw [lastLine_eq_self (breaks_eq_zero_iff.1 hb)]
    · rfl
  fun_induction Position.advance p cs with
  | case1 p => rfl
  | case2 p cs ih =>
    rw [ih, breaks, lastLine_cons_of_break rfl, lastLine_cons_of_break rfl, column]
    simp [Nat.add_assoc, Nat.add_comm 1]
  | case3 p c cs hpair hc ih =>
    rw [ih, breaks.eq_3 _ _ hpair, if_pos hc, lastLine_cons_of_break hc, column]
    simp [Nat.add_assoc, Nat.add_comm 1]
  | case4 p c cs hpair hc ih =>
    rw [ih, breaks.eq_3 _ _ hpair, if_neg hc]
    split <;> rename_i hb
    · simp [width, Nat.add_assoc]
    · rw [width_lastLine_cons (Bool.eq_false_iff.2 hc), if_neg hb]

/-- The position behind a text. -/
theorem advance_start (cs : List Char) : Position.start.advance cs = ⟨breaks cs, 1 + width (lastLine cs)⟩ := by
  rw [advance_eq, Position.start, Nat.zero_add]
  split
  · rename_i hb
    rw [lastLine_eq_self (breaks_eq_zero_iff.1 hb)]
  · rfl

end StyleBump.Text
