import Mathlib.Data.List.TakeWhile
import StyleBump.Proofs.OpenBlocks

/-! # Reading token by token

A stream hands out the tokens of a text one after the other and knows nothing of its nesting. A token that opens
a block comes by itself; what the block holds is passed over once the next token is asked for. Readers are told
in front of which tokens to stop. Whatever they read, what they will stop in front of stays the same
(`Stream.ahead_of_next`). The tokens up to there are those of the components of the text: see `Stream.Faces`. -/

namespace StyleBump.Css
open Component

/-- What stands behind the brackets that close some open blocks, the innermost first; nothing, if one of them is
left open. -/
def behind : List Bracket → List Lexeme → List Lexeme
  | [], ls => ls
  | _ :: _, [] => []
  | b :: bs, l :: ls =>
    match l.token.opens? with
    | some b' => behind (b' :: b :: bs) ls
    | none => if l.token.closes? = some b then behind bs ls else behind (b :: bs) ls

/-- The tokens that are left, and the block that the last one opened, if it opened one. -/
structure Stream where
  rest : List Lexeme
  entered : Option Bracket

namespace Stream

def of (ls : List Lexeme) : Stream := ⟨ls, none⟩

def after (l : Lexeme) (ls : List Lexeme) : Stream := ⟨ls, l.token.opens?⟩

/-- What is left behind the block that the last token opened. -/
def settled (s : Stream) : List Lexeme :=
  match s.entered with
  | none => s.rest
  | some b => behind [b] s.rest

/-- The next token that is no gap, unless there is none or it is one to stop in front of. -/
def next (stop : Token → Bool) (s : Stream) : Option (Lexeme × Stream) :=
  match s.settled.dropWhile (·.token.isGap) with
  | [] => none
  | l :: ls => if stop l.token then none else some (l, after l ls)

end Stream

theorem behind_suffix (bs : List Bracket) (ls : List Lexeme) : behind bs ls <:+ ls := by
  fun_induction behind bs ls with
  | case1 => exact List.suffix_refl _
  | case2 => exact List.suffix_refl _
  | case3 b bs l ls b' _ ih => exact ih.trans (List.suffix_cons l ls)
  | case4 b bs l ls _ _ ih => exact ih.trans (List.suffix_cons l ls)
  | case5 b bs l ls _ _ ih => exact ih.trans (List.suffix_cons l ls)

theorem Stream.settled_suffix (s : Stream) : s.settled <:+ s.rest := by
  unfold settled
  split
  · exact List.suffix_refl _
  · exact behind_suffix _ _

/-- What is left from the first token on in front of which to stop, blocks passed over. -/
def dropUntil (stop : Token → Bool) : List Lexeme → List Lexeme
  | [] => []
  | l :: ls => if stop l.token then l :: ls else dropUntil stop (Stream.after l ls).settled
termination_by ls => ls.length
decreasing_by exact Nat.lt_succ_of_le (Stream.settled_suffix (.after l ls)).length_le

/-- A test that no gap passes. -/
def SparesGaps (stop : Token → Bool) : Prop := ∀ t : Token, t.isGap = true → stop t = false

section
variable {stop stop' : Token → Bool} {l : Lexeme} {ls : List Lexeme}

theorem dropUntil_of_stop (h : stop l.token = true) : dropUntil stop (l :: ls) = l :: ls := by
  rw [dropUntil, if_pos h]

theorem dropUntil_of_pass (h : stop l.token = false) :
    dropUntil stop (l :: ls) = dropUntil stop (Stream.after l ls).settled := by
  rw [dropUntil, if_neg (by simp [h])]

theorem dropUntil_suffix (stop : Token → Bool) (ls : List Lexeme) : dropUntil stop ls <:+ ls := by
  fun_induction dropUntil stop ls with
  | case1 => exact List.suffix_refl _
  | case2 => exact List.suffix_refl _
  | case3 l ls _ ih => exact ih.trans ((Stream.settled_suffix _).trans (List.suffix_cons l ls))

/-- The way to a token leads past the first of more tokens. -/
theorem dropUntil_dropUntil (h : ∀ t, stop t = true → stop' t = true) (ls : List Lexeme) :
    dropUntil stop (dropUntil stop' ls) = dropUntil stop ls := by
  fun_induction dropUntil stop' ls with
  | case1 => rfl
  | case2 => rfl
  | case3 l ls hl ih =>
    rw [ih, dropUntil_of_pass]
    exact Bool.eq_false_iff.2 fun hs => hl (h _ hs)

theorem Stream.settled_after_of_leaf (h : l.token.opens? = none) : (after l ls).settled = ls := by
  rw [settled, after, h]

theorem Token.opens?_of_isGap {t : Token} (h : t.isGap = true) : t.opens? = none := by
  cases t <;> first | rfl | cases h

theorem dropUntil_dropWhile (h : SparesGaps stop) (ls : List Lexeme) :
    dropUntil stop (ls.dropWhile (·.token.isGap)) = dropUntil stop ls := by
  induction ls with
  | nil => rfl
  | cons l ls ih =>
    cases hl : l.token.isGap with
    | true =>
      have hsettled : (Stream.after l ls).settled = ls := Stream.settled_after_of_leaf (Token.opens?_of_isGap hl)
      rw [List.dropWhile_cons_of_pos (by exact hl), ih, dropUntil_of_pass (h _ hl), hsettled]
    | false => rw [List.dropWhile_cons_of_neg (by simp [hl])]

namespace Stream
variable {s s' : Stream}

theorem next_of_nil (h : s.settled.dropWhile (·.token.isGap) = []) : s.next stop = none := by
  rw [next, h]

theorem next_of_stop (h : s.settled.dropWhile (·.token.isGap) = l :: ls) (hl : stop l.token = true) :
    s.next stop = none := by
  simp [next, h, hl]

theorem next_of_pass (h : s.settled.dropWhile (·.token.isGap) = l :: ls) (hl : stop l.token = false) :
    s.next stop = some (l, after l ls) := by
  simp [next, h, hl]

theorem next_eq_some (h : s.next stop = some (l, s')) :
    ∃ ls, s.settled.dropWhile (·.token.isGap) = l :: ls ∧ stop l.token = false ∧ s' = after l ls := by
  unfold next at h
  split at h
  · cases h
  · rename_i ls hs
    split at h
    · cases h
    · rename_i hl
      cases h
      exact ⟨_, hs, Bool.eq_false_iff.2 hl, rfl⟩

theorem rest_lt_of_next (h : s.next stop = some (l, s')) : s'.rest.length < s.rest.length := by
  obtain ⟨ls, hs, -, rfl⟩ := next_eq_some h
  have hle := ((List.dropWhile_suffix (·.token.isGap)).trans s.settled_suffix).length_le
  rw [hs] at hle
  exact hle

/-- From the first token on in front of which a reader has to stop. -/
def ahead (stop : Token → Bool) (s : Stream) : List Lexeme := dropUntil stop s.settled

/-- A token that is handed out was not to stop in front of. -/
theorem ahead_of_next (hspares : SparesGaps stop) (h : s.next stop = some (l, s')) : s'.ahead stop = s.ahead stop := by
  obtain ⟨ls, hs, hl, rfl⟩ := next_eq_some h
  rw [ahead, ahead, ← dropUntil_dropWhile hspares s.settled, hs, dropUntil_of_pass hl]

end Stream

end

/-! ### Components in front of a stream -/

section
variable {b : Bracket} {bs : List Bracket} {l : Lexeme}

theorem behind_opener {b' : Bracket} (h : l.token.opens? = some b') (ls : List Lexeme) :
    behind (b :: bs) (l :: ls) = behind (b' :: b :: bs) ls := by
  simp only [behind.eq_def (b :: bs), h]

theorem behind_closer (h : l.token.closes? = some b) (ls : List Lexeme) :
    behind (b :: bs) (l :: ls) = behind bs ls := by
  simp only [behind.eq_def (b :: bs), Token.opens?_of_closes? h, h, if_true]

theorem behind_leaf (h : (leaf l).fits (some b) = true) (ls : List Lexeme) :
    behind (b :: bs) (l :: ls) = behind (b :: bs) ls := by
  obtain ⟨hopens, hcloses⟩ := leaf_fits_iff.1 h
  simp only [behind.eq_def (b :: bs) (l :: ls), hopens]
  exact if_neg fun hc => hcloses b hc rfl

end

mutual
theorem behind_leaves : ∀ (c : Component) (b : Bracket) (bs : List Bracket) (ls : List Lexeme),
    c.fits (some b) = true → behind (b :: bs) (c.leaves ++ ls) = behind (b :: bs) ls
  | leaf l, b, bs, ls, h => behind_leaf h ls
  | block b' o body (some c), b, bs, ls, h => by
    obtain ⟨⟨ho, hbody⟩, hc⟩ := block_fits.1 h
    rw [leaves, List.cons_append, List.append_assoc, behind_opener ho, behind_leavesAll body b' _ _ hbody,
      Option.toList_some, List.singleton_append, behind_closer hc]
  | block _ _ _ none, _, _, _, h => by simp [fits] at h

theorem behind_leavesAll : ∀ (cs : List Component) (b : Bracket) (bs : List Bracket) (ls : List Lexeme),
    fitsAll (some b) cs = true → behind (b :: bs) (leavesAll cs ++ ls) = behind (b :: bs) ls
  | [], _, _, _, _ => rfl
  | c :: cs, b, bs, ls, h => by
    obtain ⟨hc, hcs⟩ := Bool.and_eq_true_iff.1 h
    rw [leavesAll, List.append_assoc, behind_leaves c b bs _ hc, behind_leavesAll cs b bs ls hcs]
end

namespace Grown
variable {e : Option Bracket} {cs front back : List Component} {c : Component} {b : Bracket}

/-- Nothing stands behind a block that is left open. -/
theorem behind_eq_nil (h : Grown e cs) (he : e = some b) (bs : List Bracket) : behind (b :: bs) (leavesAll cs) = [] := by
  induction h generalizing b bs with
  | closed h =>
    subst he
    have hbehind := behind_leavesAll _ b bs [] h
    rw [List.append_nil] at hbehind
    exact hbehind
  | @«open» e front b' o body hf ho hb ih =>
    subst he
    have hleaves : leavesAll (front ++ [.block b' o body none]) = leavesAll front ++ o :: leavesAll body := by
      simp [leavesAll_append, leavesAll, leaves]
    rw [hleaves, behind_leavesAll front b bs _ hf, behind_opener ho]
    exact ih rfl (b :: bs)

/-- What has something behind it is closed. -/
theorem left (h : Grown e (front ++ c :: back)) : fitsAll e front = true := by
  generalize hcs : front ++ c :: back = cs at h
  cases h with
  | closed h =>
    rw [← hcs] at h
    exact (fitsAll_append.1 h).1
  | @«open» _ front' b o body hf ho hb =>
    -- The open block is the last component, so what is closed reaches up to `c` at least.
    have hprefix : front <+: front' := by
      have hlong : front.length < (front' ++ [block b o body none]).length := by
        rw [← hcs]
        simp
      rw [List.length_append, List.length_singleton] at hlong
      exact List.prefix_of_prefix_length_le (hcs ▸ List.prefix_append _ _) (List.prefix_append _ _) (by omega)
    obtain ⟨more, rfl⟩ := hprefix
    exact (fitsAll_append.1 hf).1

/-- The first component is closed, or it is left open and nothing stands behind it. -/
theorem head_cases (h : Grown e (c :: back)) :
    c.fits e = true ∨
      ∃ b o body, c = .block b o body none ∧ back = [] ∧ o.token.opens? = some b ∧ Grown (some b) body := by
  generalize hcs : c :: back = cs at h
  cases h with
  | closed h =>
    rw [← hcs] at h
    exact .inl (Bool.and_eq_true_iff.1 h).1
  | @«open» _ front b o body hf ho hb =>
    cases front with
    | nil =>
      obtain ⟨rfl, rfl⟩ := List.cons.inj hcs
      exact .inr ⟨b, o, body, rfl, rfl, ho, hb⟩
    | cons x front =>
      obtain ⟨rfl, -⟩ := List.cons.inj hcs
      exact .inl (Bool.and_eq_true_iff.1 hf).1

end Grown

namespace Component

/-- The lexeme that a component starts with. -/
def first : Component → Lexeme
  | leaf l => l
  | block _ o _ _ => o

def inside : Component → List Lexeme
  | leaf _ => []
  | block _ _ body c => leavesAll body ++ c.toList

theorem leaves_eq (c : Component) : c.leaves = c.first :: c.inside := by cases c <;> rfl

theorem token_first (c : Component) : c.first.token = c.token := by cases c <;> rfl

end Component

/-- Components that come next in a text, in front of some more lexemes; there are none of these behind a block
that is left open. -/
structure Precede (cs : List Component) (tail : List Lexeme) : Prop where
  grown : Grown none cs
  closed : tail = [] ∨ fitsAll none cs = true

namespace Precede
variable {c : Component} {cs front : List Component} {tail : List Lexeme} {stop : Token → Bool}

theorem of_cons (h : Precede (c :: cs) tail) : Precede cs tail where
  grown := by
    rw [← List.singleton_append] at h
    exact h.grown.right
  closed := h.closed.imp_right fun hfits => (Bool.and_eq_true_iff.1 hfits).2

theorem of_append (h : Precede (front ++ cs) tail) : Precede cs tail := by
  induction front with
  | nil => exact h
  | cons x front ih => exact ih h.of_cons

/-- Behind the first lexeme of a component the stream goes on with the components behind it. -/
theorem settled_after_first (h : Precede (c :: cs) tail) :
    (Stream.after c.first (c.inside ++ (leavesAll cs ++ tail))).settled = leavesAll cs ++ tail := by
  rcases h.grown.head_cases with hfits | ⟨b, o, body, rfl, rfl, ho, hbody⟩
  · cases c with
    | leaf l => exact Stream.settled_after_of_leaf (leaf_fits_iff.1 hfits).1
    | block b o body closer =>
      cases closer with
      | none => cases hfits
      | some c =>
        obtain ⟨⟨ho, hbody⟩, hc⟩ := block_fits.1 hfits
        rw [Stream.settled, Stream.after, first, ho, inside, List.append_assoc]
        refine (behind_leavesAll body b [] _ hbody).trans ?_
        exact (behind_closer hc _).trans (by rw [behind]; rfl)
  · -- The block is left open, so neither components nor other lexemes stand behind it.
    have htail : tail = [] := h.closed.resolve_right fun hfits => by cases hfits
    subst htail
    rw [Stream.settled, Stream.after, first, ho, inside]
    simpa [leavesAll] using hbody.behind_eq_nil rfl []

theorem leaf_of_isGap (h : Precede cs tail) (hmem : c ∈ cs) (hc : c.isGap = true) : ∃ l, c = leaf l := by
  obtain ⟨front, back, rfl⟩ := List.append_of_mem hmem
  cases c with
  | leaf l => exact ⟨l, rfl⟩
  | block b o body closer =>
    have ho := h.of_append.grown.opens
    rw [isGap, token, Token.isGap_of_opens? ho] at hc
    cases hc

theorem isCurly_eq (h : Precede cs tail) (hmem : c ∈ cs) : c.isCurly = (c.token == .opening .curly) := by
  obtain ⟨front, back, rfl⟩ := List.append_of_mem hmem
  have hgrown := h.of_append.grown
  cases c with
  | leaf l =>
    rcases hgrown.head_cases with hfits | ⟨b, o, body, hblock, -⟩
    · refine (beq_false_of_ne fun ht => ?_).symm
      have hopens : l.token.opens? = none := (leaf_fits_iff.1 hfits).1
      rw [show l.token = .opening .curly from ht] at hopens
      cases hopens
    · cases hblock
  | block b o body closer =>
    have ho := hgrown.opens
    cases hto : o.token <;> rw [hto] at ho <;> cases ho
    · rw [token, hto]
      rfl
    · rw [token, hto]
      cases b <;> rfl

theorem dropWhile_isGap (h : Precede cs tail) (htail : ∀ l ∈ tail.head?, l.token.isGap = false) :
    (leavesAll cs ++ tail).dropWhile (·.token.isGap) = leavesAll (cs.dropWhile isGap) ++ tail := by
  induction cs with
  | nil =>
    cases tail with
    | nil => rfl
    | cons l tail => exact List.dropWhile_cons_of_neg (by simp [htail l rfl])
  | cons c cs ih =>
    cases hc : c.isGap with
    | true =>
      obtain ⟨l, rfl⟩ := h.leaf_of_isGap List.mem_cons_self hc
      rw [List.dropWhile_cons_of_pos hc, ← ih h.of_cons]
      exact List.dropWhile_cons_of_pos hc
    | false =>
      have hlead : c.first.token.isGap = false := (congrArg Token.isGap c.token_first).trans hc
      rw [List.dropWhile_cons_of_neg (by simp [hc]), leavesAll, leaves_eq]
      exact List.dropWhile_cons_of_neg (by simp [hlead])

/-- The first token to stop in front of is the first one of a component. -/
theorem dropUntil_leavesAll (h : Precede cs tail) (htail : ∀ l ∈ tail.head?, stop l.token = true) :
    dropUntil stop (leavesAll cs ++ tail) = leavesAll (cs.dropWhile (!stop ·.token)) ++ tail := by
  induction cs with
  | nil =>
    cases tail with
    | nil => rw [leavesAll, List.append_nil, dropUntil]; rfl
    | cons l tail => exact dropUntil_of_stop (htail l rfl)
  | cons c cs ih =>
    have hleaves : leavesAll (c :: cs) ++ tail = c.first :: (c.inside ++ (leavesAll cs ++ tail)) := by
      rw [leavesAll, leaves_eq, List.cons_append, List.cons_append, List.append_assoc]
    cases hc : stop c.token with
    | true =>
      rw [List.dropWhile_cons_of_neg (by simp [hc]), hleaves]
      exact dropUntil_of_stop (by rw [token_first, hc])
    | false =>
      rw [List.dropWhile_cons_of_pos (by simp [hc]), hleaves, dropUntil_of_pass (by rw [token_first, hc]),
        h.settled_after_first, ih h.of_cons]

end Precede

/-- A stream stands in front of components that a reader has to read before it stops. -/
structure Stream.Faces (stop : Token → Bool) (s : Stream) (cs : List Component) (tail : List Lexeme) : Prop where
  settled : s.settled = leavesAll cs ++ tail
  precede : Precede cs tail
  free : ∀ c ∈ cs, stop c.token = false
  halted : ∀ l ∈ tail.head?, stop l.token = true

namespace Stream.Faces
variable {stop : Token → Bool} {s : Stream} {c : Component} {cs rest : List Component} {tail : List Lexeme}

theorem dropWhile_isGap (h : s.Faces stop cs tail) (hspares : SparesGaps stop) :
    s.settled.dropWhile (·.token.isGap) = leavesAll (cs.dropWhile isGap) ++ tail := by
  rw [h.settled]
  refine h.precede.dropWhile_isGap fun l hl => Bool.eq_false_iff.2 fun hg => ?_
  have hstop := h.halted l hl
  rw [hspares _ hg] at hstop
  cases hstop

theorem next_of_nil (h : s.Faces stop cs tail) (hspares : SparesGaps stop) (hcs : cs.dropWhile isGap = []) :
    s.next stop = none := by
  have hdrop := h.dropWhile_isGap hspares
  rw [hcs, leavesAll, List.nil_append] at hdrop
  cases tail with
  | nil => exact Stream.next_of_nil hdrop
  | cons l tail => exact Stream.next_of_stop hdrop (h.halted l rfl)

theorem precede_dropWhile (h : s.Faces stop cs tail) : Precede (cs.dropWhile isGap) tail := by
  have hprecede := h.precede
  rw [← List.takeWhile_append_dropWhile (p := isGap) (l := cs)] at hprecede
  exact hprecede.of_append

theorem next_of_cons (h : s.Faces stop cs tail) (hspares : SparesGaps stop) (hcs : cs.dropWhile isGap = c :: rest) :
    ∃ s' : Stream, s.next stop = some (c.first, s') ∧ s'.rest = c.inside ++ (leavesAll rest ++ tail) ∧
      s'.Faces stop rest tail := by
  have hdrop := h.dropWhile_isGap hspares
  rw [hcs, leavesAll, leaves_eq, List.cons_append, List.cons_append, List.append_assoc] at hdrop
  have hprecede : Precede (c :: rest) tail := hcs ▸ h.precede_dropWhile
  have hfree : ∀ x ∈ c :: rest, stop x.token = false := fun x hx =>
    h.free x ((List.dropWhile_suffix isGap).subset (hcs ▸ hx))
  refine ⟨.after c.first (c.inside ++ (leavesAll rest ++ tail)), ?_, rfl, ?_⟩
  · exact Stream.next_of_pass hdrop (by rw [token_first]; exact hfree c List.mem_cons_self)
  · exact ⟨hprecede.settled_after_first, hprecede.of_cons, (List.forall_mem_cons.1 hfree).2, h.halted⟩

/-- A reader that stops earlier has the components in front of the first one that stops it. -/
theorem split {stop' : Token → Bool} (h : s.Faces stop cs tail) (hle : ∀ t, stop t = true → stop' t = true) :
    (Stream.of (leavesAll cs ++ tail)).Faces stop' (cs.takeWhile (!stop' ·.token))
      (leavesAll (cs.dropWhile (!stop' ·.token)) ++ tail) := by
  have hcs : cs.takeWhile (!stop' ·.token) ++ cs.dropWhile (!stop' ·.token) = cs := List.takeWhile_append_dropWhile
  have hfree : ∀ c ∈ cs.takeWhile (!stop' ·.token), stop' c.token = false := fun c hc => by
    simpa using List.mem_takeWhile_imp hc
  have hhead := List.head?_dropWhile_not (!stop' ·.token) cs
  generalize cs.takeWhile (!stop' ·.token) = front, cs.dropWhile (!stop' ·.token) = back at *
  subst hcs
  have hsettled : (Stream.of (leavesAll (front ++ back) ++ tail)).settled =
      leavesAll front ++ (leavesAll back ++ tail) := by
    rw [leavesAll_append, List.append_assoc]
    rfl
  cases back with
  | nil =>
    rw [List.append_nil] at h hsettled ⊢
    exact ⟨hsettled, h.precede, hfree, fun l hl => hle _ (h.halted l hl)⟩
  | cons c back =>
    have hfront : fitsAll none front = true := h.precede.grown.left
    refine ⟨hsettled, ⟨.closed hfront, .inr hfront⟩, hfree, fun l hl => ?_⟩
    rw [leavesAll, leaves_eq] at hl
    obtain rfl : c.first = l := Option.some.inj hl
    rw [token_first]
    simpa using hhead

end Stream.Faces

end StyleBump.Css
