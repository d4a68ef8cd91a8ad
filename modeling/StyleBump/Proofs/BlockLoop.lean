import StyleBump.Proofs.Progress
import StyleBump.Proofs.QuietText
import StyleBump.Proofs.Reformatting

/-! # The loop reads the declarations of the block

The loop that reads a block token by token finds the declarations that the components of the block have. A reader
that stands in front of components reads from its tokens what these components say (`readDeclaration?_eq`), so a
pass of the loop is a pass over the components (`InBlock.streamPass_eq`), and the loop ends where the block does
(`loop_ends_with_block`). -/

namespace StyleBump.Declaration
open Css Css.Component Text

/-! ### Single tokens -/

/-- The token that components start with, read by itself, and the components behind it. -/
def leadToken? {α : Type} (f : Token → Option α) : List Component → Option (α × List Component)
  | .leaf l :: rest => (f l.token).map (·, rest)
  | _ => none

theorem name?_eq (cs : List Component) : name? cs = leadToken? ident? cs := by
  cases cs with
  | nil => rfl
  | cons c cs =>
    cases c with
    | leaf l =>
      obtain ⟨t, text⟩ := l
      cases t <;> rfl
    | block b o body closer => rfl

theorem afterColon?_eq (cs : List Component) : afterColon? cs = (leadToken? (exactly .colon) cs).map (·.2) := by
  cases cs with
  | nil => rfl
  | cons c cs =>
    cases c with
    | leaf l =>
      obtain ⟨t, text⟩ := l
      cases t <;> rfl
    | block b o body closer => rfl

theorem afterMark?_eq_bind (cs : List Component) :
    afterMark? cs = (leadToken? (exactly (.delim '!')) cs).bind fun bang =>
      (leadToken? ident? (bang.2.dropWhile isGap)).bind fun n => if sameName n.1 "important" then some n.2 else none := by
  cases cs with
  | nil => rfl
  | cons c cs =>
    rw [afterMark?_eq, name?_eq]
    cases c with
    | leaf l =>
      by_cases hl : l.token = .delim '!'
      · simp [isLeaf, leadToken?, exactly, hl]
      · simp [isLeaf, leadToken?, exactly, hl]
    | block b o body closer => rfl

theorem exactly_of_opens {t u : Token} {b : Bracket} (ht : t.opens? = none) (hu : u.opens? = some b) :
    exactly t u = none := by
  refine if_neg ?_
  rintro rfl
  rw [ht] at hu
  cases hu

theorem ident?_of_opens {u : Token} {b : Bracket} (hu : u.opens? = some b) : ident? u = none := by
  cases u <;> first | rfl | cases hu

section
variable {stop : Token → Bool} {s : Stream} {cs : List Component} {tail : List Lexeme}

theorem atStop_eq (h : s.Faces stop cs tail) (hspares : SparesGaps stop) : atStop stop s = cs.all isGap := by
  rw [atStop]
  cases hcs : cs.dropWhile isGap with
  | nil =>
    rw [h.next_of_nil hspares hcs]
    exact (List.all_eq_true.2 (List.dropWhile_eq_nil_iff.1 hcs)).symm
  | cons c rest =>
    obtain ⟨s', hnext, -⟩ := h.next_of_cons hspares hcs
    have hall : cs.all isGap = false := Bool.eq_false_iff.2 fun hall => by
      rw [List.dropWhile_eq_nil_iff.2 (List.all_eq_true.1 hall)] at hcs
      cases hcs
    rw [hnext, hall]
    rfl

theorem rel_readToken? {α : Type} {f : Token → Option α} (h : s.Faces stop cs tail) (hspares : SparesGaps stop)
    (hf : ∀ t b, t.opens? = some b → f t = none) :
    Option.Rel (fun x y => x.1 = y.1 ∧ x.2.rest = leavesAll y.2 ++ tail ∧ x.2.Faces stop y.2 tail)
      (readToken? stop f s) (leadToken? f (cs.dropWhile isGap)) := by
  cases hcs : cs.dropWhile isGap with
  | nil =>
    rw [readToken?, h.next_of_nil hspares hcs]
    exact .none
  | cons c rest =>
    obtain ⟨s', hnext, hrest, hfaces⟩ := h.next_of_cons hspares hcs
    rw [readToken?, hnext, Option.bind_some]
    cases c with
    | leaf l =>
      rw [leadToken?, first]
      cases f l.token with
      | none => exact .none
      | some x => exact .some ⟨rfl, hrest, hfaces⟩
    | block b o body closer =>
      have hprecede := h.precede_dropWhile
      rw [hcs] at hprecede
      rw [first, hf _ _ hprecede.grown.opens]
      exact .none

theorem rel_readMark? (h : s.Faces stop cs tail) (hspares : SparesGaps stop) :
    Option.Rel (fun s' rest => s'.Faces stop rest tail) (readMark? stop s) (afterMark? (cs.dropWhile isGap)) := by
  rw [afterMark?_eq_bind, readMark?]
  refine rel_bind (rel_readToken? h hspares fun _ _ => exactly_of_opens rfl) fun bang rest hbang => ?_
  refine rel_bind (rel_readToken? hbang.2.2 hspares fun _ _ => ident?_of_opens) fun n more hname => ?_
  rw [hname.1]
  split
  · exact .some hname.2.2
  · exact .none

theorem afterMark?_eq_none (h : s.Faces stop cs tail) (hspares : SparesGaps stop) (hread : readMark? stop s = none) :
    afterMark? (cs.dropWhile isGap) = none := by
  have hmarks := rel_readMark? h hspares
  generalize afterMark? (cs.dropWhile isGap) = more at hmarks
  rw [hread] at hmarks
  cases hmarks
  rfl

end

/-! ### Values -/

theorem splitMark_of_some {cs rest : List Component} (h : afterMark? cs = some rest) : splitMark cs = ([], some rest) := by
  cases cs with
  | nil => cases h
  | cons c cs => rw [splitMark, h]

theorem splitMark_of_none {c : Component} {cs : List Component} (h : afterMark? (c :: cs) = none) :
    splitMark (c :: cs) = (c :: (splitMark cs).1, (splitMark cs).2) := by
  rw [splitMark, h]

/-- Components that are single gaps. -/
def AreGaps (cs : List Component) : Prop := ∀ c ∈ cs, ∃ l, c = leaf l ∧ l.token.isGap = true

theorem AreGaps.all {cs : List Component} (h : AreGaps cs) : cs.all isGap = true :=
  List.all_eq_true.2 fun c hc => by
    obtain ⟨l, rfl, hl⟩ := h c hc
    exact hl

theorem AreGaps.splitMark_append {gaps : List Component} (h : AreGaps gaps) (rest : List Component) :
    splitMark (gaps ++ rest) = (gaps ++ (splitMark rest).1, (splitMark rest).2) := by
  refine splitMark_append_of_unflagged (fun c hc => Bool.eq_false_iff.2 fun hmark => ?_) rest
  obtain ⟨l, rfl, hl⟩ := h c hc
  rw [show l.token = .delim '!' from eq_of_beq hmark] at hl
  cases hl

theorem AreGaps.keptLeaves_eq_nil {cs : List Component} (h : AreGaps cs) : keptLeaves cs = [] := by
  cases cs with
  | nil => rfl
  | cons c cs =>
    obtain ⟨⟨l, rfl, hl⟩, hcs⟩ := List.forall_mem_cons.1 h
    have hall : cs.all isGap = true := AreGaps.all hcs
    rw [keptLeaves, if_pos hall, endLeaves, if_pos hl]

theorem keptLeaves_append {cs : List Component} (h : cs.all isGap = false) (front : List Component) :
    keptLeaves (front ++ cs) = leavesAll front ++ keptLeaves cs := by
  induction front with
  | nil => rfl
  | cons c front ih =>
    have hall : (front ++ cs).all isGap = false := by rw [List.all_append, h, Bool.and_false]
    rw [List.cons_append, keptLeaves, if_neg (by simp [hall]), ih, leavesAll, List.append_assoc]

theorem keptLeaves_last {c : Component} {cs : List Component} (hc : c.isGap = false) (h : cs.all isGap = true) :
    keptLeaves (c :: cs) = [c.first] := by
  rw [keptLeaves, if_pos h]
  cases c with
  | leaf l => exact if_neg (by simpa [isGap, token] using hc)
  | block b o body closer => rfl

theorem areGaps_of_precede {cs gaps : List Component} {tail : List Lexeme} (h : Precede cs tail) (hsub : gaps ⊆ cs)
    (hgaps : ∀ c ∈ gaps, c.isGap = true) : AreGaps gaps := fun c hc => by
  obtain ⟨l, rfl⟩ := h.leaf_of_isGap (hsub hc) (hgaps c hc)
  exact ⟨l, rfl, hgaps _ hc⟩

theorem areGaps_takeWhile {cs : List Component} {tail : List Lexeme} (h : Precede cs tail) :
    AreGaps (cs.takeWhile isGap) :=
  areGaps_of_precede h (List.takeWhile_prefix isGap).subset fun _ hc => List.mem_takeWhile_imp hc

/-- Whether the components of a value hold a block where none is allowed. -/
def refuses (custom : Bool) (value : List Component) : Bool := (splitMark value).1.any isCurly && !custom

/-- What reading a value finds, in front of components: `last` if these are gaps up to the mark, or else what
stands behind the tokens that are kept. -/
structure ReadsTo (stop : Token → Bool) (value : List Component) (tail last : List Lexeme) (v : ValueRead) : Prop where
  important : v.important = (splitMark value).2.isSome
  ended : atStop stop v.stream = ((splitMark value).2.getD []).all isGap
  unread : (splitMark value).1.all isGap = true → v.behind = last
  read : (splitMark value).1.all isGap = false → leavesAll value ++ tail = keptLeaves (splitMark value).1 ++ v.behind

/-- Reading a value is refused because of its components, or it finds what they say. -/
def ReadsAs (stop : Token → Bool) (custom : Bool) (value : List Component) (tail last : List Lexeme) :
    Option ValueRead → Prop
  | none => refuses custom value = true
  | some v => refuses custom value = false ∧ ReadsTo stop value tail last v

section
variable {stop : Token → Bool} {custom : Bool} {s : Stream} {c : Component} {cs front rest : List Component}
  {tail last : List Lexeme} {v : ValueRead} {r : Option ValueRead}

theorem ReadsTo.of_gaps (h : ReadsTo stop rest tail last v) (hgaps : AreGaps front) :
    ReadsTo stop (front ++ rest) tail last v := by
  have hsplit := hgaps.splitMark_append rest
  refine ⟨?_, ?_, fun hunread => ?_, fun hread => ?_⟩
  · rw [hsplit]
    exact h.important
  · rw [hsplit]
    exact h.ended
  · rw [hsplit, List.all_append, Bool.and_eq_true] at hunread
    exact h.unread hunread.2
  · rw [hsplit, List.all_append, hgaps.all, Bool.true_and] at hread
    rw [hsplit, keptLeaves_append hread, leavesAll_append, List.append_assoc, List.append_assoc, h.read hread]

theorem ReadsTo.cons {rest' : List Lexeme} (h : ReadsTo stop rest tail rest' v) (hc : c.isGap = false)
    (hmark : afterMark? (c :: rest) = none) (hrest : rest' = c.inside ++ (leavesAll rest ++ tail)) :
    ReadsTo stop (c :: rest) tail last v := by
  have hsplit := splitMark_of_none hmark
  refine ⟨?_, ?_, fun hunread => ?_, fun hread => ?_⟩
  · rw [hsplit]
    exact h.important
  · rw [hsplit]
    exact h.ended
  · rw [hsplit, List.all_cons, hc] at hunread
    cases hunread
  · have hleaves : leavesAll (c :: rest) ++ tail = c.first :: (c.inside ++ (leavesAll rest ++ tail)) := by
      rw [leavesAll, leaves_eq, List.cons_append, List.cons_append, List.append_assoc]
    rw [hsplit, hleaves]
    cases hall : (splitMark rest).1.all isGap with
    | true => rw [keptLeaves_last hc hall, h.unread hall, hrest, List.singleton_append]
    | false =>
      rw [h.read hall, keptLeaves, if_neg (by simp [hall]), leaves_eq]
      simp

theorem AreGaps.refuses_append (h : AreGaps front) (rest : List Component) :
    refuses custom (front ++ rest) = refuses custom rest := by
  have hcurly : front.any isCurly = false := List.any_eq_false.2 fun c hc => by
    obtain ⟨l, rfl, -⟩ := h c hc
    simp [isCurly]
  rw [refuses, refuses, h.splitMark_append, List.any_append, hcurly, Bool.false_or]

theorem refuses_cons (hmark : afterMark? (c :: rest) = none) :
    refuses custom (c :: rest) = (c.isCurly && !custom || refuses custom rest) := by
  rw [refuses, refuses, splitMark_of_none hmark, List.any_cons, Bool.and_or_distrib_right]

theorem ReadsAs.of_dropWhile (hcs : Precede cs tail) (h : ReadsAs stop custom (cs.dropWhile isGap) tail last r) :
    ReadsAs stop custom cs tail last r := by
  have hgaps := areGaps_takeWhile hcs
  rw [← List.takeWhile_append_dropWhile (p := isGap) (l := cs)]
  cases r with
  | none => exact (hgaps.refuses_append _).trans h
  | some v => exact ⟨(hgaps.refuses_append _).trans h.1, h.2.of_gaps hgaps⟩

theorem ReadsAs.of_nil (h : s.next stop = none) : ReadsAs stop custom [] tail last (some ⟨false, last, s⟩) :=
  ⟨rfl, rfl, by rw [atStop, h]; rfl, fun _ => rfl, nofun⟩

theorem ReadsAs.of_mark {value : List Component} (h : s.Faces stop rest tail) (hspares : SparesGaps stop)
    (hmark : afterMark? value = some rest) : ReadsAs stop custom value tail last (some ⟨true, last, s⟩) := by
  have hsplit := splitMark_of_some hmark
  refine ⟨?_, ?_, ?_, fun _ => rfl, ?_⟩
  · rw [refuses, hsplit]
    rfl
  · rw [hsplit]
    rfl
  · rw [hsplit]
    exact atStop_eq h hspares
  · rw [hsplit]
    nofun

theorem ReadsAs.of_refused (hmark : afterMark? (c :: rest) = none) (hc : (c.isCurly && !custom) = true) :
    ReadsAs stop custom (c :: rest) tail last none := by
  rw [ReadsAs, refuses_cons hmark, hc, Bool.true_or]

theorem ReadsAs.cons {rest' : List Lexeme} (h : ReadsAs stop custom rest tail rest' r) (hsolid : c.isGap = false)
    (hmark : afterMark? (c :: rest) = none) (hc : (c.isCurly && !custom) = false)
    (hrest : rest' = c.inside ++ (leavesAll rest ++ tail)) : ReadsAs stop custom (c :: rest) tail last r := by
  have hrefuses : refuses custom (c :: rest) = refuses custom rest := by rw [refuses_cons hmark, hc, Bool.false_or]
  cases r with
  | none => exact hrefuses.trans h
  | some v => exact ⟨hrefuses.trans h.1, h.2.cons hsolid hmark hrest⟩

theorem cons_of_next {l : Lexeme} {s' : Stream} (h : s.Faces stop cs tail) (hspares : SparesGaps stop)
    (hnext : s.next stop = some (l, s')) :
    ∃ c rest, cs.dropWhile isGap = c :: rest ∧ c.isGap = false ∧ opensBlock l.token = c.isCurly ∧
      s'.rest = c.inside ++ (leavesAll rest ++ tail) ∧ s'.Faces stop rest tail := by
  cases hdrop : cs.dropWhile isGap with
  | nil =>
    rw [h.next_of_nil hspares hdrop] at hnext
    cases hnext
  | cons c rest =>
    obtain ⟨s₁, hnext₁, hrest, hfaces⟩ := h.next_of_cons hspares hdrop
    obtain ⟨rfl, rfl⟩ := Prod.mk.inj (Option.some.inj (hnext₁.symm.trans hnext))
    have hmem : c ∈ cs := (List.dropWhile_suffix isGap).subset (hdrop ▸ List.mem_cons_self)
    refine ⟨c, rest, rfl, not_of_dropWhile_eq_cons hdrop, ?_, hrest, hfaces⟩
    rw [token_first, opensBlock, h.precede.isCurly_eq hmem]

theorem readsAs_readValue? (h : s.Faces stop cs tail) (hspares : SparesGaps stop) :
    ReadsAs stop custom cs tail last (readValue? stop custom s last) := by
  -- By the reader's own cases: with each token one component goes, and the gaps in front of it.
  fun_induction readValue? stop custom s last generalizing cs with
  | case1 s last s' hread =>
    have hmarks := rel_readMark? h hspares
    generalize hmark : afterMark? (cs.dropWhile isGap) = more at hmarks
    rw [hread] at hmarks
    cases hmarks with
    | some hfaces => exact .of_dropWhile h.precede (.of_mark hfaces hspares hmark)
  | case2 s last hread hnext =>
    refine .of_dropWhile h.precede ?_
    cases hdrop : cs.dropWhile isGap with
    | nil => exact .of_nil hnext
    | cons c rest =>
      obtain ⟨s', hnext', -⟩ := h.next_of_cons hspares hdrop
      rw [hnext] at hnext'
      cases hnext'
  | case3 s last hread l s' hnext hc =>
    have hmark := afterMark?_eq_none h hspares hread
    obtain ⟨c, rest, hdrop, -, hcurly, -⟩ := cons_of_next h hspares hnext
    refine .of_dropWhile h.precede ?_
    rw [hdrop] at hmark ⊢
    exact .of_refused hmark (hcurly ▸ hc)
  | case4 s last hread l s' hnext hc ih =>
    have hmark := afterMark?_eq_none h hspares hread
    obtain ⟨c, rest, hdrop, hsolid, hcurly, hrest, hfaces⟩ := cons_of_next h hspares hnext
    refine .of_dropWhile h.precede ?_
    rw [hdrop] at hmark ⊢
    exact (ih hfaces).cons hsolid hmark (hcurly ▸ Bool.eq_false_iff.2 hc) hrest

end

/-- The slice of the text that is taken for the value. -/
theorem ReadsTo.textOf_take {stop : Token → Bool} {value : List Component} {tail : List Lexeme} {v : ValueRead}
    (h : ReadsTo stop value tail (leavesAll value ++ tail) v) (hvalue : Precede value tail) :
    Lexeme.textOf ((leavesAll value ++ tail).take ((leavesAll value ++ tail).length - v.behind.length)) =
      valueText (splitMark value).1 := by
  rw [← textOf_keptLeaves]
  cases hall : (splitMark value).1.all isGap with
  | true =>
    have hgaps : AreGaps (splitMark value).1 :=
      areGaps_of_precede hvalue (splitMark_isPrefix value).subset (List.all_eq_true.1 hall)
    rw [h.unread hall, Nat.sub_self, List.take_zero, hgaps.keptLeaves_eq_nil]
  | false =>
    rw [h.read hall, List.length_append, Nat.add_sub_cancel, List.take_left]

/-! ### Declarations -/

section
variable {stop : Token → Bool} {s : Stream} {cs value : List Component} {tail : List Lexeme}

theorem rel_readValueOf? (h : s.Faces stop value tail) (hrest : s.rest = leavesAll value ++ tail)
    (hspares : SparesGaps stop) (property : String) :
    Option.Rel (fun r d => r.1 = d) (readValueOf? stop property s) ((valueParts? property value).map Parts.read) := by
  rw [readValueOf?, valueParts?_eq]
  have hreads : ReadsAs stop (isCustom property) value tail s.rest _ := readsAs_readValue? h hspares
  generalize readValue? stop (isCustom property) s s.rest = r at hreads
  cases r with
  | none =>
    rw [ReadsAs, refuses] at hreads
    rw [if_pos hreads]
    exact .none
  | some v =>
    obtain ⟨hrefuses, hreads⟩ := hreads
    rw [refuses] at hrefuses
    rw [if_neg (by simp [hrefuses]), Option.bind_some, hreads.ended, hreads.important]
    rw [hrest] at hreads ⊢
    dsimp only
    rw [hreads.textOf_take h.precede]
    cases (splitMark value).2 with
    | none => exact .some rfl
    | some rest =>
      dsimp only [Option.getD_some]
      split
      · exact .some rfl
      · exact .none

theorem readDeclaration?_eq (h : s.Faces stop cs tail) (hspares : SparesGaps stop) :
    (readDeclaration? stop s).map (·.1) = ofComponents? cs := by
  suffices hrel : Option.Rel (fun r d => r.1 = d) (readDeclaration? stop s) (ofComponents? cs) by
    generalize readDeclaration? stop s = r, ofComponents? cs = d at hrel
    cases hrel with
    | none => rfl
    | some hd => exact congrArg some hd
  rw [readDeclaration?, ofComponents?_eq_map_read, parts?, name?_eq, Option.map_bind]
  refine rel_bind (rel_readToken? h hspares fun _ _ => ident?_of_opens) fun n rest hname => ?_
  rw [Function.comp_apply, afterColon?_eq, Option.bind_map, Option.map_bind, hname.1]
  refine rel_bind (rel_readToken? hname.2.2 hspares fun _ _ => exactly_of_opens rfl) fun colon value hcolon => ?_
  exact rel_readValueOf? hcolon.2.2 hcolon.2.1 hspares rest.1

end

/-! ### Passes -/

theorem AreGaps.pass_append {gaps : List Component} (h : AreGaps gaps) (rest : List Component) :
    pass (gaps ++ rest) = pass rest := by
  have hgap : ∀ c ∈ gaps, c.isGap = true := List.all_eq_true.1 h.all
  have hkeep : ∀ c ∈ gaps, (!isSemicolon c) = true := fun c hc => by
    simpa using Bool.eq_false_iff.2 fun hs => Bool.false_ne_true ((isGap_of_isSemicolon hs).symm.trans (hgap c hc))
  have hgo : ∀ c ∈ gaps, (!endsItem c) = true := fun c hc => by
    have hs := hkeep c hc
    obtain ⟨l, rfl, -⟩ := h c hc
    simpa [endsItem, isCurly] using hs
  rw [pass, pass, List.takeWhile_append_of_pos hkeep, List.dropWhile_append_of_pos hkeep,
    List.dropWhile_append_of_pos hgo, ← ofComponents?_dropWhile, List.dropWhile_append_of_pos hgap,
    ofComponents?_dropWhile]

section
variable {c : Component} {cs rest : List Component} {tail : List Lexeme}

/-- In front of components of a block, up to the bracket that closes it. -/
abbrev InBlock (cs : List Component) (tail : List Lexeme) : Prop :=
  (Stream.of (leavesAll cs ++ tail)).Faces closesBlock cs tail

theorem InBlock.of_suffix (h : InBlock cs tail) (hs : rest <:+ cs) : InBlock rest tail := by
  obtain ⟨front, rfl⟩ := hs
  exact ⟨rfl, h.precede.of_append, fun c hc => h.free c (List.mem_append_right _ hc), h.halted⟩

theorem InBlock.pastStop_eq (h : InBlock cs tail) : pastStop (leavesAll cs ++ tail) = leavesAll (cs.drop 1) ++ tail := by
  cases cs with
  | nil =>
    cases tail with
    | nil => rfl
    | cons l tail => exact if_pos (h.halted l rfl)
  | cons c cs =>
    have hc : closesBlock c.first.token = false := by
      rw [token_first]
      exact h.free c List.mem_cons_self
    rw [leavesAll, leaves_eq, List.cons_append, List.cons_append, List.append_assoc, pastStop, if_neg (by simp [hc])]
    exact h.precede.settled_after_first

/-- Behind the first component that starts with a token to stop in front of. -/
theorem InBlock.pastStop_dropUntil (h : InBlock cs tail) {stop : Token → Bool}
    (hle : ∀ t, closesBlock t = true → stop t = true) :
    pastStop (dropUntil stop (leavesAll cs ++ tail)) = leavesAll ((cs.dropWhile (!stop ·.token)).drop 1) ++ tail := by
  rw [h.precede.dropUntil_leavesAll fun l hl => hle _ (h.halted l hl)]
  exact (h.of_suffix (List.dropWhile_suffix _)).pastStop_eq

theorem InBlock.isSemicolon_eq (h : InBlock cs tail) (hc : c ∈ cs) : isSemicolon c = endsDeclaration c.token := by
  rw [endsDeclaration, h.free c hc, Bool.or_false]
  obtain ⟨front, back, rfl⟩ := List.append_of_mem hc
  cases c with
  | leaf l => rfl
  | block b o body closer =>
    have ho := h.precede.of_append.grown.opens
    refine (beq_false_of_ne fun ht => ?_).symm
    rw [show o.token = .semicolon from ht] at ho
    cases ho

theorem InBlock.endsItem_eq (h : InBlock cs tail) (hc : c ∈ cs) : endsItem c = endsSkip c.token := by
  rw [endsItem, endsSkip, opensBlock, h.isSemicolon_eq hc, h.precede.isCurly_eq hc]

/-- A pass over the tokens of a block is a pass over its components. -/
theorem InBlock.streamPass_eq (h : InBlock cs tail) :
    streamPass (leavesAll cs ++ tail) = ((pass cs).1, leavesAll (pass cs).2 ++ tail) := by
  have hends (c : Component) (hc : c ∈ cs) : (!isSemicolon c) = !endsDeclaration c.token := by rw [h.isSemicolon_eq hc]
  have hskip (c : Component) (hc : c ∈ cs) : (!endsItem c) = !endsSkip c.token := by rw [h.endsItem_eq hc]
  -- The attempt sees the components up to the first semicolon, and the tokens behind them are not its business.
  have hread := readDeclaration?_eq (h.split fun _ => endsDeclaration_of_closesBlock) sparesGaps_endsDeclaration
  rw [pass, takeWhile_congr hends, dropWhile_congr hends, dropWhile_congr hskip, ← hread, streamPass]
  cases hfirst : readDeclaration? endsDeclaration (.of (leavesAll cs ++ tail)) with
  | some r =>
    rw [Option.map_some]
    dsimp only
    rw [ahead_of_readDeclaration? sparesGaps_endsDeclaration hfirst]
    exact congrArg _ (h.pastStop_dropUntil fun _ => endsDeclaration_of_closesBlock)
  | none =>
    rw [Option.map_none]
    dsimp only
    rw [ahead_readAll sparesGaps_endsSkip]
    exact congrArg _ (h.pastStop_dropUntil fun _ ht => endsSkip_of_endsDeclaration (endsDeclaration_of_closesBlock ht))

theorem InBlock.atEnd_eq (h : InBlock cs tail) : atEnd (leavesAll cs ++ tail) = cs.all isGap :=
  atStop_eq h sparesGaps_closesBlock

theorem InBlock.blockEnd_eq (h : InBlock cs tail) : blockEnd (leavesAll cs ++ tail) = tail := by
  have hall : ∀ c ∈ cs, (!closesBlock c.token) = true := fun c hc => by simp [h.free c hc]
  rw [blockEnd, h.precede.dropUntil_leavesAll h.halted, List.dropWhile_eq_nil_iff.2 hall]
  rfl

theorem InBlock.ofBlock_eq (h : InBlock cs tail) (hmore : cs.all isGap = false) :
    ofBlock cs = (pass cs).1.toList ++ ofBlock (pass cs).2 := by
  have hcs : cs.takeWhile isGap ++ cs.dropWhile isGap = cs := List.takeWhile_append_dropWhile
  have hpass := (areGaps_takeWhile h.precede).pass_append (cs.dropWhile isGap)
  rw [hcs] at hpass
  cases hdrop : cs.dropWhile isGap with
  | nil =>
    rw [List.all_eq_true.2 (List.dropWhile_eq_nil_iff.1 hdrop)] at hmore
    cases hmore
  | cons d ds => rw [ofBlock_of_cons hdrop, hpass, hdrop]

/-- The loop over the tokens of a block has read the declarations of the components it has left behind. -/
theorem Passes.inBlock (h : InBlock cs tail) {n : Nat} {ds : List Declaration} {ls : List Lexeme}
    (hp : Passes (leavesAll cs ++ tail) n ds ls) :
    ∃ rest, ls = leavesAll rest ++ tail ∧ InBlock rest tail ∧ ofBlock cs = ds ++ ofBlock rest := by
  induction hp with
  | start => exact ⟨cs, rfl, h, rfl⟩
  | step _ hmore ih =>
    obtain ⟨rest, rfl, hrest, hds⟩ := ih
    rw [hrest.atEnd_eq] at hmore
    refine ⟨(pass rest).2, ?_, hrest.of_suffix (pass_suffix rest), ?_⟩
    · rw [hrest.streamPass_eq]
    · rw [hds, hrest.ofBlock_eq hmore, hrest.streamPass_eq, List.append_assoc]

/-- Where the loop ends, it has read all declarations of the block. -/
theorem Passes.eq_ofBlock (h : InBlock cs tail) {n : Nat} {ds : List Declaration} {ls : List Lexeme}
    (hp : Passes (leavesAll cs ++ tail) n ds ls) (hend : atEnd ls = true) : ds = ofBlock cs := by
  obtain ⟨rest, rfl, hrest, hds⟩ := hp.inBlock h
  rw [hrest.atEnd_eq] at hend
  rw [hds, ofBlock_of_nil (List.dropWhile_eq_nil_iff.2 (List.all_eq_true.1 hend)), List.append_nil]

end

/-! ### The block of a text -/

theorem closes?_eq_some {t : Token} {b : Bracket} (h : t.closes? = some b) : t = .closing b := by
  cases t <;> cases h
  rfl

theorem closes?_ne_of_grown {b : Bracket} {cs : List Component} (h : Grown (some b) cs) {c : Component} (hc : c ∈ cs) :
    c.token.closes? ≠ some b := by
  obtain ⟨front, back, rfl⟩ := List.append_of_mem hc
  intro hcloses
  cases c with
  | leaf l =>
    rcases h.right.head_cases with hfits | ⟨_, _, _, hblock, -⟩
    · exact (leaf_fits_iff.1 hfits).2 b hcloses rfl
    · cases hblock
  | block b' o body closer =>
    have ho : (block b' o body closer).token.opens? = some b' := h.right.opens
    rw [Token.opens?_of_closes? hcloses] at ho
    cases ho

theorem closesBlock_of_grown {cs : List Component} (h : Grown (some .curly) cs) :
    ∀ c ∈ cs, closesBlock c.token = false := fun c hc =>
  beq_false_of_ne fun ht => closes?_ne_of_grown h hc (by rw [ht]; rfl)

/-- Behind the bracket that opens it, a block is in front of the loop, up to the one that closes it. -/
theorem inBlock_of_grown {o : Lexeme} {body back : List Component} {closer : Option Lexeme}
    (h : Grown none (.block .curly o body closer :: back)) :
    InBlock body (closer.toList ++ leavesAll back) ∧ (closer = none → back = []) ∧
      ∀ l ∈ closer, l.token = .closing .curly := by
  rcases h.head_cases with hfits | ⟨b, o, body, hblock, rfl, ho, hbody⟩
  · cases closer with
    | none => cases hfits
    | some c =>
      obtain ⟨⟨ho, hbody⟩, hc⟩ := block_fits.1 hfits
      have ht : c.token = .closing .curly := closes?_eq_some hc
      have hnone := fitsAll_none hbody
      refine ⟨⟨rfl, ⟨.closed hnone, .inr hnone⟩, closesBlock_of_grown (.closed hbody), ?_⟩, nofun, ?_⟩
      · intro l hl
        obtain rfl := Option.some.inj hl
        exact beq_iff_eq.2 ht
      · intro l hl
        obtain rfl := Option.some.inj hl
        exact ht
  · cases hblock
    exact ⟨⟨rfl, ⟨hbody.outside, .inl rfl⟩, closesBlock_of_grown hbody, nofun⟩, fun _ => rfl, nofun⟩

/-- The first block in curly brackets, and what stands around it. -/
theorem firstBlock?_cases (cs : List Component) :
    firstBlock? cs = none ∧ cs.dropWhile (!isCurly ·) = [] ∨
      ∃ front o body closer back, cs = front ++ .block .curly o body closer :: back ∧ firstBlock? cs = some body ∧
        cs.dropWhile (!isCurly ·) = .block .curly o body closer :: back := by
  cases hdrop : cs.dropWhile (!isCurly ·) with
  | nil =>
    refine .inl ⟨Option.eq_none_iff_forall_ne_some.2 fun body hbody => ?_, rfl⟩
    obtain ⟨o, closer, hmem⟩ := exists_of_firstBlock? hbody
    cases List.dropWhile_eq_nil_iff.1 hdrop _ hmem
  | cons c back =>
    have hhead := not_of_dropWhile_eq_cons (p := (!isCurly ·)) hdrop
    obtain ⟨o, body, closer, rfl⟩ : ∃ o body closer, c = .block .curly o body closer := by
      cases c with
      | leaf l => cases hhead
      | block b o body closer =>
        cases b with
        | curly => exact ⟨o, body, closer, rfl⟩
        | _ => cases hhead
    have hfront : ∀ x ∈ cs.takeWhile (!isCurly ·), x.isCurly = false := fun x hx => by
      simpa using List.mem_takeWhile_imp hx
    have hcs : cs.takeWhile (!isCurly ·) ++ .block .curly o body closer :: back = cs := by
      rw [← hdrop]
      exact List.takeWhile_append_dropWhile
    have hfirst := firstBlock?_append hfront o body closer back
    rw [hcs] at hfirst
    exact .inr ⟨_, o, body, closer, back, hcs.symm, hfirst, rfl⟩

theorem opened?_eq (ls : List Lexeme) : opened? ls = (leavesAll ((components ls).dropWhile (!isCurly ·))).tail? := by
  have hprecede : Precede (components ls) [] := ⟨components_grown ls, .inl rfl⟩
  have hcurly : ∀ c ∈ components ls, (!opensBlock c.token) = !c.isCurly := fun c hc => by
    rw [hprecede.isCurly_eq hc, opensBlock]
  have hahead : dropUntil opensBlock (leavesAll (components ls) ++ []) = _ := hprecede.dropUntil_leavesAll nofun
  rw [List.append_nil, List.append_nil, leavesAll_components, dropWhile_congr hcurly] at hahead
  rw [opened?, ahead_readAll sparesGaps_opensBlock]
  exact congrArg List.tail? hahead

/-- The loop starts in the block that is read, or there is none to read. -/
theorem loopStart?_cases (text : List Char) (p : Position) :
    loopStart? text p = none ∧ atPosition? text p = none ∨
      ∃ rest front o body closer back, seek? text p = some rest ∧
        componentsOf rest = front ++ .block .curly o body closer :: back ∧ atPosition? text p = some (ofBlock body) ∧
          loopStart? text p = some (leavesAll body ++ (closer.toList ++ leavesAll back)) := by
  rw [loopStart?, atPosition?]
  cases hseek : seek? text p with
  | none => exact .inl ⟨rfl, rfl⟩
  | some rest =>
    rw [Option.bind_some, Option.bind_some, opened?_eq]
    rcases firstBlock?_cases (componentsOf rest) with ⟨hnone, hdrop⟩ | ⟨front, o, body, closer, back, hcs, hbody, hdrop⟩
    · rw [componentsOf] at hdrop
      exact .inl ⟨by rw [hdrop]; rfl, by rw [hnone, Option.map_none]⟩
    · refine .inr ⟨rest, front, o, body, closer, back, rfl, hcs, by rw [hbody, Option.map_some], ?_⟩
      rw [componentsOf] at hdrop
      rw [hdrop, leavesAll, leaves_eq, inside, List.cons_append, List.append_assoc]
      rfl

/-- The loop starts behind the bracket, whatever stands there. -/
theorem loopStart?_of_open (cs : List Char) : loopStart? ('\x7b' :: cs) ⟨0, 1⟩ = some (lexemes cs) := by
  rw [loopStart?, seek?_start, Option.bind_some, opened?, ahead_readAll sparesGaps_opensBlock,
    lexemes_of_scan (t := .opening .curly) rfl]
  exact congrArg List.tail? (dropUntil_of_stop rfl)

/-- A pass that starts in front of the end of the block takes some of the text. -/
theorem exists_taken {ls : List Lexeme} (htext : ∀ l ∈ ls, l.text ≠ []) (hmore : atEnd ls = false) :
    ∃ taken, ls = taken ++ (streamPass ls).2 ∧ Lexeme.textOf taken ≠ [] := by
  obtain ⟨taken, htaken⟩ := streamPass_suffix ls
  refine ⟨taken, htaken.symm, ?_⟩
  cases taken with
  | nil =>
    have hlt := streamPass_length_lt hmore
    rw [List.nil_append] at htaken
    rw [htaken] at hlt
    exact absurd hlt (Nat.lt_irrefl _)
  | cons l taken =>
    intro hnil
    exact htext l (htaken ▸ List.mem_cons_self) (List.append_eq_nil_iff.1 hnil).1

/-- Whatever stands in a block, each pass of the loop over it ends further on and inside the block. The loop comes to
an end, with the declarations that are read from the block, where nothing but gaps stands in front of the bracket
that closes the block, or of the end of the text if it is left open. -/
theorem loop_ends_with_block {text : List Char} {p : Position} {start : List Lexeme}
    (h : loopStart? text p = some start) :
    ∃ rest front o body closer back, seek? text p = some rest ∧
      componentsOf rest = front ++ .block .curly o body closer :: back ∧
      start = leavesAll body ++ (closer.toList ++ leavesAll back) ∧
      (∀ l ∈ closer, l.token = .closing .curly) ∧ (closer = none → back = []) ∧
      (∃ n ds ls, Passes start n ds ls ∧ atEnd ls = true) ∧
      ∀ n ds ls, Passes start n ds ls → n ≤ (leavesAll body).length ∧
        (atEnd ls = false → ∃ taken, ls = taken ++ (streamPass ls).2 ∧ Lexeme.textOf taken ≠ [] ∧
          closer.toList ++ leavesAll back <:+ (streamPass ls).2) ∧
        (atEnd ls = true → atPosition? text p = some ds ∧
          ∃ gaps, (∀ l ∈ gaps, l.token.isGap = true) ∧ ls = gaps ++ (closer.toList ++ leavesAll back)) := by
  rcases loopStart?_cases text p with ⟨hnone, -⟩ | ⟨rest, front, o, body, closer, back, hseek, hcs, hread, hstart⟩
  · rw [h] at hnone
    cases hnone
  obtain rfl := Option.some.inj (h.symm.trans hstart)
  have hgrown := components_grown (lexemes rest)
  have hleaves := leavesAll_components (lexemes rest)
  rw [show components (lexemes rest) = _ from hcs] at hgrown hleaves
  obtain ⟨hblock, hopen, hcloser⟩ := inBlock_of_grown hgrown.right
  refine ⟨rest, front, o, body, closer, back, hseek, hcs, rfl, hcloser, hopen, Passes.start.exists_end, ?_⟩
  intro n ds ls hp
  -- The end of the block stands behind every state of the loop, and behind what the next pass leaves.
  have hfin : blockEnd ls = closer.toList ++ leavesAll back := hp.blockEnd_eq.trans hblock.blockEnd_eq
  have hfin_suffix : closer.toList ++ leavesAll back <:+ ls := hfin ▸ dropUntil_suffix closesBlock ls
  refine ⟨?_, fun hmore => ?_, fun hend => ⟨?_, ?_⟩⟩
  · have hlen := hp.length_le
    have hle := hfin_suffix.length_le
    rw [List.length_append] at hlen
    omega
  · have htext : ∀ l ∈ ls, l.text ≠ [] := fun l hl => by
      have hmem : l ∈ lexemes rest := by
        rw [← hleaves, leavesAll_append, leavesAll, leaves_eq, inside, List.cons_append, List.append_assoc]
        exact List.mem_append_right _ (List.mem_cons_of_mem _ (hp.suffix.subset hl))
      exact text_ne_nil hmem
    obtain ⟨taken, htaken, hne⟩ := exists_taken htext hmore
    refine ⟨taken, htaken, hne, ?_⟩
    rw [← hfin, ← blockEnd_streamPass]
    exact dropUntil_suffix closesBlock _
  · rw [hread, hp.eq_ofBlock hblock hend]
  · refine ⟨ls.takeWhile (·.token.isGap), fun l hl => by simpa using List.mem_takeWhile_imp hl, ?_⟩
    rw [← hfin, ← dropWhile_eq_blockEnd hend]
    exact List.takeWhile_append_dropWhile.symm

/-- Stray brackets, a block without selector, a bad string, a bad url, and at last a bracket and a comment that the
text leaves open. -/
theorem loop_ends_with_block_garbage :
    loopStart? ('\x7b' :: ";)]\x7b\x7db:'c\nurl(d'e);f:(/*".toList) ⟨0, 1⟩ =
        some (lexemes ";)]\x7b\x7db:'c\nurl(d'e);f:(/*".toList) ∧
      ∃ n ds ls, Passes (lexemes ";)]\x7b\x7db:'c\nurl(d'e);f:(/*".toList) n ds ls ∧ atEnd ls = true ∧
        atPosition? ('\x7b' :: ";)]\x7b\x7db:'c\nurl(d'e);f:(/*".toList) ⟨0, 1⟩ = some ds := by
  have hstart := loopStart?_of_open ";)]\x7b\x7db:'c\nurl(d'e);f:(/*".toList
  obtain ⟨_, _, _, _, _, _, -, -, -, -, -, ⟨n, ds, ls, hp, hend⟩, hstates⟩ := loop_ends_with_block hstart
  exact ⟨hstart, n, ds, ls, hp, hend, ((hstates n ds ls hp).2.2 hend).1⟩

end StyleBump.Declaration
