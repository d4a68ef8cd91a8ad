import StyleBump.Declaration.Block
import StyleBump.Proofs.Streams

/-! # The loop over a block

The declarations of a block are read by a loop over the tokens behind its opening bracket, up to the end of the
text. A pass tries a declaration up to the next semicolon. If there is none, it goes back to where it started and
skips an item. Neither way can it stop where it started (`streamPass_length_lt`) or go beyond the end of the block
(`blockEnd_streamPass`), so after a bounded number of passes the loop stands at this end (`Passes.exists_end`). -/

namespace StyleBump.Declaration
open Css Text

/-! ### Where readers stop -/

def opensBlock (t : Token) : Bool := t == .opening .curly

def closesBlock (t : Token) : Bool := t == .closing .curly

def endsDeclaration (t : Token) : Bool := t == .semicolon || closesBlock t

def endsSkip (t : Token) : Bool := opensBlock t || endsDeclaration t

/-! ### Readers -/

def ident? : Token → Option String
  | .ident n => some n
  | _ => none

def exactly (t u : Token) : Option Unit := if u = t then some () else none

section
variable (stop : Token → Bool)

/-- The next token, if it is one to read: what it is read as, and where the reader is behind it. -/
def readToken? {α : Type} (f : Token → Option α) (s : Stream) : Option (α × Stream) :=
  (s.next stop).bind fun r => (f r.1.token).map (·, r.2)

/-- Behind the mark of an important declaration. -/
def readMark? (s : Stream) : Option Stream :=
  (readToken? stop (exactly (.delim '!')) s).bind fun bang => (readToken? stop ident? bang.2).bind fun n =>
    if sameName n.1 "important" then some n.2 else none

/-- What a reader of values finds: whether the mark comes behind the value, what is left behind the last token of
the value, and where the reader is. -/
structure ValueRead where
  important : Bool
  behind : List Lexeme
  stream : Stream

/-- Reads the tokens of a value, up to the mark if there is one. A block in curly brackets is refused where it is
not allowed; `last` is what is left behind the last token. -/
def readValue? (custom : Bool) (s : Stream) (last : List Lexeme) : Option ValueRead :=
  match readMark? stop s with
  | some s' => some ⟨true, last, s'⟩
  | none =>
    match _h : s.next stop with
    | none => some ⟨false, last, s⟩
    | some (l, s') => if opensBlock l.token && !custom then none else readValue? custom s' s'.rest
termination_by s.rest.length
decreasing_by exact Stream.rest_lt_of_next _h

/-- Whether only gaps stand in front of where to stop. -/
def atStop (s : Stream) : Bool := (s.next stop).isNone

/-- Reads a declaration of a property from behind the colon on: its value, and nothing behind the mark. -/
def readValueOf? (property : String) (s : Stream) : Option (Declaration × Stream) :=
  (readValue? stop (isCustom property) s s.rest).bind fun v =>
    let value := s.rest.take (s.rest.length - v.behind.length)
    if atStop stop v.stream then some (⟨property, String.ofList (tidy (Lexeme.textOf value)), v.important⟩, v.stream)
    else none

def readDeclaration? (s : Stream) : Option (Declaration × Stream) :=
  (readToken? stop ident? s).bind fun n => (readToken? stop (exactly .colon) n.2).bind fun colon =>
    readValueOf? stop n.1 colon.2

/-- Reads all tokens. -/
def readAll (s : Stream) : Stream :=
  match _h : s.next stop with
  | none => s
  | some (_, s') => readAll s'
termination_by s.rest.length
decreasing_by exact Stream.rest_lt_of_next _h

end

/-! ### Passes -/

/-- What is left behind the token that stopped a reader and what it opens; the bracket that closes the block
stays. -/
def pastStop : List Lexeme → List Lexeme
  | [] => []
  | l :: ls => if closesBlock l.token then l :: ls else (Stream.after l ls).settled

/-- One pass over what is left of a text: the declaration it starts with, if any, and where the pass ends. -/
def streamPass (ls : List Lexeme) : Option Declaration × List Lexeme :=
  match readDeclaration? endsDeclaration (.of ls) with
  | some (d, s) => (some d, pastStop (s.ahead endsDeclaration))
  | none => (none, pastStop ((readAll endsSkip (.of ls)).ahead endsSkip))

/-- Whether the loop ends here: only gaps stand in front of the end of the block. -/
def atEnd (ls : List Lexeme) : Bool := atStop closesBlock (.of ls)

/-- The loop after some number of passes: the declarations that it has read, and what is left of the text. -/
inductive Passes (start : List Lexeme) : Nat → List Declaration → List Lexeme → Prop
  | start : Passes start 0 [] start
  | step {n : Nat} {ds : List Declaration} {ls : List Lexeme} (h : Passes start n ds ls) (more : atEnd ls = false) :
      Passes start (n + 1) (ds ++ (streamPass ls).1.toList) (streamPass ls).2

/-- The bracket that closes the block, and what stands behind it; nothing, if the block is left open. -/
def blockEnd (ls : List Lexeme) : List Lexeme := dropUntil closesBlock ls

/-- What stands behind the bracket that opens the first block. -/
def opened? (ls : List Lexeme) : Option (List Lexeme) := ((readAll opensBlock (.of ls)).ahead opensBlock).tail?

/-- Where the loop over the first block from a position of a text on starts. -/
def loopStart? (text : List Char) (p : Text.Position) : Option (List Lexeme) :=
  (Text.seek? text p).bind fun rest => opened? (lexemes rest)

/-! ### Readers do not pass what they stop in front of -/

section
variable {stop : Token → Bool} {s s' : Stream}

theorem ahead_of_readToken? {α : Type} {f : Token → Option α} {x : α} (h : SparesGaps stop)
    (hread : readToken? stop f s = some (x, s')) : s'.ahead stop = s.ahead stop := by
  obtain ⟨⟨l, s₁⟩, hnext, hmap⟩ := Option.bind_eq_some_iff.1 hread
  obtain ⟨y, -, hy⟩ := Option.map_eq_some_iff.1 hmap
  cases hy
  exact Stream.ahead_of_next h hnext

theorem ahead_of_readMark? (h : SparesGaps stop) (hread : readMark? stop s = some s') :
    s'.ahead stop = s.ahead stop := by
  obtain ⟨⟨_, s₁⟩, hbang, hread⟩ := Option.bind_eq_some_iff.1 hread
  obtain ⟨⟨n, s₂⟩, hname, hsame⟩ := Option.bind_eq_some_iff.1 hread
  have hn := (ahead_of_readToken? h hname).trans (ahead_of_readToken? h hbang)
  dsimp only at hsame
  split at hsame
  · cases hsame
    exact hn
  · cases hsame

theorem ahead_of_readValue? {custom : Bool} {last : List Lexeme} {v : ValueRead} (h : SparesGaps stop)
    (hread : readValue? stop custom s last = some v) : v.stream.ahead stop = s.ahead stop := by
  fun_induction readValue? stop custom s last with
  | case1 s last s' hmark =>
    cases hread
    exact ahead_of_readMark? h hmark
  | case2 s last _ hnext =>
    cases hread
    rfl
  | case3 => cases hread
  | case4 s last _ l s' hnext _ ih => exact (ih hread).trans (Stream.ahead_of_next h hnext)

theorem ahead_of_readDeclaration? {d : Declaration} (h : SparesGaps stop)
    (hread : readDeclaration? stop s = some (d, s')) : s'.ahead stop = s.ahead stop := by
  obtain ⟨⟨n, s₁⟩, hname, hread⟩ := Option.bind_eq_some_iff.1 hread
  obtain ⟨⟨_, s₂⟩, hcolon, hread⟩ := Option.bind_eq_some_iff.1 hread
  obtain ⟨v, hvalue, hread⟩ := Option.bind_eq_some_iff.1 hread
  have hv := (ahead_of_readValue? h hvalue).trans ((ahead_of_readToken? h hcolon).trans (ahead_of_readToken? h hname))
  dsimp only at hread
  split at hread
  · cases hread
    exact hv
  · cases hread

theorem ahead_readAll (h : SparesGaps stop) (s : Stream) : (readAll stop s).ahead stop = s.ahead stop := by
  fun_induction readAll stop s with
  | case1 => rfl
  | case2 s l s' hnext ih => exact ih.trans (Stream.ahead_of_next h hnext)

end

/-! ### A pass gets on and stays inside -/

theorem endsDeclaration_of_closesBlock {t : Token} (h : closesBlock t = true) : endsDeclaration t = true := by
  rw [endsDeclaration, h, Bool.or_true]

theorem endsSkip_of_endsDeclaration {t : Token} (h : endsDeclaration t = true) : endsSkip t = true := by
  rw [endsSkip, h, Bool.or_true]

theorem sparesGaps_endsSkip : SparesGaps endsSkip := by
  intro t ht
  cases t <;> first | rfl | cases ht

theorem sparesGaps_opensBlock : SparesGaps opensBlock := fun t ht =>
  (Bool.or_eq_false_iff.1 (sparesGaps_endsSkip t ht)).1

theorem sparesGaps_endsDeclaration : SparesGaps endsDeclaration := fun t ht =>
  (Bool.or_eq_false_iff.1 (sparesGaps_endsSkip t ht)).2

theorem sparesGaps_closesBlock : SparesGaps closesBlock := fun t ht =>
  (Bool.or_eq_false_iff.1 (sparesGaps_endsDeclaration t ht)).2

/-- Whatever a pass reads, it ends behind the first token that ends a declaration, or what is skipped in place of
one. -/
theorem streamPass_snd (ls : List Lexeme) :
    (streamPass ls).2 = pastStop (dropUntil endsDeclaration ls) ∨
      (streamPass ls).2 = pastStop (dropUntil endsSkip ls) := by
  unfold streamPass
  split
  · rename_i hread
    exact .inl (congrArg pastStop (ahead_of_readDeclaration? sparesGaps_endsDeclaration hread))
  · exact .inr (congrArg pastStop (ahead_readAll sparesGaps_endsSkip (.of ls)))

theorem pastStop_suffix (ls : List Lexeme) : pastStop ls <:+ ls := by
  cases ls with
  | nil => exact List.suffix_refl _
  | cons l ls =>
    rw [pastStop]
    split
    · exact List.suffix_refl _
    · exact (Stream.settled_suffix _).trans (List.suffix_cons l ls)

theorem streamPass_suffix (ls : List Lexeme) : (streamPass ls).2 <:+ ls := by
  rcases streamPass_snd ls with h | h <;> rw [h] <;> exact (pastStop_suffix _).trans (dropUntil_suffix _ _)

theorem blockEnd_pastStop (ls : List Lexeme) : blockEnd (pastStop ls) = blockEnd ls := by
  cases ls with
  | nil => rfl
  | cons l ls =>
    cases hl : closesBlock l.token with
    | true => rw [pastStop, if_pos hl]
    | false => rw [pastStop, if_neg (by simp [hl]), blockEnd, blockEnd, dropUntil_of_pass hl]

/-- The end of the block is the same behind a pass. -/
theorem blockEnd_streamPass (ls : List Lexeme) : blockEnd (streamPass ls).2 = blockEnd ls := by
  rcases streamPass_snd ls with h | h <;> rw [h, blockEnd_pastStop]
  · exact dropUntil_dropUntil (fun _ => endsDeclaration_of_closesBlock) ls
  · exact dropUntil_dropUntil (fun _ ht => endsSkip_of_endsDeclaration (endsDeclaration_of_closesBlock ht)) ls

theorem atEnd_iff (ls : List Lexeme) :
    atEnd ls = true ↔ ∀ l ∈ (ls.dropWhile (·.token.isGap)).head?, closesBlock l.token = true := by
  rw [atEnd, atStop]
  cases hls : ls.dropWhile (·.token.isGap) with
  | nil => simp [Stream.next_of_nil (s := .of ls) hls]
  | cons l rest =>
    cases hl : closesBlock l.token with
    | true => simp [Stream.next_of_stop (s := .of ls) hls hl, hl]
    | false => simp [Stream.next_of_pass (s := .of ls) hls hl, hl]

/-- A token that stops a reader where the loop goes on is left behind. -/
theorem length_pastStop_lt {stop : Token → Bool} (hspares : SparesGaps stop) {ls : List Lexeme} (h : atEnd ls = false) :
    (pastStop (dropUntil stop ls)).length < ls.length := by
  cases ls with
  | nil => cases h
  | cons l ls =>
    cases hl : stop l.token with
    | true =>
      -- A gap stops no reader, and where the bracket of the block came next, the loop would be at its end.
      have hgap : l.token.isGap = false := Bool.eq_false_iff.2 fun hg => by
        rw [hspares _ hg] at hl
        cases hl
      have hopen : closesBlock l.token = false := Bool.eq_false_iff.2 fun hc => by
        rw [(atEnd_iff _).2 (by simp [hgap, hc])] at h
        cases h
      rw [dropUntil_of_stop hl, pastStop, if_neg (by simp [hopen])]
      exact Nat.lt_succ_of_le (Stream.settled_suffix (.after l ls)).length_le
    | false =>
      rw [dropUntil_of_pass hl]
      have hsuffix := ((pastStop_suffix _).trans (dropUntil_suffix stop _)).trans (Stream.settled_suffix (.after l ls))
      exact Nat.lt_succ_of_le hsuffix.length_le

/-- A pass that does not start at the end leaves less than it found. -/
theorem streamPass_length_lt {ls : List Lexeme} (h : atEnd ls = false) : (streamPass ls).2.length < ls.length := by
  rcases streamPass_snd ls with hpass | hpass <;> rw [hpass]
  · exact length_pastStop_lt sparesGaps_endsDeclaration h
  · exact length_pastStop_lt sparesGaps_endsSkip h

/-- Where the loop ends, only gaps stand in front of the end of the block. -/
theorem dropWhile_eq_blockEnd {ls : List Lexeme} (h : atEnd ls = true) :
    ls.dropWhile (·.token.isGap) = blockEnd ls := by
  rw [blockEnd, ← dropUntil_dropWhile sparesGaps_closesBlock]
  have hhead := (atEnd_iff ls).1 h
  cases hls : ls.dropWhile (·.token.isGap) with
  | nil => rw [dropUntil]
  | cons l rest =>
    rw [hls] at hhead
    exact (dropUntil_of_stop (hhead l rfl)).symm

namespace Passes
variable {start ls : List Lexeme} {n : Nat} {ds : List Declaration}

theorem suffix (h : Passes start n ds ls) : ls <:+ start := by
  induction h with
  | start => exact List.suffix_refl _
  | step _ _ ih => exact (streamPass_suffix _).trans ih

theorem blockEnd_eq (h : Passes start n ds ls) : blockEnd ls = blockEnd start := by
  induction h with
  | start => rfl
  | step _ _ ih => exact (blockEnd_streamPass _).trans ih

theorem length_le (h : Passes start n ds ls) : n + ls.length ≤ start.length := by
  induction h with
  | start => omega
  | step _ hmore ih =>
    have hlt := streamPass_length_lt hmore
    omega

/-- From wherever the loop has come, it comes to its end. -/
theorem exists_end {n : Nat} {ds : List Declaration} {ls : List Lexeme} (h : Passes start n ds ls) :
    ∃ m es last, Passes start m es last ∧ atEnd last = true := by
  cases hmore : atEnd ls with
  | true => exact ⟨n, ds, ls, h, hmore⟩
  | false => exact (h.step hmore).exists_end
termination_by ls.length
decreasing_by exact streamPass_length_lt hmore

end Passes

end StyleBump.Declaration
