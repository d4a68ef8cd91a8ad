import StyleBump.Proofs.AuthoredValue
import StyleBump.Proofs.TokenChars

/-! # Passages of a block

A passage is text that is read to the same declarations wherever it stands in a block, and that does not
touch what is read behind it. Passages in a row are a passage (`Passage.append`), and text that ends with a
semicolon between its components is one, whatever else it holds (`passage_of_endsItem`): neither a
declaration nor what is skipped in place of one goes on behind a semicolon. -/

namespace StyleBump.Css
open Component

/-- What stands in front of the lexemes of an open block stands in front of the content of the block. -/
theorem nestInto_block (f : Frame) (front : List Component) (ls : List Lexeme) (done : List Component)
    (frames : List Frame) :
    ∃ body c back,
      nestInto ls done (frames ++ [f]) = f.earlier.reverse ++ .block f.bracket f.opener body c :: back ∧
      nestInto ls (doneUnder front done frames) (framesUnder front frames ++ [f]) =
        f.earlier.reverse ++ .block f.bracket f.opener (front.reverse ++ body) c :: back := by
  induction ls generalizing done frames with
  | nil =>
    induction frames generalizing done with
    | nil => exact ⟨done.reverse, none, [], by simp [nestInto, closeFrames], by simp [nestInto, closeFrames, doneUnder, framesUnder]⟩
    | cons g gs ih =>
      obtain ⟨body, c, back, h, h'⟩ := ih (.block g.bracket g.opener done.reverse none :: g.earlier)
      refine ⟨body, c, back, h, ?_⟩
      rw [doneUnder_cons] at h'
      exact h'
  | cons l ls ih =>
    have hin : innermost (framesUnder front frames ++ [f]) = innermost (frames ++ [f]) := by cases frames <;> rfl
    rcases lexeme_cases l (frames ++ [f]) with ⟨b, ho⟩ | ⟨b, o, earlier, fs, hfs, hc⟩ | hl
    · rw [nestInto_opener ho, nestInto_opener ho]
      exact ih [] (⟨b, l, done⟩ :: frames)
    · cases frames with
      | nil =>
        -- The bracket closes the block itself, so the rest stands behind it.
        obtain ⟨rfl, -⟩ := List.cons.inj hfs
        have hrest (inner : List Component) := nestInto_under (.block b o inner (some l) :: earlier) ls [] []
        refine ⟨done.reverse, some l, nestInto ls [] [], ?_, ?_⟩
        · rw [List.nil_append, nestInto_closer hc]
          exact (hrest _).trans (by simp)
        · rw [framesUnder, List.nil_append, nestInto_closer hc]
          refine (hrest _).trans ?_
          simp [doneUnder]
      | cons g gs =>
        obtain ⟨rfl, -⟩ := List.cons.inj hfs
        rw [framesUnder, List.cons_append, List.cons_append, nestInto_closer hc, nestInto_closer hc, ← doneUnder_cons]
        exact ih _ gs
    · rw [nestInto_leaf hl, nestInto_leaf (by rwa [hin]), ← doneUnder_cons]
      exact ih _ frames

end StyleBump.Css

namespace StyleBump.Declaration
open Css Css.Component Text

/-! ### Reading on behind a semicolon -/

/-- Nothing, or components of which the last is a semicolon. -/
def EndsWithSemicolon (cs : List Component) : Prop := ∀ c ∈ cs.getLast?, isSemicolon c = true

theorem EndsWithSemicolon.of_suffix {cs ds : List Component} (h : EndsWithSemicolon cs) (hs : ds <:+ cs) :
    EndsWithSemicolon ds := by
  intro c hc
  obtain ⟨front, rfl⟩ := hs
  exact h c (by rw [List.getLast?_append, Option.mem_def.1 hc]; rfl)

theorem EndsWithSemicolon.exists_semicolon {d : Component} {ds : List Component} (h : EndsWithSemicolon (d :: ds)) :
    ∃ c ∈ d :: ds, isSemicolon c = true :=
  ⟨(d :: ds).getLast (List.cons_ne_nil d ds), List.getLast_mem _, h _ (List.getLast?_eq_getLast_of_ne_nil _)⟩

theorem isGap_of_isSemicolon {c : Component} (h : isSemicolon c = true) : c.isGap = false := by
  cases c with
  | block b o body e => cases h
  | leaf l =>
    have ht : l.token = .semicolon := eq_of_beq h
    rw [isGap, token, ht]
    rfl

theorem pass_suffix (cs : List Component) : (pass cs).2 <:+ cs := by
  unfold pass
  split <;> exact (List.drop_suffix _ _).trans (List.dropWhile_suffix _)

/-- A pass that finds a semicolon looks at nothing behind it. -/
theorem pass_append {cs : List Component} (h : ∃ c ∈ cs, isSemicolon c = true) (rest : List Component) :
    pass (cs ++ rest) = ((pass cs).1, (pass cs).2 ++ rest) := by
  obtain ⟨c, hc, hs⟩ := h
  have hsemicolon : ∃ x ∈ cs, (!isSemicolon x) = false := ⟨c, hc, by simp [hs]⟩
  have hends : ∃ x ∈ cs, (!endsItem x) = false := ⟨c, hc, by simp [endsItem, hs]⟩
  simp only [pass, takeWhile_append_of_stop hsemicolon, drop_dropWhile_append_of_stop hsemicolon,
    drop_dropWhile_append_of_stop hends]
  split <;> rfl

/-- What stands in front of a semicolon and what stands behind it are read each by itself. -/
theorem ofBlock_append {cs : List Component} (h : EndsWithSemicolon cs) (rest : List Component) :
    ofBlock (cs ++ rest) = ofBlock cs ++ ofBlock rest := by
  cases hcs : cs.dropWhile isGap with
  | nil =>
    -- A semicolon is no gap, so there are no components at all.
    have hnil : cs = [] := by
      cases cs with
      | nil => rfl
      | cons d ds =>
        obtain ⟨c, hc, hs⟩ := h.exists_semicolon
        exact absurd (List.dropWhile_eq_nil_iff.1 hcs c hc) (by simp [isGap_of_isSemicolon hs])
    subst hnil
    rw [ofBlock_of_nil hcs]
    rfl
  | cons d ds =>
    have hsuf : d :: ds <:+ cs := hcs ▸ List.dropWhile_suffix isGap
    have hds := h.of_suffix hsuf
    have happ : (cs ++ rest).dropWhile isGap = d :: (ds ++ rest) := by
      rw [List.dropWhile_append, hcs]
      rfl
    have hpass := pass_append hds.exists_semicolon rest
    rw [List.cons_append] at hpass
    have hlt : (pass (d :: ds)).2.length < cs.length :=
      Nat.lt_of_lt_of_le (pass_length_lt d ds) hsuf.length_le
    rw [ofBlock_of_cons happ, ofBlock_of_cons hcs, hpass, List.append_assoc,
      ← ofBlock_append (hds.of_suffix (pass_suffix _)) rest]
termination_by cs.length

/-! ### Passages -/

/-- Text that is read to `ds` wherever it stands in a block, and in front of whatever text. -/
def Passage (text : List Char) (ds : List Declaration) : Prop :=
  ∃ cs, fitsAll (some .curly) cs = true ∧
    (∀ rest, lexemes (text ++ rest) = leavesAll cs ++ lexemes rest) ∧
    ∀ rest, ofBlock (cs ++ rest) = ds ++ ofBlock rest

namespace Passage

theorem nil : Passage [] [] := ⟨[], rfl, fun _ => rfl, fun _ => rfl⟩

theorem append {t u : List Char} {ds es : List Declaration} (ht : Passage t ds) (hu : Passage u es) :
    Passage (t ++ u) (ds ++ es) := by
  obtain ⟨cs, hcs, hlex, hread⟩ := ht
  obtain ⟨cs', hcs', hlex', hread'⟩ := hu
  refine ⟨cs ++ cs', fitsAll_append.2 ⟨hcs, hcs'⟩, fun rest => ?_, fun rest => ?_⟩
  · rw [List.append_assoc, hlex, hlex', leavesAll_append, List.append_assoc]
  · rw [List.append_assoc, hread, hread', List.append_assoc]

end Passage

theorem seek?_start (t : List Char) : seek? t ⟨0, 1⟩ = some t := by
  cases t <;> rfl

/-- The block behind selectors, when nothing of it has been read. -/
def blockBehind (s : List Char) : Frame := ⟨.curly, ⟨.opening .curly, ['\x7b']⟩, (componentsOf s).reverse⟩

section
variable {s : List Char} (hs : SelectorText s)
include hs

theorem componentsOf_open (rest : List Char) :
    componentsOf (s ++ '\x7b' :: rest) = nestInto (lexemes rest) [] [blockBehind s] := by
  have hopen : Inert ('\x7b' :: rest) := .of_fence (by decide) rest
  have hfront : leavesAll (componentsOf s) = lexemes s := leavesAll_components _
  have hfits : fitsAll (innermost []) (componentsOf s) = true := hs.balanced
  rw [componentsOf, hs.complete.lexemes_append hopen, lexemes_of_scan (t := .opening .curly) rfl, ← hfront,
    components, nestInto_leavesAll _ _ _ _ hfits, List.append_nil, nestInto_opener (b := .curly) rfl]
  rfl

theorem atPosition?_of_open {rest : List Char} {body back : List Component} {c : Option Lexeme}
    (h : nestInto (lexemes rest) [] [blockBehind s] =
      (blockBehind s).earlier.reverse ++ .block .curly (blockBehind s).opener body c :: back) :
    atPosition? (s ++ '\x7b' :: rest) ⟨0, 1⟩ = some (ofBlock body) := by
  have hfront : ∀ x ∈ (blockBehind s).earlier.reverse, x.isCurly = false :=
    fun x hx => hs.flat x (by simpa [blockBehind] using hx)
  rw [atPosition?, seek?_start, Option.bind_some, componentsOf_open hs, h, firstBlock?_append hfront, Option.map_some]

/-- A block is found behind the selectors, whatever stands in it. -/
theorem exists_atPosition? (rest : List Char) : ∃ ds, atPosition? (s ++ '\x7b' :: rest) ⟨0, 1⟩ = some ds := by
  obtain ⟨body, c, back, h, -⟩ := nestInto_block (blockBehind s) [] (lexemes rest) [] []
  exact ⟨ofBlock body, atPosition?_of_open hs h⟩

/-- The declarations of a passage come first, and those of the rest are as if it stood alone. -/
theorem atPosition?_passage {t : List Char} {ds : List Declaration} (ht : Passage t ds) (rest : List Char) :
    atPosition? (s ++ '\x7b' :: (t ++ rest)) ⟨0, 1⟩ =
      (atPosition? (s ++ '\x7b' :: rest) ⟨0, 1⟩).map (ds ++ ·) := by
  obtain ⟨cs, hfits, hlex, hread⟩ := ht
  obtain ⟨body, c, back, h, h'⟩ := nestInto_block (blockBehind s) cs.reverse (lexemes rest) [] []
  have hfits' : fitsAll (innermost [blockBehind s]) cs = true := hfits
  have hinside : nestInto (lexemes (t ++ rest)) [] [blockBehind s] =
      (blockBehind s).earlier.reverse ++ .block .curly (blockBehind s).opener (cs ++ body) c :: back := by
    rw [hlex, nestInto_leavesAll cs _ _ _ hfits', List.append_nil]
    rw [List.reverse_reverse] at h'
    exact h'
  rw [atPosition?_of_open hs hinside, atPosition?_of_open hs h, Option.map_some, hread]

end

/-! ### Text that ends with a semicolon -/

/-- A text whose last component is a semicolon, and in which no bracket closes the block around it. -/
structure EndsItem (text : List Char) : Prop where
  last : (componentsOf text).getLast?.any isSemicolon = true
  inside : ∀ c ∈ componentsOf text, c.isLeaf (.closing .curly) = false

theorem leaf_of_isSemicolon {c : Component} (h : isSemicolon c = true) : ∃ l, c = .leaf l ∧ l.token = .semicolon := by
  cases c with
  | leaf l => exact ⟨l, rfl, eq_of_beq h⟩
  | block b o body e => cases h

namespace EndsItem
variable {text : List Char} (h : EndsItem text)
include h

theorem split : ∃ front l, componentsOf text = front ++ [.leaf l] ∧ l.token = .semicolon := by
  obtain ⟨c, hc, hs⟩ := (Option.any_eq_true _ _).1 h.last
  obtain ⟨l, rfl, hl⟩ := leaf_of_isSemicolon hs
  obtain ⟨front, hfront⟩ := List.getLast?_eq_some_iff.1 hc
  exact ⟨front, l, hfront, hl⟩

theorem endsWithSemicolon : EndsWithSemicolon (componentsOf text) := by
  intro c hc
  have hlast := h.last
  rw [Option.mem_def.1 hc] at hlast
  exact hlast

theorem fits : fitsAll (some .curly) (componentsOf text) = true := by
  obtain ⟨front, l, hsplit, -⟩ := h.split
  have hclosed : fitsAll none (componentsOf text) = true := by
    obtain ⟨closed, hc, hcs⟩ := components_endsOpen (lexemes text)
    rcases hcs with hcs | ⟨b, o, body, hcs⟩
    · rwa [componentsOf, hcs]
    · -- The last component is a leaf, so it is no block that is left open.
      have hlast := (List.append_inj' (hsplit.symm.trans hcs) rfl).2
      cases hlast
  refine fitsAll_iff.2 fun c hc => ?_
  have hfit := fitsAll_iff.1 hclosed c hc
  cases c with
  | leaf l =>
    refine leaf_fits_iff.2 ⟨(leaf_fits_iff.1 hfit).1, fun b hb he => ?_⟩
    obtain rfl := Option.some.inj he
    have hleaf : (leaf l).isLeaf (.closing .curly) = true := by
      cases ht : l.token <;> rw [ht] at hb <;> cases hb
      simp [isLeaf, ht]
    exact Bool.false_ne_true ((h.inside _ hc).symm.trans hleaf)
  | block b o body e =>
    cases e with
    | none => exact absurd hfit (by simp [Component.fits])
    | some e => exact block_fits.2 (block_fits.1 hfit)

theorem lexemes_append (rest : List Char) : lexemes (text ++ rest) = leavesAll (componentsOf text) ++ lexemes rest := by
  obtain ⟨front, l, hsplit, hl⟩ := h.split
  have hleaves : lexemes text = leavesAll front ++ [l] := by
    have hall := leavesAll_components (lexemes text)
    rw [show components (lexemes text) = _ from hsplit, leavesAll_append] at hall
    exact hall.symm.trans (by simp [leavesAll, leaves])
  have hsingle : l.token.single? = some ';' := by rw [hl]; rfl
  have htext : l.text = [';'] := text_of_single? (by rw [hleaves]; simp) hsingle
  have hl' : l = ⟨.semicolon, [';']⟩ := by rw [← hl, ← htext]
  have hchars : text = Lexeme.textOf (leavesAll front) ++ [';'] := by
    rw [← textOf_lexemes text, hleaves, textOf_append, hl']
    rfl
  have hin (w : List Char) : Inert (';' :: w) := .of_fence (by decide) w
  have hone (w : List Char) : lexemes (';' :: w) = ⟨.semicolon, [';']⟩ :: lexemes w := lexemes_of_scan rfl
  have hfence : lexemes (Lexeme.textOf (leavesAll front) ++ [';']) = leavesAll front ++ lexemes [';'] := by
    rw [← hchars, hleaves, hone, lexemes, hl']
  -- What stands in front of the semicolon is complete, because nothing runs past the semicolon.
  have hcomplete := Complete.of_fence (hin []) hfence
  have hfront : lexemes (Lexeme.textOf (leavesAll front)) = leavesAll front := by
    rw [hcomplete.lexemes_append (hin [])] at hfence
    exact List.append_cancel_right hfence
  have hall : leavesAll (componentsOf text) = lexemes text := leavesAll_components _
  rw [hall, hleaves, hl', hchars, List.append_assoc, List.singleton_append, hcomplete.lexemes_append (hin rest),
    hfront, hone, List.append_assoc, List.singleton_append]

end EndsItem

theorem passage_of_endsItem {text : List Char} (h : EndsItem text) : Passage text (ofBlock (componentsOf text)) :=
  ⟨componentsOf text, h.fits, h.lexemes_append, ofBlock_append h.endsWithSemicolon⟩

theorem selectorText_x : SelectorText ['x'] :=
  ⟨by decide +kernel, by decide +kernel, by decide +kernel, by decide +kernel⟩

/-- What a block holds up to a semicolon between its components and what it holds behind it are read each as
if it were alone in the block, however malformed either of them is. -/
theorem atPosition?_append_of_endsItem {a : List Char} (ha : EndsItem a) (b : List Char) :
    ∃ ds es,
      atPosition? (['x', '\x7b'] ++ a ++ ['\x7d']) ⟨0, 1⟩ = some ds ∧
      atPosition? (['x', '\x7b'] ++ b ++ ['\x7d']) ⟨0, 1⟩ = some es ∧
      atPosition? (['x', '\x7b'] ++ a ++ b ++ ['\x7d']) ⟨0, 1⟩ = some (ds ++ es) := by
  have hpass := passage_of_endsItem ha
  obtain ⟨es, hes⟩ := exists_atPosition? selectorText_x (b ++ ['\x7d'])
  have hempty : atPosition? (['x'] ++ '\x7b' :: ['\x7d']) ⟨0, 1⟩ = some [] := by decide +kernel
  refine ⟨ofBlock (componentsOf a), es, ?_, hes, ?_⟩
  · have h := atPosition?_passage selectorText_x hpass ['\x7d']
    rw [hempty, Option.map_some, List.append_nil] at h
    exact h
  · have h := atPosition?_passage selectorText_x hpass (b ++ ['\x7d'])
    rw [hes, Option.map_some] at h
    rw [List.append_assoc, List.append_assoc]
    exact h

/-- Garbage, a nested rule and a misplaced mark stand in front of the semicolon, and a bracket that closes the
block too early behind it. -/
theorem atPosition?_append_of_endsItem_garbage :
    atPosition? (['x', '\x7b'] ++ ") a:hover\x7bb:c\x7d !important; color:red;".toList ++ "d:e;\x7d(".toList ++ ['\x7d'])
      ⟨0, 1⟩ = some ([⟨"color", "red", false⟩] ++ [⟨"d", "e", false⟩]) := by
  have ha : EndsItem ") a:hover\x7bb:c\x7d !important; color:red;".toList :=
    ⟨by decide +kernel, by decide +kernel⟩
  obtain ⟨ds, es, hds, hes, h⟩ := atPosition?_append_of_endsItem ha "d:e;\x7d(".toList
  have hds' : atPosition? (['x', '\x7b'] ++ ") a:hover\x7bb:c\x7d !important; color:red;".toList ++ ['\x7d']) ⟨0, 1⟩ =
      some [⟨"color", "red", false⟩] := by decide +kernel
  have hes' : atPosition? (['x', '\x7b'] ++ "d:e;\x7d(".toList ++ ['\x7d']) ⟨0, 1⟩ = some [⟨"d", "e", false⟩] := by
    decide +kernel
  rw [h, Option.some.inj (hds.symm.trans hds'), Option.some.inj (hes.symm.trans hes')]

end StyleBump.Declaration
