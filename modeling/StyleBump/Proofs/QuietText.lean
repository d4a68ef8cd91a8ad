import Mathlib.Data.List.DropRight
import StyleBump.Proofs.Passages

/-! # Text without dividers

Quiet text has no character that divides a block, opens one, or starts a string, a comment or an escape. Its
lexemes stay apart from what follows and nest to leaves. In front of a semicolon it is read as one
declaration or as nothing (`passage_of_quiet`), and in front of a block in curly brackets it is passed over
with the block (`passage_of_nested`). -/

namespace StyleBump.Css
open Component

/-- Characters that divide a block, open one, or start a string, a comment or an escape. -/
def dividers : List Char := [';', '(', ')', '[', ']', '\x7b', '\x7d', '"', '\'', '/', '\\']

/-- Text without dividers. -/
def Quiet (x : List Char) : Prop := ∀ c ∈ x, c ∉ dividers

namespace Quiet
variable {x y : List Char}

theorem nil : Quiet [] := nofun

theorem append (hx : Quiet x) (hy : Quiet y) : Quiet (x ++ y) := by
  intro c hc
  rcases List.mem_append.1 hc with hc | hc
  · exact hx c hc
  · exact hy c hc

theorem cons {c : Char} (hc : c ∉ dividers) (hx : Quiet x) : Quiet (c :: x) :=
  List.forall_mem_cons.2 ⟨hc, hx⟩

/-- Characters of a class that has no dividers are quiet. -/
theorem of_all {p : Char → Bool} (hp : dividers.all (!p ·) = true) (h : x.all p = true) : Quiet x := by
  intro c hc hd
  have hno := List.all_eq_true.1 hp c hd
  rw [List.all_eq_true.1 h c hc] at hno
  cases hno

theorem not_single {c : Component} (hc : c ∈ (lexemes x).map leaf) {t : Token} {d : Char} (hd : d ∉ x)
    (ht : t.single? = some d) : c.isLeaf t = false := by
  obtain ⟨l, hl, rfl⟩ := List.mem_map.1 hc
  rw [isLeaf, Bool.eq_false_iff]
  intro he
  have hlt : l.token = t := eq_of_beq he
  exact hd (mem_of_single? hl (by rw [hlt, ht]))

variable (h : Quiet x)
include h

theorem not_mem {d : Char} (hd : d ∈ dividers) : d ∉ x := fun hx => h d hx hd

theorem not_mem_brackets : ∀ d ∈ brackets, d ∉ x := by
  intro d hd
  have hsub : brackets.all (· ∈ dividers) = true := by decide
  exact h.not_mem (of_decide_eq_true (List.all_eq_true.1 hsub d hd))

theorem complete : Complete x := by
  refine .of_unmarked ?_ fun l hl => ?_
  · rw [marked_iff]
    rintro (hm | hm | hm | hm)
    · exact h.not_mem (by decide) hm
    · exact h.not_mem (by decide) hm
    · exact h.not_mem (by decide) hm
    · exact h.not_mem (d := '/') (by decide) (hm.subset (by simp))
  · rw [Bool.eq_false_iff]
    exact fun hu => h.not_mem (by decide) (mem_of_isUrl hl hu)

theorem leaf_fits {l : Lexeme} (hl : l ∈ lexemes x) (e : Option Bracket) : (leaf l).fits e = true := by
  obtain ⟨ho, hc⟩ := opens?_closes?_eq_none hl h.not_mem_brackets
  refine leaf_fits_iff.2 ⟨ho, fun b hb => ?_⟩
  rw [hc] at hb
  cases hb

theorem fitsAll_leaves (e : Option Bracket) : fitsAll e ((lexemes x).map leaf) = true := by
  refine fitsAll_iff.2 fun c hc => ?_
  obtain ⟨l, hl, rfl⟩ := List.mem_map.1 hc
  exact h.leaf_fits hl e

theorem not_semicolon {c : Component} (hc : c ∈ (lexemes x).map leaf) : Declaration.isSemicolon c = false :=
  not_single hc (h.not_mem (d := ';') (by decide)) rfl

end Quiet

theorem isCurly_of_mem_leaves {ls : List Lexeme} {c : Component} (hc : c ∈ ls.map leaf) : c.isCurly = false := by
  obtain ⟨l, -, rfl⟩ := List.mem_map.1 hc
  rfl

theorem leavesAll_map_leaf (ls : List Lexeme) : leavesAll (ls.map leaf) = ls := by
  induction ls with
  | nil => rfl
  | cons l ls ih => rw [List.map_cons, leavesAll, ih, leaves, List.singleton_append]

theorem dropWhile_map_leaf (ls : List Lexeme) :
    (ls.map leaf).dropWhile isGap = (ls.dropWhile (·.token.isGap)).map leaf := List.dropWhile_map

end StyleBump.Css

namespace StyleBump.Declaration
open Css Css.Component Text

theorem ofComponents?_dropWhile (cs : List Component) : ofComponents? (cs.dropWhile isGap) = ofComponents? cs := by
  rw [ofComponents?, List.dropWhile_idempotent, ofComponents?]

/-- Only a name starts a declaration. -/
theorem ofComponents?_eq_none {cs : List Component}
    (h : ∀ n text, (cs.dropWhile isGap).head? ≠ some (.leaf ⟨.ident n, text⟩)) : ofComponents? cs = none := by
  rw [ofComponents?]
  split
  · rename_i n text rest heq
    exact absurd (by rw [heq]; rfl) (h n text)
  · rfl

/-- The components up to a semicolon are one declaration, or nothing is read from them. -/
theorem ofBlock_concat {body : List Component} {s : Component} (hflat : ∀ c ∈ body, c.isCurly = false)
    (hdivide : ∀ c ∈ body, isSemicolon c = false) (hs : isSemicolon s = true) :
    ofBlock (body ++ [s]) = (ofComponents? body).toList := by
  have hdrop : (body ++ [s]).dropWhile isGap = body.dropWhile isGap ++ [s] :=
    dropWhile_append_cons (isGap_of_isSemicolon hs) body []
  have hsuf : body.dropWhile isGap <:+ body := List.dropWhile_suffix _
  have hkeep : ∀ c ∈ body.dropWhile isGap, (!isSemicolon c) = true := fun c hc => by simp [hdivide c (hsuf.mem hc)]
  have hgo : ∀ c ∈ body.dropWhile isGap, (!endsItem c) = true := fun c hc => by
    simp [endsItem, hdivide c (hsuf.mem hc), hflat c (hsuf.mem hc)]
  have hpass : pass (body.dropWhile isGap ++ [s]) = (ofComponents? body, []) := by
    rw [pass, List.takeWhile_append_of_pos hkeep, List.dropWhile_append_of_pos hkeep,
      List.dropWhile_append_of_pos hgo, List.takeWhile_cons_of_neg (by simp [hs]), List.append_nil,
      ofComponents?_dropWhile]
    cases ofComponents? body <;> simp [hs, endsItem]
  obtain ⟨d, ds, hds⟩ := List.exists_cons_of_ne_nil (l := body.dropWhile isGap ++ [s]) (by simp)
  rw [ofBlock_of_cons (hdrop.trans hds), ← hds, hpass, ofBlock_of_nil rfl, List.append_nil]

variable {x : List Char}

theorem lexemes_semicolon (rest : List Char) : lexemes (';' :: rest) = ⟨.semicolon, [';']⟩ :: lexemes rest :=
  lexemes_of_scan rfl

theorem passage_of_quiet (h : Quiet x) :
    Passage (x ++ [';']) (ofComponents? ((lexemes x).map leaf)).toList := by
  have hin (w : List Char) : Inert (';' :: w) := .of_fence (by decide) w
  have hread : ofBlock ((lexemes x).map leaf ++ [.leaf ⟨.semicolon, [';']⟩]) =
      (ofComponents? ((lexemes x).map leaf)).toList :=
    ofBlock_concat (fun c hc => isCurly_of_mem_leaves hc) (fun c hc => h.not_semicolon hc) rfl
  refine ⟨(lexemes x).map leaf ++ [.leaf ⟨.semicolon, [';']⟩], ?fits, fun rest => ?lexemes, fun rest => ?reads⟩
  case fits => exact fitsAll_append.2 ⟨h.fitsAll_leaves _, rfl⟩
  case lexemes =>
    rw [List.append_assoc, List.singleton_append, h.complete.lexemes_append (hin rest), lexemes_semicolon,
      leavesAll_append, leavesAll_map_leaf, List.append_assoc]
    rfl
  case reads =>
    rw [ofBlock_append, hread]
    intro c hc
    rw [List.getLast?_concat] at hc
    obtain rfl := Option.some.inj hc
    rfl

/-! ### Values -/

/-- Behind the text of a value there are only gaps. -/
theorem valueText_leaves {ls : List Lexeme}
    (h : ∀ l ∈ ls, l.token.isGap = true → ∀ c ∈ l.text, isSpace c = true) :
    ∃ bs, (∀ c ∈ bs, isSpace c = true) ∧ Lexeme.textOf ls = valueText (ls.map leaf) ++ bs := by
  induction ls with
  | nil => exact ⟨[], nofun, rfl⟩
  | cons l ls ih =>
    obtain ⟨hl, hls⟩ := List.forall_mem_cons.1 h
    obtain ⟨bs, hbs, htext⟩ := ih hls
    have hcons : Lexeme.textOf (l :: ls) = l.text ++ Lexeme.textOf ls := rfl
    rw [List.map_cons, hcons]
    cases hall : (ls.map leaf).all isGap with
    | false =>
      have hstep : valueText (leaf l :: ls.map leaf) = (leaf l).text ++ valueText (ls.map leaf) :=
        if_neg (by simp [hall])
      refine ⟨bs, hbs, ?_⟩
      rw [hstep, htext, List.append_assoc, text_eq, leaves, Lexeme.textOf]
      simp
    | true =>
      have hblank : ∀ c ∈ Lexeme.textOf ls, isSpace c = true := by
        intro c hc
        obtain ⟨t, ht, hct⟩ := List.mem_flatten.1 hc
        obtain ⟨k, hk, rfl⟩ := List.mem_map.1 ht
        exact hls k hk (List.all_eq_true.1 hall _ (List.mem_map_of_mem hk)) c hct
      have hstep : valueText (leaf l :: ls.map leaf) = if l.token.isGap then [] else l.text := if_pos hall
      rw [hstep]
      cases hg : l.token.isGap with
      | true => exact ⟨l.text ++ Lexeme.textOf ls, List.forall_mem_append.2 ⟨hl hg, hblank⟩, rfl⟩
      | false => exact ⟨Lexeme.textOf ls, hblank, rfl⟩

/-- Where no comment starts, the value that is compared has the words of the text. -/
theorem tidy_valueText_leaves {y : List Char} (h : '/' ∉ y) :
    tidy (valueText ((lexemes y).map leaf)) = squeeze y := by
  have hgaps : ∀ l ∈ lexemes y, l.token.isGap = true → ∀ c ∈ l.text, isSpace c = true := by
    intro l hl hg
    exact (text_of_gap hl hg).resolve_right fun hc => h (hc.subset (by simp))
  obtain ⟨bs, hbs, htext⟩ := valueText_leaves hgaps
  rw [textOf_lexemes] at htext
  have hno : ¬ ['/', '*'] <:+: valueText ((lexemes y).map leaf) := by
    intro hc
    refine h ?_
    rw [htext]
    exact List.mem_append_left _ (hc.subset (by simp))
  have hwords : words y = words (valueText ((lexemes y).map leaf)) := by
    conv_lhs => rw [htext]
    exact words_append_of_blanks _ fun c hc => isBlank_of_isSpace (hbs c hc)
  rw [tidy, dropComments_eq_self hno, squeeze, squeeze, hwords]

/-! ### Nested blocks -/

/-- The mark is an exclamation mark and a word behind it. -/
theorem afterMark?_eq_some {c : Component} {cs rest : List Component} (h : afterMark? (c :: cs) = some rest) :
    c.isLeaf (.delim '!') = true ∧ ∃ n text, cs.dropWhile isGap = .leaf ⟨.ident n, text⟩ :: rest := by
  rw [afterMark?] at h
  split at h
  · rename_i hbang
    split at h
    · rename_i n text rest' hdrop
      split at h
      · cases h
        exact ⟨hbang, n, text, hdrop⟩
      · cases h
    · cases h
  · cases h

/-- A block in curly brackets is part of the value, or stands behind the mark. -/
theorem mem_splitMark {value : List Component} {b : Component} (hb : b ∈ value) (hcurly : b.isCurly = true)
    (hgap : b.isGap = false) :
    b ∈ (splitMark value).1 ∨ ∃ rest, (splitMark value).2 = some rest ∧ b ∈ rest := by
  induction value with
  | nil => cases hb
  | cons c cs ih =>
    rw [splitMark]
    cases hm : afterMark? (c :: cs) with
    | none =>
      rcases List.mem_cons.1 hb with rfl | hb
      · exact .inl List.mem_cons_self
      · exact (ih hb).imp_left (List.mem_cons_of_mem c)
    | some rest =>
      -- What makes up the mark is no block, so the block stands behind it.
      refine .inr ⟨rest, rfl, ?_⟩
      obtain ⟨hbang, n, text, hdrop⟩ := afterMark?_eq_some hm
      have hcs : b ∈ cs := by
        rcases List.mem_cons.1 hb with rfl | hb
        · cases b with
          | leaf l => cases hcurly
          | block _ _ _ _ => cases hbang
        · exact hb
      have hdropped := mem_dropWhile hcs hgap
      rw [hdrop] at hdropped
      rcases List.mem_cons.1 hdropped with rfl | h
      · cases hcurly
      · exact h

theorem plain_eq_hyphen {c : Char} (h : plain c = '-') : c = '-' := by
  unfold plain at h
  split at h
  · exact absurd h (by decide)
  · exact h

/-- A name at the front of a text without escapes is a property of the author's own only if it is written so. -/
theorem isCustom_of_head {cs : List Char} (hesc : '\\' ∉ cs) (hname : ¬ ['-', '-'] <+: cs) {n : String}
    {text : List Char} (h : ((lexemes cs).map leaf).head? = some (.leaf ⟨.ident n, text⟩)) : isCustom n = false := by
  cases cs with
  | nil => simp [lexemes] at h
  | cons c cs =>
    rw [lexemes_cons] at h
    have htok : (scan c cs).1 = .ident n := by
      have hl := Component.leaf.inj (Option.some.inj h)
      exact congrArg Lexeme.token hl
    have hn : String.ofList (name (c :: cs)).1 = n := by
      have hscan := (scan_ident htok).2
      rw [hscan] at htok
      exact Token.ident.inj htok
    rw [Bool.eq_false_iff]
    intro hcustom
    rw [isCustom, ← hn, String.toList_ofList, name_of_unescaped hesc] at hcustom
    obtain ⟨front, hfront, hplain⟩ := List.prefix_map_iff.1 (List.isPrefixOf_iff_prefix.1 hcustom)
    have hdashes : front = ['-', '-'] := by
      obtain ⟨d, ds, rfl, hd, hds⟩ := List.map_eq_cons_iff.1 hplain.symm
      obtain ⟨e, es, rfl, he, hes⟩ := List.map_eq_cons_iff.1 hds
      rw [List.map_eq_nil_iff.1 hes, plain_eq_hyphen hd, plain_eq_hyphen he]
    exact hname (hdashes ▸ hfront.trans (List.takeWhile_prefix _))

/-- A block in curly brackets makes a declaration only of a property of the author's own. -/
theorem ofComponents?_eq_none_of_curly {cs : List Component} {b : Component} (hb : b ∈ cs)
    (hcurly : b.isCurly = true) (hgap : b.isGap = false)
    (hname : ∀ n text, (cs.dropWhile isGap).head? = some (.leaf ⟨.ident n, text⟩) → isCustom n = false) :
    ofComponents? cs = none := by
  -- The block is neither gap nor name nor colon, so it is still there where the value starts.
  have hleaf (l : Lexeme) : b ≠ .leaf l := by
    rintro rfl
    cases hcurly
  rw [ofComponents?]
  split
  · rename_i n text rest hdrop
    have hplain : isCustom n = false := hname n text (by rw [hdrop]; rfl)
    have hrest : b ∈ rest :=
      (List.mem_cons.1 (hdrop ▸ mem_dropWhile hb hgap)).resolve_left (hleaf _)
    split
    · rename_i t value hcolon
      have hvalue : b ∈ value :=
        (List.mem_cons.1 (hcolon ▸ mem_dropWhile hrest hgap)).resolve_left (hleaf _)
      rcases mem_splitMark hvalue hcurly hgap with h | ⟨rest', hmark, h⟩
      · have hany : (splitMark value).1.any isCurly = true := List.any_eq_true.2 ⟨b, h, hcurly⟩
        simp only [hany, hplain]
        rfl
      · have hall : rest'.all isGap = false := by
          rw [List.all_eq_false]
          exact ⟨b, h, by simp [hgap]⟩
        simp only [hmark, hall]
        split <;> rfl
    · rfl
  · rfl

/-- What stands in front of a block is passed over with the block. -/
theorem ofBlock_append_curly {front : List Component} {b : Component} (hflat : ∀ c ∈ front, c.isCurly = false)
    (hdivide : ∀ c ∈ front, isSemicolon c = false) (hcurly : b.isCurly = true) (hgap : b.isGap = false)
    (hname : ∀ n text, (front.dropWhile isGap).head? = some (.leaf ⟨.ident n, text⟩) → isCustom n = false)
    (rest : List Component) : ofBlock (front ++ b :: rest) = ofBlock rest := by
  have hdrop (back : List Component) := dropWhile_append_cons hgap front back
  have hsuf : front.dropWhile isGap <:+ front := List.dropWhile_suffix _
  have hkeep : ∀ c ∈ front.dropWhile isGap, (!isSemicolon c) = true := fun c hc => by simp [hdivide c (hsuf.mem hc)]
  have hgo : ∀ c ∈ front.dropWhile isGap, (!endsItem c) = true := fun c hc => by
    simp [endsItem, hdivide c (hsuf.mem hc), hflat c (hsuf.mem hc)]
  have hb : isSemicolon b = false := by
    cases b with
    | leaf l => cases hcurly
    | block _ _ _ _ => rfl
  -- Up to a semicolon there is no declaration, so the pass goes on behind the block.
  have hnone : ofComponents? (front.dropWhile isGap ++ b :: rest.takeWhile (!isSemicolon ·)) = none := by
    rw [← hdrop, ofComponents?_dropWhile]
    refine ofComponents?_eq_none_of_curly (List.mem_append_right _ List.mem_cons_self) hcurly hgap fun n text h => ?_
    rw [hdrop] at h
    cases hfront : front.dropWhile isGap with
    | nil =>
      rw [hfront] at h
      obtain rfl := Option.some.inj h
      cases hcurly
    | cons c cs =>
      rw [hfront] at h
      exact hname n text (by rw [hfront]; exact h)
  have hpass : pass (front.dropWhile isGap ++ b :: rest) = (none, rest) := by
    rw [pass, List.takeWhile_append_of_pos hkeep, List.takeWhile_cons_of_pos (by simp [hb]), hnone,
      List.dropWhile_append_of_pos hgo, List.dropWhile_cons_of_neg (by simp [endsItem, hcurly])]
    rfl
  obtain ⟨d, ds, hds⟩ := List.exists_cons_of_ne_nil (l := front.dropWhile isGap ++ b :: rest) (by simp)
  rw [ofBlock_of_cons ((hdrop rest).trans hds), ← hds, hpass]
  rfl

/-- A passage in a block in curly brackets, behind quiet text that does not start like a property of the
author's own, says nothing. -/
theorem passage_of_nested (h : Quiet x) (hname : ¬ ['-', '-'] <+: x.dropWhile isSpace) {body ending : List Char}
    {ds : List Declaration} (hbody : Passage body ds) (hending : Quiet ending) :
    Passage (x ++ '\x7b' :: (body ++ (ending ++ ['\x7d']))) [] := by
  obtain ⟨cs, hfits, hlex, -⟩ := hbody
  have hopen (w : List Char) : Inert ('\x7b' :: w) := .of_fence (by decide) w
  have hclose (w : List Char) : Inert ('\x7d' :: w) := .of_fence (by decide) w
  have hblock : (closedBlock (cs ++ (lexemes ending).map leaf)).fits (some .curly) = true :=
    block_fits.2 ⟨⟨rfl, fitsAll_append.2 ⟨hfits, hending.fitsAll_leaves _⟩⟩, rfl⟩
  refine ⟨(lexemes x).map leaf ++ [closedBlock (cs ++ (lexemes ending).map leaf)], ?fits, fun rest => ?lexemes,
    fun rest => ?reads⟩
  case fits => exact fitsAll_append.2 ⟨h.fitsAll_leaves _, by rw [fitsAll, hblock]; rfl⟩
  case lexemes =>
    rw [List.append_assoc, List.cons_append, List.append_assoc, List.append_assoc, List.singleton_append,
      h.complete.lexemes_append (hopen _), lexemes_of_scan (t := .opening .curly) rfl, hlex,
      hending.complete.lexemes_append (hclose rest), lexemes_of_scan (t := .closing .curly) rfl,
      leavesAll_append, leavesAll_map_leaf]
    simp [closedBlock, leavesAll, leaves, leavesAll_append, leavesAll_map_leaf]
  case reads =>
    rw [List.append_assoc, List.singleton_append, List.nil_append]
    refine ofBlock_append_curly (fun c hc => isCurly_of_mem_leaves hc) (fun c hc => h.not_semicolon hc) rfl rfl
      (fun n text hhead => ?_) rest
    rw [dropWhile_map_leaf, dropWhile_gap_lexemes (h.not_mem (by decide))] at hhead
    exact isCustom_of_head (fun hm => h.not_mem (by decide) ((List.dropWhile_suffix _).mem hm)) hname hhead

end StyleBump.Declaration
