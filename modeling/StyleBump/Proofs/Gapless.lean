import StyleBump.Proofs.Passages
import StyleBump.Proofs.Spacing

/-! # Blocks without their gaps

Without its gaps, at all depths, a block is read to the same declarations, each with the solid components of its
value (`partsOf_bareAll`). To say so, a declaration is taken apart before its value becomes text: reading is the
same as finding these parts and then the text of each value (`ofBlock_eq_map_read`). -/

namespace StyleBump.Css.Component

/-! ### Components without gaps -/

mutual
/-- A component without the gaps in it, its lexemes with the roles of their tokens. -/
def bare : Component → Component
  | leaf l => leaf l.normal
  | block b o body c => block b o.normal (bareAll body) (c.map Lexeme.normal)

/-- The components that are no gaps. -/
def bareAll : List Component → List Component
  | [] => []
  | c :: cs => if c.isGap then bareAll cs else bare c :: bareAll cs
end

theorem bareAll_cons_of_gap {c : Component} (h : c.isGap = true) (cs : List Component) :
    bareAll (c :: cs) = bareAll cs := by
  rw [bareAll, if_pos h]

theorem bareAll_cons_of_solid {c : Component} (h : c.isGap = false) (cs : List Component) :
    bareAll (c :: cs) = bare c :: bareAll cs := by
  rw [bareAll, if_neg (by simp [h])]

theorem isGap_bare (c : Component) : (bare c).isGap = c.isGap := by
  cases c <;> exact Token.isGap_role _

theorem isCurly_bare (c : Component) : (bare c).isCurly = c.isCurly := by
  cases c with
  | leaf l => rfl
  | block b o body c => cases b <;> rfl

theorem isLeaf_bare {t : Token} (ht : t.isTold = true) (c : Component) : (bare c).isLeaf t = c.isLeaf t := by
  cases c with
  | block b o body c => rfl
  | leaf l =>
    rw [bare, isLeaf, isLeaf, Bool.eq_iff_iff, beq_iff_eq, beq_iff_eq]
    exact Token.role_eq_iff ht

theorem not_isGap_of_mem_bareAll {cs : List Component} {c : Component} (h : c ∈ bareAll cs) : c.isGap = false := by
  induction cs with
  | nil => cases h
  | cons d cs ih =>
    cases hd : d.isGap with
    | true =>
      rw [bareAll_cons_of_gap hd] at h
      exact ih h
    | false =>
      rw [bareAll_cons_of_solid hd] at h
      rcases List.mem_cons.1 h with rfl | h
      · rw [isGap_bare, hd]
      · exact ih h

theorem bareAll_dropWhile_isGap (cs : List Component) : bareAll (cs.dropWhile isGap) = bareAll cs := by
  induction cs with
  | nil => rfl
  | cons c cs ih =>
    cases hc : c.isGap with
    | true => rw [List.dropWhile_cons_of_pos hc, ih, bareAll_cons_of_gap hc]
    | false => rw [List.dropWhile_cons_of_neg (by simp [hc])]

theorem dropWhile_isGap_bareAll (cs : List Component) : (bareAll cs).dropWhile isGap = bareAll cs := by
  cases hcs : bareAll cs with
  | nil => rfl
  | cons c ds =>
    have hc : c.isGap = false := not_isGap_of_mem_bareAll (hcs ▸ List.mem_cons_self)
    exact List.dropWhile_cons_of_neg (by simp [hc])

theorem bareAll_eq_nil_iff {cs : List Component} : bareAll cs = [] ↔ cs.all isGap = true := by
  induction cs with
  | nil => simp [bareAll]
  | cons c cs ih =>
    cases hc : c.isGap with
    | true => rw [bareAll_cons_of_gap hc, ih, List.all_cons, hc, Bool.true_and]
    | false => simp [bareAll_cons_of_solid hc, hc]

/-- Either all components are gaps, or the first solid one stands first without the gaps. -/
theorem bareAll_cases (cs : List Component) :
    (cs.dropWhile isGap = [] ∧ bareAll cs = []) ∨
      ∃ c ds, cs.dropWhile isGap = c :: ds ∧ c.isGap = false ∧ bareAll cs = bare c :: bareAll ds := by
  cases hcs : cs.dropWhile isGap with
  | nil =>
    left
    rw [← bareAll_dropWhile_isGap, hcs]
    exact ⟨rfl, rfl⟩
  | cons c ds =>
    have hc : c.isGap = false := not_of_dropWhile_eq_cons hcs
    exact .inr ⟨c, ds, rfl, hc, by rw [← bareAll_dropWhile_isGap, hcs, bareAll_cons_of_solid hc]⟩

section
variable {p : Component → Bool} (hp : ∀ c, p (bare c) = p c)
include hp

theorem bareAll_takeWhile {cs : List Component} (hgap : ∀ c ∈ cs, c.isGap = true → p c = true) :
    bareAll (cs.takeWhile p) = (bareAll cs).takeWhile p := by
  induction cs with
  | nil => rfl
  | cons c cs ih =>
    obtain ⟨hpass, hgap⟩ := List.forall_mem_cons.1 hgap
    cases hc : c.isGap with
    | true => rw [List.takeWhile_cons_of_pos (hpass hc), bareAll_cons_of_gap hc, bareAll_cons_of_gap hc, ih hgap]
    | false =>
      rw [bareAll_cons_of_solid hc]
      cases hpc : p c with
      | true =>
        rw [List.takeWhile_cons_of_pos hpc, List.takeWhile_cons_of_pos (by rw [hp, hpc]), bareAll_cons_of_solid hc,
          ih hgap]
      | false =>
        rw [List.takeWhile_cons_of_neg (by simp [hpc]), List.takeWhile_cons_of_neg (by simp [hp, hpc])]
        rfl

/-- What follows the component that stops. -/
theorem bareAll_drop_dropWhile {cs : List Component} (hgap : ∀ c ∈ cs, c.isGap = true → p c = true) :
    bareAll ((cs.dropWhile p).drop 1) = ((bareAll cs).dropWhile p).drop 1 := by
  induction cs with
  | nil => rfl
  | cons c cs ih =>
    obtain ⟨hpass, hgap⟩ := List.forall_mem_cons.1 hgap
    cases hc : c.isGap with
    | true => rw [List.dropWhile_cons_of_pos (hpass hc), bareAll_cons_of_gap hc, ih hgap]
    | false =>
      rw [bareAll_cons_of_solid hc]
      cases hpc : p c with
      | true => rw [List.dropWhile_cons_of_pos hpc, List.dropWhile_cons_of_pos (by rw [hp, hpc]), ih hgap]
      | false =>
        rw [List.dropWhile_cons_of_neg (by simp [hpc]), List.dropWhile_cons_of_neg (by simp [hp, hpc])]
        rfl

end

/-! ### The lexemes that are left -/

theorem isGap_of_fits {e : Option Bracket} {b : Bracket} {o : Lexeme} {body : List Component} {c : Option Lexeme}
    (h : (block b o body c).fits e = true) : (block b o body c).isGap = false := by
  cases c with
  | none => exact absurd h (by simp [fits])
  | some c => exact Token.isGap_of_opens? (block_fits.1 h).1.1

theorem leaf_of_isGap {e : Option Bracket} {c : Component} (h : c.fits e = true) (hg : c.isGap = true) :
    ∃ l, c = leaf l ∧ l.token.isGap = true := by
  cases c with
  | leaf l => exact ⟨l, rfl, hg⟩
  | block b o body c =>
    rw [isGap_of_fits h] at hg
    cases hg

mutual
theorem leavesAll_bare : ∀ (e : Option Bracket) (c : Component), c.fits e = true → c.isGap = false →
    leaves (bare c) = (solid c.leaves).map Lexeme.normal ∧ (bare c).fits e = true
  | e, leaf l, h, hgap => by
    have hl : l.token.isGap = false := hgap
    refine ⟨?_, ?_⟩
    · simp [bare, leaves, solid, hl]
    · rw [bare, leaf_fits_iff]
      obtain ⟨ho, hc⟩ := leaf_fits_iff.1 h
      rw [Lexeme.normal, Token.opens?_role, Token.closes?_role]
      exact ⟨ho, hc⟩
  | e, block b o body (some c), h, hgap => by
    obtain ⟨⟨ho, hbody⟩, hc⟩ := block_fits.1 h
    obtain ⟨hleaves, hfits⟩ := leavesAll_bareAll (some b) body hbody
    have hog := Token.isGap_of_opens? ho
    have hcg : c.token.isGap = false := by
      cases ht : c.token <;> rw [ht] at hc <;> first | rfl | cases hc
    refine ⟨?_, ?_⟩
    · simp [bare, leaves, hleaves, solid, hog, hcg]
    · rw [bare, Option.map_some, block_fits, Lexeme.normal, Lexeme.normal, Token.opens?_role, Token.closes?_role]
      exact ⟨⟨ho, hfits⟩, hc⟩
  | _, block _ _ _ none, h, _ => by simp [fits] at h

theorem leavesAll_bareAll : ∀ (e : Option Bracket) (cs : List Component), fitsAll e cs = true →
    leavesAll (bareAll cs) = (solid (leavesAll cs)).map Lexeme.normal ∧ fitsAll e (bareAll cs) = true
  | _, [], _ => ⟨rfl, rfl⟩
  | e, c :: cs, h => by
    obtain ⟨hc, hcs⟩ := Bool.and_eq_true_iff.1 h
    obtain ⟨hleaves, hfits⟩ := leavesAll_bareAll e cs hcs
    rw [leavesAll, solid_append, List.map_append, ← hleaves]
    cases hg : c.isGap with
    | true =>
      rw [bareAll_cons_of_gap hg]
      obtain ⟨l, rfl, hl⟩ := leaf_of_isGap hc hg
      exact ⟨by simp [leaves, solid, hl], hfits⟩
    | false =>
      obtain ⟨hleaf, hfit⟩ := leavesAll_bare e c hc hg
      rw [bareAll_cons_of_solid hg, leavesAll, hleaf, fitsAll, hfit, hfits]
      exact ⟨rfl, rfl⟩
end

/-- Nesting and leaving out the gaps can be done in either order. -/
theorem components_solid {ls : List Lexeme} (h : fitsAll none (components ls) = true) :
    components ((solid ls).map Lexeme.normal) = bareAll (components ls) := by
  obtain ⟨hleaves, hfits⟩ := leavesAll_bareAll none _ h
  rw [leavesAll_components] at hleaves
  rw [← hleaves, components_leavesAll hfits]

end StyleBump.Css.Component

namespace StyleBump.Declaration
open Css Css.Component Text

/-! ### The parts of a declaration -/

/-- A declaration with the components of its value. -/
structure Parts where
  property : String
  value : List Component
  important : Bool

def Parts.read (p : Parts) : Declaration := ⟨p.property, String.ofList (tidy (valueText p.value)), p.important⟩

/-- The name that components start with, and what follows it. -/
def name? : List Component → Option (String × List Component)
  | .leaf ⟨.ident n, _⟩ :: rest => some (n, rest)
  | _ => none

/-- What follows the colon that components start with. -/
def afterColon? : List Component → Option (List Component)
  | .leaf ⟨.colon, _⟩ :: cs => some cs
  | _ => none

theorem name?_eq_none {cs : List Component} (h : ∀ n t rest, cs ≠ .leaf ⟨.ident n, t⟩ :: rest) : name? cs = none := by
  unfold name?
  split
  · exact absurd rfl (h _ _ _)
  · rfl

theorem afterColon?_eq_none {cs : List Component} (h : ∀ t rest, cs ≠ .leaf ⟨.colon, t⟩ :: rest) :
    afterColon? cs = none := by
  unfold afterColon?
  split
  · exact absurd rfl (h _ _)
  · rfl

/-- What a value and the mark behind it make of a declaration. -/
def valueParts? (property : String) (value : List Component) : Option Parts :=
  if (splitMark value).1.any isCurly && !isCustom property then none
  else
    match (splitMark value).2 with
    | none => some ⟨property, (splitMark value).1, false⟩
    | some rest => if rest.all isGap then some ⟨property, (splitMark value).1, true⟩ else none

/-- The parts of a declaration without its semicolon. -/
def parts? (cs : List Component) : Option Parts :=
  (name? (cs.dropWhile isGap)).bind fun n => (afterColon? (n.2.dropWhile isGap)).bind (valueParts? n.1)

theorem valueParts?_eq (property : String) (value : List Component) :
    (valueParts? property value).map Parts.read =
      if (splitMark value).1.any isCurly && !isCustom property then none
      else
        match (splitMark value).2 with
        | none => some ⟨property, String.ofList (tidy (valueText (splitMark value).1)), false⟩
        | some rest =>
          if rest.all isGap then some ⟨property, String.ofList (tidy (valueText (splitMark value).1)), true⟩ else none := by
  unfold valueParts?
  split
  · rfl
  · split
    · rfl
    · split <;> rfl

theorem ofComponents?_eq_map_read (cs : List Component) : ofComponents? cs = (parts? cs).map Parts.read := by
  rw [parts?, ofComponents?]
  split
  · rename_i n text rest hname
    rw [hname, name?, Option.bind_some]
    split
    · rename_i t value hcolon
      rw [hcolon, afterColon?, Option.bind_some]
      exact (valueParts?_eq n value).symm
    · rename_i hcolon
      rw [afterColon?_eq_none hcolon, Option.bind_none, Option.map_none]
  · rename_i hname
    rw [name?_eq_none hname, Option.bind_none, Option.map_none]

/-- One pass over the rest of a block, with the parts of the declaration. -/
def passParts (cs : List Component) : Option Parts × List Component :=
  match parts? (cs.takeWhile (!isSemicolon ·)) with
  | some p => (some p, (cs.dropWhile (!isSemicolon ·)).drop 1)
  | none => (none, (cs.dropWhile (!endsItem ·)).drop 1)

theorem pass_eq (cs : List Component) : pass cs = ((passParts cs).1.map Parts.read, (passParts cs).2) := by
  rw [pass, passParts, ofComponents?_eq_map_read]
  cases parts? (cs.takeWhile (!isSemicolon ·)) <;> rfl

/-- A pass leaves less than the block it starts in. -/
theorem passParts_length_lt {cs ds : List Component} {d : Component} (h : cs.dropWhile isGap = d :: ds) :
    (passParts (d :: ds)).2.length < cs.length := by
  have hlt := pass_length_lt d ds
  have hle := (List.dropWhile_suffix isGap (l := cs)).length_le
  rw [pass_eq] at hlt
  rw [h] at hle
  exact Nat.lt_of_lt_of_le hlt hle

/-- The parts of the declarations of a block. -/
def partsOf (cs : List Component) : List Parts :=
  match _h : cs.dropWhile isGap with
  | [] => []
  | d :: ds => (passParts (d :: ds)).1.toList ++ partsOf (passParts (d :: ds)).2
termination_by cs.length
decreasing_by exact passParts_length_lt _h

theorem partsOf_of_nil {cs : List Component} (h : cs.dropWhile isGap = []) : partsOf cs = [] := by
  rw [partsOf]
  split
  · rfl
  · rename_i heq
    rw [h] at heq
    cases heq

theorem partsOf_of_cons {cs ds : List Component} {d : Component} (h : cs.dropWhile isGap = d :: ds) :
    partsOf cs = (passParts (d :: ds)).1.toList ++ partsOf (passParts (d :: ds)).2 := by
  rw [partsOf]
  split
  · rename_i heq
    rw [h] at heq
    cases heq
  · rename_i heq
    rw [h] at heq
    obtain ⟨rfl, rfl⟩ := List.cons.inj heq
    rfl

/-- Reading a block is finding the parts of its declarations and reading each. -/
theorem ofBlock_eq_map_read (cs : List Component) : ofBlock cs = (partsOf cs).map Parts.read := by
  cases hcs : cs.dropWhile isGap with
  | nil => rw [ofBlock_of_nil hcs, partsOf_of_nil hcs, List.map_nil]
  | cons d ds =>
    have hlt := passParts_length_lt hcs
    rw [ofBlock_of_cons hcs, partsOf_of_cons hcs, pass_eq, List.map_append, ofBlock_eq_map_read (passParts (d :: ds)).2]
    cases (passParts (d :: ds)).1 <;> rfl
termination_by cs.length

/-! ### Reading without gaps -/

def Parts.bare (p : Parts) : Parts := ⟨p.property, bareAll p.value, p.important⟩

theorem name?_of_ne {l : Lexeme} (h : ∀ n, l.token ≠ .ident n) (cs : List Component) : name? (leaf l :: cs) = none :=
  name?_eq_none fun n _ _ heq => h n (congrArg Lexeme.token (leaf.inj (List.cons.inj heq).1))

theorem afterColon?_of_ne {l : Lexeme} (h : l.token ≠ .colon) (cs : List Component) :
    afterColon? (leaf l :: cs) = none :=
  afterColon?_eq_none fun _ _ heq => h (congrArg Lexeme.token (leaf.inj (List.cons.inj heq).1))

theorem name?_bareAll (cs : List Component) :
    name? (bareAll cs) = (name? (cs.dropWhile isGap)).map fun n => (n.1, bareAll n.2) := by
  rcases bareAll_cases cs with ⟨h, hb⟩ | ⟨c, ds, h, -, hb⟩
  · rw [h, hb]
    rfl
  rw [h, hb]
  cases c with
  | block b o body e => rfl
  | leaf l =>
    by_cases hn : ∃ n, l.token = .ident n
    · obtain ⟨n, hn⟩ := hn
      obtain ⟨t, x⟩ := l
      obtain rfl : t = .ident n := hn
      rfl
    · have hne (n : String) : l.token ≠ .ident n := fun h => hn ⟨n, h⟩
      rw [name?_of_ne hne, bare, name?_of_ne fun n h => hne n ((Token.role_eq_iff rfl).1 h)]
      rfl

theorem afterColon?_bareAll (cs : List Component) :
    afterColon? (bareAll cs) = (afterColon? (cs.dropWhile isGap)).map bareAll := by
  rcases bareAll_cases cs with ⟨h, hb⟩ | ⟨c, ds, h, -, hb⟩
  · rw [h, hb]
    rfl
  rw [h, hb]
  cases c with
  | block b o body e => rfl
  | leaf l =>
    by_cases hc : l.token = .colon
    · obtain ⟨t, x⟩ := l
      obtain rfl : t = .colon := hc
      rfl
    · rw [afterColon?_of_ne hc, bare, afterColon?_of_ne fun h => hc ((Token.role_eq_iff rfl).1 h)]
      rfl

theorem afterMark?_eq (c : Component) (cs : List Component) :
    afterMark? (c :: cs) =
      if c.isLeaf (.delim '!') then
        (name? (cs.dropWhile isGap)).bind fun n => if sameName n.1 "important" then some n.2 else none
      else none := by
  rw [afterMark?]
  split
  · split
    · rename_i n t rest hdrop
      rw [hdrop]
      rfl
    · rename_i hdrop
      rw [name?_eq_none hdrop, Option.bind_none]
  · rfl

theorem afterMark?_bareAll (c : Component) (cs : List Component) :
    afterMark? (bare c :: bareAll cs) = (afterMark? (c :: cs)).map bareAll := by
  rw [afterMark?_eq, afterMark?_eq, isLeaf_bare rfl, dropWhile_isGap_bareAll, name?_bareAll]
  split
  · cases name? (cs.dropWhile isGap) with
    | none => rfl
    | some n =>
      simp only [Option.map_some, Option.bind_some]
      split <;> rfl
  · rfl

theorem splitMark_bareAll (cs : List Component) :
    splitMark (bareAll cs) = (bareAll (splitMark cs).1, (splitMark cs).2.map bareAll) := by
  induction cs with
  | nil => rfl
  | cons c cs ih =>
    cases hc : c.isGap with
    | true =>
      have hnone : afterMark? (c :: cs) = none := by
        rw [afterMark?_eq, if_neg]
        intro hbang
        cases c with
        | block _ _ _ _ => cases hbang
        | leaf l =>
          have ht : l.token = .delim '!' := eq_of_beq hbang
          rw [isGap, token, ht] at hc
          cases hc
      rw [bareAll_cons_of_gap hc, ih, splitMark, hnone]
      simp only [bareAll_cons_of_gap hc]
    | false =>
      rw [bareAll_cons_of_solid hc, splitMark, splitMark, afterMark?_bareAll, ih]
      cases afterMark? (c :: cs) with
      | none => simp only [Option.map_none, bareAll_cons_of_solid hc]
      | some rest => rfl

theorem any_isCurly_bareAll {e : Option Bracket} {cs : List Component} (h : fitsAll e cs = true) :
    (bareAll cs).any isCurly = cs.any isCurly := by
  induction cs with
  | nil => rfl
  | cons c cs ih =>
    obtain ⟨hc, hcs⟩ := Bool.and_eq_true_iff.1 h
    cases hg : c.isGap with
    | false => rw [bareAll_cons_of_solid hg, List.any_cons, List.any_cons, isCurly_bare, ih hcs]
    | true =>
      obtain ⟨l, rfl, -⟩ := leaf_of_isGap hc hg
      rw [bareAll_cons_of_gap hg, ih hcs]
      rfl

theorem all_isGap_bareAll (cs : List Component) : (bareAll cs).all isGap = cs.all isGap := by
  cases hcs : bareAll cs with
  | nil => rw [bareAll_eq_nil_iff.1 hcs, List.all_nil]
  | cons c ds =>
    have hc : c.isGap = false := not_isGap_of_mem_bareAll (hcs ▸ List.mem_cons_self)
    have hall : cs.all isGap = false := by
      rw [Bool.eq_false_iff]
      intro hall
      rw [bareAll_eq_nil_iff.2 hall] at hcs
      cases hcs
    rw [List.all_cons, hc, hall, Bool.false_and]

theorem splitMark_isPrefix (cs : List Component) : (splitMark cs).1 <+: cs := by
  induction cs with
  | nil => exact List.prefix_refl _
  | cons c cs ih =>
    rw [splitMark]
    cases afterMark? (c :: cs) with
    | none => exact (List.prefix_cons_inj c).2 ih
    | some rest => exact List.nil_prefix

theorem name?_suffix {cs : List Component} {n : String × List Component} (h : name? cs = some n) : n.2 <:+ cs := by
  unfold name? at h
  split at h
  · cases h
    exact List.suffix_cons _ _
  · cases h

theorem afterColon?_suffix {cs rest : List Component} (h : afterColon? cs = some rest) : rest <:+ cs := by
  unfold afterColon? at h
  split at h
  · cases h
    exact List.suffix_cons _ _
  · cases h

theorem valueParts?_value {property : String} {value : List Component} {p : Parts}
    (h : valueParts? property value = some p) : p.value = (splitMark value).1 := by
  unfold valueParts? at h
  split at h
  · cases h
  split at h
  · cases h
    rfl
  split at h
  · cases h
    rfl
  · cases h

/-- What stands behind the name and the colon. -/
theorem suffix_of_afterColon? {cs value : List Component} {n : String × List Component}
    (hname : name? (cs.dropWhile isGap) = some n) (hcolon : afterColon? (n.2.dropWhile isGap) = some value) :
    value <:+ cs :=
  (afterColon?_suffix hcolon).trans <| (List.dropWhile_suffix isGap).trans <|
    (name?_suffix hname).trans (List.dropWhile_suffix isGap)

theorem value_infix_of_parts? {cs : List Component} {p : Parts} (h : parts? cs = some p) : p.value <:+: cs := by
  obtain ⟨n, hname, h⟩ := Option.bind_eq_some_iff.1 h
  obtain ⟨value, hcolon, h⟩ := Option.bind_eq_some_iff.1 h
  rw [valueParts?_value h]
  exact (splitMark_isPrefix value).isInfix.trans (suffix_of_afterColon? hname hcolon).isInfix

theorem passParts_suffix (cs : List Component) : (passParts cs).2 <:+ cs := by
  have h := pass_suffix cs
  rwa [pass_eq] at h

theorem value_infix_of_passParts {cs : List Component} {p : Parts} (h : p ∈ (passParts cs).1) : p.value <:+: cs := by
  have hp : parts? (cs.takeWhile (!isSemicolon ·)) = some p := by
    unfold passParts at h
    split at h
    · rename_i q hq
      obtain rfl := Option.some.inj h
      exact hq
    · cases h
  exact (value_infix_of_parts? hp).trans (List.takeWhile_prefix _).isInfix

/-- The value of each declaration stands in the block. -/
theorem value_infix_of_mem_partsOf {cs : List Component} {p : Parts} (h : p ∈ partsOf cs) : p.value <:+: cs := by
  cases hcs : cs.dropWhile isGap with
  | nil =>
    rw [partsOf_of_nil hcs] at h
    cases h
  | cons d ds =>
    have hsuf : d :: ds <:+ cs := hcs ▸ List.dropWhile_suffix isGap
    have hlt := passParts_length_lt hcs
    rw [partsOf_of_cons hcs, List.mem_append, Option.mem_toList] at h
    rcases h with h | h
    · exact (value_infix_of_passParts h).trans hsuf.isInfix
    · exact (value_infix_of_mem_partsOf h).trans ((passParts_suffix _).isInfix.trans hsuf.isInfix)
termination_by cs.length

theorem fitsAll_of_subset {e : Option Bracket} {a b : List Component} (h : fitsAll e b = true) (hs : a ⊆ b) :
    fitsAll e a = true := fitsAll_iff.2 fun c hc => fitsAll_iff.1 h c (hs hc)

section
variable {e : Option Bracket}

theorem valueParts?_bareAll {value : List Component} (h : fitsAll e value = true) (property : String) :
    valueParts? property (bareAll value) = (valueParts? property value).map Parts.bare := by
  have hfront : fitsAll e (splitMark value).1 = true := fitsAll_of_subset h (splitMark_isPrefix value).subset
  rw [valueParts?, valueParts?, splitMark_bareAll]
  simp only [any_isCurly_bareAll hfront]
  split
  · rfl
  · cases (splitMark value).2 with
    | none => rfl
    | some rest =>
      simp only [Option.map_some, all_isGap_bareAll]
      split <;> rfl

theorem parts?_bareAll {cs : List Component} (h : fitsAll e cs = true) :
    parts? (bareAll cs) = (parts? cs).map Parts.bare := by
  rw [parts?, parts?, dropWhile_isGap_bareAll, name?_bareAll]
  cases hname : name? (cs.dropWhile isGap) with
  | none => rfl
  | some n =>
    rw [Option.map_some, Option.bind_some, Option.bind_some, dropWhile_isGap_bareAll, afterColon?_bareAll]
    cases hcolon : afterColon? (n.2.dropWhile isGap) with
    | none => rfl
    | some value =>
      rw [Option.map_some, Option.bind_some, Option.bind_some]
      exact valueParts?_bareAll (fitsAll_of_subset h (suffix_of_afterColon? hname hcolon).subset) n.1

theorem passParts_bareAll {cs : List Component} (h : fitsAll e cs = true) :
    passParts (bareAll cs) = ((passParts cs).1.map Parts.bare, bareAll (passParts cs).2) := by
  have hsemicolon (c : Component) : (!isSemicolon (Component.bare c)) = !isSemicolon c :=
    congrArg (!·) (isLeaf_bare rfl c)
  have hends (c : Component) : (!endsItem (Component.bare c)) = !endsItem c := by
    rw [endsItem, endsItem, isCurly_bare, isSemicolon, isSemicolon, isLeaf_bare rfl]
  have hpass : ∀ c ∈ cs, c.isGap = true → (!endsItem c) = true := by
    intro c hc hg
    obtain ⟨l, rfl, -⟩ := leaf_of_isGap (fitsAll_iff.1 h c hc) hg
    cases hs : isSemicolon (leaf l) with
    | true =>
      rw [isGap_of_isSemicolon hs] at hg
      cases hg
    | false =>
      rw [endsItem, hs]
      rfl
  have hpass' : ∀ c ∈ cs, c.isGap = true → (!isSemicolon c) = true := by
    intro c hc hg
    have hall := hpass c hc hg
    rw [endsItem, Bool.not_or, Bool.and_eq_true] at hall
    exact hall.2
  rw [passParts, passParts, ← bareAll_takeWhile hsemicolon hpass',
    parts?_bareAll (fitsAll_of_subset h (List.takeWhile_prefix _).subset),
    ← bareAll_drop_dropWhile hsemicolon hpass', ← bareAll_drop_dropWhile hends hpass]
  cases parts? (cs.takeWhile (!isSemicolon ·)) <;> rfl

/-- Without the gaps, the declarations are the same, with the solid components of their values. -/
theorem partsOf_bareAll {cs : List Component} (h : fitsAll e cs = true) :
    partsOf (bareAll cs) = (partsOf cs).map Parts.bare := by
  rcases bareAll_cases cs with ⟨hcs, hb⟩ | ⟨c, ds, hcs, hc, hb⟩
  · rw [hb, partsOf_of_nil hcs, partsOf_of_nil rfl, List.map_nil]
  · have hsuf : c :: ds <:+ cs := hcs ▸ List.dropWhile_suffix isGap
    have hfits := fitsAll_of_subset h hsuf.subset
    have hpass := passParts_bareAll hfits
    have hlt := passParts_length_lt hcs
    -- A pass leaves over a shorter part of the block, in which the blocks are closed too.
    have hrest := partsOf_bareAll (fitsAll_of_subset hfits (passParts_suffix (c :: ds)).subset)
    rw [bareAll_cons_of_solid hc] at hpass
    rw [partsOf_of_cons hcs, partsOf_of_cons ((dropWhile_isGap_bareAll cs).trans hb), hpass, hrest, List.map_append]
    cases (passParts (c :: ds)).1 <;> rfl
termination_by cs.length

end

end StyleBump.Declaration
