import StyleBump.Proofs.Standing
import StyleBump.Sheet

/-! # The blocks of style rules

A style rule starts where a reader stood in front of its selectors, so whoever seeks its position finds the
selectors and then the block that the reader read. This holds at every depth: readers stay where they stand in
the text (`Css.Parse.Stays`), and so does the reader of a block that they enter. What a text can be read to at
all is said once, by `ReadFrom` (`readFrom_of_ofChars`); that rules own their blocks is what it says of them
(`owns_of_ofChars`). -/

namespace StyleBump.Css.Cursor
open Text (Position)

/-- The reader stands in front of something other than a gap, or at the end of its block. -/
structure AtItem (text : List Char) (s : Cursor) : Prop where
  stands : s.StandsIn text
  head_eq : s.head = s.position
  solid : ∀ c ∈ s.rest.head?, c.isGap = false

theorem StandsIn.skip {text : List Char} {s : Cursor} (h : s.StandsIn text) {t : Component → Bool}
    (ht : ∀ c, c.isGap = true → t c = true) : AtItem text (s.skip t) where
  stands := Parse.Stays.skip t h rfl
  head_eq := head_past _ _ _
  solid c hc := by
    rw [Cursor.skip, rest_past] at hc
    have hstop := List.head?_dropWhile_not t s.rest
    rw [hc] at hstop
    exact Bool.eq_false_iff.2 fun hg => absurd (ht c hg) (by simpa using hstop)

end StyleBump.Css.Cursor

namespace StyleBump.Statement
open Css Css.Parse Css.Component
open Css.Cursor (StandsIn AtItem)
open Declaration (firstBlock? firstBlock?_append ofBlock)
open Text (Position)

/-! ### Readers of statements -/

section
variable {text : List Char} {α : Type}

theorem stays_ofResult (r : Except Refusal α) : Stays text (ofResult r) := by
  intro s a s' hs h
  obtain ⟨-, rfl⟩ := ofResult_eq_ok h
  exact hs

theorem capture_eq_ok {p : Parse α} {r : Except Refusal α} {s s' : Cursor} (h : capture p s = .ok (r, s')) :
    (∃ a, r = .ok a ∧ p s = .ok (a, s')) ∨ ((∃ e, r = .error e) ∧ s' = s) := by
  unfold capture at h
  split at h
  · rename_i hread
    cases h
    exact .inl ⟨_, rfl, hread⟩
  · cases h
    exact .inr ⟨⟨_, rfl⟩, rfl⟩

theorem stays_settingAfter (name : String) : Stays text (settingAfter name) :=
  (Stays.before _ _).bind fun s => (Stays.attempt .next).bind fun _ => .pure s

theorem stays_discard (stop : Component → Bool) : Stays text (discard stop) := by
  intro s a s' hs h
  simp only [discard] at h
  cases hread : attempt next
      (.of (s.rest.dropWhile (!stop ·)) (s.position.advance (textAll (s.rest.takeWhile (!stop ·))))) with
  | error e =>
    rw [hread] at h
    cases h
  | ok r =>
    rw [hread] at h
    cases h
    exact Stays.attempt .next (hs.advance List.takeWhile_append_dropWhile.symm _) hread

theorem stays_withoutBlock (inside : Bool) (heading : Prelude) : Stays text (withoutBlock inside heading) := by
  cases heading with
  | imported | namespaced | charset | unknown => exact .pure _
  | layer names =>
    rw [withoutBlock]
    split
    · exact .refuse _
    · exact .pure _
  | _ => exact .refuse _

theorem stays_readStyle (n : Nat) (place : Place) (nested : Bool) : Stays text (readStyle n place nested) := by
  cases n with
  | zero => exact .refuse _
  | succ n =>
    refine Stays.here.bind fun p => (Stays.beforeResult _ _).bind fun selectors => Stays.here.bind fun q =>
      Stays.next.bind fun c => ?_
    split
    · exact (stays_ofResult _).bind fun _ => (Stays.within _ _).bind fun _ => .pure _
    · exact .refuseAt _ _

theorem stays_readAtRule (n : Nat) (place : Place) (name : String) (p : Position) :
    Stays text (readAtRule n place name p) := by
  cases n with
  | zero => exact .refuse _
  | succ n =>
    refine (Stays.before _ _).bind fun heading => (Stays.attempt .next).bind fun c => ?_
    split
    · exact (Stays.within _ _).bind fun _ => .pure _
    · exact (stays_withoutBlock _ _).bind fun _ => .pure _

theorem peekItem_atItem {s s' : Cursor} {c : Option Component} (hs : s.StandsIn text)
    (h : peekItem s = .ok (c, s')) : s'.AtItem text := by
  have hitem : (s.skip isFiller).AtItem text := hs.skip fun c hc => by simp [isFiller, hc]
  rw [peekItem, bind_of_ok rfl, peek_eq] at h
  cases h
  exact hitem

end

/-! ### The block of a rule -/

/-- The first block in curly brackets from some place of a text on. What stands in front of it there may hold
such a block in other brackets only; a bracket in a string, an address or a comment opens none. -/
structure FoundBlock (text : List Char) where
  pre : List Char
  own : List Char
  front : List Component
  opener : Lexeme
  body : List Component
  closer : Option Lexeme
  back : List Component
  split : text = pre ++ own
  nest : componentsOf own = front ++ .block .curly opener body closer :: back
  flat : ∀ x ∈ front, x.isCurly = false
  solid : ∀ c ∈ front.head?, c.isGap = false
  opens : opener.token.opens? = some .curly

namespace FoundBlock
variable {text : List Char} (b : FoundBlock text)

/-- The place from which on the block is found. -/
def position : Position := Position.start.advance b.pre

/-- The place behind the bracket that opens the block. -/
def inside : Position := (b.position.advance (textAll b.front)).advance b.opener.text

/-- The rest of the text does not start with white space. -/
theorem head_own : b.own.head? ≠ some '\n' := by
  intro hn
  obtain ⟨cs, hcs⟩ := List.head?_eq_some_iff.1 hn
  have hnest := b.nest
  rw [hcs] at hnest
  cases hf : b.front with
  | nil =>
    rw [hf, List.nil_append] at hnest
    exact absurd (Cursor.not_isSpace_of_componentsOf hnest (Token.isGap_of_opens? b.opens)) (by decide)
  | cons c front =>
    rw [hf, List.cons_append] at hnest
    have hc := b.solid c (by rw [hf]; rfl)
    exact absurd (Cursor.not_isSpace_of_componentsOf hnest hc) (by decide)

/-- Whoever seeks the place finds the declarations of the block. -/
theorem atPosition?_eq : Declaration.atPosition? text b.position = some (ofBlock b.body) := by
  have hseek : Text.seek? text b.position = some b.own := by
    rw [position, Text.advance_start]
    conv => lhs; arg 1; rw [b.split]
    exact Text.seek?_append b.head_own b.pre
  rw [Declaration.atPosition?, hseek, Option.bind_some, b.nest, firstBlock?_append b.flat]
  rfl

/-- Whether a rule was read off the block: its selectors from what stands in front, where the rule starts, and
the rest of it from what the block holds. -/
def Gives : Statement → Prop
  | style selectors settings children p =>
    p = b.position ∧
    (∃ nested s, entirely (Selector.prelude nested) ⟨b.front, p, p⟩ = .ok (selectors, s)) ∧
    ∃ n s, readBody n .inStyle [] [] (.of b.body b.inside) = .ok ((settings, children), s)
  | _ => False

end FoundBlock

/-- Where a reader stands in front of selectors, it finds the block behind them. -/
theorem exists_foundBlock {text : List Char} {s : Cursor} (hs : s.AtItem text) {front body more : List Component}
    {o : Lexeme} {c : Option Lexeme} (h : s.rest = front ++ .block .curly o body c :: more) (hflat : ∀ x ∈ front, x.isCurly = false) :
    ∃ b : FoundBlock text, b.position = s.position ∧ b.front = front ∧ b.opener = o ∧ b.body = body := by
  obtain ⟨pre, own, behind, htext, hp, hown⟩ := hs.stands.components
  rw [h, List.append_assoc, List.cons_append] at hown
  have hsolid : ∀ x ∈ front.head?, x.isGap = false := fun x hx =>
    hs.solid x (by rw [h, List.head?_append, Option.mem_def.1 hx]; rfl)
  have hopens : o.token.opens? = some .curly := (hs.stands.advance h s.head).opens rfl
  exact ⟨⟨pre, own, front, o, body, c, more ++ behind, htext, hown, hflat, hsolid, hopens⟩, hp.symm, rfl, rfl, rfl⟩

/-! ### Statements and those nested in them -/

mutual
/-- A statement and those nested in it, in source order. -/
def parts : Statement → List Statement
  | style selectors settings children p => style selectors settings children p :: partsAll children
  | group kind heading prelude children p => group kind heading prelude children p :: partsAll children
  | loose settings => [loose settings]
  | other ls short => [other ls short]

def partsAll : List Statement → List Statement
  | [] => []
  | s :: ss => parts s ++ partsAll ss
end

theorem mem_partsAll {st : Statement} {ss : List Statement} : st ∈ partsAll ss ↔ ∃ s ∈ ss, st ∈ parts s := by
  induction ss with
  | nil => simp [partsAll]
  | cons s ss ih => simp [partsAll, ih]

def IsStyle : Statement → Prop
  | style .. => True
  | _ => False

/-- All style rules of a statement have blocks of their own in the text. -/
def Owns (text : List Char) (s : Statement) : Prop :=
  ∀ st ∈ parts s, st.IsStyle → ∃ b : FoundBlock text, b.Gives st

section
variable {text : List Char} {children : List Statement}

theorem owns_style_iff {selectors : List (List Selector.Step)} {settings : List Setting} {p : Position} :
    Owns text (.style selectors settings children p) ↔
      (∃ b : FoundBlock text, b.Gives (.style selectors settings children p)) ∧ ∀ c ∈ children, Owns text c := by
  constructor
  · intro h
    refine ⟨h _ (.head _) trivial, fun c hc st hst => h st (.tail _ ?_)⟩
    exact mem_partsAll.2 ⟨c, hc, hst⟩
  · rintro ⟨hb, hc⟩ st hst hstyle
    rcases List.mem_cons.1 hst with rfl | hst
    · exact hb
    · obtain ⟨c, hmem, hst⟩ := mem_partsAll.1 hst
      exact hc c hmem st hst hstyle

theorem owns_group_iff {kind : RuleKind} {heading : String} {prelude : Option String} {p : Position} :
    Owns text (.group kind heading prelude children p) ↔ ∀ c ∈ children, Owns text c := by
  constructor
  · intro h c hc st hst
    refine h st (.tail _ ?_)
    exact mem_partsAll.2 ⟨c, hc, hst⟩
  · intro hc st hst hstyle
    rcases List.mem_cons.1 hst with rfl | hst
    · exact hstyle.elim
    · obtain ⟨c, hmem, hst⟩ := mem_partsAll.1 hst
      exact hc c hmem st hst hstyle

/-- What can be read from a text: style rules with the blocks that they were read off, groups of three kinds, and
statements that are compared by their text. -/
inductive ReadFrom (text : List Char) : Statement → Prop
  | style {b : FoundBlock text} {selectors : List (List Selector.Step)} {settings : List Setting}
      {children : List Statement} (hb : b.Gives (.style selectors settings children b.position))
      (hc : ∀ c ∈ children, ReadFrom text c) : ReadFrom text (.style selectors settings children b.position)
  | group {kind : RuleKind} {children : List Statement} (hk : kind ∈ [.media, .supports, .layer])
      (hc : ∀ c ∈ children, ReadFrom text c) (heading : String) (prelude : Option String) (p : Position) :
      ReadFrom text (.group kind heading prelude children p)
  | loose (settings : List Setting) : ReadFrom text (.loose settings)
  | other (ls : List String) (short : Bool) : ReadFrom text (.other ls short)

theorem ReadFrom.owns {s : Statement} (h : ReadFrom text s) : Owns text s := by
  induction h with
  | style hb _ ih => exact owns_style_iff.2 ⟨⟨_, hb⟩, ih⟩
  | group _ _ _ _ _ ih => exact owns_group_iff.2 ih
  | loose settings =>
    intro st hst hstyle
    rw [List.mem_singleton.1 hst] at hstyle
    exact hstyle.elim
  | other ls short =>
    intro st hst hstyle
    rw [List.mem_singleton.1 hst] at hstyle
    exact hstyle.elim

theorem readFrom_addSetting {s : Setting} {settings : List Setting} {done : List Statement}
    (h : ∀ d ∈ done, ReadFrom text d) : ∀ d ∈ (addSetting s settings done).2, ReadFrom text d := by
  fun_cases addSetting s settings done with
  | case1 => simp
  | case2 ss done => exact List.forall_mem_cons.2 ⟨.loose _, (List.forall_mem_cons.1 h).2⟩
  | case3 => exact List.forall_mem_cons.2 ⟨.loose _, h⟩

/-! ### Reading keeps rules and blocks together -/

theorem isGap_of_endsSelectors {nested : Bool} {s : Cursor} (hs : s.StandsIn text) {c : Component} {cs : List Component}
    (h : s.rest = c :: cs) (hc : endsSelectors nested c = true) : c.isGap = false := by
  rcases Bool.or_eq_true_iff.1 hc with hcurly | hsemicolon
  · cases c with
    | leaf => cases hcurly
    | block => exact Token.isGap_of_opens? (hs.opens h)
  · have hleaf : c.isLeaf .semicolon = true := (Bool.and_eq_true_iff.1 hsemicolon).2
    cases c with
    | leaf l => rw [isGap, Component.token, eq_of_beq hleaf]; rfl
    | block => cases hleaf

theorem exists_front (nested : Bool) (cs : List Component) :
    ∃ front rest, cs.takeWhile (!endsSelectors nested ·) = front ∧ cs.dropWhile (!endsSelectors nested ·) = rest ∧
      cs = front ++ rest ∧ (∀ x ∈ front, x.isCurly = false) ∧ ∀ x ∈ rest.head?, endsSelectors nested x = true := by
  refine ⟨_, _, rfl, rfl, List.takeWhile_append_dropWhile.symm, fun x hx => ?_, fun x hx => ?_⟩
  · have hends := List.mem_takeWhile_imp hx
    rw [Bool.not_eq_true'] at hends
    exact (Bool.or_eq_false_iff.1 hends).1
  · have hstop := List.head?_dropWhile_not (!endsSelectors nested ·) cs
    rw [Option.mem_def.1 hx] at hstop
    simpa using hstop

/-- A style rule is read off the first block in curly brackets from where the reader stands. -/
theorem readStyle_eq_ok {n : Nat} {place : Place} {nested : Bool} {s s' : Cursor} {st : Statement}
    (hs : s.AtItem text) (h : readStyle (n + 1) place nested s = .ok (st, s')) :
    ∃ b : FoundBlock text, b.Gives st ∧ StandsIn text (.of b.body b.inside) ∧
      ∃ selectors settings children s₁, st = .style selectors settings children b.position ∧
        readBody n .inStyle [] [] (.of b.body b.inside) = .ok ((settings, children), s₁) := by
  obtain ⟨cs, p, head⟩ := s
  obtain rfl : head = p := hs.head_eq
  rw [readStyle, bind_of_ok rfl, bind_of_ok rfl, bind_of_ok rfl] at h
  obtain ⟨c, s₁, hnext, h⟩ := bind_eq_ok h
  obtain ⟨front, rest, htake, hdrop, rfl, hflat, hends⟩ := exists_front nested cs
  simp only [Cursor.of, htake, hdrop] at hnext h
  have hbehind := hs.stands.advance rfl (head.advance (textAll front))
  cases rest with
  | nil =>
    obtain ⟨e, he⟩ := next_of_nil (s := .of [] (head.advance (textAll front))) rfl
    cases he.symm.trans hnext
  | cons x more =>
    have hx : x.isGap = false := isGap_of_endsSelectors hbehind rfl (hends x rfl)
    cases (next_of_head rfl hx).symm.trans hnext
    split at h
    · rename_i o body closer _
      obtain ⟨selectors, s₂, hread, hrule⟩ := bind_eq_ok h
      obtain ⟨hselectors, rfl⟩ := ofResult_eq_ok hread
      obtain ⟨⟨settings, children⟩, s₃, hwithin, hrule⟩ := bind_eq_ok hrule
      obtain ⟨-, s₄, hbody⟩ := within_eq_ok hwithin
      cases hrule
      obtain ⟨b, rfl, rfl, rfl, rfl⟩ := exists_foundBlock hs rfl hflat
      exact ⟨b, ⟨rfl, ⟨_, map_fst_eq_ok hselectors⟩, n, s₄, hbody⟩, hbehind.enter rfl,
        selectors, settings, children, s₄, rfl, hbody⟩
    · cases h

/-- Up to some depth, whatever the readers of statements give is read from the text. -/
structure ReadersFrom (text : List Char) (n : Nat) : Prop where
  body : ∀ {place settings done s r s'}, s.StandsIn text → (∀ d ∈ done, ReadFrom text d) →
    readBody n place settings done s = .ok (r, s') → ∀ d ∈ r.2, ReadFrom text d
  style : ∀ {place nested s st s'}, s.AtItem text → readStyle n place nested s = .ok (st, s') → ReadFrom text st
  atRule : ∀ {place name p s r s'}, s.StandsIn text → readAtRule n place name p s = .ok (r, s') →
    ∀ st ∈ r.1, ReadFrom text st
  block : ∀ {place p heading s st s'}, s.StandsIn text → readBlock n place p heading s = .ok (st, s') → ReadFrom text st
  group : ∀ {place s sts s'}, s.StandsIn text → readGroup n place s = .ok (sts, s') → ∀ st ∈ sts, ReadFrom text st

theorem readersFrom_zero (text : List Char) : ReadersFrom text 0 where
  body _ _ h := by cases h
  style _ h := by cases h
  atRule _ h := by cases h
  block _ h := by cases h
  group _ h := by cases h

theorem ReadersFrom.body_succ {n : Nat} (ih : ReadersFrom text n) {place : Place} {settings : List Setting} {done : List Statement}
    {s s' : Cursor} {r : List Setting × List Statement} (hs : s.StandsIn text) (hdone : ∀ d ∈ done, ReadFrom text d)
    (h : readBody (n + 1) place settings done s = .ok (r, s')) : ∀ d ∈ r.2, ReadFrom text d := by
  rw [readBody] at h
  obtain ⟨c?, s₁, hpeek, h⟩ := bind_eq_ok h
  have hitem := peekItem_atItem hs hpeek
  split at h
  · cases h
    simpa using hdone
  rename_i c
  generalize c.token = t, place.takesDeclarations = takes at h
  split at h
  · -- a statement behind its name
    obtain ⟨p, s₂, hhere, h⟩ := bind_eq_ok h
    obtain ⟨_, s₃, hnext, h⟩ := bind_eq_ok h
    obtain ⟨⟨st, stage⟩, s₄, hread, h⟩ := bind_eq_ok h
    have hs₃ := Stays.next (Stays.here hitem.stands hhere) hnext
    refine ih.body (stays_readAtRule _ _ _ _ hs₃ hread) (fun d hd => ?_) h
    rcases List.mem_append.1 hd with hd | hd
    · exact ih.atRule hs₃ hread d (Option.mem_toList.1 hd)
    · exact hdone d hd
  · -- a setting, or a rule that starts like one
    obtain ⟨read, s₂, hcapture, hmore⟩ := bind_eq_ok h
    rcases capture_eq_ok hcapture with ⟨a, rfl, hsetting⟩ | ⟨⟨e, rfl⟩, rfl⟩
    · have hs₂ := (Stays.next.bind fun _ => stays_settingAfter _) hitem.stands hsetting
      exact ih.body hs₂ (readFrom_addSetting hdone) hmore
    · obtain ⟨st?, s₃, hattempt, hbody⟩ := bind_eq_ok hmore
      rcases attempt_eq_ok hattempt with ⟨st, rfl, hst⟩ | ⟨rfl, -⟩
      · exact ih.body (stays_readStyle _ _ _ hitem.stands hst)
          (List.forall_mem_cons.2 ⟨ih.style hitem hst, hdone⟩) hbody
      · cases hbody
  · obtain ⟨st, s₂, hread, h⟩ := bind_eq_ok h
    exact ih.body (stays_readStyle _ _ _ hitem.stands hread)
      (List.forall_mem_cons.2 ⟨ih.style hitem hread, hdone⟩) h

theorem ReadersFrom.style_succ {n : Nat} (ih : ReadersFrom text n) {place : Place} {nested : Bool} {s s' : Cursor} {st : Statement}
    (hs : s.AtItem text) (h : readStyle (n + 1) place nested s = .ok (st, s')) : ReadFrom text st := by
  obtain ⟨b, hgives, hinside, selectors, settings, children, s₁, rfl, hbody⟩ := readStyle_eq_ok hs h
  exact .style hgives (ih.body hinside (by simp) hbody)

theorem readFrom_withoutBlock {inside : Bool} {heading : Prelude} {s s' : Cursor} {st? : Option Statement}
    (h : withoutBlock inside heading s = .ok (st?, s')) : ∀ st ∈ st?, ReadFrom text st := by
  cases heading with
  | imported | namespaced | unknown =>
    cases h
    rintro st ⟨⟩
    exact .other _ _
  | charset =>
    cases h
    simp
  | layer names =>
    rw [withoutBlock] at h
    split at h
    · cases h
    · cases h
      rintro st ⟨⟩
      exact .other _ _
  | _ => cases h

theorem ReadersFrom.atRule_succ {n : Nat} (ih : ReadersFrom text n) {place : Place} {name : String} {p : Position} {s s' : Cursor}
    {r : Option Statement × Stage} (hs : s.StandsIn text) (h : readAtRule (n + 1) place name p s = .ok (r, s')) :
    ∀ st ∈ r.1, ReadFrom text st := by
  rw [readAtRule] at h
  obtain ⟨heading, s₁, hheading, hblock⟩ := bind_eq_ok h
  obtain ⟨c?, s₂, hattempt, hmore⟩ := bind_eq_ok hblock
  have hs₁ := Stays.before _ _ hs hheading
  split at hmore
  · obtain ⟨st, s₃, hwithin, hst⟩ := bind_eq_ok hmore
    obtain ⟨-, s₄, hread⟩ := within_eq_ok hwithin
    obtain ⟨c, hc, hnext⟩ | ⟨hc, -⟩ := attempt_eq_ok hattempt
    · cases hc
      cases hst
      intro st hst
      cases hst
      exact ih.block (Stays.enter hs₁ hnext) hread
    · cases hc
  · obtain ⟨st?, s₃, hwithout, hst⟩ := bind_eq_ok hmore
    cases hst
    exact readFrom_withoutBlock hwithout

theorem ReadersFrom.block_succ {n : Nat} (ih : ReadersFrom text n) {place : Place} {p : Position} {heading : Prelude} {s s' : Cursor}
    {st : Statement} (hs : s.StandsIn text) (h : readBlock (n + 1) place p heading s = .ok (st, s')) : ReadFrom text st := by
  rw [readBlock.eq_def] at h
  cases heading with
  | media | supports =>
    obtain ⟨children, s₁, hgroup, hst⟩ := bind_eq_ok h
    cases hst
    exact .group (by decide) (ih.group hs hgroup) _ _ _
  | layer names =>
    rcases names with _ | ⟨name, _ | ⟨other, names⟩⟩
    · obtain ⟨children, s₁, hgroup, hst⟩ := bind_eq_ok h
      cases hst
      exact .group (by decide) (ih.group hs hgroup) _ _ _
    · obtain ⟨children, s₁, hgroup, hst⟩ := bind_eq_ok h
      cases hst
      exact .group (by decide) (ih.group hs hgroup) _ _ _
    · cases h
  | nest selectors =>
    obtain ⟨⟨settings, children⟩, s₁, hbody, hst⟩ := bind_eq_ok h
    simp only at hst
    generalize lines (.style selectors settings children p) = ls at hst
    cases ls with
    | nil =>
      cases hst
      exact .other _ _
    | cons l ls =>
      cases hst
      exact .other _ _
  | imported | namespaced | charset => cases h
  | _ =>
    obtain ⟨_, s₁, -, hst⟩ := bind_eq_ok h
    cases hst
    exact .other _ _

theorem ReadersFrom.group_succ {n : Nat} (ih : ReadersFrom text n) {place : Place} {s s' : Cursor} {sts : List Statement}
    (hs : s.StandsIn text) (h : readGroup (n + 1) place s = .ok (sts, s')) : ∀ st ∈ sts, ReadFrom text st := by
  rw [readGroup] at h
  obtain ⟨⟨settings, children⟩, s₁, hbody, h⟩ := bind_eq_ok h
  have hchildren := ih.body hs (by simp) hbody
  cases h
  split
  · exact hchildren
  · exact List.forall_mem_cons.2 ⟨.loose _, hchildren⟩

theorem readersFrom (text : List Char) : ∀ n, ReadersFrom text n
  | 0 => readersFrom_zero text
  | n + 1 =>
    have ih := readersFrom text n
    ⟨ih.body_succ, ih.style_succ, ih.atRule_succ, ih.block_succ, ih.group_succ⟩

theorem readFrom_of_readTop {n : Nat} {stage : Stage} {first : Bool} {s s' : Cursor} {sts : List Statement}
    (hs : s.StandsIn text) (h : readTop n stage first s = .ok (sts, s')) : ∀ st ∈ sts, ReadFrom text st := by
  induction n generalizing stage first s sts with
  | zero => cases h
  | succ n ih =>
    rw [readTop, bind_of_ok rfl, bind_of_ok (peek_eq _)] at h
    have hitem : (s.skip isMark).AtItem text := hs.skip fun c hc => by simp [isMark, hc]
    cases hnext : ((s.skip isMark).rest.dropWhile isGap).head? with
    | none =>
      rw [hnext] at h
      cases h
      simp
    | some c =>
      rw [hnext] at h
      simp only at h
      generalize c.token = t at h
      split at h
      · obtain ⟨p, s₁, hhere, h₁⟩ := bind_eq_ok h
        obtain ⟨_, s₂, hnext, h₂⟩ := bind_eq_ok h₁
        have hs₂ := Stays.next (Stays.here hitem.stands hhere) hnext
        split at h₂
        · -- the character set
          obtain ⟨_, s₃, hdiscard, hrest⟩ := bind_eq_ok h₂
          exact ih (stays_discard _ hs₂ hdiscard) hrest
        · obtain ⟨⟨st?, stage⟩, s₃, hread, h₃⟩ := bind_eq_ok h₂
          obtain ⟨rest, s₄, hrest, h₄⟩ := bind_eq_ok h₃
          cases h₄
          intro st hst
          rcases List.mem_append.1 hst with hst | hst
          · exact (readersFrom text n).atRule hs₂ hread st (Option.mem_toList.1 hst)
          · exact ih (stays_readAtRule _ _ _ _ hs₂ hread) hrest st hst
      · obtain ⟨st, s₁, hread, h₁⟩ := bind_eq_ok h
        obtain ⟨rest, s₂, hrest, h₂⟩ := bind_eq_ok h₁
        cases h₂
        exact List.forall_mem_cons.2
          ⟨(readersFrom text n).style hitem hread, ih (stays_readStyle _ _ _ hitem.stands hread) hrest⟩

/-- What a text is read to is read from it. -/
theorem readFrom_of_ofChars {sts : List Statement} (h : ofChars text = .ok sts) : ∀ st ∈ sts, ReadFrom text st := by
  obtain ⟨s', htop⟩ := run_eq_ok h
  exact readFrom_of_readTop (StandsIn.start text) htop

/-- What a text is read to owns its blocks. -/
theorem owns_of_ofChars {sts : List Statement} (h : ofChars text = .ok sts) : ∀ st ∈ sts, Owns text st :=
  fun st hst => (readFrom_of_ofChars h st hst).owns

theorem atPosition?_of_gives {selectors : List (List Selector.Step)} {settings : List Setting} {p : Position}
    {b : FoundBlock text} (h : b.Gives (.style selectors settings children p)) :
    Declaration.atPosition? text p = some (ofBlock b.body) := by
  rw [h.1, b.atPosition?_eq]

end

end StyleBump.Statement
