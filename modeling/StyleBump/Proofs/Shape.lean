import Mathlib.Data.List.Forall2
import StyleBump.Proofs.AuthoredRules

/-! # The shape of sheets

Nothing in the type of rules says which fields a rule of some kind has. In a sheet that was read they fit the
kind at every depth (`Rule.Shaped`), since every rule stands for a statement (`Statement.StandsFor`) and only some
statements can be read from a text (`Statement.ReadFrom`). The rules of a sheet stand for its statements one by
one, behind the license comments (`Sheet.shape_of_read`). -/

namespace StyleBump

/-- The fields of a rule fit its kind: selectors and declarations for style rules, a text for all others; rules
inside and a place in the text for those that are no comment and not kept as a text. -/
structure Rule.Shaped (r : Rule) : Prop where
  selectors : r.selectors.isSome ↔ r.kind = .style
  declarations : r.declarations.isSome ↔ r.kind = .style
  prelude : r.prelude = none ↔ r.kind = .style
  bare : r.kind = .comment ∨ r.kind = .atRule → r.rules = [] ∧ r.location = none
  placed : r.kind ≠ .comment → r.kind ≠ .atRule → ∃ p, r.location = some p ∧ 1 ≤ p.line

namespace Rule
variable {rules : List Rule}

theorem shaped_style (selectors : List String) (declarations : List Declaration) (rules : List Rule)
    (p : Text.Position) : (style selectors declarations rules (some (Statement.location p))).Shaped where
  selectors := by simp [style]
  declarations := by simp [style]
  prelude := by simp [style]
  bare := nofun
  placed _ _ := ⟨_, rfl, Nat.le_add_left 1 p.line⟩

theorem shaped_group {kind : RuleKind} (hk : kind ∈ [.media, .supports, .layer]) (prelude : String)
    (rules : List Rule) (p : Text.Position) : (group kind prelude rules (some (Statement.location p))).Shaped := by
  simp only [List.mem_cons, List.not_mem_nil, or_false] at hk
  rcases hk with rfl | rfl | rfl <;>
    exact ⟨by simp [group], by simp [group], by simp [group], nofun, fun _ _ => ⟨_, rfl, Nat.le_add_left 1 p.line⟩⟩

theorem shaped_opaqueText {kind : RuleKind} (hk : kind ∈ [.comment, .atRule]) (text : String) :
    (opaqueText kind text).Shaped := by
  simp only [List.mem_cons, List.not_mem_nil, or_false] at hk
  rcases hk with rfl | rfl <;>
    exact ⟨by simp [opaqueText, group], by simp [opaqueText, group], by simp [opaqueText, group], fun _ => ⟨rfl, rfl⟩,
      by simp [opaqueText, group]⟩

/-- What holds of a rule and of all rules in it, holds of its parts. -/
theorem forall_mem_parts {P : Rule → Prop} {r : Rule} (h : P r) (hr : ∀ x ∈ partsAll r.rules, P x) :
    ∀ x ∈ parts r, P x := by
  intro x hx
  obtain ⟨kind, selectors, prelude, declarations, rules, location⟩ := r
  rcases List.mem_cons.1 hx with rfl | hx
  · exact h
  · exact hr x hx

theorem forall_mem_partsAll {P : Rule → Prop} (h : ∀ r ∈ rules, ∀ x ∈ parts r, P x) : ∀ x ∈ partsAll rules, P x := by
  intro x hx
  obtain ⟨r, hr, hx⟩ := mem_partsAll.1 hx
  exact h r hr x hx

end Rule

/-- The text of a comment. -/
def Css.Lexeme.comment? (l : Css.Lexeme) : Option String :=
  match l.token with
  | .comment t => some t
  | _ => none

/-- What may stand in front of a license comment: white space, and other license comments. -/
def Css.Lexeme.leads (l : Css.Lexeme) : Bool :=
  match l.token with
  | .whitespace _ => true
  | .comment t => t.toList.head? = some '!'
  | _ => false

/-- License comments are all the comments at the front, in the order of the text. -/
theorem licenses_eq (ls : List Css.Lexeme) :
    licenses ls = (ls.takeWhile Css.Lexeme.leads).filterMap Css.Lexeme.comment? := by
  induction ls with
  | nil => rfl
  | cons l ls ih =>
    obtain ⟨token, text⟩ := l
    cases token with
    | whitespace _ => exact ih
    | comment t =>
      rw [licenses, ih]
      split <;> simp_all [Css.Lexeme.leads, Css.Lexeme.comment?]
    | _ => rfl

namespace Css.Parse
variable {α β : Type} {Q : β → Prop}

/-- What a reader gives, if it does not refuse. -/
def Gives (Q : β → Prop) (p : Parse β) : Prop := ∀ ⦃s b s'⦄, p s = .ok (b, s') → Q b

namespace Gives

theorem pure {b : β} (h : Q b) : Gives Q (Pure.pure b) := by
  intro s b' s' hb
  cases hb
  exact h

theorem bind {p : Parse α} {f : α → Parse β} (h : ∀ a, Gives Q (f a)) : Gives Q (p >>= f) := by
  intro s b s' hb
  obtain ⟨a, s₁, -, hb⟩ := bind_eq_ok hb
  exact h a hb

theorem map {p : Parse α} {f : α → β} (h : ∀ a, Q (f a)) : Gives Q (f <$> p) := bind fun a => pure (h a)

theorem refuse (c : Cause) : Gives Q (refuse c) := by
  intro s b s' hb
  cases hb

end Gives

end Css.Parse

namespace Statement
open Css Css.Parse
open Text (Position)

/-! ### What is read and not kept -/

theorem gives_innerPrelude (insideStyle : Bool) (low name : String) :
    Gives (· ≠ .charset) (innerPrelude insideStyle low name) := by
  unfold innerPrelude
  split
  case h_4 | h_7 | h_11 | h_12 | h_21 => exact .pure nofun
  case h_1 | h_2 | h_5 => exact .bind fun _ => .pure nofun
  case h_19 => exact .bind fun _ => .bind fun _ => .pure nofun
  case h_23 =>
    split
    · exact .map fun _ => nofun
    · exact .bind fun _ => .bind fun _ => .pure nofun
  all_goals exact .map fun _ => nofun

theorem gives_topPrelude (stage : Stage) (low name : String) :
    Gives (fun heading => heading = .charset → low = "charset") (topPrelude stage low name) := by
  unfold topPrelude
  split
  · split
    · exact .refuse _
    · exact .map fun _ => nofun
  · split
    · exact .refuse _
    · exact .map fun _ => nofun
  · exact .bind fun _ => .pure fun _ => rfl
  · intro s heading s' h hcharset
    exact absurd hcharset (gives_innerPrelude _ _ _ h)

theorem gives_readPrelude (place : Place) (name : String) :
    Gives (fun heading => heading = .charset → name.toLower = "charset") (readPrelude place name) := by
  intro s heading s' h
  rw [readPrelude] at h
  have keeps {p : Prelude} {s₁ : Cursor}
      (h : (if place.insideStyle && !p.nests then Parse.refuse (.unknownAtRule name) else pure p : Parse Prelude) s₁ =
        .ok (heading, s')) : p = heading := by
    split at h <;> cases h
    rfl
  cases hstage : place.stage with
  | some stage =>
    rw [hstage] at h
    obtain ⟨p, s₁, hp, h⟩ := bind_eq_ok h
    obtain rfl := keeps h
    exact gives_topPrelude _ _ _ hp
  | none =>
    rw [hstage] at h
    obtain ⟨p, s₁, hp, h⟩ := bind_eq_ok h
    obtain rfl := keeps h
    exact fun hcharset => absurd hcharset (gives_innerPrelude _ _ _ hp)

theorem eq_charset_of_withoutBlock {insideStyle : Bool} {heading : Prelude} {s s' : Cursor}
    (h : withoutBlock insideStyle heading s = .ok (none, s')) : heading = .charset := by
  cases heading with
  | charset => rfl
  | layer names =>
    rw [withoutBlock] at h
    split at h <;> cases h
  | _ => cases h

/-- Only a character set is read without a statement that is kept of it. -/
theorem toLower_eq_charset_of_readAtRule {n : Nat} {place : Place} {name : String} {p : Position} {s s' : Cursor}
    {stage : Stage} (h : readAtRule n place name p s = .ok ((none, stage), s')) : name.toLower = "charset" := by
  cases n with
  | zero => cases h
  | succ n =>
    rw [readAtRule] at h
    obtain ⟨heading, s₁, hheading, h⟩ := bind_eq_ok h
    obtain ⟨c, s₂, -, h⟩ := bind_eq_ok h
    have hcharset : heading = .charset := by
      split at h
      · obtain ⟨st, s₃, -, h⟩ := bind_eq_ok h
        cases h
      · obtain ⟨st?, s₃, hwithout, h⟩ := bind_eq_ok h
        cases h
        exact eq_charset_of_withoutBlock hwithout
    obtain ⟨_, _, hread⟩ := exists_of_before hheading
    exact gives_readPrelude place name hread hcharset

/-! ### Rules that stand for statements -/

/-- Whether a statement is compared by its text. -/
def ByText : Statement → Prop
  | loose _ => True
  | other _ _ => True
  | _ => False

/-- The text of the prelude of a group; a group without one has the empty text. -/
def preludeText (w : Printer) : Option String → Except String String
  | some t => w.prelude t
  | none => .ok ""

/-- A rule that stands for a statement: of its kind, written from its parts, placed where it starts, with rules
inside that stand for the statements inside, in the same order. -/
inductive StandsFor (w : Printer) : Statement → Rule → Prop
  | style {selectors : List (List Selector.Step)} {texts : List String} {children : List Statement} {rules : List Rule}
      (ht : List.Forall₂ (fun s t => w.selector s = .ok t) selectors texts)
      (hc : List.Forall₂ (StandsFor w) children rules)
      (settings : List Setting) (declarations : List Declaration) (p : Position) :
      StandsFor w (.style selectors settings children p) (.style texts declarations rules (some (location p)))
  | group {prelude : Option String} {text : String} {children : List Statement} {rules : List Rule}
      (ht : preludeText w prelude = .ok text) (hc : List.Forall₂ (StandsFor w) children rules)
      (kind : RuleKind) (heading : String) (p : Position) :
      StandsFor w (.group kind heading prelude children p) (.group kind text rules (some (location p)))
  | kept {s : Statement} {text : String} (hs : s.ByText) (ht : w.statement s = .ok text) :
      StandsFor w s (.opaqueText .atRule text)

section
variable {w : Printer} {side : Side} {text : List Char}

theorem forall₂_of_writtenSelectors {selectors : List (List Selector.Step)} {texts : List String}
    (h : writtenSelectors w side selectors = .ok texts) :
    List.Forall₂ (fun s t => w.selector s = .ok t) selectors texts := by
  induction selectors generalizing texts with
  | nil =>
    cases h
    exact .nil
  | cons s ss ih =>
    obtain ⟨t, ht, h⟩ := exists_of_bind_eq_ok h
    obtain ⟨ts, hts, h⟩ := exists_of_bind_eq_ok h
    cases h
    exact .cons (mapError_eq_ok ht) (ih hts)

theorem standsFor_of_opaqueRule {s : Statement} {r : Rule} (hs : s.ByText) (h : opaqueRule w side s = .ok r) :
    StandsFor w s r := by
  obtain ⟨t, ht, h⟩ := exists_of_bind_eq_ok h
  cases h
  exact .kept hs (mapError_eq_ok ht)

mutual
theorem standsFor_of_toRule : ∀ (s : Statement) {r : Rule}, toRule w side text s = .ok r → StandsFor w s r
  | style selectors settings children p, r, h => by
    rw [toRule] at h
    obtain ⟨ts, hts, h⟩ := exists_of_bind_eq_ok h
    obtain ⟨ds, -, h⟩ := exists_of_bind_eq_ok h
    obtain ⟨rules, hrules, h⟩ := exists_of_bind_eq_ok h
    cases h
    exact .style (forall₂_of_writtenSelectors hts) (forall₂_of_toRules children hrules) settings ds p
  | group kind heading prelude children p, r, h => by
    have hparts : ∃ t rules, preludeText w prelude = .ok t ∧ toRules w side text children = .ok rules ∧
        r = .group kind t rules (some (location p)) := by
      cases prelude with
      | none =>
        simp only [toRule] at h
        obtain ⟨t, ht, h⟩ := exists_of_bind_eq_ok h
        obtain ⟨rules, hrules, h⟩ := exists_of_bind_eq_ok h
        cases ht
        exact ⟨"", rules, rfl, hrules, (Except.ok.inj h).symm⟩
      | some q =>
        simp only [toRule] at h
        obtain ⟨t, ht, h⟩ := exists_of_bind_eq_ok h
        obtain ⟨rules, hrules, h⟩ := exists_of_bind_eq_ok h
        exact ⟨t, rules, mapError_eq_ok ht, hrules, (Except.ok.inj h).symm⟩
    obtain ⟨t, rules, ht, hrules, rfl⟩ := hparts
    exact .group ht (forall₂_of_toRules children hrules) kind heading p
  | loose settings, r, h => standsFor_of_opaqueRule trivial h
  | other ls short, r, h => standsFor_of_opaqueRule trivial h

/-- The rules of statements stand for them one by one. -/
theorem forall₂_of_toRules : ∀ (ss : List Statement) {rs : List Rule}, toRules w side text ss = .ok rs →
    List.Forall₂ (StandsFor w) ss rs
  | [], rs, h => by
    cases h
    exact .nil
  | s :: ss, rs, h => by
    obtain ⟨r, hr, h⟩ := exists_of_bind_eq_ok h
    obtain ⟨rest, hrest, h⟩ := exists_of_bind_eq_ok h
    cases h
    exact .cons (standsFor_of_toRule s hr) (forall₂_of_toRules ss hrest)
end

mutual
theorem shaped_of_standsFor : ∀ (s : Statement) {r : Rule}, ReadFrom text s → StandsFor w s r →
    ∀ x ∈ Rule.parts r, x.Shaped ∧ x.kind ≠ .comment
  | style selectors settings children p, r, hs, h => by
    cases hs with | style _ hchildren => ?_
    cases h with
    | style ht hc =>
      exact Rule.forall_mem_parts ⟨Rule.shaped_style _ _ _ _, nofun⟩ (shaped_of_forall₂ children hchildren hc)
    | kept hs => exact hs.elim
  | group kind heading prelude children p, r, hs, h => by
    cases hs with | group hk hchildren => ?_
    cases h with
    | group ht hc =>
      refine Rule.forall_mem_parts ⟨Rule.shaped_group hk _ _ _, ?_⟩ (shaped_of_forall₂ children hchildren hc)
      rintro rfl
      exact absurd hk (by decide)
    | kept hs => exact hs.elim
  | loose settings, r, _, h => by
    cases h
    exact Rule.forall_mem_parts ⟨Rule.shaped_opaqueText (by decide) _, nofun⟩
      (by simp [Rule.opaqueText, Rule.group, Rule.partsAll])
  | other ls short, r, _, h => by
    cases h
    exact Rule.forall_mem_parts ⟨Rule.shaped_opaqueText (by decide) _, nofun⟩
      (by simp [Rule.opaqueText, Rule.group, Rule.partsAll])

theorem shaped_of_forall₂ : ∀ (ss : List Statement) {rs : List Rule}, (∀ s ∈ ss, ReadFrom text s) →
    List.Forall₂ (StandsFor w) ss rs → ∀ x ∈ Rule.partsAll rs, x.Shaped ∧ x.kind ≠ .comment
  | [], rs, _, h => by
    cases h
    simp [Rule.partsAll]
  | s :: ss, rs, hs, h => by
    obtain ⟨hs, hss⟩ := List.forall_mem_cons.1 hs
    cases h with
    | cons hr hrs =>
      intro x hx
      rcases List.mem_append.1 hx with hx | hx
      · exact shaped_of_standsFor s hs hr x hx
      · exact shaped_of_forall₂ ss hss hrs x hx
end

end

end Statement

namespace Sheet
open Statement Css

/-- In a sheet that was read the fields of every rule fit its kind. A side without text is the empty sheet. In all
others the license comments come first, in the order of the text, and there is no comment behind them or inside a
rule; the rules behind them stand for the statements that were read, one by one and in the same order at every
depth. Of what is read at the level of statements only character sets are not kept. -/
theorem shape_of_read {side : Side} {text : Option String} {w : Printer} {sheet : Sheet}
    (h : read side text w = .ok sheet) :
    (∀ r ∈ Rule.partsAll sheet, r.Shaped) ∧
    ((hasText text = false ∧ sheet = []) ∨
      (hasText text = true ∧ ∃ statements rules, Statement.ofChars (text.getD "").toList = .ok statements ∧
        sheet = (((lexemes (text.getD "").toList).takeWhile Lexeme.leads).filterMap Lexeme.comment?).map
          (Rule.opaqueText .comment) ++ rules ∧
        (∀ r ∈ Rule.partsAll rules, r.kind ≠ .comment) ∧
        List.Forall₂ (StandsFor w) statements rules)) ∧
    ∀ n place name p s stage s', readAtRule n place name p s = .ok ((none, stage), s') → name.toLower = "charset" := by
  suffices hsheet : (∀ r ∈ Rule.partsAll sheet, r.Shaped) ∧ _ from
    ⟨hsheet.1, hsheet.2, fun n place name p s stage s' => toLower_eq_charset_of_readAtRule⟩
  cases htext : hasText text with
  | false =>
    rw [read, htext] at h
    cases h
    exact ⟨by simp [Rule.partsAll], .inl ⟨rfl, rfl⟩⟩
  | true =>
    rw [read, htext, if_pos rfl, ofChars] at h
    obtain ⟨statements, hread, h⟩ := exists_of_bind_eq_ok h
    obtain ⟨rules, hrules, h⟩ := exists_of_bind_eq_ok h
    cases h
    have hread : Statement.ofChars (text.getD "").toList = .ok statements := mapError_eq_ok hread
    have hstand := forall₂_of_toRules statements hrules
    have hshaped := shaped_of_forall₂ statements (readFrom_of_ofChars hread) hstand
    refine ⟨Rule.forall_mem_partsAll fun r hr => ?_, .inr ⟨rfl, statements, rules, hread, ?_,
      fun r hr => (hshaped r hr).2, hstand⟩⟩
    · rcases List.mem_append.1 hr with hlicense | hrule
      · obtain ⟨t, -, rfl⟩ := List.mem_map.1 hlicense
        exact Rule.forall_mem_parts (Rule.shaped_opaqueText (by decide) _)
          (by simp [Rule.opaqueText, Rule.group, Rule.partsAll])
      · exact fun x hx => (hshaped x (Rule.mem_partsAll.2 ⟨r, hrule, hx⟩)).1
    · rw [licenses_eq]

/-- A sheet of all kinds of rules, with two licenses and rules in rules. -/
def mixedText : String :=
  "/*!a*/ /*!b*/@charset 'x';@media print\x7b.a\x7b&:hover\x7b\x7d\x7d@font-face\x7b\x7d\x7d/*!c*/@layer\x7b\x7d"

theorem shape_of_read_mixed :
    ∃ sheet, read .old (some mixedText) = .ok sheet ∧
      (Rule.partsAll sheet).map (·.kind) = [.comment, .comment, .media, .style, .style, .atRule, .layer] ∧
      ∀ r ∈ Rule.partsAll sheet, r.Shaped := by
  have hkinds : (read .old (some mixedText)).toOption.map (fun sheet => (Rule.partsAll sheet).map (·.kind)) =
      some [.comment, .comment, .media, .style, .style, .atRule, .layer] := by
    decide +kernel
  cases h : read .old (some mixedText) with
  | error f =>
    rw [h] at hkinds
    cases hkinds
  | ok sheet =>
    rw [h] at hkinds
    exact ⟨sheet, rfl, Option.some.inj hkinds, (shape_of_read h).1⟩

end Sheet

end StyleBump
