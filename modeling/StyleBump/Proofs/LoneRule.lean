import Mathlib.Data.List.TakeWhile
import StyleBump.Proofs.AuthoredText
import StyleBump.Proofs.OwnBlocks

/-! # Sheets of one rule

What stands in front of a closed block that ends a sheet is read as selectors, unless it starts a
statement. So such a sheet, if it can be read, is one style rule with the declarations of the block
(`ofChars_of_closedBlock`); what its selectors are depends on what stands in front of the block only. -/

namespace StyleBump.Statement
open Css Css.Parse Css.Component
open Declaration (closedBlock namesStatement)
open Text (Position)

theorem closedBlock_isGap (body : List Component) : (closedBlock body).isGap = false := rfl

theorem dropWhile_append_closedBlock (front body : List Component) :
    (front ++ [closedBlock body]).dropWhile isGap = front.dropWhile isGap ++ [closedBlock body] :=
  dropWhile_append_cons (closedBlock_isGap body) front []

theorem takeWhile_append_closedBlock {front : List Component} (h : ∀ x ∈ front, x.isCurly = false)
    (body : List Component) :
    (front ++ [closedBlock body]).takeWhile (!endsSelectors false ·) = front ∧
      (front ++ [closedBlock body]).dropWhile (!endsSelectors false ·) = [closedBlock body] := by
  have hall : ∀ x ∈ front, (!endsSelectors false x) = true := fun x hx => by simp [endsSelectors, h x hx]
  rw [List.takeWhile_append_of_pos hall, List.dropWhile_append_of_pos hall]
  exact ⟨List.append_nil front, rfl⟩

/-- A style rule as it is read from its block. -/
def ReadAs (selectors : List (List Selector.Step)) (head : Position) (body : List Component) (st : Statement) :
    Prop :=
  ∃ settings children m q s', st = .style selectors settings children head ∧
    readBody m .inStyle [] [] (.of body q) = .ok ((settings, children), s')

/-- What stands in front of the block of a rule is read as its selectors. -/
theorem readStyle_append {front : List Component} (h : ∀ x ∈ front, x.isCurly = false) (stage : Stage)
    (p head : Position) :
    ∃ selectors : Except Refusal (List (List Selector.Step)), ∀ n body st s,
      readStyle n (.top stage) false ⟨front ++ [closedBlock body], p, head⟩ = .ok (st, s) →
      s.rest = [] ∧ ∃ sel, selectors = .ok sel ∧ ReadAs sel head body st := by
  refine ⟨(entirely (Selector.prelude false) ⟨front, p, head⟩).map (·.1), fun n body st s hread => ?_⟩
  cases n with
  | zero => cases hread
  | succ n =>
    obtain ⟨htake, hdrop⟩ := takeWhile_append_closedBlock h body
    have hbefore : beforeResult (endsSelectors false) (Selector.prelude (Place.top stage).insideStyle)
        ⟨front ++ [closedBlock body], p, head⟩ = .ok ((entirely (Selector.prelude false) ⟨front, p, head⟩).map (·.1),
          .of [closedBlock body] (p.advance (textAll front))) := by
      simp only [beforeResult, htake, hdrop]
      rfl
    have hblock : (Cursor.of [closedBlock body] (p.advance (textAll front))).rest.dropWhile isGap =
        [closedBlock body] := rfl
    obtain ⟨s₁, hnext, hs₁⟩ := next_of_cons hblock
    rw [readStyle, bind_of_ok rfl, bind_of_ok hbefore, bind_of_ok rfl, bind_of_ok hnext] at hread
    obtain ⟨sel, s₂, hsel, hread⟩ := bind_eq_ok hread
    obtain ⟨⟨settings, children⟩, s₃, hwithin, hread⟩ := bind_eq_ok hread
    cases hread
    obtain ⟨hselectors, rfl⟩ := ofResult_eq_ok hsel
    obtain ⟨hrest, s', hbody⟩ := within_eq_ok hwithin
    exact ⟨hrest.trans hs₁, sel, hselectors, settings, children, n, _, s', rfl, hbody⟩

/-- Behind the last statement there is none. -/
theorem readTop_of_nil {n : Nat} {stage : Stage} {first : Bool} {s s' : Cursor} {sts : List Statement}
    (h : s.rest = []) (hr : readTop n stage first s = .ok (sts, s')) : sts = [] := by
  cases n with
  | zero => cases hr
  | succ n =>
    have hs : (s.skip isMark).rest = [] := by rw [Cursor.skip, Cursor.rest_past, h]; rfl
    rw [readTop, bind_of_ok rfl, bind_of_ok (peek_eq _), hs] at hr
    cases hr
    rfl

/-- What is left in front of a closed block does not start with the name of a statement. -/
theorem dropWhile_append_head {front : List Component} (h : ∀ x ∈ front, namesStatement x = false)
    (body : List Component) :
    ∃ c cs, (front ++ [closedBlock body]).dropWhile isGap = c :: cs ∧ ∀ name, c.token ≠ .atKeyword name := by
  obtain ⟨c, cs, hc⟩ : ∃ c cs, (front ++ [closedBlock body]).dropWhile isGap = c :: cs := by
    rw [dropWhile_append_closedBlock]
    cases front.dropWhile isGap <;> exact ⟨_, _, rfl⟩
  have hmem : c ∈ front ++ [closedBlock body] := by
    have hsub := (List.dropWhile_suffix isGap (l := front ++ [closedBlock body])).subset
    exact hsub (by simp [hc])
  have hname : namesStatement c = false := by
    rcases List.mem_append.1 hmem with hc | hc
    · exact h c hc
    · obtain rfl := List.mem_singleton.1 hc
      rfl
  refine ⟨c, cs, hc, fun name ht => ?_⟩
  simp [namesStatement, ht] at hname

/-- Where a closed block is left behind selectors, a style rule is read, and then what is behind it. -/
theorem readTop_eq_ok {front body : List Component} (h : ∀ x ∈ front, namesStatement x = false)
    {n : Nat} {stage : Stage} {first : Bool} {s s' : Cursor} {p head : Position} {sts : List Statement}
    (hmarks : s.skip isMark = ⟨front ++ [closedBlock body], p, head⟩)
    (hr : readTop (n + 1) stage first s = .ok (sts, s')) :
    ∃ st s₁ rest, readStyle n (.top stage) false ⟨front ++ [closedBlock body], p, head⟩ = .ok (st, s₁) ∧
      readTop n .body false s₁ = .ok (rest, s') ∧ sts = st :: rest := by
  obtain ⟨c, cs, hc, htoken⟩ := dropWhile_append_head h body
  rw [readTop, bind_of_ok rfl, hmarks, bind_of_ok (peek_eq _), hc] at hr
  simp only [List.head?_cons] at hr
  obtain ⟨st, s₁, hst, hr⟩ := bind_eq_ok hr
  obtain ⟨rest, s₂, hrest, hr⟩ := bind_eq_ok hr
  cases hr
  exact ⟨st, s₁, rest, hst, hrest, rfl⟩

/-- A sheet that ends with a closed block behind selectors is one rule, if it can be read. Its declarations are
those of the block. -/
theorem ofChars_of_closedBlock {front : List Component} (hflat : ∀ x ∈ front, x.isCurly = false)
    (hselects : ∀ x ∈ front, namesStatement x = false) :
    ∃ sel head, ∀ text body sts, componentsOf text = front ++ [closedBlock body] → ofChars text = .ok sts →
      Declaration.atPosition? text head = some (Declaration.ofBlock body) ∧
        ∃ st, sts = [st] ∧ ReadAs sel head body st := by
  obtain ⟨head, hpast⟩ := Cursor.past_append isMark .start front
  have hsub : ∀ x ∈ front.dropWhile isMark, x ∈ front := fun x hx => (List.dropWhile_suffix _).subset hx
  obtain ⟨selectors, hstyle⟩ := readStyle_append (fun x hx => hflat x (hsub x hx)) .start head head
  have hlone : ∀ text body sts, componentsOf text = front ++ [closedBlock body] → ofChars text = .ok sts →
      Declaration.atPosition? text head = some (Declaration.ofBlock body) ∧
        ∃ sel, selectors = .ok sel ∧ ∃ st, sts = [st] ∧ ReadAs sel head body st := by
    intro text body sts htext hread
    have hmarks : (Cursor.of (componentsOf text) .start).skip isMark =
        .of (front.dropWhile isMark ++ [closedBlock body]) head := by
      rw [htext]
      exact hpast _ rfl
    have hitem := (Cursor.StandsIn.start text).skip (t := isMark) fun c hc => by simp [isMark, hc]
    rw [hmarks] at hitem
    obtain ⟨b, rfl, -, -, rfl⟩ := exists_foundBlock hitem rfl fun x hx => hflat x (hsub x hx)
    refine ⟨b.atPosition?_eq, ?_⟩
    obtain ⟨s', htop⟩ := run_eq_ok hread
    generalize 8 * (sizeAll (componentsOf text) + 2) = fuel at htop
    cases fuel with
    | zero => cases htop
    | succ n =>
      obtain ⟨st, s₁, rest, hst, hrest, rfl⟩ := readTop_eq_ok (fun x hx => hselects x (hsub x hx)) hmarks htop
      obtain ⟨hs₁, sel, hsel, hread⟩ := hstyle n b.body st s₁ hst
      rw [readTop_of_nil hs₁ hrest]
      exact ⟨sel, hsel, st, rfl, hread⟩
  -- The selectors do not depend on the block, so one choice of them is right for every block.
  cases selectors with
  | error e =>
    refine ⟨[], head, fun text body sts htext hread => ?_⟩
    obtain ⟨-, sel, hsel, -⟩ := hlone text body sts htext hread
    cases hsel
  | ok sel =>
    refine ⟨sel, head, fun text body sts htext hread => ?_⟩
    obtain ⟨hfound, sel', hsel, hst⟩ := hlone text body sts htext hread
    cases hsel
    exact ⟨hfound, hst⟩

/-! ### The body of a rule with one declaration -/

theorem peekItem_of_nil {s : Cursor} (h : s.rest = []) : ∃ s', peekItem s = .ok (none, s') := by
  have hs : (s.skip isFiller).rest = [] := by rw [Cursor.skip, Cursor.rest_past, h]; rfl
  refine ⟨s.skip isFiller, ?_⟩
  rw [peekItem, bind_of_ok rfl, peek_eq, hs]
  rfl

theorem peekItem_of_ident (name : String) (t : List Char) (cs : List Component) (p : Position) :
    peekItem (.of (.leaf ⟨.ident name, t⟩ :: cs) p) =
      .ok (some (.leaf ⟨.ident name, t⟩), .of (.leaf ⟨.ident name, t⟩ :: cs) p) := rfl

theorem readBody_of_nil {n : Nat} {place : Place} {settings settings' : List Setting}
    {done children : List Statement} {s s' : Cursor} (h : s.rest = [])
    (hr : readBody n place settings done s = .ok ((settings', children), s')) : children = done.reverse := by
  cases n with
  | zero => cases hr
  | succ n =>
    obtain ⟨s₁, hpeek⟩ := peekItem_of_nil h
    rw [readBody, bind_of_ok hpeek] at hr
    cases hr
    rfl

/-- Without a block in curly brackets there is no rule. -/
theorem readStyle_of_flat {cs : List Component} (h : ∀ x ∈ cs, x.isCurly = false ∧ isSemicolon x = false)
    (n : Nat) (place : Place) {s : Cursor} (hs : s.rest = cs) : ∃ e, readStyle n place true s = .error e := by
  cases n with
  | zero => exact ⟨_, rfl⟩
  | succ n =>
    have hall : ∀ x ∈ cs, (!endsSelectors true x) = true := by
      intro x hx
      obtain ⟨hcurly, hsemicolon⟩ := h x hx
      simp [endsSelectors, hcurly, hsemicolon]
    have hdrop : s.rest.dropWhile (!endsSelectors true ·) = [] := by
      rw [hs]
      exact List.dropWhile_eq_nil_iff.2 hall
    have hnil (p : Position) : (Cursor.of (s.rest.dropWhile (!endsSelectors true ·)) p).rest.dropWhile isGap = [] := by
      rw [hdrop]
      rfl
    obtain ⟨e, he⟩ := next_of_nil (hnil _)
    refine ⟨e, ?_⟩
    rw [readStyle, bind_of_ok rfl, bind_of_ok rfl, bind_of_ok rfl, bind_of_error he]

theorem settingAfter_rest {name : String} {a : Setting} {s s' : Cursor}
    (h : ∀ x ∈ s.rest, isSemicolon x = false) (hr : settingAfter name s = .ok (a, s')) : s'.rest = [] := by
  obtain ⟨b, s₁, hbefore, hr⟩ := bind_eq_ok hr
  have hall : ∀ x ∈ s.rest, (!isSemicolon x) = true := fun x hx => by simp [h x hx]
  have hs₁ : s₁.rest = [] := by
    rw [before_eq_ok hbefore]
    exact List.dropWhile_eq_nil_iff.2 hall
  have hnil : s₁.rest.dropWhile isGap = [] := by rw [hs₁]; rfl
  obtain ⟨e, he⟩ := next_of_nil hnil
  rw [bind_of_ok (attempt_of_error he)] at hr
  cases hr
  exact hs₁

/-- One declaration without blocks in curly brackets leaves no rule in the block. -/
theorem readBody_of_flat {name : String} {t : List Char} {cs : List Component}
    (h : ∀ x ∈ cs, x.isCurly = false ∧ isSemicolon x = false) {n : Nat} {p : Position}
    {settings : List Setting} {children : List Statement} {s' : Cursor}
    (hr : readBody n .inStyle [] [] (.of (.leaf ⟨.ident name, t⟩ :: cs) p) = .ok ((settings, children), s')) :
    children = [] := by
  have hbody : ∀ x ∈ .leaf ⟨.ident name, t⟩ :: cs, x.isCurly = false ∧ isSemicolon x = false :=
    List.forall_mem_cons.2 ⟨⟨rfl, rfl⟩, h⟩
  cases n with
  | zero => cases hr
  | succ n =>
    have htakes : Place.inStyle.takesDeclarations = true := rfl
    rw [readBody, bind_of_ok (peekItem_of_ident name t cs p)] at hr
    simp only [Component.token, htakes] at hr
    obtain ⟨r, s₁, hcapture, hr⟩ := bind_eq_ok hr
    unfold capture at hcapture
    split at hcapture
    · rename_i a s₂ hread
      cases hcapture
      obtain ⟨c, s₃, hnext, hread⟩ := bind_eq_ok hread
      have hname : (Cursor.of (.leaf ⟨.ident name, t⟩ :: cs) p).rest.dropWhile isGap =
          .leaf ⟨.ident name, t⟩ :: cs := rfl
      obtain ⟨s₄, hnext', hs₄⟩ := next_of_cons hname
      rw [hnext'] at hnext
      cases hnext
      -- The setting takes all that is left, so there is nothing behind it to be a rule.
      have hrest : s₁.rest = [] := settingAfter_rest (by rw [hs₄]; exact fun x hx => (h x hx).2) hread
      exact readBody_of_nil hrest hr
    · rename_i e hread
      cases hcapture
      -- What is no setting is tried as a rule, and that fails as well.
      obtain ⟨e', he'⟩ := readStyle_of_flat hbody n .inStyle (s := .of (.leaf ⟨.ident name, t⟩ :: cs) p) rfl
      simp only at hr
      rw [bind_of_ok (attempt_of_error he')] at hr
      cases hr

end StyleBump.Statement
