import StyleBump.Css.Raw
import StyleBump.General

/-! # Running readers

A reader that succeeds does so step by step (`bind_eq_ok`). What the readers of single component values
do is given by what is left to read, with the gaps in front of it taken away. -/

namespace StyleBump.Css
open Text (Position)
open Component (isGap)

theorem Cursor.rest_past (t : Component → Bool) (p : Position) (cs : List Component) :
    (past t p cs).rest = cs.dropWhile t := by
  induction cs generalizing p with
  | nil => rfl
  | cons c cs ih =>
    rw [past, List.dropWhile]
    cases hc : t c with
    | true => exact ih _
    | false => rfl

theorem Cursor.head_past (t : Component → Bool) (p : Position) (cs : List Component) :
    (past t p cs).head = (past t p cs).position := by
  induction cs generalizing p with
  | nil => rfl
  | cons c cs ih =>
    rw [past]
    split
    · exact ih _
    · rfl

/-- The characters of a leaf, or of the token that opens a block. -/
def Component.lead : Component → List Char
  | .leaf l => l.text
  | .block _ o _ _ => o.text

/-- What stands in front of a component is passed over in the same way whatever that component is, unless it
is passed over, too. -/
theorem Cursor.past_append (t : Component → Bool) (p : Position) (front : List Component) :
    ∃ q, ∀ c, t c = false → past t p (front ++ [c]) = .of (front.dropWhile t ++ [c]) q := by
  induction front generalizing p with
  | nil => exact ⟨p, fun c hc => by rw [List.nil_append, past, if_neg (by simp [hc])]; rfl⟩
  | cons x front ih =>
    cases hx : t x with
    | true =>
      obtain ⟨q, hq⟩ := ih (p.advance x.text)
      refine ⟨q, fun c hc => ?_⟩
      rw [List.cons_append, past, if_pos hx, hq c hc, List.dropWhile_cons_of_pos hx]
    | false =>
      refine ⟨p, fun c _ => ?_⟩
      rw [List.cons_append, past, if_neg (by simp [hx]), List.dropWhile_cons_of_neg (by simp [hx])]
      rfl

namespace Parse
variable {α β : Type} {s : Cursor}

theorem bind_of_ok {p : Parse α} {a : α} {s' : Cursor} (h : p s = .ok (a, s')) (f : α → Parse β) :
    (p >>= f) s = f a s' := by
  show (p s >>= fun r => f r.1 r.2) = f a s'
  rw [h]
  rfl

theorem bind_of_error {p : Parse α} {e : Refusal} (h : p s = .error e) (f : α → Parse β) :
    (p >>= f) s = .error e := by
  show (p s >>= fun r => f r.1 r.2) = .error e
  rw [h]
  rfl

theorem bind_eq_ok {p : Parse α} {f : α → Parse β} {r : β × Cursor} (h : (p >>= f) s = .ok r) :
    ∃ a s', p s = .ok (a, s') ∧ f a s' = .ok r := by
  cases hp : p s with
  | error e =>
    rw [bind_of_error hp] at h
    cases h
  | ok as =>
    obtain ⟨a, s'⟩ := as
    rw [bind_of_ok hp] at h
    exact ⟨a, s', rfl, h⟩

theorem attempt_of_error {p : Parse α} {e : Refusal} (h : p s = .error e) : attempt p s = .ok (none, s) := by
  rw [attempt, h]

theorem attempt_of_ok {p : Parse α} {a : α} {s' : Cursor} (h : p s = .ok (a, s')) :
    attempt p s = .ok (some a, s') := by
  rw [attempt, h]

theorem nextItem_of_nil (h : s.rest = []) : nextItem s = .error ⟨.endOfInput, s.position⟩ := by
  rw [nextItem, h]

theorem nextItem_of_cons {c : Component} {cs : List Component} (h : s.rest = c :: cs) :
    ∃ head, nextItem s = .ok (c, ⟨cs, s.position.advance c.text, head⟩) := by
  rw [nextItem, h]
  exact ⟨_, rfl⟩

theorem next_of_nil (h : s.rest.dropWhile isGap = []) : ∃ e, next s = .error e := by
  have hs : s.skipGaps.rest = [] := (Cursor.rest_past _ _ _).trans h
  exact ⟨_, (bind_of_ok rfl _).trans (nextItem_of_nil hs)⟩

theorem next_of_cons {c : Component} {cs : List Component} (h : s.rest.dropWhile isGap = c :: cs) :
    ∃ s', next s = .ok (c, s') ∧ s'.rest = cs := by
  have hs : s.skipGaps.rest = c :: cs := (Cursor.rest_past _ _ _).trans h
  obtain ⟨head, hn⟩ := nextItem_of_cons hs
  exact ⟨_, (bind_of_ok rfl _).trans hn, rfl⟩

theorem entirely_eq_ok {p : Parse α} {r : α × Cursor} (h : entirely p s = .ok r) :
    ∃ s', p s = .ok (r.1, s') := by
  obtain ⟨a, s₁, hp, h⟩ := bind_eq_ok h
  obtain ⟨_, s₂, -, h⟩ := bind_eq_ok h
  cases h
  exact ⟨s₁, hp⟩

theorem ofResult_eq_ok {r : Except Refusal α} {a : α} {s' : Cursor} (h : ofResult r s = .ok (a, s')) :
    r = .ok a ∧ s' = s := by
  cases r with
  | error e => cases h
  | ok b =>
    cases h
    exact ⟨rfl, rfl⟩

theorem within_eq_ok {p : Parse α} {body : List Component} {a : α} {s' : Cursor}
    (h : within body p s = .ok (a, s')) : s'.rest = s.rest ∧ ∃ s'', p (.of body s.head) = .ok (a, s'') := by
  unfold within at h
  split at h
  · rename_i hp
    cases h
    exact ⟨rfl, entirely_eq_ok hp⟩
  · cases h

theorem run_eq_ok {p : Parse α} {cs : List Component} {start : Position} {a : α} (h : run p cs start = .ok a) :
    ∃ s', p (.of cs start) = .ok (a, s') := by
  obtain ⟨_, he⟩ := map_fst_eq_ok h
  exact entirely_eq_ok he

theorem before_eq_ok {p : Parse α} {stop : Component → Bool} {a : α} {s' : Cursor}
    (h : before stop p s = .ok (a, s')) : s'.rest = s.rest.dropWhile (!stop ·) := by
  obtain ⟨r, s₁, hr, h⟩ := bind_eq_ok h
  have hrest : s₁.rest = s.rest.dropWhile (!stop ·) := by
    cases hr
    rfl
  cases r with
  | ok b =>
    cases h
    exact hrest
  | error e => cases h

theorem exists_of_before {p : Parse α} {stop : Component → Bool} {a : α} {s' : Cursor}
    (h : before stop p s = .ok (a, s')) : ∃ s₁ s₂, p s₁ = .ok (a, s₂) := by
  obtain ⟨r, s₁, hr, h⟩ := bind_eq_ok h
  cases r with
  | error e => cases h
  | ok b =>
    cases h
    have hread := congrArg (Except.map Prod.fst) hr
    obtain ⟨s₂, he⟩ := map_fst_eq_ok (Except.ok.inj hread)
    obtain ⟨s₃, hp⟩ := entirely_eq_ok he
    exact ⟨_, s₃, hp⟩

/-- Where no gap stands first, the first component value is read. -/
theorem next_of_head {c : Component} {cs : List Component} (h : s.rest = c :: cs) (hc : c.isGap = false) :
    next s = .ok (c, ⟨cs, s.position.advance c.text, s.position.advance c.lead⟩) := by
  have hskip : s.skipGaps = .of (c :: cs) s.position := by
    rw [Cursor.skipGaps, Cursor.skip, h, Cursor.past, if_neg (by simp [hc])]
  have hnext : next s = nextItem s.skipGaps := bind_of_ok rfl _
  rw [hnext, hskip]
  cases c <;> rfl

theorem attempt_eq_ok {p : Parse α} {r : Option α} {s' : Cursor} (h : attempt p s = .ok (r, s')) :
    (∃ a, r = some a ∧ p s = .ok (a, s')) ∨ (r = none ∧ s' = s) := by
  unfold attempt at h
  split at h
  · rename_i hread
    cases h
    exact .inl ⟨_, rfl, hread⟩
  · cases h
    exact .inr ⟨rfl, rfl⟩

/-- Looking ahead finds the first component value that is no gap. -/
theorem peek_eq (s : Cursor) : attempt (lookahead next) s = .ok ((s.rest.dropWhile isGap).head?, s) := by
  cases h : s.rest.dropWhile isGap with
  | nil =>
    obtain ⟨e, he⟩ := next_of_nil h
    exact attempt_of_error (by rw [lookahead, he])
  | cons c cs =>
    obtain ⟨s', hs', -⟩ := next_of_cons h
    exact attempt_of_ok (by rw [lookahead, hs'])

end Parse

end StyleBump.Css
