/-! # Lists and results

What holds of any lists, options and results, whatever they stand for. -/

namespace StyleBump

/-! ### Lists -/

section
variable {α β : Type} {p q : α → Bool} {x : α} {a b xs : List α}

theorem takeWhile_congr (h : ∀ x ∈ xs, p x = q x) : xs.takeWhile p = xs.takeWhile q := by
  induction xs with
  | nil => rfl
  | cons x xs ih =>
    obtain ⟨hx, hxs⟩ := List.forall_mem_cons.1 h
    rw [List.takeWhile_cons, List.takeWhile_cons, hx, ih hxs]

theorem dropWhile_congr (h : ∀ x ∈ xs, p x = q x) : xs.dropWhile p = xs.dropWhile q := by
  induction xs with
  | nil => rfl
  | cons x xs ih =>
    obtain ⟨hx, hxs⟩ := List.forall_mem_cons.1 h
    rw [List.dropWhile_cons, List.dropWhile_cons, hx, ih hxs]

theorem not_of_dropWhile_eq_cons {rest : List α} (h : xs.dropWhile p = x :: rest) : p x = false := by
  have hhead := List.head?_dropWhile_not p xs
  rw [h] at hhead
  exact hhead

theorem mem_dropWhile (h : x ∈ xs) (hp : p x = false) : x ∈ xs.dropWhile p := by
  rw [← List.takeWhile_append_dropWhile (p := p) (l := xs)] at h
  rcases List.mem_append.1 h with h | h
  · rw [List.all_eq_true.1 List.all_takeWhile x h] at hp
    cases hp
  · exact h

theorem length_drop_dropWhile_lt (p : α → Bool) (x : α) (xs : List α) :
    (((x :: xs).dropWhile p).drop 1).length < (x :: xs).length := by
  have h := (List.dropWhile_suffix p (l := x :: xs)).length_le
  simp only [List.length_drop, List.length_cons] at h ⊢
  omega

/-- Dropping stops at what is not dropped, so what stands behind it is kept. -/
theorem dropWhile_append_cons (h : p x = false) (a b : List α) :
    (a ++ x :: b).dropWhile p = a.dropWhile p ++ x :: b := by
  have hx : (x :: b).dropWhile p = x :: b := List.dropWhile_cons_of_neg (by simp [h])
  rw [List.dropWhile_append, hx]
  split
  · rename_i hnil
    rw [List.isEmpty_iff.1 hnil, List.nil_append]
  · rfl

theorem takeWhile_append_of_stop (h : ∃ x ∈ a, p x = false) (b : List α) : (a ++ b).takeWhile p = a.takeWhile p := by
  obtain ⟨x, hx, hp⟩ := h
  rw [List.takeWhile_append, if_neg]
  intro hl
  have hall := List.all_takeWhile (p := p) (l := a)
  rw [(List.takeWhile_prefix p).eq_of_length hl] at hall
  exact Bool.false_ne_true (hp.symm.trans (List.all_eq_true.1 hall x hx))

theorem drop_dropWhile_append_of_stop (h : ∃ x ∈ a, p x = false) (b : List α) :
    ((a ++ b).dropWhile p).drop 1 = (a.dropWhile p).drop 1 ++ b := by
  obtain ⟨x, hx, hp⟩ := h
  obtain ⟨y, ys, hys⟩ := List.exists_cons_of_ne_nil (List.ne_nil_of_mem (mem_dropWhile hx hp))
  rw [List.dropWhile_append, hys]
  rfl

theorem not_mem_of_all (h : xs.all p = true) (hx : p x = false) : x ∉ xs := by
  intro hm
  rw [List.all_eq_true.1 h x hm] at hx
  cases hx

theorem head?_eq_of_ne_nil (h : xs ≠ []) (a b : List α) : (xs ++ a).head? = (xs ++ b).head? := by
  obtain ⟨x, xs, rfl⟩ := List.exists_cons_of_ne_nil h
  rfl

theorem head?_append_eq (xs : List α) (h : b.head? = a.head?) : (xs ++ b).head? = (xs ++ a).head? := by
  rw [List.head?_append, List.head?_append, h]

/-- A pair is found where it stands first. -/
theorem exists_first_of_infix {x y : α} (h : [x, y] <:+: xs) : ∃ u v, xs = u ++ x :: y :: v ∧ ¬ [x, y] <:+: u := by
  induction xs with
  | nil => cases List.infix_nil.1 h
  | cons c xs ih =>
    by_cases hpre : [x, y] <+: c :: xs
    · obtain ⟨v, hv⟩ := hpre
      exact ⟨[], v, hv.symm, fun hnil => nomatch List.infix_nil.1 hnil⟩
    · obtain ⟨u, v, rfl, hu⟩ := ih ((List.infix_cons_iff.1 h).resolve_left hpre)
      refine ⟨c :: u, v, rfl, fun hin => ?_⟩
      rcases List.infix_cons_iff.1 hin with hp | hin
      · exact hpre (hp.trans (List.prefix_append (c :: u) _))
      · exact hu hin

theorem eq_of_map_fst_of_map_snd {xs ys : List (α × β)} (h : xs.map Prod.fst = ys.map Prod.fst)
    (h' : xs.map Prod.snd = ys.map Prod.snd) : xs = ys := by
  rw [← List.zip_unzip xs, ← List.zip_unzip ys]
  simp only [List.unzip_eq_map, h, h']

end

/-! ### Options -/

theorem rel_bind {α β γ δ : Type} {r : α → β → Prop} {q : γ → δ → Prop} {a : Option α} {b : Option β}
    {f : α → Option γ} {g : β → Option δ} (h : Option.Rel r a b)
    (hfg : ∀ x y, r x y → Option.Rel q (f x) (g y)) : Option.Rel q (a.bind f) (b.bind g) := by
  cases h with
  | none => exact .none
  | some hxy => exact hfg _ _ hxy

/-! ### Results -/

section
variable {ε ε' α β : Type}

theorem exists_of_bind_eq_ok {x : Except ε α} {f : α → Except ε β} {b : β} (h : x >>= f = .ok b) :
    ∃ a, x = .ok a ∧ f a = .ok b := by
  cases x with
  | error e => cases h
  | ok a => exact ⟨a, rfl, h⟩

theorem map_fst_eq_ok {r : Except ε (α × β)} {a : α} (h : r.map (·.1) = .ok a) : ∃ b, r = .ok (a, b) := by
  cases r with
  | error e => cases h
  | ok r =>
    cases h
    exact ⟨r.2, rfl⟩

theorem mapError_eq_ok {f : ε → ε'} {x : Except ε α} {a : α} (h : x.mapError f = .ok a) : x = .ok a := by
  cases x with
  | error e => cases h
  | ok b =>
    cases h
    rfl

theorem mapError_ok (f : ε → ε') (a : α) : (Except.ok a : Except ε α).mapError f = .ok a := rfl

theorem mapError_bind (f : ε → ε') (x : Except ε α) (g : α → Except ε β) :
    (x >>= g).mapError f = x.mapError f >>= fun a => (g a).mapError f := by
  cases x <;> rfl

end

end StyleBump
