/-! # Values by key

Association lists in strictly ascending order of their keys. A key that is written again keeps its
place and takes the new value. Keyed values are told apart by what they hold (`Keyed.ext_get?`). -/

namespace StyleBump

/-- Values by key, in ascending order. -/
structure Keyed (β : Type) where
  entries : List (String × β)
  ascending : entries.Pairwise (·.1 < ·.1) := by simp

namespace Keyed
variable {β : Type}

/-- Sets the value of `k` to what `f` makes of the old one. -/
def updateList (k : String) (f : Option β → β) : List (String × β) → List (String × β)
  | [] => [(k, f none)]
  | (k', v) :: rest =>
    if k < k' then (k, f none) :: (k', v) :: rest
    else if k = k' then (k, f (some v)) :: rest
    else (k', v) :: updateList k f rest

theorem key_of_mem_updateList {k : String} {f : Option β → β} {l : List (String × β)}
    {e : String × β} (h : e ∈ updateList k f l) : e.1 = k ∨ ∃ e' ∈ l, e'.1 = e.1 := by
  induction l with
  | nil => simp_all [updateList]
  | cons a rest ih =>
    obtain ⟨k', v⟩ := a
    simp only [updateList] at h
    split at h
    · rcases List.mem_cons.mp h with rfl | h
      · exact .inl rfl
      · exact .inr ⟨e, h, rfl⟩
    · split at h
      · rcases List.mem_cons.mp h with rfl | h
        · exact .inl rfl
        · exact .inr ⟨e, .tail _ h, rfl⟩
      · rcases List.mem_cons.mp h with rfl | h
        · exact .inr ⟨(k', v), .head _, rfl⟩
        · rcases ih h with h | ⟨e', h, he⟩
          · exact .inl h
          · exact .inr ⟨e', .tail _ h, he⟩

theorem pairwise_updateList (k : String) (f : Option β → β) {l : List (String × β)}
    (h : l.Pairwise (·.1 < ·.1)) : (updateList k f l).Pairwise (·.1 < ·.1) := by
  induction l with
  | nil => simp [updateList]
  | cons a rest ih =>
    obtain ⟨k', v⟩ := a
    obtain ⟨hlt, hrest⟩ := List.pairwise_cons.mp h
    simp only [updateList]
    split
    · rename_i hk
      refine List.pairwise_cons.mpr ⟨fun e he => ?_, h⟩
      rcases List.mem_cons.mp he with rfl | he
      · exact hk
      · exact String.lt_trans hk (hlt e he)
    · split
      · rename_i hk; subst hk; exact List.pairwise_cons.mpr ⟨hlt, hrest⟩
      · rename_i hnlt hne
        have hk : k' < k := Decidable.byContradiction fun hn =>
          hne (String.le_antisymm (String.not_lt.mp hn) (String.not_lt.mp hnlt))
        refine List.pairwise_cons.mpr ⟨fun e he => ?_, ih hrest⟩
        rcases key_of_mem_updateList he with he | ⟨e', he', hee⟩
        · exact he ▸ hk
        · exact hee ▸ hlt e' he'

def empty : Keyed β := ⟨[], by simp⟩

def update (m : Keyed β) (k : String) (f : Option β → β) : Keyed β :=
  ⟨updateList k f m.entries, pairwise_updateList k f m.ascending⟩

def set (m : Keyed β) (k : String) (v : β) : Keyed β := m.update k fun _ => v

/-- Takes a key away. -/
def erase (m : Keyed β) (k : String) : Keyed β :=
  ⟨m.entries.filter (·.1 ≠ k), m.ascending.filter _⟩

def get? (m : Keyed β) (k : String) : Option β := m.entries.lookup k

/-- The keys in ascending order. -/
def keys (m : Keyed β) : List String := m.entries.map (·.1)

/-! ### Looking up -/

theorem lookup_eq_none_of_lt {k : String} {l : List (String × β)} (h : ∀ e ∈ l, k < e.1) : l.lookup k = none := by
  refine List.lookup_eq_none_iff.2 fun e he => ?_
  have hne : k ≠ e.1 := by
    intro heq
    exact String.lt_irrefl k (heq ▸ h e he)
  simpa using hne

theorem lookup_cons (k x : String) (v : β) (rest : List (String × β)) :
    ((k, v) :: rest).lookup x = if x = k then some v else rest.lookup x := by
  rw [List.lookup_cons]
  by_cases hx : x = k
  · simp [hx]
  · simp [beq_false_of_ne hx, hx]

theorem lookup_updateList (k x : String) (f : Option β → β) {l : List (String × β)} (h : l.Pairwise (·.1 < ·.1)) :
    (updateList k f l).lookup x = if x = k then some (f (l.lookup k)) else l.lookup x := by
  induction l with
  | nil => rw [updateList, lookup_cons, List.lookup_nil, List.lookup_nil]
  | cons e rest ih =>
    obtain ⟨k', v⟩ := e
    obtain ⟨hlt, hrest⟩ := List.pairwise_cons.1 h
    rw [updateList]
    split
    · rename_i hk
      -- The new key stands in front of all others, so it was set to nothing.
      have hnone : ((k', v) :: rest).lookup k = none := lookup_eq_none_of_lt fun e he => by
        rcases List.mem_cons.1 he with rfl | he
        · exact hk
        · exact String.lt_trans hk (hlt e he)
      rw [hnone, lookup_cons]
    · split
      · rename_i hk
        subst hk
        rw [lookup_cons, lookup_cons, lookup_cons, if_pos rfl]
        by_cases hx : x = k
        · rw [if_pos hx, if_pos hx]
        · rw [if_neg hx, if_neg hx, if_neg hx]
      · rename_i hk
        rw [lookup_cons, lookup_cons, lookup_cons, ih hrest, if_neg hk]
        by_cases hx : x = k'
        · rw [if_pos hx, if_neg (hx ▸ Ne.symm hk), if_pos hx]
        · rw [if_neg hx, if_neg hx]

@[simp] theorem get?_empty (x : String) : (empty : Keyed β).get? x = none := rfl

theorem get?_update (m : Keyed β) (k x : String) (f : Option β → β) :
    (m.update k f).get? x = if x = k then some (f (m.get? k)) else m.get? x :=
  lookup_updateList k x f m.ascending

@[simp] theorem get?_set (m : Keyed β) (k x : String) (v : β) :
    (m.set k v).get? x = if x = k then some v else m.get? x :=
  get?_update m k x _

theorem mem_entries_iff (m : Keyed β) (k : String) (v : β) : (k, v) ∈ m.entries ↔ m.get? k = some v := by
  obtain ⟨l, h⟩ := m
  show (k, v) ∈ l ↔ l.lookup k = some v
  induction l with
  | nil => simp
  | cons e rest ih =>
    obtain ⟨k', v'⟩ := e
    obtain ⟨hlt, hrest⟩ := List.pairwise_cons.1 h
    rw [List.mem_cons, ih hrest, lookup_cons]
    by_cases hk : k = k'
    · subst hk
      have hnone : rest.lookup k = none := lookup_eq_none_of_lt hlt
      simp [hnone, eq_comm]
    · simp [hk]

/-- Keyed values that hold the same are the same. -/
theorem ext_get? {m m' : Keyed β} (h : ∀ x, m.get? x = m'.get? x) : m = m' := by
  have hnodup (n : Keyed β) : n.entries.Nodup := by
    refine n.ascending.imp fun {a b} hlt heq => ?_
    subst heq
    exact String.lt_irrefl _ hlt
  have hperm : m.entries.Perm m'.entries := by
    refine (List.perm_ext_iff_of_nodup (hnodup m) (hnodup m')).2 fun e => ?_
    rw [mem_entries_iff m e.1 e.2, mem_entries_iff m' e.1 e.2, h]
  have hentries : m.entries = m'.entries := by
    refine hperm.eq_of_pairwise (fun a b _ _ hab hba => ?_) m.ascending m'.ascending
    exact absurd (String.lt_trans hab hba) (String.lt_irrefl _)
  obtain ⟨l, hl⟩ := m
  obtain ⟨l', hl'⟩ := m'
  obtain rfl : l = l' := hentries
  rfl

theorem get?_erase (m : Keyed β) (k x : String) : (m.erase k).get? x = if x = k then none else m.get? x := by
  refine Option.ext fun v => ?_
  rw [← mem_entries_iff, erase, List.mem_filter, mem_entries_iff]
  by_cases hx : x = k <;> simp [hx]

/-! ### Keys -/

theorem keys_ascending (m : Keyed β) : m.keys.Pairwise (· < ·) := List.pairwise_map.2 m.ascending

theorem mem_keys_iff (m : Keyed β) (x : String) : x ∈ m.keys ↔ m.get? x ≠ none := by
  rw [keys, get?, Ne, List.lookup_eq_none_iff]
  simp

@[simp] theorem keys_empty : (empty : Keyed β).keys = [] := rfl

theorem mem_keys_updateList (k x : String) (f : Option β → β) (l : List (String × β)) :
    x ∈ (updateList k f l).map (·.1) ↔ x = k ∨ x ∈ l.map (·.1) := by
  induction l with
  | nil => simp [updateList]
  | cons e rest ih =>
    obtain ⟨k', v⟩ := e
    rw [updateList]
    split
    · simp
    · split
      · rename_i hk
        subst hk
        simp
      · rw [List.map_cons, List.mem_cons, ih, List.map_cons, List.mem_cons]
        exact or_left_comm

@[simp] theorem mem_keys_update (m : Keyed β) (k x : String) (f : Option β → β) :
    x ∈ (m.update k f).keys ↔ x = k ∨ x ∈ m.keys :=
  mem_keys_updateList k x f m.entries

@[simp] theorem mem_keys_set (m : Keyed β) (k x : String) (v : β) :
    x ∈ (m.set k v).keys ↔ x = k ∨ x ∈ m.keys :=
  mem_keys_update m k x _

theorem mem_keys_foldl_set (ks : List String) (v : β) (m : Keyed β) (x : String) :
    x ∈ (ks.foldl (fun m k => m.set k v) m).keys ↔ x ∈ ks ∨ x ∈ m.keys := by
  induction ks generalizing m with
  | nil => simp
  | cons k ks ih => rw [List.foldl_cons, ih, mem_keys_set, List.mem_cons, or_left_comm, or_assoc]

end Keyed

end StyleBump
