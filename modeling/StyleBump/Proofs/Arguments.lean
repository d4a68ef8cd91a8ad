import Mathlib.Data.List.Perm.Basic
import StyleBump.CommandLine

/-! # What arguments ask for

Arguments spell requests one after the other (`Request.Spells`, `Request.Written`). The reader takes a request at a
time (`Options.read_eq_some_iff`), and it accepts a list exactly if its requests are those of some options, in any
order, and no path is empty (`Options.ofArgs?_eq_some_iff`): since options hold each request at most once, so do the
arguments. -/

namespace StyleBump

/-- What a single option asks for. -/
inductive Request
  | path (side : Side) (value : String)
  | verbose
  | noColor
  deriving DecidableEq

namespace Request

/-- The option that a path stands behind. -/
def option : Side → String
  | .old => "--old"
  | .changed => "--changed"

/-- The words that ask for something. A path is a word of its own, unless it looks like an option, or it stands
behind an equals sign. -/
inductive Spells : Request → List String → Prop
  | apart (side : Side) {value : String} (h : Options.isValue value = true) :
    Spells (path side value) [option side, value]
  | joined (side : Side) (value : String) : Spells (path side value) [option side ++ "=" ++ value]
  | short : Spells verbose ["-v"]
  | long : Spells verbose ["--verbose"]
  | noColor : Spells noColor ["--no-color"]

/-- Arguments that ask for some requests, in order; two hyphens may end them. -/
inductive Written : List Request → List String → Prop
  | nil : Written [] []
  | ended : Written [] ["--"]
  | cons {q : Request} {qs : List Request} {words args : List String} (hq : q.Spells words) (h : Written qs args) :
      Written (q :: qs) (words ++ args)

/-- What the request does to options. -/
def apply (o : Options) : Request → Option Options
  | path side value => o.setPath side value
  | verbose => o.setVerbose
  | noColor => o.setNoColor

/-- A request for a file names it. -/
def Named (q : Request) : Prop := ∀ side, q ≠ path side ""

def isPath : Request → Bool
  | path _ _ => true
  | _ => false

/-- What the request is about: one of the sides, the notices or their colors. -/
def subject : Request → Option (Option Side)
  | path side _ => some (some side)
  | verbose => some none
  | noColor => none

end Request

namespace Options
open Request

/-! ### The reader, one request at a time -/

theorem joined?_eq_some_iff {a value : String} {side : Side} :
    joined? a = some (side, value) ↔ a = option side ++ "=" ++ value := by
  constructor
  · intro h
    have split_of_prefix {cs : List Char} (hcs : cs.isPrefixOf a.toList = true) :
        a = String.ofList cs ++ String.ofList (a.toList.drop cs.length) := by
      obtain ⟨more, hmore⟩ := List.isPrefixOf_iff_prefix.1 hcs
      rw [← hmore, List.drop_left, ← String.ofList_append, hmore, String.ofList_toList]
    unfold joined? at h
    dsimp only at h
    split at h
    · rename_i hold
      cases h
      exact split_of_prefix hold
    · split at h
      · rename_i hchanged
        cases h
        exact split_of_prefix hchanged
      · cases h
  · rintro rfl
    cases side <;> simp [joined?, option]

theorem joined?_joined (side : Side) (value : String) : joined? (option side ++ "=" ++ value) = some (side, value) :=
  joined?_eq_some_iff.2 rfl

theorem read_of_joined {o : Options} {a value : String} {side : Side} (h : joined? a = some (side, value))
    (rest : List String) : read o (a :: rest) = (o.setPath side value).bind (read · rest) := by
  have hne {b : String} (hb : joined? b = .none) : a ≠ b := by
    rintro rfl
    rw [hb] at h
    cases h
  rw [read, h]
  all_goals
    intros
    exact absurd ‹a = _› (hne (by decide))

/-- A request that arguments start with is done first. -/
theorem read_of_spells {q : Request} {words : List String} (hq : q.Spells words) (o : Options) (rest : List String) :
    read o (words ++ rest) = (q.apply o).bind (read · rest) := by
  cases hq with
  | apart side h => cases side <;> simp [read, option, h, apply]
  | joined side value => exact read_of_joined (joined?_joined side value) rest
  | short => rfl
  | long => rfl
  | noColor => rfl

/-- The reader does what arguments ask for, request by request. -/
theorem read_eq_some_iff {o o' : Options} {args : List String} :
    read o args = some o' ↔ ∃ qs, Written qs args ∧ qs.foldlM apply o = some o' := by
  constructor
  · intro h
    have step {q : Request} {words rest : List String} {o : Options} (hq : q.Spells words)
        (ih : ∀ o₁, read o₁ rest = some o' → ∃ qs, Written qs rest ∧ qs.foldlM apply o₁ = some o')
        (h : (q.apply o).bind (read · rest) = some o') :
        ∃ qs, Written qs (words ++ rest) ∧ qs.foldlM apply o = some o' := by
      obtain ⟨o₁, ho, hrest⟩ := Option.bind_eq_some_iff.1 h
      obtain ⟨qs, hqs, hfold⟩ := ih o₁ hrest
      exact ⟨q :: qs, .cons hq hqs, by rw [List.foldlM_cons, ho]; exact hfold⟩
    fun_induction read o args with
    | case1 o => exact ⟨[], .nil, h⟩
    | case2 o => exact ⟨[], .ended, h⟩
    | case3 o rest ih => exact step .short ih h
    | case4 o rest ih => exact step .long ih h
    | case5 o rest ih => exact step .noColor ih h
    | case6 o v rest hv ih => exact step (.apart .old hv) ih h
    | case7 => cases h
    | case8 o v rest hv ih => exact step (.apart .changed hv) ih h
    | case9 => cases h
    | case10 o a rest _ _ _ _ _ _ side v hjoined ih =>
      rw [joined?_eq_some_iff.1 hjoined]
      exact step (.joined side v) ih h
    | case11 => cases h
  · rintro ⟨qs, hqs, hfold⟩
    induction hqs generalizing o with
    | nil => exact hfold
    | ended => exact hfold
    | cons hq _ ih =>
      rw [List.foldlM_cons] at hfold
      obtain ⟨o₁, ho, hfold⟩ := Option.bind_eq_some_iff.1 hfold
      rw [read_of_spells hq, ho]
      exact ih hfold

/-! ### The requests of options -/

/-- What the options ask for. -/
def requests (o : Options) : List Request :=
  (o.old.map (path .old)).toList ++ ((o.changed.map (path .changed)).toList ++
    ((if o.verbose then [.verbose] else []) ++ if o.noColor then [.noColor] else []))

/-- No two of the requests are about the same. -/
theorem nodup_requests (o : Options) : (o.requests.map subject).Nodup := by
  obtain ⟨_ | old, _ | changed, _ | _, _ | _⟩ := o <;> simp [requests, subject]

theorem old_mem_requests {o : Options} {value : String} : path .old value ∈ o.requests ↔ o.old = some value := by
  simp [requests]

theorem changed_mem_requests {o : Options} {value : String} :
    path .changed value ∈ o.requests ↔ o.changed = some value := by
  simp [requests]

theorem verbose_mem_requests {o : Options} : .verbose ∈ o.requests ↔ o.verbose = true := by
  simp [requests]

theorem noColor_mem_requests {o : Options} : .noColor ∈ o.requests ↔ o.noColor = true := by
  simp [requests]

/-- Options are the same if they ask for the same, in any order. -/
theorem eq_of_requests_perm {o o' : Options} (h : o.requests.Perm o'.requests) : o = o' := by
  have hold : o.old = o'.old := Option.ext fun _ => old_mem_requests.symm.trans (h.mem_iff.trans old_mem_requests)
  have hchanged : o.changed = o'.changed :=
    Option.ext fun _ => changed_mem_requests.symm.trans (h.mem_iff.trans changed_mem_requests)
  have hverbose : o.verbose = o'.verbose :=
    Bool.eq_iff_iff.2 (verbose_mem_requests.symm.trans (h.mem_iff.trans verbose_mem_requests))
  have hnoColor : o.noColor = o'.noColor :=
    Bool.eq_iff_iff.2 (noColor_mem_requests.symm.trans (h.mem_iff.trans noColor_mem_requests))
  cases o
  cases o'
  simp_all

/-- A request that is done is added to the others. -/
theorem requests_of_apply {q : Request} {o o' : Options} (h : q.apply o = some o') :
    q.Named ∧ o'.requests.Perm (q :: o.requests) := by
  cases q with
  | path side value =>
    obtain ⟨hvalue, h⟩ := Option.ite_none_left_eq_some.1 h
    refine ⟨fun side' h' => hvalue (by cases h'; rfl), ?_⟩
    cases side with
    | old =>
      obtain ⟨hold, h⟩ := Option.ite_none_left_eq_some.1 h
      cases h
      simp [requests, Option.not_isSome_iff_eq_none.1 hold]
    | changed =>
      obtain ⟨hchanged, h⟩ := Option.ite_none_left_eq_some.1 h
      cases h
      simp [requests, Option.not_isSome_iff_eq_none.1 hchanged]
  | verbose =>
    obtain ⟨hverbose, h⟩ := Option.ite_none_left_eq_some.1 h
    cases h
    refine ⟨nofun, ?_⟩
    have hwith : requests { o with verbose := true } = ((o.old.map (path .old)).toList ++
        (o.changed.map (path .changed)).toList) ++ .verbose :: if o.noColor then [.noColor] else [] := by
      simp [requests]
    have hwithout : o.requests = ((o.old.map (path .old)).toList ++
        (o.changed.map (path .changed)).toList) ++ if o.noColor then [.noColor] else [] := by simp [requests, hverbose]
    rw [hwith, hwithout]
    exact List.perm_middle
  | noColor =>
    obtain ⟨hnoColor, h⟩ := Option.ite_none_left_eq_some.1 h
    cases h
    refine ⟨nofun, ?_⟩
    have hlast : requests { o with noColor := true } = o.requests ++ [.noColor] := by simp [requests, hnoColor]
    rw [hlast]
    exact List.perm_append_singleton _ _

/-- What is not asked for yet can be. -/
theorem exists_apply {q : Request} {o : Options} (hq : q.Named) (h : q.subject ∉ o.requests.map subject) :
    ∃ o', q.apply o = some o' := by
  have hfree {r : Request} (hr : r ∈ o.requests) : r.subject ≠ q.subject := fun hs => h (hs ▸ List.mem_map_of_mem hr)
  cases q with
  | path side value =>
    have hvalue : ¬ value.isEmpty := fun hempty => hq side (by rw [String.isEmpty_iff.1 hempty])
    cases side with
    | old =>
      have hold : ¬ o.old.isSome := fun hsome =>
        hfree (old_mem_requests.2 (Option.some_get hsome).symm) rfl
      exact ⟨_, by rw [apply, setPath, if_neg hvalue]; exact if_neg hold⟩
    | changed =>
      have hchanged : ¬ o.changed.isSome := fun hsome =>
        hfree (changed_mem_requests.2 (Option.some_get hsome).symm) rfl
      exact ⟨_, by rw [apply, setPath, if_neg hvalue]; exact if_neg hchanged⟩
  | verbose => exact ⟨_, if_neg fun hverbose => hfree (verbose_mem_requests.2 hverbose) rfl⟩
  | noColor => exact ⟨_, if_neg fun hnoColor => hfree (noColor_mem_requests.2 hnoColor) rfl⟩

theorem foldlM_apply_eq_some_iff {qs : List Request} {o o' : Options} :
    qs.foldlM apply o = some o' ↔ (∀ q ∈ qs, q.Named) ∧ o'.requests.Perm (qs ++ o.requests) := by
  induction qs generalizing o with
  | nil =>
    rw [List.foldlM_nil, List.nil_append]
    constructor
    · intro h
      cases h
      exact ⟨nofun, .refl _⟩
    · rintro ⟨-, h⟩
      rw [eq_of_requests_perm h]
      rfl
  | cons q qs ih =>
    rw [List.foldlM_cons, List.forall_mem_cons]
    constructor
    · intro h
      obtain ⟨o₁, ho₁, hfold⟩ := Option.bind_eq_some_iff.1 h
      obtain ⟨hq, hperm⟩ := requests_of_apply ho₁
      obtain ⟨hqs, hfold⟩ := ih.1 hfold
      exact ⟨⟨hq, hqs⟩, hfold.trans ((hperm.append_left qs).trans List.perm_middle)⟩
    · rintro ⟨⟨hq, hqs⟩, hperm⟩
      have hnodup := (hperm.map subject).nodup_iff.1 (nodup_requests o')
      rw [List.cons_append, List.map_cons, List.map_append] at hnodup
      have hnew : q.subject ∉ o.requests.map subject := fun hmem =>
        (List.nodup_cons.1 hnodup).1 (List.mem_append_right _ hmem)
      obtain ⟨o₁, ho₁⟩ := exists_apply hq hnew
      have hperm₁ := (requests_of_apply ho₁).2
      exact Option.bind_eq_some_iff.2 ⟨o₁, ho₁, ih.2 ⟨hqs,
        hperm.trans (List.perm_middle.symm.trans (hperm₁.symm.append_left qs))⟩⟩

/-- Arguments are accepted exactly if what they ask for is what some options ask for, in any order, and every file
is named. -/
theorem ofArgs?_eq_some_iff {args : List String} {o : Options} :
    ofArgs? args = some o ↔ ∃ qs, Written qs args ∧ (∀ q ∈ qs, q.Named) ∧ qs.Perm o.requests := by
  rw [ofArgs?, read_eq_some_iff]
  refine exists_congr fun qs => and_congr_right fun _ => ?_
  rw [foldlM_apply_eq_some_iff, show none.requests = [] from rfl, List.append_nil, List.perm_comm]

/-! ### Flags -/

/-- Whether a word asks for notices or their colors. -/
def isFlag (a : String) : Bool := ["-v", "--verbose", "--no-color"].contains a

theorem eq_of_isFlag {a : String} (h : isFlag a = true) : a = "-v" ∨ a = "--verbose" ∨ a = "--no-color" := by
  simpa [isFlag] using h

theorem isFlag_option (side : Side) : isFlag (option side) = false := by
  cases side <;> decide

theorem isFlag_of_isValue {a : String} (h : isValue a = true) : isFlag a = false := by
  refine Bool.eq_false_iff.2 fun hflag => ?_
  rcases eq_of_isFlag hflag with rfl | rfl | rfl <;> exact absurd h (by decide)

theorem isFlag_joined (side : Side) (value : String) : isFlag (option side ++ "=" ++ value) = false := by
  refine Bool.eq_false_iff.2 fun hflag => ?_
  have hjoined := joined?_joined side value
  rcases eq_of_isFlag hflag with h | h | h <;> exact absurd hjoined (by rw [h]; simp [joined?])

theorem words_without_flags {q : Request} {words : List String} (hq : q.Spells words) :
    words.filter (!isFlag ·) = if q.isPath then words else [] := by
  cases hq with
  | apart side h => simp [isPath, isFlag_option, isFlag_of_isValue h]
  | joined side value => simp only [List.filter, isFlag_joined, isPath, Bool.not_false, if_true]
  | short => rfl
  | long => rfl
  | noColor => rfl

/-- Without the flags, arguments ask for the files alone. -/
theorem written_without_flags {qs : List Request} {args : List String} (h : Written qs args) :
    Written (qs.filter isPath) (args.filter (!isFlag ·)) := by
  induction h with
  | nil => exact .nil
  | ended => exact .ended
  | @cons q qs words args hq _ ih =>
    rw [List.filter_append, words_without_flags hq, List.filter_cons]
    split
    · exact .cons hq ih
    · exact ih

/-- Arguments that are accepted are accepted without the flags, and name the same files. -/
theorem ofArgs?_without_flags {args : List String} {o : Options} (h : ofArgs? args = some o) :
    ofArgs? (args.filter (!isFlag ·)) = some { o with verbose := false, noColor := false } := by
  obtain ⟨qs, hargs, hnamed, hperm⟩ := ofArgs?_eq_some_iff.1 h
  refine ofArgs?_eq_some_iff.2 ⟨_, written_without_flags hargs, fun q hq => hnamed q (List.mem_of_mem_filter hq), ?_⟩
  refine (hperm.filter isPath).trans (.of_eq ?_)
  obtain ⟨_ | old, _ | changed, _ | _, _ | _⟩ := o <;> rfl

/-- Arguments that differ in flags alone name the same files. -/
theorem paths_of_same_words {args args' : List String} {o o' : Options} (h : ofArgs? args = some o)
    (h' : ofArgs? args' = some o') (hwords : args.filter (!isFlag ·) = args'.filter (!isFlag ·)) :
    o.old = o'.old ∧ o.changed = o'.changed := by
  have hsame := (ofArgs?_without_flags h).symm.trans (hwords ▸ ofArgs?_without_flags h')
  rw [Option.some.injEq, Options.mk.injEq] at hsame
  exact ⟨hsame.1, hsame.2.1⟩

end Options

end StyleBump
