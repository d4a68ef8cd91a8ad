import StyleBump.Proofs.Arguments
import StyleBump.Proofs.AuthoredRules
import StyleBump.Proofs.Sides

/-! # Runs of the program

A run with arguments that are accepted fails or ends with an answer (`CommandLine.Ends`). It fails if a file cannot be
read, the old one first, or if the texts cannot be compared, and says so (`CommandLine.FailsWith`). What goes to the
error channel has no influence on the answer: flags and colors change nothing else
(`CommandLine.answer_of_same_paths`). The log adds nothing to it (`CommandLine.runLogged_eq_run`). -/

namespace StyleBump

/-! ### Colors -/

namespace Notice

theorem replaceReset_cons {again rest : List Char} {c : Char} (h : ¬ colorReset.toList <+: c :: rest) :
    painted.replaceReset again (c :: rest) = c :: painted.replaceReset again rest := by
  rw [painted.replaceReset]
  rintro cs' rfl rfl
  exact h ⟨cs', rfl⟩

theorem replaceReset_of_not_infix {again cs : List Char} (h : ¬ colorReset.toList <:+: cs) :
    painted.replaceReset again cs = cs := by
  induction cs with
  | nil => rfl
  | cons c cs ih =>
    rw [replaceReset_cons fun hstart => h hstart.isInfix, ih fun hin => h (hin.trans (List.suffix_cons c cs).isInfix)]

/-- A reset code does not overlap with itself, so the first one is found where it is put. -/
theorem replaceReset_append {again part : List Char} (h : ¬ colorReset.toList <:+: part) (cs : List Char) :
    painted.replaceReset again (part ++ (colorReset.toList ++ cs)) =
      part ++ (again ++ painted.replaceReset again cs) := by
  induction part with
  | nil => rfl
  | cons c part ih =>
    have htail := ih fun hin => h (hin.trans (List.suffix_cons c part).isInfix)
    have hfirst : ¬ colorReset.toList <+: c :: (part ++ (colorReset.toList ++ cs)) := by
      rintro ⟨more, hmore⟩
      rcases part with _ | ⟨x, _ | ⟨y, _ | ⟨z, part⟩⟩⟩ <;> simp [colorReset] at hmore
      obtain ⟨rfl, rfl, rfl, rfl, -⟩ := hmore
      exact h ⟨[], part, rfl⟩
    rw [List.cons_append, replaceReset_cons hfirst, htail, List.cons_append]

/-- The color starts again behind every reset code, and nothing else is replaced. -/
theorem replaceReset_intercalate {again : List Char} {parts : List (List Char)}
    (h : ∀ part ∈ parts, ¬ colorReset.toList <:+: part) :
    painted.replaceReset again (colorReset.toList.intercalate parts) = again.intercalate parts := by
  induction parts with
  | nil => rfl
  | cons part parts ih =>
    obtain ⟨hpart, hparts⟩ := List.forall_mem_cons.1 h
    cases parts with
    | nil =>
      rw [List.intercalate_singleton, List.intercalate_singleton, replaceReset_of_not_infix hpart]
    | cons next parts =>
      rw [List.intercalate_cons_cons, List.intercalate_cons_cons, List.append_assoc, replaceReset_append hpart,
        ih hparts, List.append_assoc]

/-- A painted notice is its text between a color and a reset code, with the color again behind every reset code that
the text holds. -/
theorem painted_eq {n : Notice} {parts : List (List Char)} (h : ∀ part ∈ parts, ¬ colorReset.toList <:+: part)
    (htext : n.text.toList = colorReset.toList.intercalate parts) :
    n.painted = n.colorCode ++ String.ofList ((colorReset ++ n.colorCode).toList.intercalate parts) ++ colorReset := by
  rw [painted, htext, replaceReset_intercalate h]

theorem painted_of_not_infix {n : Notice} (h : ¬ colorReset.toList <:+: n.text.toList) :
    n.painted = n.colorCode ++ n.text ++ colorReset := by
  rw [painted, replaceReset_of_not_infix h, String.ofList_toList]

end Notice

/-! ### Files -/

/-- Bytes have a text exactly if they are its encoding. -/
theorem textOfBytes_eq_ok_iff {bytes : ByteArray} {s : String} : textOfBytes bytes = .ok s ↔ bytes = s.toUTF8 := by
  rw [textOfBytes, String.fromUTF8?]
  constructor
  · intro h
    split at h
    · rename_i hsome
      split at hsome
      · cases hsome
        cases h
        rfl
      · cases hsome
    · cases h
  · rintro rfl
    rw [String.toUTF8_eq_toByteArray, dif_pos s.isValidUTF8]
    rfl

namespace CommandLine
variable {disk : String → Except ReadFault ByteArray} {colors colors' : Bool} {o o' : Options}

/-- The text of a file. -/
def textOn (disk : String → Except ReadFault ByteArray) (path : String) : Except ReadFault String :=
  disk path >>= textOfBytes

/-- What is compared on a side: nothing if no file is named, else the text whose encoding the file holds. -/
def Holds (disk : String → Except ReadFault ByteArray) : Option String → Option String → Prop
  | none, text => text = none
  | some path, text => ∃ s, disk path = .ok s.toUTF8 ∧ text = some s

/-- A file is named that cannot be read or does not hold the encoding of a text. -/
def Unreadable (disk : String → Except ReadFault ByteArray) (path : Option String) : Prop :=
  ∃ p, path = some p ∧ ∀ s : String, disk p ≠ .ok s.toUTF8

theorem textOn_eq_ok_iff {path s : String} : textOn disk path = .ok s ↔ disk path = .ok s.toUTF8 := by
  rw [textOn]
  cases disk path with
  | error e => exact ⟨nofun, nofun⟩
  | ok bytes => exact textOfBytes_eq_ok_iff.trans ⟨congrArg _, Except.ok.inj⟩

theorem side_eq_ok_iff {path text : Option String} : side (textOn disk) path = .ok text ↔ Holds disk path text := by
  cases path with
  | none => exact ⟨fun h => (Except.ok.inj h).symm, fun h => congrArg Except.ok h.symm⟩
  | some p =>
    rw [side, Holds]
    cases htext : textOn disk p with
    | error e =>
      refine ⟨nofun, ?_⟩
      rintro ⟨s, hs, -⟩
      rw [textOn_eq_ok_iff.2 hs] at htext
      cases htext
    | ok s =>
      have hs := textOn_eq_ok_iff.1 htext
      refine ⟨fun h => ⟨s, hs, (Except.ok.inj h).symm⟩, ?_⟩
      rintro ⟨s', hs', rfl⟩
      rw [textOn_eq_ok_iff.2 hs'] at htext
      cases htext
      rfl

theorem side_eq_error_iff {path : Option String} {out : Outcome} :
    side (textOn disk) path = .error out ↔ ∃ p e, path = some p ∧ textOn disk p = .error e ∧ out = .unreadable p e := by
  cases path with
  | none => exact ⟨nofun, nofun⟩
  | some p =>
    rw [side]
    cases htext : textOn disk p with
    | error e => simp [eq_comm, htext]
    | ok s => simp [htext]

theorem Holds.unique {path text text' : Option String} (h : Holds disk path text) (h' : Holds disk path text') :
    text = text' :=
  Except.ok.inj ((side_eq_ok_iff.2 h).symm.trans (side_eq_ok_iff.2 h'))

theorem unreadable_iff {path : Option String} :
    Unreadable disk path ↔ ∃ p e, path = some p ∧ textOn disk p = .error e := by
  constructor
  · rintro ⟨p, hp, hno⟩
    cases htext : textOn disk p with
    | error e => exact ⟨p, e, hp, htext⟩
    | ok s => exact absurd (textOn_eq_ok_iff.1 htext) (hno s)
  · rintro ⟨p, e, hp, he⟩
    refine ⟨p, hp, fun s hs => ?_⟩
    rw [textOn_eq_ok_iff.2 hs] at he
    cases he

theorem Holds.readable {path text : Option String} (h : Holds disk path text) : ¬ Unreadable disk path := by
  rintro ⟨p, rfl, hno⟩
  obtain ⟨s, hs, -⟩ := h
  exact hno s hs

/-! ### How a run ends -/

/-- What a run that fails says: which file cannot be read and why, the old one first, or why the texts cannot be
compared. -/
inductive FailsWith (disk : String → Except ReadFault ByteArray) (o : Options) : String → Prop
  | oldUnreadable {p : String} {e : ReadFault} (hp : o.old = some p) (he : textOn disk p = .error e) :
      FailsWith disk o ("Error reading stylesheet " ++ p ++ ": " ++ e.message)
  | changedUnreadable {old : Option String} {p : String} {e : ReadFault} (hold : Holds disk o.old old)
      (hp : o.changed = some p) (he : textOn disk p = .error e) :
      FailsWith disk o ("Error reading stylesheet " ++ p ++ ": " ++ e.message)
  | incomparable {old changed : Option String} {f : Fault} (hold : Holds disk o.old old)
      (hchanged : Holds disk o.changed changed) (hf : Report.predict old changed o.verbose = .error f) :
      FailsWith disk o ("Oh no, something went wrong during css comparison: " ++ f.message)

/-- The ways in which a run ends. -/
inductive Ends (disk : String → Except ReadFault ByteArray) (colors : Bool) (o : Options) : Outcome → Prop
  | failed {message : String} (h : FailsWith disk o message) : Ends disk colors o (.failure message)
  | answered {old changed : Option String} {r : Report} (hold : Holds disk o.old old)
      (hchanged : Holds disk o.changed changed) (hr : Report.predict old changed o.verbose = .ok r) :
      Ends disk colors o (.ofReport r (colors && !o.noColor))

theorem ends_runWith : Ends disk colors o (runWith (textOn disk) colors o) := by
  unfold runWith
  cases hold : side (textOn disk) o.old with
  | error out =>
    obtain ⟨p, e, hp, he, rfl⟩ := side_eq_error_iff.1 hold
    exact .failed (.oldUnreadable hp he)
  | ok old =>
    cases hchanged : side (textOn disk) o.changed with
    | error out =>
      obtain ⟨p, e, hp, he, rfl⟩ := side_eq_error_iff.1 hchanged
      exact .failed (.changedUnreadable (side_eq_ok_iff.1 hold) hp he)
    | ok changed =>
      dsimp only
      cases hr : Report.predict old changed o.verbose with
      | error f => exact .failed (.incomparable (side_eq_ok_iff.1 hold) (side_eq_ok_iff.1 hchanged) hr)
      | ok r => exact .answered (side_eq_ok_iff.1 hold) (side_eq_ok_iff.1 hchanged) hr

/-- Whether and what a run answers depends on the files that are named, and on nothing else that it is asked for. -/
theorem answer_of_same_paths (hold : o.old = o'.old) (hchanged : o.changed = o'.changed) :
    (runWith (textOn disk) colors o).exit = (runWith (textOn disk) colors' o').exit ∧
    (runWith (textOn disk) colors o).stdout = (runWith (textOn disk) colors' o').stdout := by
  unfold runWith
  rw [hold, hchanged]
  cases side (textOn disk) o'.old with
  | error out => exact ⟨rfl, rfl⟩
  | ok old =>
    cases side (textOn disk) o'.changed with
    | error out => exact ⟨rfl, rfl⟩
    | ok changed =>
      dsimp only
      rw [Report.predict_eq, Report.predict_eq]
      cases Sheet.read .old old with
      | error f => exact ⟨rfl, rfl⟩
      | ok a =>
        cases Sheet.read .changed changed with
        | error f => exact ⟨rfl, rfl⟩
        | ok b =>
          refine ⟨rfl, ?_⟩
          show (Report.between a b o.verbose).bump.name ++ "\n" = (Report.between a b o'.verbose).bump.name ++ "\n"
          rw [Report.bump_between a b o.verbose o'.verbose]

theorem run_of_accepted {args : List String} (h : Options.ofArgs? args = some o) :
    run (textOn disk) colors args = runWith (textOn disk) colors o := by
  rw [run, h]

/-- Notices are collected only if they are asked for. -/
theorem notices_of_not_verbose {old changed : Option String} {r : Report}
    (h : Report.predict old changed false = .ok r) : r.notices = [] := by
  rw [Report.predict_eq] at h
  cases hold : Sheet.read .old old with
  | error f => simp [hold] at h
  | ok a =>
    cases hchanged : Sheet.read .changed changed with
    | error f => simp [hold, hchanged] at h
    | ok b =>
      simp only [hold, hchanged, Except.ok.injEq] at h
      rw [← h, Report.between]
      split <;> rfl

/-- Why a run fails: a file that is named cannot be read as a text, or the texts cannot be compared. -/
def Fails (disk : String → Except ReadFault ByteArray) (o : Options) : Prop :=
  Unreadable disk o.old ∨ Unreadable disk o.changed ∨
    ∃ old changed f, Holds disk o.old old ∧ Holds disk o.changed changed ∧
      Report.predict old changed o.verbose = .error f

theorem FailsWith.fails {message : String} (h : FailsWith disk o message) : Fails disk o := by
  cases h with
  | oldUnreadable hp he => exact .inl (unreadable_iff.2 ⟨_, _, hp, he⟩)
  | changedUnreadable _ hp he => exact .inr (.inl (unreadable_iff.2 ⟨_, _, hp, he⟩))
  | incomparable hold hchanged hf => exact .inr (.inr ⟨_, _, _, hold, hchanged, hf⟩)

theorem Ends.exit_eq_one_iff {out : Outcome} (h : Ends disk colors o out) : out.exit = 1 ↔ Fails disk o := by
  cases h with
  | failed h => exact iff_of_true rfl h.fails
  | answered hold hchanged hr =>
    refine iff_of_false Nat.zero_ne_one ?_
    rintro (hunread | hunread | ⟨old', changed', f, hold', hchanged', hf⟩)
    · exact hold.readable hunread
    · exact hchanged.readable hunread
    · rw [hold.unique hold', hchanged.unique hchanged', hf] at hr
      cases hr

theorem Ends.exit_eq {out : Outcome} (h : Ends disk colors o out) : out.exit = 0 ∨ out.exit = 1 := by
  cases h with
  | failed => exact .inr rfl
  | answered => exact .inl rfl

theorem Ends.message_of_exit {out : Outcome} (h : Ends disk colors o out) (hexit : out.exit = 1) :
    out.stdout = "" ∧ ∃ message, FailsWith disk o message ∧ out.stderr = message ++ "\n" := by
  cases h with
  | failed h => exact ⟨rfl, _, h, rfl⟩
  | answered => cases hexit

theorem Ends.report_of_exit {out : Outcome} (h : Ends disk colors o out) (hexit : out.exit = 0) :
    ∃ old changed report, Holds disk o.old old ∧ Holds disk o.changed changed ∧
      Report.predict old changed o.verbose = .ok report ∧ out = .ofReport report (colors && !o.noColor) := by
  cases h with
  | failed => cases hexit
  | answered hold hchanged hr => exact ⟨_, _, _, hold, hchanged, hr, rfl⟩

theorem runWith_of_old_unreadable {p : String} {e : ReadFault} (hp : o.old = some p) (he : textOn disk p = .error e) :
    runWith (textOn disk) colors o = .unreadable p e := by
  rw [runWith, side_eq_error_iff.2 ⟨p, e, hp, he, rfl⟩]

/-- Only missing blocks and failures under a lenient comparison are worth showing, and a run meets neither. -/
theorem log_eq_empty (line : Entry → String) (read : String → Except ReadFault String) (args : List String) :
    log line read args = "" := by
  unfold log
  split
  · rfl
  split
  · rw [Journal.shown_predict]
    rfl
  · rfl

theorem runLogged_eq_run (line : Entry → String) (read : String → Except ReadFault String) (colors : Bool)
    (args : List String) : runLogged line read colors args = run read colors args := by
  rw [runLogged, log_eq_empty]
  simp only [String.empty_append]

/-- Arguments are accepted exactly if they spell requests for named files, notices and their colors, each at most
once; the order and the spelling do not matter. Then the run ends with 0 or 1. It ends with 1 exactly if a file that
is named cannot be read as a text, or the texts cannot be compared; then there is no answer, and one message, about
the old file if that one cannot be read. Else the answer is the bump of what the files hold, and the error channel
has the notices if they are asked for, and nothing in front of them from the log. Flags and colors do not change how
the run ends and what it answers. A notice in color is the plain one between a color and a reset code, and the color
starts again behind a reset code inside. -/
theorem run_accepted {args : List String} {o : Options} (h : Options.ofArgs? args = some o)
    (disk : String → Except ReadFault ByteArray) (colors : Bool) :
    (∃ qs, Request.Written qs args ∧ (∀ q ∈ qs, q.Named) ∧ qs.Perm o.requests) ∧
    (∃ exit stdout stderr, run (textOn disk) colors args = ⟨exit, stdout, stderr⟩ ∧
      (∀ line, runLogged line (textOn disk) colors args = ⟨exit, stdout, stderr⟩) ∧
      (exit = 0 ∨ exit = 1) ∧ (exit = 1 ↔ Fails disk o) ∧
      (exit = 0 → ∃ old changed report, Holds disk o.old old ∧ Holds disk o.changed changed ∧
        Report.predict old changed o.verbose = .ok report ∧ stdout = report.bump.name ++ "\n" ∧
        stderr = String.join (report.notices.map fun n =>
          (if colors && !o.noColor then n.painted else n.text) ++ "\n") ∧
        (o.verbose = false → stderr = "")) ∧
      (exit = 1 → stdout = "" ∧ ∃ message, FailsWith disk o message ∧ stderr = message ++ "\n") ∧
      (∀ p e, o.old = some p → textOn disk p = .error e →
        exit = 1 ∧ stderr = "Error reading stylesheet " ++ p ++ ": " ++ e.message ++ "\n") ∧
      (∀ qs args', Request.Written qs args' → (∀ q ∈ qs, q.Named) → qs.Perm o.requests →
        run (textOn disk) colors args' = ⟨exit, stdout, stderr⟩) ∧
      ∀ args' o' colors', Options.ofArgs? args' = some o' →
        args'.filter (!Options.isFlag ·) = args.filter (!Options.isFlag ·) →
        (run (textOn disk) colors' args').exit = exit ∧ (run (textOn disk) colors' args').stdout = stdout) ∧
    (∀ n : Notice, ¬ colorReset.toList <:+: n.text.toList → n.painted = n.colorCode ++ n.text ++ colorReset) ∧
    ∀ (n : Notice) (parts : List (List Char)), (∀ part ∈ parts, ¬ colorReset.toList <:+: part) →
      n.text.toList = colorReset.toList.intercalate parts →
      n.painted =
        n.colorCode ++ String.ofList ((colorReset ++ n.colorCode).toList.intercalate parts) ++ colorReset := by
  obtain ⟨exit, stdout, stderr, hout⟩ : ∃ exit stdout stderr, runWith (textOn disk) colors o = ⟨exit, stdout, stderr⟩ :=
    ⟨_, _, _, rfl⟩
  have hends : Ends disk colors o ⟨exit, stdout, stderr⟩ := hout ▸ ends_runWith
  have hrun : run (textOn disk) colors args = ⟨exit, stdout, stderr⟩ := (run_of_accepted h).trans hout
  refine ⟨Options.ofArgs?_eq_some_iff.1 h, ⟨exit, stdout, stderr, hrun, fun line => ?logged, hends.exit_eq,
    hends.exit_eq_one_iff, ?answered, hends.message_of_exit, ?old, ?spelling, ?flags⟩,
    fun n => Notice.painted_of_not_infix, fun n parts => Notice.painted_eq⟩
  case logged => rw [runLogged_eq_run, hrun]
  case answered =>
    intro hexit
    obtain ⟨old, changed, r, hold, hchanged, hr, hreport⟩ := hends.report_of_exit hexit
    cases hreport
    refine ⟨old, changed, r, hold, hchanged, hr, rfl, rfl, fun hverbose => ?_⟩
    rw [hverbose] at hr
    rw [notices_of_not_verbose hr]
    rfl
  case old =>
    intro p e hp he
    rw [runWith_of_old_unreadable hp he] at hout
    cases hout
    exact ⟨rfl, rfl⟩
  case spelling =>
    intro qs args' hargs hnamed hperm
    exact (run_of_accepted (Options.ofArgs?_eq_some_iff.2 ⟨qs, hargs, hnamed, hperm⟩)).trans hout
  case flags =>
    intro args' o' colors' h' hwords
    obtain ⟨hold, hchanged⟩ := Options.paths_of_same_words h' h hwords
    rw [run_of_accepted h']
    have hexit : exit = (runWith (textOn disk) colors o).exit := by rw [hout]
    have hstdout : stdout = (runWith (textOn disk) colors o).stdout := by rw [hout]
    rw [hexit, hstdout]
    exact answer_of_same_paths hold hchanged

/-- Two files, one of them named behind an equals sign. -/
def twoFiles (path : String) : Except ReadFault ByteArray :=
  if path = "a.css" then .ok ".a\x7bcolor:red\x7d".toUTF8
  else if path = "b.css" then .ok ".a\x7bcolor:blue\x7d".toUTF8
  else .error .missing

theorem run_accepted_two_files :
    run (textOn twoFiles) false ["--old=a.css", "-v", "--changed", "b.css"] =
      ⟨0, "patch\n", "~ .a\n    color: red -> blue\n"⟩ ∧
    (run (textOn twoFiles) true ["--old=a.css", "--changed", "b.css", "--no-color"]).stdout = "patch\n" := by
  have haccepted : Options.ofArgs? ["--old=a.css", "-v", "--changed", "b.css"] =
      some ⟨some "a.css", some "b.css", true, false⟩ := by
    decide
  have hrun : run (textOn twoFiles) false ["--old=a.css", "-v", "--changed", "b.css"] =
      ⟨0, "patch\n", "~ .a\n    color: red -> blue\n"⟩ := by
    decide +kernel
  obtain ⟨-, ⟨exit, stdout, stderr, hout, -, -, -, -, -, -, -, hflags⟩, -⟩ := run_accepted haccepted twoFiles false
  rw [hrun] at hout
  cases hout
  exact ⟨hrun, (hflags ["--old=a.css", "--changed", "b.css", "--no-color"] _ true rfl (by decide)).2⟩

end CommandLine

end StyleBump
