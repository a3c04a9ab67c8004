import PlaybookRunner.CommandLine.Program
import PlaybookRunner.Proofs.RunErrors

/-!
# The exit status

A playbook loads or not, overrides are understood or not, and a run succeeds or fails:
these decide the exit status, whatever the settings are and wherever the reports go. Each
error has an exit status of its own, which is never that of a success. The error of
overrides alone does not decide: the program ends there as after a fault without a status.
-/

namespace PlaybookRunner

theorem Text.breakChar_eq_none_iff {c : Char} {cs : List Char} :
    breakChar c cs = none ↔ c ∉ cs := by
  induction cs with
  | nil => simp [breakChar]
  | cons a rest ih =>
    by_cases h : a = c
    · simp [breakChar, h]
    · have h' : ¬ c = a := fun e => h e.symm
      simp [breakChar, h, h', ih]

namespace Overrides

theorem readPair_of_mem {pair : String} (h : '=' ∈ pair.toList) : ∃ p, readPair pair = .ok p := by
  unfold readPair
  cases hbreak : Text.breakChar '=' pair.toList with
  | none => exact absurd h (Text.breakChar_eq_none_iff.mp hbreak)
  | some p => exact ⟨_, rfl⟩

/-- Overrides are understood if each has a key and a value. -/
theorem exists_read {pairs : List String} (h : ∀ pair ∈ pairs, '=' ∈ pair.toList) :
    ∃ vars, read pairs = .ok vars := by
  have hpairs : ∃ ps, pairs.mapM readPair = .ok ps := by
    induction pairs with
    | nil => exact ⟨[], rfl⟩
    | cons pair rest ih =>
      obtain ⟨hpair, hrest⟩ := List.forall_mem_cons.mp h
      obtain ⟨p, hp⟩ := readPair_of_mem hpair
      obtain ⟨ps, hps⟩ := ih hrest
      refine ⟨p :: ps, ?_⟩
      rw [List.mapM_cons, hp, hps]
      rfl
  obtain ⟨ps, hps⟩ := hpairs
  exact ⟨Dict.ofPairs ps, by rw [read, hps]; rfl⟩

end Overrides

namespace Program

/-- The run of a playbook with some variables on a site. -/
def runOf (site : Site) (vars : Vars) (book : Playbook) : Runner.Report Site :=
  let (root, world) := ({ host := site } : World Site).newTable vars
  Runner.run { host := Site.host (Path.join site.dir.path book.baseDir),
               registry := Registry.builtins, root := [.table root] } book world

/-- The playbook loads, and the overrides are understood. -/
structure Prepares (site : Site) (options : Options) (book : Playbook) (vars : Vars) : Prop where
  loads : Playbook.load (textSource site) options.playbook = .ok book
  overrides : Overrides.read options.overrides = .ok vars

/-- The error for which an invocation does not come to the end of a run. -/
inductive StoppedBy (site : Site) (options : Options) : Error → Prop
  | loading {e : Error} (h : Playbook.load (textSource site) options.playbook = .error e) :
      StoppedBy site options e
  | overriding {book : Playbook} {e : Error}
      (hbook : Playbook.load (textSource site) options.playbook = .ok book)
      (h : Overrides.read options.overrides = .error e) : StoppedBy site options e
  | running {book : Playbook} {vars : Vars} {e : Error} (h : Prepares site options book vars)
      (herror : (runOf site vars book).error = some e) : StoppedBy site options e

/-- The playbook loads, the overrides are understood, and the run succeeds. -/
def Succeeds (site : Site) (options : Options) : Prop :=
  ∃ book vars, Prepares site options book vars ∧ (runOf site vars book).error = none ∧
    (runOf site vars book).tooDeep = false

/-- The run of the playbook exhausts the stack. -/
def Overflows (site : Site) (options : Options) : Prop :=
  ∃ book vars, Prepares site options book vars ∧ (runOf site vars book).error = none ∧
    (runOf site vars book).tooDeep = true

variable {site : Site} {options : Options} {settings : Settings} {setting : Recorder.Setting}

theorem exitCode_runBook (vars : Vars) (book : Playbook) :
    (runBook site settings setting vars book).exitCode =
      match (runOf site vars book).error with
      | none => if (runOf site vars book).tooDeep then abortedStatus else 0
      | some e => e.exitCode := by
  unfold runBook runOf
  dsimp only
  generalize (Runner.run _ book _).error = o
  cases o <;> rfl

theorem exitCode_runOptions_of_prepares {book : Playbook} {vars : Vars}
    (h : Prepares site options book vars) :
    (runOptions site settings setting options).exitCode =
      (runBook site settings setting vars book).exitCode := by
  unfold runOptions
  rw [h.loads, h.overrides]

/-- What becomes of an invocation. -/
theorem succeeds_or_stopped (site : Site) (options : Options) :
    Succeeds site options ∨ (∃ e, StoppedBy site options e) ∨ Overflows site options := by
  cases hbook : Playbook.load (textSource site) options.playbook with
  | error e => exact .inr (.inl ⟨e, .loading hbook⟩)
  | ok book =>
    cases hvars : Overrides.read options.overrides with
    | error e => exact .inr (.inl ⟨e, .overriding hbook hvars⟩)
    | ok vars =>
      have hprepares : Prepares site options book vars := ⟨hbook, hvars⟩
      cases herror : (runOf site vars book).error with
      | some e => exact .inr (.inl ⟨e, .running hprepares herror⟩)
      | none =>
        cases hdeep : (runOf site vars book).tooDeep with
        | false => exact .inl ⟨book, vars, hprepares, herror, hdeep⟩
        | true => exact .inr (.inr ⟨book, vars, hprepares, herror, hdeep⟩)

theorem exitCode_of_succeeds (h : Succeeds site options) :
    (runOptions site settings setting options).exitCode = 0 := by
  obtain ⟨book, vars, hprepares, herror, hdeep⟩ := h
  rw [exitCode_runOptions_of_prepares hprepares, exitCode_runBook, herror, hdeep]
  rfl

theorem exitCode_of_overflows (h : Overflows site options) :
    (runOptions site settings setting options).exitCode = abortedStatus := by
  obtain ⟨book, vars, hprepares, herror, hdeep⟩ := h
  rw [exitCode_runOptions_of_prepares hprepares, exitCode_runBook, herror, hdeep]
  rfl

/-- The overrides are understood, or their faults are not come to. -/
def Paired (site : Site) (options : Options) : Prop :=
  (∀ pair ∈ options.overrides, '=' ∈ pair.toList) ∨
    ∃ e, Playbook.load (textSource site) options.playbook = .error e

theorem exitCode_of_stoppedBy (hpaired : Paired site options) {e : Error}
    (h : StoppedBy site options e) :
    (runOptions site settings setting options).exitCode = e.exitCode := by
  cases h with
  | loading h =>
    unfold runOptions
    rw [h]
  | overriding hbook h =>
    rcases hpaired with hpairs | ⟨e', he'⟩
    · obtain ⟨vars, hvars⟩ := Overrides.exists_read hpairs
      rw [h] at hvars
      cases hvars
    · rw [hbook] at he'
      cases he'
  | running hprepares herror =>
    rw [exitCode_runOptions_of_prepares hprepares, exitCode_runBook, herror]

theorem exitCode_run (isTerminal : Bool) (setting : Recorder.Setting) {args : List String}
    (hargs : Options.read site.environment args = .ok options) :
    ∃ settings, (run site isTerminal setting args).exitCode =
      (runOptions site settings setting options).exitCode := by
  refine ⟨(settingsOf site isTerminal options).1, ?_⟩
  unfold run
  rw [hargs]

/-- With arguments that are understood, the exit status is 0 if and only if the playbook
loads, the overrides are understood and the run succeeds; any error that prevents this
decides the exit status by its kind, as long as it does not lie in the overrides. The
settings, the terminal and the time have no say. A failed run has an exit status of its own
for what it could not do and one for what it could not understand. -/
theorem exit_status_of_invocation (site : Site) (isTerminal : Bool) (setting : Recorder.Setting)
    {args : List String} {options : Options}
    (hargs : Options.read site.environment args = .ok options) (hpaired : Paired site options) :
    ((run site isTerminal setting args).exitCode = 0 ↔ Succeeds site options) ∧
      (∀ e, StoppedBy site options e →
        (run site isTerminal setting args).exitCode = e.exitCode) ∧
      (∀ book vars e, Prepares site options book vars → (runOf site vars book).error = some e →
        e.exitCode = 2 ∨ e.exitCode = 3) ∧
      (Succeeds site options ∨ (∃ e, StoppedBy site options e) ∨
        Overflows site options ∧ (run site isTerminal setting args).exitCode = abortedStatus) := by
  obtain ⟨settings, hcode⟩ := exitCode_run isTerminal setting hargs
  rw [hcode]
  refine ⟨⟨fun hzero => ?_, exitCode_of_succeeds⟩, fun e he => exitCode_of_stoppedBy hpaired he,
    fun book vars e _ herror => (Runner.endsRun_of_run herror).exitCode, ?_⟩
  · rcases succeeds_or_stopped site options with hsucceeds | ⟨e, he⟩ | hoverflows
    · exact hsucceeds
    · rw [exitCode_of_stoppedBy hpaired he] at hzero
      exact absurd hzero (Nat.ne_of_gt e.exitCode_pos)
    · rw [exitCode_of_overflows hoverflows] at hzero
      cases hzero
  · rcases succeeds_or_stopped site options with hsucceeds | hstopped | hoverflows
    · exact .inl hsucceeds
    · exact .inr (.inl hstopped)
    · exact .inr (.inr ⟨hoverflows, exitCode_of_overflows hoverflows⟩)

/-- A playbook that runs, one whose task fails, and one that is none. -/
def shelf : Site where
  files := [(["w"], .directory),
    (["w", "runs"], .file (Bytes.ofText "- tasks: [{assert: {that: [a]}}]") false),
    (["w", "fails"], .file (Bytes.ofText "- tasks: [{assert: {that: [(= a 1)]}}]") false),
    (["w", "none"], .file (Bytes.ofText "- 1") false)]
  dir := ["w"]

theorem exit_status_of_invocation_shelf :
    (∃ options, Options.read shelf.environment ["runs", "--set", "a=2"] = .ok options ∧
      Paired shelf options ∧ Succeeds shelf options) ∧
    ∃ options, Options.read shelf.environment ["fails", "--set", "a=2"] = .ok options ∧
      Paired shelf options ∧ ∃ e, StoppedBy shelf options e ∧ e.exitCode = 2 := by
  refine ⟨⟨{ playbook := "runs", overrides := ["a=2"] }, rfl, .inl (by decide), ?_⟩,
    { playbook := "fails", overrides := ["a=2"] }, rfl, .inl (by decide), ?_⟩
  · have hcode : (run shelf false {} ["runs", "--set", "a=2"]).exitCode = 0 := by decide +kernel
    obtain ⟨hzero, -⟩ := exit_status_of_invocation shelf false {}
      (show Options.read shelf.environment ["runs", "--set", "a=2"] = .ok _ from rfl)
      (.inl (by decide))
    exact hzero.mp hcode
  · have hcode : (run shelf false {} ["fails", "--set", "a=2"]).exitCode = 2 := by decide +kernel
    obtain ⟨hzero, hstopped, -, hends⟩ := exit_status_of_invocation shelf false {}
      (show Options.read shelf.environment ["fails", "--set", "a=2"] = .ok _ from rfl)
      (.inl (by decide))
    rcases hends with hsucceeds | ⟨e, he⟩ | ⟨-, haborted⟩
    · rw [hzero.mpr hsucceeds] at hcode
      cases hcode
    · exact ⟨e, he, (hstopped e he).symm.trans hcode⟩
    · rw [hcode] at haborted
      cases haborted

/-- An override without a value stops the program with the status of no error. -/
theorem exit_status_hides_override :
    ∃ options e, Options.read shelf.environment ["runs", "--set", "a"] = .ok options ∧
      StoppedBy shelf options e ∧ e.exitCode = 5 ∧
      (run shelf false {} ["runs", "--set", "a"]).exitCode = 1 := by
  have hloads : (Playbook.load (textSource shelf) "runs").toOption.isSome = true := by
    decide +kernel
  obtain ⟨book, hbook⟩ := Option.isSome_iff_exists.mp hloads
  have hbook : Playbook.load (textSource shelf) "runs" = .ok book := toOption_eq_some_iff.mp hbook
  have hoverride : Overrides.read ["a"] = .error (.config "expected key=value, got 'a'") := rfl
  refine ⟨{ playbook := "runs", overrides := ["a"] }, _, rfl, .overriding hbook hoverride, rfl, ?_⟩
  decide +kernel

end Program

end PlaybookRunner
