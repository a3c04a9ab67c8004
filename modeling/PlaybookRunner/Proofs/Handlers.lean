import Mathlib
import PlaybookRunner.Proofs.RunEvents

/-!
# Notified handlers

The handlers of a play are considered once each in the order of their
declaration. In a run that ends well a handler is executed exactly if it was
notified: by a task of its play that reported a change before the handlers, or by
an earlier handler of the play. What a handler defers is awaited after the
handlers of its play and notifies none of them.
-/

namespace PlaybookRunner

variable {σ : Type} {setup : Setup σ}

open Transcript

/-- One play of a run that ends well. -/
structure PlayRun where
  play : Play
  tasks : List Event
  drained : List Event
  /-- For each handler the events of its execution, if it is executed. -/
  marks : List (Option (List Event))
  late : List Event

namespace PlayRun

/-- The handler at a position is executed, and reports the events. -/
def Executes (r : PlayRun) (i : Nat) (E : List Event) : Prop := r.marks[i]? = some (some E)

/-- A handler of the name is notified before the position is considered. -/
def Notifies (r : PlayRun) (i : Nat) (name : String) : Prop :=
  name ∈ notices (r.tasks ++ r.drained) ∨ ∃ j < i, ∃ E, r.Executes j E ∧ name ∈ notices E

end PlayRun

/-- Each handler of the play has its mark, and it is executed exactly if it was
notified. -/
structure PlayRun.AsNotified (r : PlayRun) : Prop where
  length_eq : r.marks.length = r.play.handlers.length
  executes_iff : ∀ i h, r.play.handlers[i]? = some h →
    ((∃ E, r.Executes i E) ↔ r.Notifies i h.name)

namespace RunState

/-- The state in which a handler is executed: the first one announces the handlers. -/
def announce (started : Bool) (s : RunState σ) : RunState σ :=
  if started then s else s.push .startHandlers

end RunState

namespace Runner

open Step PlayLog

/-- Handlers of the running play are considered in order: each is passed over, or
executed and marked with its events. -/
inductive Considers (setup : Setup σ) :
    Bool → RunState σ → List Task → List (Option (List Event)) → Bool → RunState σ → Prop
  | nil (started : Bool) (s : RunState σ) : Considers setup started s [] [] started s
  | pass {started b : Bool} {s v : RunState σ} {h : Task} {hs : List Task}
      {marks : List (Option (List Event))} (hname : h.name ∉ s.current.notified)
      (hrest : Considers setup started s hs marks b v) :
      Considers setup started s (h :: hs) (none :: marks) b v
  | execute {started changed b : Bool} {s u v : RunState σ} {h : Task} {hs : List Task}
      {E : List Event} {marks : List (Option (List Event))} (hname : h.name ∈ s.current.notified)
      (hrun : (runPlayTask setup h).Gives (s.announce started) changed E u)
      (hrest : Considers setup true u hs marks b v) :
      Considers setup started s (h :: hs) (some E :: marks) b v

/-- The handlers of plays are considered, play by play, and what the handlers of a
play deferred is awaited after them. -/
inductive HandlersRun (setup : Setup σ) :
    Bool → RunState σ → List PlayState → List PlayRun → Bool → RunState σ → Prop
  | nil (started : Bool) (s : RunState σ) : HandlersRun setup started s [] [] started s
  | cons {started b b' : Bool} {s u v w : RunState σ} {st : PlayState} {sts : List PlayState}
      {r : PlayRun} {runs : List PlayRun}
      (hconsiders : Considers setup started { s with current := st } r.play.handlers r.marks b u)
      (hdrain : (drain setup).Gives u () r.late v) (hrest : HandlersRun setup b v sts runs b' w) :
      HandlersRun setup started s (st :: sts) (r :: runs) b' w

theorem announce_extends (setup : Setup σ) (started : Bool) (s : RunState σ) :
    ∃ A, s.Extends setup.host A (s.announce started) ∧ notices A = [] := by
  cases started with
  | true => exact ⟨[], .refl s, rfl⟩
  | false =>
    obtain ⟨A, hA, -, rfl⟩ : ∃ A, s.Extends setup.host A (s.announce false) ∧ _ :=
      Adds.emit (e := .startHandlers) rfl rfl s rfl
    exact ⟨_, hA, rfl⟩

/-- What a task that ends well does to the running play, its events tell. -/
theorem extends_of_gives {t : Task} {s v : RunState σ} {changed : Bool} {E : List Event}
    (h : (runPlayTask setup t).Gives s changed E v) : s.Extends setup.host E v := by
  obtain ⟨hrun, hevents⟩ := h
  obtain ⟨L, hL, -⟩ := adds_runPlayTask s.current.play t s rfl
  rw [hrun] at hL
  have hE : L = E := List.append_cancel_left (hL.events.symm.trans hevents)
  exact hE ▸ hL

theorem runHandler_ok {started b : Bool} {h : Task} {s u : RunState σ}
    (hrun : (runHandler setup started h).run.run s = (.ok b, u)) :
    (h.name ∉ s.current.notified ∧ b = started ∧ u = s) ∨
      (h.name ∈ s.current.notified ∧ b = true ∧
        ∃ changed, (runPlayTask setup h).run.run (s.announce started) = (.ok changed, u)) := by
  change (if s.current.notified.contains h.name then _ else _ : Step σ Bool).run.run s = _ at hrun
  by_cases hname : s.current.notified.contains h.name
  · rw [if_pos hname] at hrun
    refine .inr ⟨by simpa using hname, ?_⟩
    have hexecuted : (runPlayTask setup h >>= fun _ => pure true).run.run (s.announce started) =
        (.ok b, u) := by
      cases started <;> exact hrun
    obtain ⟨changed, v, hhandler, hend⟩ := run_bind_ok hexecuted
    cases hend
    exact ⟨rfl, changed, hhandler⟩
  · rw [if_neg hname] at hrun
    cases hrun
    exact .inl ⟨by simpa using hname, rfl, rfl⟩

theorem considers_of_run {hs : List Task} {started b : Bool} {s v : RunState σ}
    (hrun : (hs.foldlM (runHandler setup) started).run.run s = (.ok b, v)) :
    ∃ marks, Considers setup started s hs marks b v := by
  induction hs generalizing started s with
  | nil =>
    cases hrun
    exact ⟨[], .nil _ _⟩
  | cons h hs ih =>
    rw [List.foldlM_cons] at hrun
    obtain ⟨b', u, hfirst, hrest⟩ := run_bind_ok hrun
    obtain ⟨marks, hmarks⟩ := ih hrest
    rcases runHandler_ok hfirst with ⟨hname, rfl, rfl⟩ | ⟨hname, rfl, changed, hhandler⟩
    · exact ⟨none :: marks, .pass hname hmarks⟩
    · obtain ⟨E, hE, -⟩ :=
        adds_runPlayTask (s.announce started).current.play h (s.announce started) rfl
      rw [hhandler] at hE
      exact ⟨some E :: marks, .execute hname ⟨hhandler, hE.events⟩ hmarks⟩

namespace Considers

variable {started b : Bool} {s v : RunState σ} {hs : List Task}
  {marks : List (Option (List Event))}

theorem extend (h : Considers setup started s hs marks b v) : ∃ L, s.Extends setup.host L v := by
  induction h with
  | nil started s => exact ⟨[], .refl s⟩
  | pass _ _ ih => exact ih
  | @execute started changed b s u v h hs E marks hname hrun _ ih =>
    obtain ⟨A, hA, -⟩ := announce_extends setup started s
    obtain ⟨L, hL⟩ := ih
    exact ⟨_, (hA.trans (extends_of_gives hrun)).trans hL⟩

theorem length_eq (h : Considers setup started s hs marks b v) : marks.length = hs.length := by
  induction h with
  | nil => rfl
  | pass _ _ ih | execute _ _ _ ih => rw [List.length_cons, List.length_cons, ih]

/-- A handler is executed exactly if it was notified before, or by an earlier one. -/
theorem executes_iff (h : Considers setup started s hs marks b v) {i : Nat} {handler : Task}
    (hi : hs[i]? = some handler) : (∃ E, marks[i]? = some (some E)) ↔
      handler.name ∈ s.current.notified ∨
        ∃ j < i, ∃ E, marks[j]? = some (some E) ∧ handler.name ∈ notices E := by
  induction h generalizing i with
  | nil => simp at hi
  | pass hname _ ih =>
    cases i with
    | zero =>
      cases hi
      simp [hname]
    | succ i =>
      rw [List.getElem?_cons_succ] at hi
      rw [List.getElem?_cons_succ, ih hi, Nat.exists_lt_succ_left]
      simp
  | @execute started changed b s u v h hs E marks hname hrun _ ih =>
    cases i with
    | zero =>
      cases hi
      simp [hname]
    | succ i =>
      rw [List.getElem?_cons_succ] at hi
      -- What this handler notified counts as notified before for the later ones.
      obtain ⟨A, hA, hnotices⟩ := announce_extends setup started s
      have hcurrent := (hA.trans (extends_of_gives hrun)).current
      rw [List.getElem?_cons_succ, ih hi, hcurrent.notified, notices_append, hnotices,
        Nat.exists_lt_succ_left]
      simp [or_assoc]

end Considers

/-- The handlers of a play that has been drained are executed as they are notified. -/
theorem runHandlers_ok (hhost : setup.host.Honest) {log : PlayLog} {st : PlayState}
    (hdrained : log.Drained setup.host st) {started b : Bool} {s v : RunState σ}
    (hrun : (runHandlers setup started st).run.run s = (.ok b, v)) :
    ∃ (r : PlayRun) (u : RunState σ),
      (r.play = log.play ∧ r.tasks = log.tasks ∧ r.drained = log.drained ∧ r.AsNotified) ∧
      Considers setup started { s with current := st } r.play.handlers r.marks b u ∧
      (drain setup).Gives u () r.late v := by
  change (st.play.handlers.foldlM (runHandler setup) started >>= fun started =>
    drain setup >>= fun _ => pure started).run.run { s with current := st } = (.ok b, v) at hrun
  obtain ⟨b', u, hhandlers, hrest⟩ := run_bind_ok hrun
  obtain ⟨_, w, hdrain, hend⟩ := run_bind_ok hrest
  cases hend
  rw [hdrained.play] at hhandlers
  obtain ⟨marks, hmarks⟩ := considers_of_run hhandlers
  obtain ⟨L, hL⟩ := hmarks.extend
  obtain ⟨ds, hds, -, hsettled⟩ := hL.current.deferred
  have hdeferred : u.current.deferred = ds := by
    rw [hds]
    exact congrArg (· ++ ds) hdrained.deferred
  obtain ⟨late, whole, -, hawaits⟩ := drain_ends u (hdeferred ▸ hsettled)
  rw [hdrain] at hawaits
  refine ⟨⟨log.play, log.tasks, log.drained, marks, late⟩, u,
    ⟨rfl, rfl, rfl, hmarks.length_eq, fun i h hi => ?_⟩, hmarks, hdrain, hawaits.grows.events⟩
  exact (hmarks.executes_iff hi).trans (or_congr_left (hdrained.notified hhost h.name))

theorem handlersRun_of_run (hhost : setup.host.Honest) {logs : List PlayLog} {sts : List PlayState}
    (h : List.Forall₂ (fun log st => log.Sound ∧ log.Drained setup.host st) logs sts)
    {started b : Bool} {s v : RunState σ}
    (hrun : (sts.foldlM (runHandlers setup) started).run.run s = (.ok b, v)) :
    ∃ runs, List.Forall₂ (fun log r => r.play = log.play ∧ r.tasks = log.tasks ∧
        r.drained = log.drained ∧ PlayRun.AsNotified r) logs runs ∧
      HandlersRun setup started s sts runs b v := by
  induction h generalizing started s with
  | nil =>
    cases hrun
    exact ⟨[], .nil, .nil _ _⟩
  | cons hlog _ ih =>
    rw [List.foldlM_cons] at hrun
    obtain ⟨b', w, hfirst, hrest⟩ := run_bind_ok hrun
    obtain ⟨r, u, hr, hconsiders, hdrain⟩ := runHandlers_ok hhost hlog.2 hfirst
    obtain ⟨runs, hruns, hplays⟩ := ih hrest
    exact ⟨r :: runs, .cons hr hruns, .cons hconsiders hdrain hplays⟩

/-- A run that ends well, phase by phase, with what it ran in each play. -/
structure Execution (setup : Setup σ) (book : Playbook) (world : World σ) (runs : List PlayRun) :
    Prop where
  plays : runs.map PlayRun.play = book.plays
  phases : ∃ (played drained : List PlayState) (s₁ s₂ s₃ : RunState σ) (started : Bool),
    InTurn (runPlay setup) ((RunState.initial world).push .startTasks) book.plays played
      (runs.map PlayRun.tasks) s₁ ∧
    InTurn (drainPlay setup) (s₁.push .finishTasks) played drained (runs.map PlayRun.drained) s₂ ∧
    HandlersRun setup false s₂ drained runs started s₃ ∧
    (run setup book world).events = s₃.events.toList ++
      (if started then [.finishHandlers] else []) ++ [.finishAll, .ended none]

theorem runPhases_ok {setup : Setup σ} {book : Playbook} {world : World σ}
    (herror : (run setup book world).error = none)
    (hdepth : (run setup book world).tooDeep = false) :
    ∃ v, (runPhases setup book.plays).run.run (RunState.initial world) = (.ok (), v) ∧
      (run setup book world).events = v.events.toList ++ [.ended none] := by
  rcases hrun : (runPhases setup book.plays).run.run (RunState.initial world) with ⟨o, v⟩
  unfold RunState.initial at hrun
  rcases o with (e | _) | ⟨⟩
  · simp only [run, hrun, reduceCtorEq] at herror
  · simp only [run, hrun, reduceCtorEq] at hdepth
  · exact ⟨v, rfl, by simp only [run, hrun]⟩

/-- Surroundings in which the command `touch` always changes something. -/
def touching : Setup Unit where
  host :=
    { baseDir := ""
      pathExists := fun _ _ => false
      runProcess := fun _ _ s => (.notStarted "", s)
      runExternal := fun _ _ _ s => (.ok .ofChange, s) }
  registry := Registry.withExternal [] "touch"
  root := []

/-- A deferred task notifies the second of three handlers, which notifies the third. -/
def chained : Playbook where
  plays := [{
    name := "p"
    tasks := [{ name := "t", command := "touch", isAsync := true, notify := ["b"] }]
    handlers := [{ name := "a", command := "touch" },
      { name := "b", command := "touch", notify := ["c"] }, { name := "c", command := "touch" }] }]

theorem honest_touching : touching.host.Honest := by
  rintro t name params state result ⟨⟩
  rfl

example : (run touching chained { host := () }).events.filterMap (fun
    | .startTask t _ _ _ => some t.name
    | _ => none) = ["t", "b", "c"] := by cbv

end Runner

end PlaybookRunner
